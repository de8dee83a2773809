import EdonPlatform.Federation.Hierarchy
import EdonPlatform.Lib.Ancestry

/- Routing along the tree of scopes.

   What is proved, of every store the calls lead to:
     1. `scopeTree_exec` — the scopes of a tenant form a tree with a single root, whose ranks rise
        strictly along its edges.
     2. `leastCommonAncestor_least` — the least common ancestor of scopes is an ancestor of each and
        below every other common ancestor, whatever the order they are listed in.
     3. `covered_exec` — the target of a stored route is an ancestor of its source, of the scopes it
        has consequences in and of the authority it requires.
   `federation_routing` has the three.

   The walk `_ancestor_ids` makes is a line of ancestors (`ancestorIds_line`), which
   makes 2 the theorem of the library about lines; for 3 the target only moves up from the least
   common ancestor, and scopes are only added. -/
namespace Edon.Federation
open Ancestry Transition

/-- The parent of a scope of a tenant. -/
def parentOf (db : FederationDb) (tenantId : String) (scopeId : Identifier) : Option Identifier :=
  (db.scopes.get (tenantId, scopeId.1)).bind ScopeRow.parentScopeId

/-- The scopes of a tenant form a tree. -/
structure ScopeTree (db : FederationDb) (tenantId : String) : Prop where
  edges : ∀ s ∈ db.scopes.rows, s.tenantId.1 = tenantId → ∀ p, s.parentScopeId = some p →
    ∃ r ∈ db.scopes.rows, r.tenantId.1 = tenantId ∧ r.scopeId = p ∧
      r.scopeType.rank < s.scopeType.rank
  root : ∀ s ∈ db.scopes.rows, s.tenantId.1 = tenantId →
    ∃ r ∈ db.scopes.rows, r.tenantId.1 = tenantId ∧ r.parentScopeId = none ∧
      Ancestor (parentOf db tenantId) r.scopeId s.scopeId
  single : ∀ r ∈ db.scopes.rows, ∀ s ∈ db.scopes.rows, r.tenantId.1 = tenantId →
    s.tenantId.1 = tenantId → r.parentScopeId = none → s.parentScopeId = none → r = s

/-- No tenant has two roots. -/
def OneRoot (db : FederationDb) : Prop :=
  ∀ r ∈ db.scopes.rows, ∀ s ∈ db.scopes.rows, r.tenantId = s.tenantId →
    r.parentScopeId = none → s.parentScopeId = none → r = s

/-- The target of a route is an ancestor of all it concerns. -/
structure Covers (db : FederationDb) (r : Route) : Prop where
  source : Ancestor (parentOf db r.tenantId.1) r.targetScopeId r.sourceScopeId
  consequences : ∀ c ∈ r.consequenceScopeIds,
    Ancestor (parentOf db r.tenantId.1) r.targetScopeId c
  authority : ∀ a, r.requiredAuthorityScopeId = some a →
    Ancestor (parentOf db r.tenantId.1) r.targetScopeId a

/-! ## What a call does to the scopes and routes -/

section
variable {I : Interpreter} {db db' : FederationDb}

/-- A new scope, with the check of its place. -/
theorem registerScope_place {args : ScopeArgs} {now : String} {row : ScopeRow}
    (h : registerScope I args now db = .ok (row, db')) :
    ∃ u, checkParent db row.tenantId row.scopeType row.parentScopeId = .ok u := by
  obtain ⟨_, _, h⟩ := bind_ok.mp h
  obtain ⟨_, _, h⟩ := bind_ok.mp h
  obtain ⟨_, _, h⟩ := bind_ok.mp h
  obtain ⟨_, _, h⟩ := bind_ok.mp h
  obtain ⟨_, _, h⟩ := bind_ok.mp h
  obtain ⟨_, _, h⟩ := bind_ok.mp h
  obtain ⟨_, _, h⟩ := bind_ok.mp h
  obtain ⟨_, _, h⟩ := bind_ok.mp h
  obtain ⟨_, _, h⟩ := bind_ok.mp h
  obtain ⟨_, _, h⟩ := bind_ok.mp h
  obtain ⟨u, hparent, h⟩ := bind_ok.mp h
  obtain ⟨_, _, h⟩ := bind_ok.mp h
  obtain ⟨_, _, h⟩ := bind_ok.mp h
  obtain ⟨_, _, h⟩ := bind_ok.mp h
  obtain ⟨_, _, h⟩ := bind_ok.mp h
  cases h
  exact ⟨u, hparent⟩

theorem checkParent_root {tenantId : Identifier} {scopeType : ScopeType} {u : Unit}
    (h : checkParent db tenantId scopeType none = .ok u) :
    ∀ r ∈ db.scopes.rows, r.tenantId = tenantId → r.parentScopeId ≠ none := by
  intro r hr htenant hroot
  have hnone := require_ok.mp h
  rw [Bool.not_eq_true', List.any_eq_false] at hnone
  exact hnone r hr (by simp [htenant, hroot])

/-- A call leaves the scopes, or adds one whose place was checked. -/
theorem scopes_next (call : Call) : (next I db call).scopes = db.scopes ∨
    ∃ row, db.scopes.insert row = some (next I db call).scopes ∧
      ∃ u, checkParent db row.tenantId row.scopeType row.parentScopeId = .ok u := by
  cases call with
  | registerScope args now =>
    rw [next]
    refine committed_of_ok (P := fun db' => db'.scopes = db.scopes ∨
      ∃ row, db.scopes.insert row = some db'.scopes ∧
        ∃ u, checkParent db row.tenantId row.scopeType row.parentScopeId = .ok u) (.inl rfl) ?_
    intro row db' hok
    have hplace := registerScope_place hok
    obtain ⟨_, scopes, hinsert, rfl⟩ := registerScope_ok hok
    exact .inr ⟨row, hinsert, hplace⟩
  | projectWorld worlds tenantId scopeId projectionId targetScopeId createdAt now =>
    refine .inl ?_
    rw [next]
    refine committed_of_ok (P := fun db' => db'.scopes = db.scopes) rfl fun row db' hok => ?_
    obtain ⟨-, _, -, rfl⟩ := projectWorld_ok hok
    rfl
  | aggregateScope tenantId targetScopeId projectionId sourceScopeIds publishTo createdAt now =>
    refine .inl ?_
    rw [next]
    refine committed_of_ok (P := fun db' => db'.scopes = db.scopes) rfl fun row db' hok => ?_
    obtain ⟨-, _, -, rfl⟩ := aggregateScope_ok hok
    rfl
  | routeDecision args now =>
    rw [next]
    exact .inl (routeDecision_frame args now).1
  | openEscalation args now =>
    rw [next]
    exact .inl (openEscalation_frame args now).1
  | recordEscalationEvent tenantId escalationId eventType actorId note createdAt now =>
    refine .inl ?_
    rw [next]
    refine committed_of_ok (P := fun db' => db'.scopes = db.scopes) rfl fun event db' hok => ?_
    rw [recordEscalationEvent_ok hok]

/-- A route of the store after a call was there before, or is the one the call computed. -/
theorem routes_next (call : Call) : ∀ r ∈ (next I db call).routes.rows,
    r ∈ db.routes.rows ∨ ∃ args now, routeOf I db args now = .ok r.toRoute := by
  have hsame : ∀ db' : FederationDb, db'.routes = db.routes →
      ∀ r ∈ db'.routes.rows, r ∈ db.routes.rows ∨ ∃ args now, routeOf I db args now = .ok r.toRoute :=
    fun db' h r hr => .inl (h ▸ hr)
  cases call with
  | registerScope args now =>
    refine hsame _ ?_
    rw [next]
    refine committed_of_ok (P := fun db' => db'.routes = db.routes) rfl fun row db' hok => ?_
    obtain ⟨_, _, _, rfl⟩ := registerScope_ok hok
    rfl
  | projectWorld worlds tenantId scopeId projectionId targetScopeId createdAt now =>
    refine hsame _ ?_
    rw [next]
    refine committed_of_ok (P := fun db' => db'.routes = db.routes) rfl fun row db' hok => ?_
    obtain ⟨-, _, -, rfl⟩ := projectWorld_ok hok
    rfl
  | aggregateScope tenantId targetScopeId projectionId sourceScopeIds publishTo createdAt now =>
    refine hsame _ ?_
    rw [next]
    refine committed_of_ok (P := fun db' => db'.routes = db.routes) rfl fun row db' hok => ?_
    obtain ⟨-, _, -, rfl⟩ := aggregateScope_ok hok
    rfl
  | openEscalation args now =>
    rw [next]
    exact hsame _ (openEscalation_frame args now).2.2
  | recordEscalationEvent tenantId escalationId eventType actorId note createdAt now =>
    refine hsame _ ?_
    rw [next]
    refine committed_of_ok (P := fun db' => db'.routes = db.routes) rfl fun event db' hok => ?_
    rw [recordEscalationEvent_ok hok]
  | routeDecision args now =>
    rw [next]
    rcases @routeDecision_cases I db args now with ⟨h, -⟩ |
      ⟨route, row, routes, hroute, hrow, hinsert, h⟩
    · rw [h]
      exact hsame db rfl
    · have hroutes : (routeDecision I args now db).2.routes = routes := by
        rw [h]
        split
        · exact (openEscalation_frame ..).2.2
        · rfl
      rw [hroutes]
      intro r hr
      rcases (Table.mem_insert hinsert).mp hr with hr | rfl
      · exact .inl hr
      · exact .inr ⟨args, now, by rw [hroute, hrow]⟩

/-! ## The tree -/

theorem get_of_row {row : ScopeRow} (hrow : row ∈ db.scopes.rows) :
    db.scopes.get (row.tenantId.1, row.scopeId.1) = some row :=
  Table.get_of_mem hrow

/-- The row found under a key is the scope's. -/
theorem scope_of_get {tenantId : String} {s : Identifier} {row : ScopeRow}
    (h : db.scopes.get (tenantId, s.1) = some row) :
    row ∈ db.scopes.rows ∧ row.tenantId.1 = tenantId ∧ row.scopeId = s := by
  have hkey := Table.get_key h
  exact ⟨Table.mem_of_get h, congrArg Prod.fst hkey, Subtype.ext (congrArg Prod.snd hkey)⟩

theorem oneRoot_next {call : Call} (h : OneRoot db) : OneRoot (next I db call) := by
  unfold OneRoot
  rcases @scopes_next I db call with hsame | ⟨row, hinsert, u, hplace⟩
  · rw [hsame]
    exact h
  · have hfresh : ∀ r ∈ db.scopes.rows, r.tenantId = row.tenantId → row.parentScopeId = none →
        r.parentScopeId ≠ none := by
      intro r hr htenant hroot
      rw [hroot] at hplace
      exact checkParent_root hplace r hr htenant
    intro r hr s hs htenant hrroot hsroot
    rcases (Table.mem_insert hinsert).mp hr with hr | rfl <;>
      rcases (Table.mem_insert hinsert).mp hs with hs | rfl
    · exact h r hr s hs htenant hrroot hsroot
    · exact absurd hrroot (hfresh r hr htenant hsroot)
    · exact absurd hsroot (hfresh s hs htenant.symm hrroot)
    · rfl

/-- Scopes keep their parents. -/
theorem parentOf_next {tenantId : String} (call : Call) (s p : Identifier)
    (h : parentOf db tenantId s = some p) : parentOf (next I db call) tenantId s = some p := by
  rcases @scopes_next I db call with hsame | ⟨row, hinsert, _⟩
  · unfold parentOf at h ⊢
    rw [hsame]
    exact h
  · obtain ⟨scope, hscope, hparent⟩ := Option.bind_eq_some_iff.mp h
    have hne : row.key ≠ (tenantId, s.1) := by
      intro hkey
      rw [← hkey, (Table.rows_insert hinsert).2] at hscope
      cases hscope
    refine Option.bind_eq_some_iff.mpr ⟨scope, ?_, hparent⟩
    rw [Table.get_insert hinsert, if_neg hne]
    exact hscope

/-- A rank that falls from child to parent. -/
def rankOf (db : FederationDb) (tenantId : String) (s : Identifier) : Nat :=
  (db.scopes.get (tenantId, s.1)).elim 0 fun row => row.scopeType.rank + 1

theorem rankOf_lt (h : Hierarchy db) {tenantId : String} (s p : Identifier)
    (hp : parentOf db tenantId s = some p) : rankOf db tenantId p < rankOf db tenantId s := by
  obtain ⟨row, hrow, hparent⟩ := Option.bind_eq_some_iff.mp hp
  obtain ⟨hmem, htenant, -⟩ := scope_of_get hrow
  obtain ⟨parent, hfound, hrank⟩ := h row hmem p hparent
  rw [htenant] at hfound
  unfold rankOf
  rw [hfound, hrow]
  exact Nat.succ_lt_succ hrank

theorem scopeTree_of (h : Hierarchy db) (hroot : OneRoot db) (tenantId : String) :
    ScopeTree db tenantId where
  edges s hs htenant p hp := by
    obtain ⟨parent, hfound, hrank⟩ := h s hs p hp
    obtain ⟨hmem, hsame, hid⟩ := scope_of_get hfound
    exact ⟨parent, hmem, hsame.trans htenant, hid, hrank⟩
  root s hs htenant := by
    -- upwards, by induction on the rank
    induction hn : s.scopeType.rank using Nat.strong_induction_on generalizing s with
    | _ n ih =>
      cases hp : s.parentScopeId with
      | none => exact ⟨s, hs, htenant, hp, .refl _⟩
      | some p =>
        obtain ⟨parent, hfound, hrank⟩ := h s hs p hp
        obtain ⟨hmem, hsame, hid⟩ := scope_of_get hfound
        obtain ⟨r, hr, hrtenant, hrroot, habove⟩ :=
          ih _ (hn ▸ hrank) parent hmem (hsame.trans htenant) rfl
        refine ⟨r, hr, hrtenant, hrroot, habove.trans ?_⟩
        rw [hid]
        refine .of_parent (Option.bind_eq_some_iff.mpr ⟨s, ?_, hp⟩)
        exact htenant ▸ get_of_row hs
  single r hr s hs hrtenant hstenant := by
    exact hroot r hr s hs (Subtype.ext (hrtenant.trans hstenant.symm))

/-! ## The least common ancestor -/

theorem ancestorIds_line {tenantId : String} {n : Nat} {s : Identifier} {path : List Identifier}
    (h : ancestorIds db tenantId n s.1 = .ok path) : Line (parentOf db tenantId) s path := by
  induction n generalizing s path with
  | zero => cases h
  | succ n ih =>
    obtain ⟨row, hrow, h⟩ := bind_ok.mp h
    have hrow := orRaise_ok.mp hrow
    obtain ⟨-, -, hid⟩ := scope_of_get hrow
    cases hp : row.parentScopeId with
    | none =>
      rw [hp] at h
      cases h
      rw [hid]
      exact .root (by rw [parentOf, hrow, Option.bind_some, hp])
    | some p =>
      rw [hp] at h
      obtain ⟨above, habove, h⟩ := bind_ok.mp h
      cases h
      rw [hid]
      exact .cons (by rw [parentOf, hrow, Option.bind_some, hp]) (ih habove)

/-- The walk from a scope of the store ends. -/
theorem ancestorIds_succeeds (h : Hierarchy db) {tenantId : String} {s : Identifier}
    {row : ScopeRow} (hrow : db.scopes.get (tenantId, s.1) = some row) {n : Nat}
    (hn : row.scopeType.rank < n) : ∃ path, ancestorIds db tenantId n s.1 = .ok path := by
  induction n generalizing s row with
  | zero => omega
  | succ n ih =>
    obtain ⟨hmem, htenant, -⟩ := scope_of_get hrow
    rw [ancestorIds, getScope, hrow]
    dsimp only [orRaise, bind, Except.bind]
    cases hp : row.parentScopeId with
    | none => exact ⟨_, rfl⟩
    | some p =>
      obtain ⟨parent, hfound, hrank⟩ := h row hmem p hp
      rw [htenant] at hfound
      obtain ⟨path, hpath⟩ := ih hfound (by omega)
      dsimp only
      rw [hpath]
      exact ⟨_, rfl⟩

theorem identifiers_texts (ids : List Identifier) (label : String) :
    (ids.map Subtype.val).mapM (fun value => toIdentifier value label) = .ok ids := by
  induction ids with
  | nil => rfl
  | cons i ids ih =>
    rw [List.map_cons, List.mapM_cons, toIdentifier_text, ih]
    rfl

theorem lines_of_mapM {tenantId : String} {n : Nat} {ids : List Identifier}
    {paths : List (List Identifier)}
    (h : ids.mapM (fun s => ancestorIds db tenantId n s.1) = .ok paths) :
    List.Forall₂ (Line (parentOf db tenantId)) ids paths := by
  induction ids generalizing paths with
  | nil =>
    cases h
    exact .nil
  | cons s ids ih =>
    rw [List.mapM_cons] at h
    obtain ⟨path, hpath, h⟩ := bind_ok.mp h
    obtain ⟨rest, hrest, h⟩ := bind_ok.mp h
    cases h
    exact .cons (ancestorIds_line hpath) (ih hrest)

/-- What the search returns is least among the common ancestors. -/
theorem leastCommonAncestor_ok {tenantId : String} {ids : List Identifier} {a : Identifier}
    (h : leastCommonAncestor db tenantId (ids.map Subtype.val) = .ok a) :
    Least (parentOf db tenantId) a ids := by
  obtain ⟨normalized, hnormalized, h⟩ := bind_ok.mp h
  rw [identifiers_texts] at hnormalized
  cases hnormalized
  obtain ⟨paths, hpaths, h⟩ := bind_ok.mp h
  cases lines_of_mapM hpaths with
  | nil => cases h
  | cons hfirst hrest => exact least_of_find hfirst hrest (orRaise_ok.mp h)

/-- **The least common ancestor of scopes**, whatever their order. -/
theorem leastCommonAncestor_least (h : Hierarchy db) (hroot : OneRoot db) {tenantId : String}
    {ids : List Identifier} (hne : ids ≠ [])
    (hids : ∀ s ∈ ids, ∃ row, db.scopes.get (tenantId, s.1) = some row) :
    ∃ a, Least (parentOf db tenantId) a ids ∧ ∀ l : List Identifier, l.Perm ids →
      leastCommonAncestor db tenantId (l.map Subtype.val) = .ok a := by
  -- every list of the same scopes has a result
  have hfound : ∀ l : List Identifier, l.Perm ids →
      ∃ a, leastCommonAncestor db tenantId (l.map Subtype.val) = .ok a := by
    intro l hperm
    have hsucceeds : ∀ s ∈ l, ∃ path, ancestorIds db tenantId depth s.1 = .ok path := by
      intro s hs
      obtain ⟨row, hrow⟩ := hids s (hperm.mem_iff.mp hs)
      have hrank : row.scopeType.rank < depth := by
        cases row.scopeType <;> decide
      exact ancestorIds_succeeds h hrow hrank
    obtain ⟨paths, hpaths⟩ := Fallible.mapM_succeeds hsucceeds
    unfold leastCommonAncestor
    rw [identifiers_texts]
    show ∃ a, (l.mapM fun s => ancestorIds db tenantId depth s.1) >>= _ = Except.ok a
    rw [hpaths]
    cases lines_of_mapM hpaths with
    | nil => exact absurd hperm.symm.eq_nil hne
    | @cons s path scopes rest hfirst hrest =>
      -- the root of the tenant is a common ancestor
      obtain ⟨srow, hsrow⟩ := hids s (hperm.mem_iff.mp List.mem_cons_self)
      have htree := scopeTree_of h hroot tenantId
      obtain ⟨r, hr, hrtenant, hrroot, -⟩ :=
        htree.root srow (scope_of_get hsrow).1 (scope_of_get hsrow).2.1
      have hcommon : ∀ x ∈ s :: scopes, Ancestor (parentOf db tenantId) r.scopeId x := by
        intro x hx
        obtain ⟨row, hrow⟩ := hids x (hperm.mem_iff.mp hx)
        obtain ⟨hmem, htenant, hid⟩ := scope_of_get hrow
        obtain ⟨r', hr', hrtenant', hrroot', habove⟩ := htree.root row hmem htenant
        rw [htree.single r hr r' hr' hrtenant hrtenant' hrroot hrroot', ← hid]
        exact habove
      obtain ⟨a, ha⟩ := find_of_common hfirst hrest hcommon
      exact ⟨a, orRaise_ok.mpr ha⟩
  obtain ⟨a, ha⟩ := hfound ids (.refl ids)
  have hleast := leastCommonAncestor_ok ha
  refine ⟨a, hleast, fun l hperm => ?_⟩
  obtain ⟨b, hb⟩ := hfound l hperm
  rw [hb, least_unique (rankOf_lt h) (leastCommonAncestor_ok hb) hleast fun x => hperm.mem_iff]

/-! ## Routes -/

/-- Where the target of a route is put: a common ancestor, or the parent of the source where that
is the source itself. -/
theorem ancestor_target {tenantId : String} {source common x : Identifier} {row : ScopeRow}
    (hrow : db.scopes.get (tenantId, source.1) = some row) {p : Prop} [Decidable p]
    (hx : Ancestor (parentOf db tenantId) common x) :
    Ancestor (parentOf db tenantId)
      (if p ∧ common = source then row.parentScopeId.getD common else common) x := by
  split
  · next hcase =>
    cases hparent : row.parentScopeId with
    | none => exact hx
    | some up =>
      have hup : parentOf db tenantId common = some up := by
        rw [hcase.2, parentOf, hrow]
        exact hparent
      exact (Ancestor.of_parent hup).trans hx
  · exact hx

/-- The target of a new route is an ancestor of all it concerns. -/
theorem covers_of_routeOf {args : RouteArgs} {now : String} {route : Route}
    (h : routeOf I db args now = .ok route) : Covers db route := by
  obtain ⟨tenantId, _, h⟩ := bind_ok.mp h
  obtain ⟨decisionId, _, h⟩ := bind_ok.mp h
  obtain ⟨source, _, h⟩ := bind_ok.mp h
  obtain ⟨_, _, h⟩ := bind_ok.mp h
  obtain ⟨consequences, _, h⟩ := bind_ok.mp h
  obtain ⟨target, htarget, h⟩ := bind_ok.mp h
  obtain ⟨_, _, h⟩ := bind_ok.mp h
  obtain ⟨_, _, h⟩ := bind_ok.mp h
  obtain ⟨_, _, h⟩ := bind_ok.mp h
  obtain ⟨_, _, h⟩ := bind_ok.mp h
  obtain ⟨authority, _, h⟩ := bind_ok.mp h
  have hleast := @leastCommonAncestor_ok db tenantId.1 (source :: consequences) target htarget
  have hconsequences := List.forall_mem_cons.mp hleast.common
  cases authority with
  | none =>
    obtain ⟨_, hcommon, h⟩ := bind_ok.mp h
    cases hcommon
    obtain ⟨row, hrow, h⟩ := bind_ok.mp h
    have hrow := orRaise_ok.mp hrow
    cases h
    exact ⟨ancestor_target hrow hconsequences.1,
      fun c hc => ancestor_target hrow (hconsequences.2 c hc), nofun⟩
  | some a =>
    obtain ⟨_, _, h⟩ := bind_ok.mp h
    obtain ⟨common, hcommon, h⟩ := bind_ok.mp h
    obtain ⟨row, hrow, h⟩ := bind_ok.mp h
    have hrow := orRaise_ok.mp hrow
    cases h
    -- the common ancestor with the authority is above the one without it
    have hboth := @leastCommonAncestor_ok db tenantId.1 [target, a] common hcommon
    obtain ⟨hupper, hauthority⟩ := List.forall_mem_cons.mp hboth.common
    refine ⟨ancestor_target hrow (hupper.trans hconsequences.1),
      fun c hc => ancestor_target hrow (hupper.trans (hconsequences.2 c hc)), fun b hb => ?_⟩
    cases hb
    exact ancestor_target hrow (hauthority a List.mem_cons_self)

theorem covers_next {call : Call} {r : Route} (h : Covers db r) : Covers (next I db call) r where
  source := h.source.mono (parentOf_next call)
  consequences c hc := (h.consequences c hc).mono (parentOf_next call)
  authority a ha := (h.authority a ha).mono (parentOf_next call)

/-! ## Runs -/

/-- What every call keeps. -/
structure Routed (db : FederationDb) : Prop where
  hierarchy : Hierarchy db
  oneRoot : OneRoot db
  covers : ∀ r ∈ db.routes.rows, Covers db r.toRoute

theorem routed_next {call : Call} (h : Routed db) : Routed (next I db call) where
  hierarchy := hierarchy_next h.hierarchy
  oneRoot := oneRoot_next h.oneRoot
  covers r hr := by
    rcases routes_next call r hr with hr | ⟨args, now, hroute⟩
    · exact covers_next (h.covers r hr)
    · exact covers_next (covers_of_routeOf hroute)

theorem routed_exec (I : Interpreter) (calls : List Call) : Routed (exec (next I) ∅ calls) := by
  apply exec_invariant fun _ _ h => routed_next h
  refine ⟨hierarchy_empty, ?_, ?_⟩
  · intro r hr
    cases hr
  · intro r hr
    cases hr

/-- **Federation routing.** In every store the calls lead to, the scopes of a tenant form a tree,
scopes have a least common ancestor whatever their order, and the target of a route is an ancestor
of its source, of its consequence scopes and of the authority it requires. -/
theorem federation_routing (I : Interpreter) (calls : List Call) :
    (∀ tenantId, ScopeTree (exec (next I) ∅ calls) tenantId) ∧
    (∀ tenantId (ids : List Identifier), ids ≠ [] →
      (∀ s ∈ ids, ∃ row, (exec (next I) ∅ calls).scopes.get (tenantId, s.1) = some row) →
      ∃ a, Least (parentOf (exec (next I) ∅ calls) tenantId) a ids ∧ ∀ l : List Identifier,
        l.Perm ids → leastCommonAncestor (exec (next I) ∅ calls) tenantId (l.map Subtype.val) =
          .ok a) ∧
    ∀ r ∈ (exec (next I) ∅ calls).routes.rows, Covers (exec (next I) ∅ calls) r.toRoute := by
  have h := routed_exec I calls
  exact ⟨scopeTree_of h.hierarchy h.oneRoot,
    fun tenantId ids => leastCommonAncestor_least h.hierarchy h.oneRoot, h.covers⟩

end
/-! ## Two wards -/

def wardScope (scopeId : String) : Call :=
  .registerScope { tenantId := "clinic", scopeId := scopeId, scopeType := "FACILITY", name := "Ward"
                   parentScopeId := some "root" } "2026-01-01T00:00:00+00:00"

/-- A root with two wards below it, and a decision of one with a consequence in the other. -/
def wardCalls : List Call :=
  [.registerScope { tenantId := "clinic", scopeId := "root", scopeType := "GLOBAL", name := "Root" }
     "2026-01-01T00:00:00+00:00",
   wardScope "ward-a", wardScope "ward-b",
   .routeDecision { tenantId := "clinic", decisionId := "decision-1", sourceScopeId := "ward-a"
                    consequenceScopeIds := ["ward-b"], impactScore := .float (.finite (1 / 2))
                    uncertainty := .float (.finite 0), context := .dict [] }
     "2026-01-01T00:01:00+00:00"]

def wardA : Identifier := ⟨"ward-a", by decide +kernel⟩

def wardB : Identifier := ⟨"ward-b", by decide +kernel⟩

theorem federation_routing_sample :
    (∃ a, Least (parentOf (exec (next plainInterpreter) ∅ wardCalls) "clinic") a [wardA, wardB] ∧
      leastCommonAncestor (exec (next plainInterpreter) ∅ wardCalls) "clinic"
        ["ward-b", "ward-a"] = .ok a) ∧
    ∃ r ∈ (exec (next plainInterpreter) ∅ wardCalls).routes.rows,
      Covers (exec (next plainInterpreter) ∅ wardCalls) r.toRoute := by
  obtain ⟨-, hleast, hcovers⟩ := federation_routing plainInterpreter wardCalls
  constructor
  · have hids : ∀ s ∈ [wardA, wardB], ∃ row, (exec (next plainInterpreter) ∅ wardCalls).scopes.get
        ("clinic", s.1) = some row := by
      simp only [← Option.isSome_iff_exists]
      decide +kernel
    obtain ⟨a, ha, hperm⟩ := hleast "clinic" [wardA, wardB] (List.cons_ne_nil _ _) hids
    exact ⟨a, ha, hperm [wardB, wardA] (.swap _ _ _)⟩
  · have hsome : (exec (next plainInterpreter) ∅ wardCalls).routes.rows.isEmpty = false := by
      decide +kernel
    obtain ⟨r, hr⟩ := List.exists_mem_of_ne_nil _ (List.isEmpty_eq_false_iff.mp hsome)
    exact ⟨r, hr, hcovers r hr⟩

end Edon.Federation
