import EdonPlatform.Federation.Store

/- The tree of scopes. In every store the calls lead to, the parent of a scope is there and
   ranks strictly above it (`hierarchy_next`), so the walk from a scope to its root reads at
   most as many rows as there are ranks (`ancestorIds_depth`). -/
namespace Edon.Federation

/-- Every parent is there and ranks above its child. -/
def Hierarchy (db : FederationDb) : Prop :=
  ∀ r ∈ db.scopes.rows, ∀ p, r.parentScopeId = some p → ∃ parent,
    db.scopes.get (r.tenantId.1, p.1) = some parent ∧ parent.scopeType.rank < r.scopeType.rank

theorem hierarchy_empty : Hierarchy ∅ := by
  intro r hr
  cases hr

section
variable {I : Interpreter} {db db' : FederationDb}

theorem openEscalation_frame (args : EscalationArgs) (now : String) :
    (openEscalation I args now db).2.scopes = db.scopes ∧
      (openEscalation I args now db).2.projections = db.projections ∧
      (openEscalation I args now db).2.routes = db.routes := by
  unfold openEscalation
  split
  · exact ⟨rfl, rfl, rfl⟩
  · next row db₁ hinsert =>
    obtain ⟨_, _, hinsert⟩ := bind_ok.mp hinsert
    obtain ⟨_, _, hinsert⟩ := bind_ok.mp hinsert
    cases hinsert
    dsimp only
    split
    · exact ⟨rfl, rfl, rfl⟩
    · next event db₂ hevent =>
      rw [recordEscalationEvent_ok hevent]
      exact ⟨rfl, rfl, rfl⟩

theorem insertRoute_ok {route : Route} {row : RouteRow}
    (h : insertRoute I route db = .ok (row, db')) : row.toRoute = route ∧
      ∃ routes, db.routes.insert row = some routes ∧ db' = { db with routes } := by
  obtain ⟨routes, hinsert, h⟩ := bind_ok.mp h
  cases h
  exact ⟨rfl, routes, insertRow_ok.mp hinsert, rfl⟩

/-- What a call of `route_decision` does: nothing, or it stores its route and then, if the
route escalates, opens the escalation. -/
theorem routeDecision_cases (args : RouteArgs) (now : String) :
    (routeDecision I args now db).2 = db ∧
        (∀ route, routeOf I db args now = .ok route → ∃ e, insertRoute I route db = .error e) ∨
      ∃ route row routes, routeOf I db args now = .ok route ∧ row.toRoute = route ∧
        db.routes.insert row = some routes ∧
        (routeDecision I args now db).2 =
          if row.disposition = .escalate then
            (openEscalation I (args.escalation route) now { db with routes }).2
          else { db with routes } := by
  unfold routeDecision
  split
  · next e herror =>
    refine .inl ⟨rfl, fun route hroute => ?_⟩
    rcases Fallible.bind_error.mp herror with hfail | ⟨route', hroute', hinsert⟩
    · cases hroute.symm.trans hfail
    · cases hroute.symm.trans hroute'
      exact ⟨e, hinsert⟩
  · next row db₁ hok =>
    obtain ⟨route, hroute, hinsert⟩ := bind_ok.mp hok
    obtain ⟨hrow, routes, htable, rfl⟩ := insertRoute_ok hinsert
    refine .inr ⟨route, row, routes, hroute, hrow, htable, ?_⟩
    subst hrow
    by_cases hescalate : row.disposition = .escalate
    · rw [if_pos hescalate, if_pos hescalate]
      split <;> next hopen => rw [hopen]
    · rw [if_neg hescalate, if_neg hescalate]

theorem routeDecision_frame (args : RouteArgs) (now : String) :
    (routeDecision I args now db).2.scopes = db.scopes ∧
      (routeDecision I args now db).2.projections = db.projections := by
  rcases @routeDecision_cases I db args now with ⟨h, -⟩ |
    ⟨route, row, routes, -, -, -, h⟩
  · rw [h]
    exact ⟨rfl, rfl⟩
  · rw [h]
    split
    · obtain ⟨hscopes, hprojections, -⟩ :=
        @openEscalation_frame I { db with routes } (args.escalation route) now
      exact ⟨hscopes, hprojections⟩
    · exact ⟨rfl, rfl⟩

/-- A committed transaction of a property that a failed one keeps. -/
theorem committed_of_ok {α : Type} {P : FederationDb → Prop}
    {result : Except PyError (α × FederationDb)} (hsame : P db)
    (hok : ∀ a db', result = .ok (a, db') → P db') : P (committed db result) := by
  cases result with
  | error e => exact hsame
  | ok r => exact hok r.1 r.2 rfl

theorem hierarchy_next {call : Call} (h : Hierarchy db) : Hierarchy (next I db call) := by
  have hkeep : ∀ db' : FederationDb, db'.scopes = db.scopes → Hierarchy db' := by
    intro db' hscopes
    unfold Hierarchy
    rw [hscopes]
    exact h
  cases call with
  | registerScope args now =>
    rw [next]
    refine committed_of_ok h ?_
    intro row db' hok
    obtain ⟨hparent, scopes, hinsert, rfl⟩ := registerScope_ok hok
    have hget := Table.get_insert hinsert
    intro r hr p hp
    have hold : ∃ parent, db.scopes.get (r.tenantId.1, p.1) = some parent ∧
        parent.scopeType.rank < r.scopeType.rank := by
      rcases (Table.mem_insert hinsert).mp hr with hr | hr
      · exact h r hr p hp
      · rw [hr] at hp ⊢
        exact hparent p hp
    obtain ⟨parent, hfound, hrank⟩ := hold
    refine ⟨parent, ?_, hrank⟩
    have hne : row.key ≠ (r.tenantId.1, p.1) := by
      intro hkey
      rw [← hkey, (Table.rows_insert hinsert).2] at hfound
      cases hfound
    rw [show scopes.get (r.tenantId.1, p.1) = _ from hget _, if_neg hne]
    exact hfound
  | projectWorld worlds tenantId scopeId projectionId targetScopeId createdAt now =>
    rw [next]
    refine committed_of_ok h fun row db' hok => hkeep db' ?_
    obtain ⟨-, _, -, rfl⟩ := projectWorld_ok hok
    rfl
  | aggregateScope tenantId targetScopeId projectionId sourceScopeIds publishTo createdAt now =>
    rw [next]
    refine committed_of_ok h fun row db' hok => hkeep db' ?_
    obtain ⟨-, _, -, rfl⟩ := aggregateScope_ok hok
    rfl
  | routeDecision args now =>
    rw [next]
    exact hkeep _ (routeDecision_frame args now).1
  | openEscalation args now =>
    rw [next]
    exact hkeep _ (openEscalation_frame args now).1
  | recordEscalationEvent tenantId escalationId eventType actorId note createdAt now =>
    rw [next]
    refine committed_of_ok h fun event db' hok => hkeep db' ?_
    rw [recordEscalationEvent_ok hok]

/-- Reading more rows than the scope's rank allows changes nothing. -/
theorem ancestorIds_bound (h : Hierarchy db) {tenantId scopeId : String} {row : ScopeRow}
    (hrow : db.scopes.get (tenantId, scopeId) = some row) {n m : Nat}
    (hn : row.scopeType.rank < n) (hm : row.scopeType.rank < m) :
    ancestorIds db tenantId n scopeId = ancestorIds db tenantId m scopeId := by
  induction n generalizing m scopeId row with
  | zero => omega
  | succ n ih =>
    cases m with
    | zero => omega
    | succ m =>
      rw [ancestorIds, ancestorIds, getScope, hrow]
      dsimp only [orRaise, bind, Except.bind]
      cases hparent : row.parentScopeId with
      | none => rfl
      | some p =>
        obtain ⟨parent, hfound, hrank⟩ := h row (Table.mem_of_get hrow) p hparent
        have htenant : row.tenantId.1 = tenantId := congrArg Prod.fst (Table.get_key hrow)
        rw [htenant] at hfound
        dsimp only
        rw [ih hfound (by omega) (by omega : parent.scopeType.rank < m)]

/-- **The walk to the root ends**: the bound on the rows it reads makes no difference. -/
theorem ancestorIds_depth (h : Hierarchy db) (tenantId scopeId : String) {n : Nat}
    (hn : depth ≤ n) : ancestorIds db tenantId n scopeId =
      ancestorIds db tenantId depth scopeId := by
  cases hrow : db.scopes.get (tenantId, scopeId) with
  | some row =>
    have hrank : row.scopeType.rank < depth := by
      cases row.scopeType <;> decide
    exact ancestorIds_bound h hrow (Nat.lt_of_lt_of_le hrank hn) hrank
  | none =>
    have hmissing : ∀ k, ancestorIds db tenantId k scopeId =
        .error (federationError "scope not found") := by
      intro k
      cases k with
      | zero => rfl
      | succ k => rw [ancestorIds, getScope, hrow]; rfl
    rw [hmissing, hmissing]

end

end Edon.Federation
