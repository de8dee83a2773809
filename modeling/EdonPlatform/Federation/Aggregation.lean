import EdonPlatform.Federation.Hierarchy
import EdonPlatform.World.Verification
import Mathlib.Algebra.Group.Pi.Basic
import Mathlib.Algebra.Group.Prod
import Mathlib.Algebra.BigOperators.Group.List.Basic

/- What an aggregate adds up. A projection was built from world summaries: one that
   summarizes a world from itself, an aggregate from what the projections of its sources were
   built from (`leaves`). The totals of a projection are the sum over those world summaries, with
   every repetition (`totals_leaves`): the store lets a scope be a source beside one of its
   descendants, or beside an aggregate that has it.

   `countsOnce_iff`: an aggregate counts each world once exactly when the summaries beyond one for
   each world add up to nothing, which is so when no world is reached twice
   (`noneTwice_of_nodup`). -/
namespace Edon.Federation

/-! ## Totals -/

inductive Category where
  | goals | plans | agents | alerts | outcomes
  deriving DecidableEq, Repr

def Counts.category (c : Counts) : Category → Dict String Nat
  | .goals => c.goals
  | .plans => c.plans
  | .agents => c.agents
  | .alerts => c.alerts
  | .outcomes => c.outcomes

/-- The observations, the counts by category and key, and the capacity and the allocated
amount of every resource. -/
abbrev Totals := Nat × (Category → String → Nat) × (String → Rat) × (String → Rat)

def amountAt {α : Type} (amount : α → Rat) (d : Dict String α) (id : String) : Rat :=
  (d.get id).elim 0 amount

def Counts.totals (c : Counts) (capacity allocated : String → Rat) : Totals :=
  (c.observations, fun category key => ((c.category category).get key).getD 0, capacity, allocated)

def Summary.totals (s : Summary) : Totals :=
  s.counts.totals (amountAt Resource.capacity s.resources) (amountAt Resource.allocated s.resources)

def ProjectionRow.totals (r : ProjectionRow) : Totals := r.summary.totals

/-- The sum of the totals of projections. -/
def total (rows : List ProjectionRow) : Totals := (rows.map ProjectionRow.totals).sum

/-- What `aggregate_scope` has added up so far. -/
def sumsTotals (sums : Counts × Dict String Pooled) : Totals :=
  sums.1.totals (amountAt Pooled.capacity sums.2) (amountAt Pooled.allocated sums.2)

/-! ## What a projection was built from -/

/-- The world summaries of a row, given those of the rows before it: the row itself where it
summarizes a world, those of the latest projections of its sources where it adds them up. -/
def leavesFrom (earlier : List (ProjectionRow × List ProjectionRow)) (r : ProjectionRow) :
    List ProjectionRow :=
  match r.summary.origin with
  | .world .. => [r]
  | .scopes sources _ => sources.flatMap fun source =>
      (latestProjection (earlier.map Prod.fst) r.tenantId r.sourceScopeId.1 source.1).elim []
        fun s => (earlier.find? fun e => e.1.key = s.key).elim [] Prod.snd

/-- Every row, in the order they were stored, with the world summaries it was built from. -/
def lineages (rows : List ProjectionRow) : List (ProjectionRow × List ProjectionRow) :=
  rows.foldl (fun earlier r => earlier ++ [(r, leavesFrom earlier r)]) []

/-- The world summaries a stored projection was built from. -/
def leaves (db : FederationDb) (r : ProjectionRow) : List ProjectionRow :=
  ((lineages db.projections.rows).find? fun e => e.1.key = r.key).elim [] Prod.snd

/-- The world a row summarizes. -/
def worldOf (r : ProjectionRow) : Option (String × String) :=
  match r.summary.origin with
  | .world worldId _ _ => some (r.tenantId, worldId)
  | .scopes .. => none

/-- One of the rows for each of their worlds. -/
structure OnePerWorld (chosen rows : List ProjectionRow) : Prop where
  sublist : chosen.Sublist rows
  once : (chosen.map worldOf).Nodup
  all : ∀ r ∈ rows, worldOf r ∈ chosen.map worldOf

/-- The totals of the row are the sum over the distinct worlds it was built from. -/
def CountsOnce (r : ProjectionRow) (rows : List ProjectionRow) : Prop :=
  ∃ chosen, OnePerWorld chosen rows ∧ r.totals = total chosen

/-- The summaries beyond one for each world add up to nothing. -/
def NoneTwice (rows : List ProjectionRow) : Prop :=
  ∃ chosen rest, OnePerWorld chosen rows ∧ rows.Perm (chosen ++ rest) ∧ total rest = 0

theorem lineages_append (rows : List ProjectionRow) (r : ProjectionRow) :
    lineages (rows ++ [r]) = lineages rows ++ [(r, leavesFrom (lineages rows) r)] := by
  unfold lineages
  rw [List.foldl_append]
  rfl

theorem lineages_fst (rows : List ProjectionRow) : (lineages rows).map Prod.fst = rows := by
  induction rows using List.reverseRecOn with
  | nil => rfl
  | append_singleton rows r ih => rw [lineages_append, List.map_append, ih]; rfl

theorem total_append (rows others : List ProjectionRow) :
    total (rows ++ others) = total rows + total others := by
  unfold total
  rw [List.map_append, List.sum_append]

theorem total_observations (rows : List ProjectionRow) :
    (total rows).1 = (rows.map fun r => r.summary.counts.observations).sum := by
  induction rows with
  | nil => rfl
  | cons r rows ih =>
    rw [List.map_cons, List.sum_cons, ← ih]
    rfl

/-! ## The loops of `aggregate_scope` add -/

theorem get_addCounts (c d : Dict String Nat) (key : String) :
    ((addCounts c d).get key).getD 0 = (c.get key).getD 0 + (d.get key).getD 0 := by
  suffices hlist : ∀ (l : List (String × Nat)) (c : Dict String Nat), Assoc.Ascending l →
      ((l.foldl (fun acc e => acc.set e.1 ((acc.get e.1).getD 0 + e.2)) c).get key).getD 0 =
        (c.get key).getD 0 + (Assoc.find l key).getD 0 from hlist d.entries c d.ascending
  intro l
  induction l with
  | nil => exact fun c _ => rfl
  | cons e l ih =>
    intro c hascending
    obtain ⟨hfirst, hrest⟩ := List.pairwise_cons.mp hascending
    rw [List.foldl_cons, ih _ hrest, Dict.get_set, Assoc.find_cons]
    by_cases hkey : e.1 = key
    · subst hkey
      rw [if_pos rfl, if_pos rfl, Assoc.find_eq_none_of_lt hfirst]
      rfl
    · rw [if_neg hkey, if_neg hkey]

theorem totals_add (c d : Counts) (capacity capacity' allocated allocated' : String → Rat) :
    (c.add d).totals (capacity + capacity') (allocated + allocated') =
      c.totals capacity allocated + d.totals capacity' allocated' := by
  refine Prod.ext rfl (Prod.ext ?_ rfl)
  funext category key
  cases category <;> exact get_addCounts _ _ key

/-- One resource of a projection. -/
theorem amountAt_addResource {pools pools' : Dict String Pooled} {e : String × Resource}
    (h : addResource pools e = .ok pools') (id : String) :
    amountAt Pooled.capacity pools' id =
        amountAt Pooled.capacity pools id + (if e.1 = id then e.2.capacity else 0) ∧
      amountAt Pooled.allocated pools' id =
        amountAt Pooled.allocated pools id + (if e.1 = id then e.2.allocated else 0) := by
  obtain ⟨_, _, h⟩ := bind_ok.mp h
  cases h
  unfold amountAt
  rw [Dict.get_set]
  by_cases hid : e.1 = id
  · subst hid
    rw [if_pos rfl, if_pos rfl, if_pos rfl]
    cases pools.get e.1 <;> exact ⟨rfl, rfl⟩
  · rw [if_neg hid, if_neg hid, if_neg hid, add_zero, add_zero]
    exact ⟨rfl, rfl⟩

theorem amountAt_addResources {l : List (String × Resource)} (hl : Assoc.Ascending l)
    {pools pools' : Dict String Pooled} (h : l.foldlM addResource pools = .ok pools')
    (id : String) :
    amountAt Pooled.capacity pools' id = amountAt Pooled.capacity pools id +
        (Assoc.find l id).elim 0 Resource.capacity ∧
      amountAt Pooled.allocated pools' id = amountAt Pooled.allocated pools id +
        (Assoc.find l id).elim 0 Resource.allocated := by
  induction l generalizing pools with
  | nil =>
    cases h
    exact ⟨(add_zero _).symm, (add_zero _).symm⟩
  | cons e l ih =>
    rw [List.foldlM_cons] at h
    obtain ⟨next, hnext, h⟩ := bind_ok.mp h
    obtain ⟨hfirst, hrest⟩ := List.pairwise_cons.mp hl
    obtain ⟨hcapacity, hallocated⟩ := ih hrest h
    obtain ⟨hcapacity', hallocated'⟩ := amountAt_addResource hnext id
    rw [hcapacity, hallocated, hcapacity', hallocated', Assoc.find_cons]
    by_cases hid : e.1 = id
    · subst hid
      rw [if_pos rfl, if_pos rfl, if_pos rfl, Assoc.find_eq_none_of_lt hfirst]
      exact ⟨add_zero _, add_zero _⟩
    · rw [if_neg hid, if_neg hid, if_neg hid, add_zero, add_zero]
      exact ⟨rfl, rfl⟩

theorem sumsTotals_addProjection {sums sums' : Counts × Dict String Pooled} {row : ProjectionRow}
    (h : addProjection sums row = .ok sums') : sumsTotals sums' = sumsTotals sums + row.totals := by
  obtain ⟨pools, hpools, h⟩ := bind_ok.mp h
  cases h
  have hamounts := amountAt_addResources row.summary.resources.ascending hpools
  have hcapacity : amountAt Pooled.capacity pools =
      amountAt Pooled.capacity sums.2 + amountAt Resource.capacity row.summary.resources :=
    funext fun id => (hamounts id).1
  have hallocated : amountAt Pooled.allocated pools =
      amountAt Pooled.allocated sums.2 + amountAt Resource.allocated row.summary.resources :=
    funext fun id => (hamounts id).2
  show (sums.1.add row.summary.counts).totals (amountAt Pooled.capacity pools)
    (amountAt Pooled.allocated pools) = _
  rw [hcapacity, hallocated]
  exact totals_add ..

theorem sumsTotals_addProjections {rows : List ProjectionRow}
    {sums sums' : Counts × Dict String Pooled} (h : rows.foldlM addProjection sums = .ok sums') :
    sumsTotals sums' = sumsTotals sums + total rows := by
  induction rows generalizing sums with
  | nil =>
    cases h
    exact (add_zero _).symm
  | cons row rows ih =>
    rw [List.foldlM_cons] at h
    obtain ⟨next, hnext, h⟩ := bind_ok.mp h
    calc sumsTotals sums'
      _ = sumsTotals next + total rows := ih h
      _ = sumsTotals sums + row.totals + total rows := by rw [sumsTotals_addProjection hnext]
      _ = sumsTotals sums + total (row :: rows) := add_assoc ..

theorem sumsTotals_zero : sumsTotals (Counts.zero, ∅) = 0 := by
  refine Prod.ext rfl (Prod.ext ?_ rfl)
  funext category key
  cases category with
  | outcomes =>
    show (((Dict.set ∅ "succeeded" 0).set "failed" 0).get key).getD 0 = 0
    rw [Dict.get_set, Dict.get_set]
    split
    · rfl
    · split <;> rfl
  | _ => rfl

/-! ## Totals and world summaries -/

/-- Every row has the totals of the world summaries it was built from. -/
def Traced (rows : List ProjectionRow) : Prop :=
  ∀ e ∈ lineages rows, e.1.totals = total e.2

section
variable {rows : List ProjectionRow}

/-- A projection was built from stored summaries of worlds. -/
theorem leaves_stored : ∀ e ∈ lineages rows, ∀ l ∈ e.2, l ∈ rows ∧ (worldOf l).isSome = true := by
  induction rows using List.reverseRecOn with
  | nil =>
    intro e he
    cases he
  | append_singleton rows r ih =>
    intro e he l hl
    rw [lineages_append] at he
    rcases List.mem_append.mp he with he | he
    · obtain ⟨hrow, hworld⟩ := ih e he l hl
      exact ⟨List.mem_append_left _ hrow, hworld⟩
    · rw [List.mem_singleton.mp he] at hl
      dsimp only at hl
      unfold leavesFrom at hl
      split at hl
      · next horigin =>
        rw [List.mem_singleton.mp hl]
        unfold worldOf
        rw [horigin]
        exact ⟨List.mem_append_right _ List.mem_cons_self, rfl⟩
      · obtain ⟨source, -, hl⟩ := List.mem_flatMap.mp hl
        cases hlatest : latestProjection ((lineages rows).map Prod.fst) r.tenantId
            r.sourceScopeId.1 source.1 with
        | none =>
          rw [hlatest] at hl
          cases hl
        | some s =>
          rw [hlatest, Option.elim_some] at hl
          cases hfind : (lineages rows).find? fun e => e.1.key = s.key with
          | none =>
            rw [hfind] at hl
            cases hl
          | some f =>
            rw [hfind] at hl
            obtain ⟨hrow, hworld⟩ := ih f (List.mem_of_find?_eq_some hfind) l hl
            exact ⟨List.mem_append_left _ hrow, hworld⟩

theorem total_lineage (h : Traced rows) (hunique : (rows.map ProjectionRow.key).Nodup)
    {s : ProjectionRow} (hs : s ∈ rows) :
    total (((lineages rows).find? fun e => e.1.key = s.key).elim [] Prod.snd) = s.totals := by
  cases hfind : (lineages rows).find? fun e => e.1.key = s.key with
  | some e =>
    have he := List.mem_of_find?_eq_some hfind
    have hkey : e.1.key = s.key := by simpa using List.find?_some hfind
    have hrow : e.1 ∈ rows := lineages_fst rows ▸ List.mem_map_of_mem he
    rw [← List.inj_on_of_nodup_map hunique hrow hs hkey]
    exact (h e he).symm
  | none =>
    rw [← lineages_fst rows] at hs
    obtain ⟨e, he, hes⟩ := List.mem_map.mp hs
    exact absurd (decide_eq_true (congrArg ProjectionRow.key hes))
      (List.find?_eq_none.mp hfind e he)

/-- What the sources of an aggregate were built from adds up to what their rows say. -/
theorem total_sources (h : Traced rows) (hunique : (rows.map ProjectionRow.key).Nodup)
    {tenantId targetScopeId : String} {message : Identifier → PyError}
    {sources : List Identifier} {chosen : List ProjectionRow}
    (hchosen : sources.mapM (fun source => orRaise (message source)
      (latestProjection rows tenantId targetScopeId source.1)) = .ok chosen) :
    total (sources.flatMap fun source =>
      (latestProjection ((lineages rows).map Prod.fst) tenantId targetScopeId source.1).elim []
        fun s => ((lineages rows).find? fun e => e.1.key = s.key).elim [] Prod.snd) = total chosen := by
  induction sources generalizing chosen with
  | nil =>
    cases hchosen
    rfl
  | cons source sources ih =>
    rw [List.mapM_cons] at hchosen
    obtain ⟨s, hs, hchosen⟩ := bind_ok.mp hchosen
    obtain ⟨others, hothers, hchosen⟩ := bind_ok.mp hchosen
    cases hchosen
    have hlatest := orRaise_ok.mp hs
    have hmem : s ∈ rows := (List.mem_filter.mp (Sorting.latest_mem hlatest)).1
    rw [List.flatMap_cons, total_append, ih hothers, lineages_fst, hlatest]
    exact congrArg (· + total others) (total_lineage h hunique hmem)

theorem traced_append (h : Traced rows) {r : ProjectionRow}
    (hr : r.totals = total (leavesFrom (lineages rows) r)) : Traced (rows ++ [r]) := by
  intro e he
  rw [lineages_append] at he
  rcases List.mem_append.mp he with he | he
  · exact h e he
  · rw [List.mem_singleton.mp he]
    exact hr

end

section
variable {I : Interpreter} {db : FederationDb}

theorem traced_projectWorld {worlds : World.WorldDb} {tenantId scopeId projectionId : String}
    {targetScopeId createdAt : Option String} {now : String} (h : Traced db.projections.rows) :
    Traced (committed db (projectWorld I worlds tenantId scopeId projectionId targetScopeId
      createdAt now db)).projections.rows := by
  refine committed_of_ok (P := fun db => Traced db.projections.rows) h fun row db' hok => ?_
  obtain ⟨⟨worldId, version, stateSha256, horigin⟩, projections, hinsert, rfl⟩ := projectWorld_ok hok
  show Traced projections.rows
  rw [(Table.rows_insert hinsert).1]
  refine traced_append h ?_
  unfold leavesFrom
  rw [horigin]
  exact (add_zero _).symm

theorem traced_aggregateScope {tenantId targetScopeId projectionId : String}
    {sourceScopeIds : List String} {publishTo createdAt : Option String} {now : String}
    (h : Traced db.projections.rows) :
    Traced (committed db (aggregateScope I tenantId targetScopeId projectionId sourceScopeIds
      publishTo createdAt now db)).projections.rows := by
  refine committed_of_ok (P := fun db => Traced db.projections.rows) h fun row db' hok => ?_
  obtain ⟨⟨sources, chosen, sums, hchosen, hsums, htenant, htarget, horigin, hcounts, hresources⟩,
    projections, hinsert, rfl⟩ := aggregateScope_ok hok
  show Traced projections.rows
  rw [(Table.rows_insert hinsert).1]
  refine traced_append h ?_
  have hamount (amount : Resource → Rat) (pooled : Pooled → Rat)
      (hsame : ∀ p, amount (Pooled.resource p) = pooled p) :
      amountAt amount row.summary.resources = amountAt pooled sums.2 := by
    funext id
    unfold amountAt
    rw [hresources, Dict.get_map]
    cases sums.2.get id with
    | none => rfl
    | some p => exact hsame p
  have hrow : row.totals = sumsTotals sums := by
    show row.summary.counts.totals _ _ = sums.1.totals _ _
    rw [hcounts, hamount Resource.capacity Pooled.capacity fun _ => rfl,
      hamount Resource.allocated Pooled.allocated fun _ => rfl]
  have hleaves : total (leavesFrom (lineages db.projections.rows) row) = total chosen := by
    unfold leavesFrom
    rw [horigin, htenant, htarget]
    exact total_sources h db.projections.unique hchosen
  calc row.totals
    _ = sumsTotals sums := hrow
    _ = sumsTotals (Counts.zero, ∅) + total chosen := sumsTotals_addProjections hsums
    _ = total chosen := by rw [sumsTotals_zero, zero_add]
    _ = total (leavesFrom (lineages db.projections.rows) row) := hleaves.symm

theorem traced_next {call : Call} (h : Traced db.projections.rows) :
    Traced (next I db call).projections.rows := by
  cases call with
  | registerScope args now =>
    rw [next]
    refine committed_of_ok (P := fun db => Traced db.projections.rows) h fun row db' hok => ?_
    obtain ⟨-, scopes, -, rfl⟩ := registerScope_ok hok
    exact h
  | projectWorld worlds tenantId scopeId projectionId targetScopeId createdAt now =>
    rw [next]
    exact traced_projectWorld h
  | aggregateScope tenantId targetScopeId projectionId sourceScopeIds publishTo createdAt now =>
    rw [next]
    exact traced_aggregateScope h
  | routeDecision args now =>
    rw [next, (routeDecision_frame args now).2]
    exact h
  | openEscalation args now =>
    rw [next, (openEscalation_frame args now).2.1]
    exact h
  | recordEscalationEvent tenantId escalationId eventType actorId note createdAt now =>
    rw [next]
    refine committed_of_ok (P := fun db => Traced db.projections.rows) h fun event db' hok => ?_
    rw [recordEscalationEvent_ok hok]
    exact h

/-- **Totals are conserved**: a stored projection has the totals of the world summaries it was
built from, repetitions included. -/
theorem totals_leaves (calls : List Call) {r : ProjectionRow}
    (hr : r ∈ (Transition.exec (next I) ∅ calls).projections.rows) :
    r.totals = total (leaves (Transition.exec (next I) ∅ calls) r) := by
  have htraced : Traced (Transition.exec (next I) ∅ calls).projections.rows :=
    Transition.exec_invariant (I := fun db : FederationDb => Traced db.projections.rows)
      (fun db call h => traced_next h) (by intro e he; cases he) calls
  exact (total_lineage htraced (Table.unique _) hr).symm

/-- **An aggregate counts each world once exactly when nothing is counted twice.** -/
theorem countsOnce_iff (I : Interpreter) (calls : List Call) :
    ∀ r ∈ (Transition.exec (next I) ∅ calls).projections.rows,
      CountsOnce r (leaves (Transition.exec (next I) ∅ calls) r) ↔
        NoneTwice (leaves (Transition.exec (next I) ∅ calls) r) := by
  intro r hr
  have htotals := totals_leaves calls hr
  constructor
  · intro h
    obtain ⟨chosen, hchosen, hsum⟩ := h
    obtain ⟨rest, hperm⟩ := hchosen.sublist.exists_perm_append
    refine ⟨chosen, rest, hchosen, hperm, ?_⟩
    have hsplit : total chosen + total rest = total chosen + 0 := by
      rw [add_zero, ← total_append, ← hsum, htotals]
      exact (hperm.map _).sum_eq.symm
    exact add_left_cancel hsplit
  · intro h
    obtain ⟨chosen, rest, hchosen, hperm, hrest⟩ := h
    refine ⟨chosen, hchosen, ?_⟩
    calc r.totals
      _ = total (chosen ++ rest) := htotals.trans (hperm.map _).sum_eq
      _ = total chosen := by rw [total_append, hrest, add_zero]

end

/-- Where no world is reached twice, nothing is counted twice. -/
theorem noneTwice_of_nodup {rows : List ProjectionRow} (h : (rows.map worldOf).Nodup) :
    NoneTwice rows :=
  ⟨rows, [], ⟨List.Sublist.refl _, h, fun _ hr => List.mem_map_of_mem hr⟩,
    by rw [List.append_nil], rfl⟩

/-! ## A world counted twice -/

/-- A world with one observation. -/
def observedWard : World.WorldDb :=
  (World.createWorld World.textPython "2026-01-01T00:00:00+00:00" "clinic" "ward"
    (.obj [("operations", .obj [("observations", .arr [.int 1])])]) "kernel" "token-1" [] none ∅).2

/-- A ward below a region below the root; the ward's world is projected to both, the region's
aggregate to the root, and the root adds up the region and the ward. -/
def overlappingSources : List Call :=
  [.registerScope { tenantId := "clinic", scopeId := "root", scopeType := "GLOBAL", name := "Root" } "1",
   .registerScope { tenantId := "clinic", scopeId := "north", scopeType := "REGION", name := "North",
                    parentScopeId := some "root" } "2",
   .registerScope { tenantId := "clinic", scopeId := "ward", scopeType := "FACILITY", name := "Ward",
                    parentScopeId := some "north", worldId := some "ward" } "3",
   .projectWorld observedWard "clinic" "ward" "p1" none none "4",
   .projectWorld observedWard "clinic" "ward" "p2" (some "root") none "5",
   .aggregateScope "clinic" "north" "p3" ["ward"] (some "root") none "6",
   .aggregateScope "clinic" "root" "p4" ["north", "ward"] none none "7"]

theorem countsOnce_iff_overlapping :
    ∃ r ∈ (Transition.exec (next plainInterpreter) ∅ overlappingSources).projections.rows,
      (CountsOnce r (leaves (Transition.exec (next plainInterpreter) ∅ overlappingSources) r) ↔
        NoneTwice (leaves (Transition.exec (next plainInterpreter) ∅ overlappingSources) r)) := by
  have hrun : ∀ db : FederationDb, (db.projections.get ("clinic", "p4")).isSome = true →
      ∃ r, r ∈ db.projections.rows := by
    intro db h
    obtain ⟨r, hr⟩ := Option.isSome_iff_exists.mp h
    exact ⟨r, Table.mem_of_get hr⟩
  obtain ⟨r, hr⟩ := hrun (Transition.exec (next plainInterpreter) ∅ overlappingSources)
    (by decide +kernel)
  exact ⟨r, hr, countsOnce_iff plainInterpreter overlappingSources r hr⟩

/-- Two summaries of one world with an observation each do not make two observations. -/
theorem not_countsOnce {r : ProjectionRow} {rows : List ProjectionRow}
    {world : Option (String × String)} (hr : r.summary.counts.observations = 2)
    (hrows : rows.map (fun l => (worldOf l, l.summary.counts.observations)) =
      List.replicate 2 (world, 1)) : ¬ CountsOnce r rows := by
  intro hcounts
  obtain ⟨chosen, hchosen, hsum⟩ := hcounts
  have hsub := hchosen.sublist.map fun l => (worldOf l, l.summary.counts.observations)
  rw [hrows] at hsub
  obtain ⟨n, -, hn⟩ := List.sublist_replicate_iff.mp hsub
  -- the chosen summaries are all of one world, so there is at most one of them
  have hworlds : chosen.map worldOf = List.replicate n world := by
    have hfst := congrArg (List.map Prod.fst) hn
    rw [List.map_map, List.map_replicate] at hfst
    exact hfst
  have hone : n ≤ 1 := by
    have honce := hchosen.once
    rw [hworlds] at honce
    exact List.nodup_replicate.mp honce
  have hobservations : (total chosen).1 = n := by
    have hsnd := congrArg (fun l => (l.map Prod.snd).sum) hn
    simp only [List.map_map, List.map_replicate, List.sum_replicate, nsmul_one] at hsnd
    exact (total_observations chosen).trans hsnd
  have htwo : (total chosen).1 = 2 := hsum ▸ hr
  omega

theorem ward_counted_twice :
    ∃ r ∈ (Transition.exec (next plainInterpreter) ∅ overlappingSources).projections.rows,
      ¬ CountsOnce r (leaves (Transition.exec (next plainInterpreter) ∅ overlappingSources) r) := by
  have hrun : ∀ db, ((db.projections.get ("clinic", "p4")).map fun r =>
      (r.summary.counts.observations,
        (leaves db r).map fun l => (worldOf l, l.summary.counts.observations))) =
        some (2, List.replicate 2 (some ("clinic", "ward"), 1)) →
      ∃ r ∈ db.projections.rows, ¬ CountsOnce r (leaves db r) := by
    intro db h
    obtain ⟨r, hr, hpair⟩ := Option.map_eq_some_iff.mp h
    exact ⟨r, Table.mem_of_get hr,
      not_countsOnce (congrArg Prod.fst hpair) (congrArg Prod.snd hpair)⟩
  exact hrun (Transition.exec (next plainInterpreter) ∅ overlappingSources) (by decide +kernel)

end Edon.Federation
