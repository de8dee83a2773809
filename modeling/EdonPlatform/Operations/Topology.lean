import EdonPlatform.Lib.Cycles
import EdonPlatform.Operations.Records

/- The topological order of a dictionary of steps (edon/operations/control.py,
   `_topological_order`), with the dictionary in the order its entries were added.

   What is proved:
     1. `topologicalOrderOf_eq` — the order is that of the dictionary with its keys sorted, since
        `ready` and the scan of the candidates are sorted. So it does not depend on the order of
        the entries.
     2. `topologicalOrder_error_iff` — where all dependencies are steps, the order is refused
        exactly when a step depends on itself, however far.
   `topological_order` has both, with what an order that is returned is.

   Correspondence (Python ↔ Lean):
     a dictionary, by the order of its entries ↔ `StepDict`
     `_topological_order`                      ↔ `topologicalOrderOf` -/
namespace Edon.Operations

/-! ## The order of the entries -/

/-- A dictionary of steps: its entries in the order they were added, one for each key. -/
structure StepDict where
  entries : List (String × Step)
  nodup : (entries.map Prod.fst).Nodup

/-- The local variables of `_topological_order`, with the dictionary in its own order. -/
structure Scan where
  incoming : List (String × List String)
  ready : List String
  order : List String

def Scan.unblock (stepId : String) (t : Scan) (candidate : String) : Scan :=
  match Assoc.find t.incoming candidate with
  | none => t
  | some waiting =>
    if stepId ∈ waiting then
      let waiting := waiting.erase stepId
      { t with
        incoming := Assoc.put t.incoming candidate waiting
        ready :=
          if waiting = [] ∧ candidate ∉ t.order ∧ candidate ∉ t.ready then
            (t.ready ++ [candidate]).insertionSort (· ≤ ·)
          else t.ready }
    else t

/-- `sorted(incoming)`. -/
def Scan.candidates (t : Scan) : List String := (t.incoming.map Prod.fst).insertionSort (· ≤ ·)

def scanLoop : Nat → Scan → Scan
  | 0, t => t
  | fuel + 1, t =>
    match t.ready with
    | [] => t
    | stepId :: ready =>
      scanLoop fuel (t.candidates.foldl (Scan.unblock stepId)
        { t with ready, order := t.order ++ [stepId] })

def topologicalOrderOf (steps : StepDict) : Except PyError (List String) :=
  let incoming := steps.entries.map fun e => (e.1, sortedSet e.2.dependencies)
  let ready := ((incoming.filter fun e => e.2 = []).map Prod.fst).insertionSort (· ≤ ·)
  let t := scanLoop steps.entries.length { incoming, ready, order := [] }
  if t.order.length ≠ steps.entries.length then
    .error (operationsError "plan step dependencies contain a cycle")
  else .ok t.order

/-- The dictionary with its keys sorted. -/
def StepDict.sorted (steps : StepDict) : Dict String Step := Dict.ofList steps.entries

/-- Both scans have the same entries, in their own orders. -/
structure Scan.Matches (t : Scan) (u : Topology) : Prop where
  incoming : ∀ id, Assoc.find t.incoming id = u.incoming.get id
  nodup : (t.incoming.map Prod.fst).Nodup
  ready : t.ready = u.ready
  order : t.order = u.order

section
variable {t : Scan} {u : Topology}

theorem sorted_eq_of_mem_iff {l m : List String} (hl : l.Pairwise (· ≤ ·)) (hm : m.Pairwise (· ≤ ·))
    (hl' : l.Nodup) (hm' : m.Nodup) (h : ∀ x, x ∈ l ↔ x ∈ m) : l = m :=
  ((List.perm_ext_iff_of_nodup hl' hm').mpr h).eq_of_pairwise' hl hm

theorem keys_sorted {α : Type} (d : Dict String α) : d.keys.Pairwise (· ≤ ·) :=
  List.pairwise_map.mpr (d.ascending.imp fun h => le_of_lt h)

theorem Scan.Matches.candidates (h : t.Matches u) : t.candidates = u.incoming.keys := by
  refine sorted_eq_of_mem_iff (List.pairwise_insertionSort _ _) (keys_sorted _)
    ((List.perm_insertionSort _ _).nodup_iff.mpr h.nodup) u.incoming.keys_nodup fun id => ?_
  unfold Scan.candidates
  rw [List.mem_insertionSort, ← Assoc.find_isSome, h.incoming, Dict.mem_keys]

theorem keys_put {α : Type} {l : List (String × α)} {k : String} {v w : α}
    (h : Assoc.find l k = some w) : (Assoc.put l k v).map Prod.fst = l.map Prod.fst := by
  induction l with
  | nil => cases h
  | cons e l ih =>
    rw [Assoc.find_cons] at h
    unfold Assoc.put
    by_cases hk : e.1 = k
    · rw [if_pos hk, List.map_cons, List.map_cons, hk]
    · rw [if_neg hk] at h ⊢
      rw [List.map_cons, List.map_cons, ih h]

theorem Scan.Matches.unblock (h : t.Matches u) (stepId candidate : String) :
    (t.unblock stepId candidate).Matches (Operations.unblock stepId u candidate) := by
  have hfind := h.incoming candidate
  unfold Scan.unblock Operations.unblock
  cases hwaiting : u.incoming.get candidate with
  | none =>
    rw [hwaiting] at hfind
    rw [hfind]
    exact h
  | some waiting =>
    rw [hwaiting] at hfind
    rw [hfind]
    dsimp only
    by_cases hmem : stepId ∈ waiting
    · rw [if_pos hmem, if_pos hmem]
      refine ⟨fun id => ?_, ?_, ?_, h.order⟩
      · rw [Assoc.find_put, Dict.get_set, h.incoming]
      · rw [keys_put hfind]
        exact h.nodup
      · rw [h.ready, h.order]
    · rw [if_neg hmem, if_neg hmem]
      exact h

theorem Scan.Matches.unblock_all (h : t.Matches u) (stepId : String) (candidates : List String) :
    (candidates.foldl (Scan.unblock stepId) t).Matches
      (candidates.foldl (Operations.unblock stepId) u) := by
  induction candidates generalizing t u with
  | nil => exact h
  | cons candidate candidates ih => exact ih (h.unblock stepId candidate)

theorem Scan.Matches.loop (h : t.Matches u) (fuel : Nat) :
    (scanLoop fuel t).Matches (topologyLoop fuel u) := by
  induction fuel generalizing t u with
  | zero => exact h
  | succ fuel ih =>
    unfold scanLoop topologyLoop
    rw [h.ready, h.candidates, h.order]
    cases hready : u.ready with
    | nil => exact h
    | cons stepId ready =>
      have hpop : Scan.Matches { t with ready := ready, order := u.order ++ [stepId] }
          { u with ready := ready, order := u.order ++ [stepId] } :=
        ⟨h.incoming, h.nodup, rfl, rfl⟩
      exact ih (hpop.unblock_all stepId u.incoming.keys)

end

/-! ## The dictionary with its keys sorted -/

theorem mem_sorted_keys (steps : StepDict) (id : String) :
    id ∈ steps.sorted.keys ↔ id ∈ steps.entries.map Prod.fst := by
  rw [Dict.mem_keys, StepDict.sorted, Dict.get_ofList_of_nodup steps.nodup, Assoc.find_isSome]

theorem keys_perm (steps : StepDict) : steps.sorted.keys.Perm (steps.entries.map Prod.fst) :=
  (List.perm_ext_iff_of_nodup steps.sorted.keys_nodup steps.nodup).mpr (mem_sorted_keys steps)

/-- **The order is that of the dictionary with its keys sorted.** -/
theorem topologicalOrderOf_eq (steps : StepDict) :
    topologicalOrderOf steps = topologicalOrder steps.sorted := by
  have hlength : steps.sorted.keys.length = steps.entries.length := by
    rw [(keys_perm steps).length_eq, List.length_map]
  have hfind : ∀ id, Assoc.find (steps.entries.map fun e => (e.1, sortedSet e.2.dependencies)) id =
      (steps.sorted.map fun _ step => sortedSet step.dependencies).get id := by
    intro id
    rw [Assoc.find_map fun step : Step => sortedSet step.dependencies, Dict.get_map, StepDict.sorted,
      Dict.get_ofList_of_nodup steps.nodup]
  have hnodup : ((steps.entries.map fun e => (e.1, sortedSet e.2.dependencies)).map
      Prod.fst).Nodup := by
    rw [List.map_map]
    exact steps.nodup
  unfold topologicalOrderOf topologicalOrder
  generalize (steps.sorted.map fun _ step => sortedSet step.dependencies) = incoming at hfind
  generalize (steps.entries.map fun e => (e.1, sortedSet e.2.dependencies)) = entries at hfind hnodup
  have hready : ((entries.filter fun e => e.2 = []).map Prod.fst).insertionSort (· ≤ ·) =
      incoming.keys.filter fun id => incoming.get id = some [] := by
    refine sorted_eq_of_mem_iff (List.pairwise_insertionSort _ _) ((keys_sorted _).filter _)
      ((List.perm_insertionSort _ _).nodup_iff.mpr (hnodup.sublist (List.filter_sublist.map _)))
      (incoming.keys_nodup.filter _) fun id => ?_
    rw [List.mem_insertionSort, List.mem_map, List.mem_filter, Dict.mem_keys, decide_eq_true_eq]
    constructor
    · rintro ⟨e, he, rfl⟩
      obtain ⟨hmem, hempty⟩ := List.mem_filter.mp he
      have hget : incoming.get e.1 = some [] := by
        rw [← hfind, Assoc.find_of_mem_nodup hnodup hmem, of_decide_eq_true hempty]
      exact ⟨by rw [hget]; rfl, hget⟩
    · rintro ⟨-, hget⟩
      rw [← hfind] at hget
      exact ⟨(id, []), List.mem_filter.mpr ⟨Assoc.mem_of_find hget, rfl⟩, rfl⟩
  have hstart : Scan.Matches
      { incoming := entries
        ready := ((entries.filter fun e => e.2 = []).map Prod.fst).insertionSort (· ≤ ·)
        order := [] }
      { incoming
        ready := incoming.keys.filter fun id => incoming.get id = some []
        order := [] } := ⟨hfind, hnodup, hready, rfl⟩
  dsimp only
  rw [hlength, (hstart.loop steps.entries.length).order]

theorem sorted_perm {steps other : StepDict} (h : other.entries.Perm steps.entries) :
    other.sorted = steps.sorted :=
  Dict.ofList_perm steps.nodup h

/-! ## What is left when nothing is ready -/

/-- What the loop keeps, apart from soundness: who waits, waits for steps that are not in the order
yet, and who does not wait is in the order or ready. -/
structure Topology.Complete (dependencies : Dict String (List String)) (t : Topology) : Prop where
  unique : ∀ id waiting, t.incoming.get id = some waiting → waiting.Nodup
  subset : ∀ id waiting, t.incoming.get id = some waiting →
    ∃ ds, dependencies.get id = some ds ∧ waiting ⊆ ds
  pending : ∀ id waiting, t.incoming.get id = some waiting → ∀ d ∈ waiting, d ∉ t.order
  queued : ∀ id, t.incoming.get id = some [] → id ∈ t.order ∨ id ∈ t.ready

/-- The same while the candidates are scanned: those still to come may wait for the step. -/
structure Topology.Scanning (dependencies : Dict String (List String)) (stepId : String)
    (candidates : List String) (t : Topology) : Prop where
  unique : ∀ id waiting, t.incoming.get id = some waiting → waiting.Nodup
  subset : ∀ id waiting, t.incoming.get id = some waiting →
    ∃ ds, dependencies.get id = some ds ∧ waiting ⊆ ds
  pending : ∀ id waiting, t.incoming.get id = some waiting → ∀ d ∈ waiting,
    d ∉ t.order ∨ d = stepId ∧ id ∈ candidates
  queued : ∀ id, t.incoming.get id = some [] → id ∈ t.order ∨ id ∈ t.ready

section
variable {dependencies : Dict String (List String)} {t : Topology} {stepId : String}

theorem unblock_scanning {candidate : String} {candidates : List String}
    (h : t.Scanning dependencies stepId (candidate :: candidates)) :
    (unblock stepId t candidate).Scanning dependencies stepId candidates := by
  have hrest : ∀ {id : String}, id ≠ candidate → id ∈ candidate :: candidates → id ∈ candidates :=
    fun hne hmem => (List.mem_cons.mp hmem).resolve_left hne
  unfold unblock
  split
  · next hnone =>
    refine ⟨h.unique, h.subset, fun id waiting hget d hd => ?_, h.queued⟩
    have hne : id ≠ candidate := by
      rintro rfl
      rw [hnone] at hget
      cases hget
    exact (h.pending id waiting hget d hd).imp_right fun hlate => ⟨hlate.1, hrest hne hlate.2⟩
  · next waiting hwaiting =>
    split
    · next hmem =>
      have hunique := h.unique candidate waiting hwaiting
      refine ⟨fun id w hget => ?_, fun id w hget => ?_, fun id w hget d hd => ?_,
        fun id hget => ?_⟩
      · dsimp only at hget
        rw [Dict.get_set] at hget
        split at hget
        · cases hget
          exact hunique.erase stepId
        · exact h.unique id w hget
      · dsimp only at hget
        rw [Dict.get_set] at hget
        split at hget
        · next heq =>
          cases hget
          obtain ⟨ds, hds, hsub⟩ := h.subset candidate waiting hwaiting
          exact ⟨ds, heq ▸ hds, fun d hd => hsub (List.mem_of_mem_erase hd)⟩
        · exact h.subset id w hget
      · dsimp only at hget
        rw [Dict.get_set] at hget
        split at hget
        · cases hget
          obtain ⟨hne, hd⟩ := hunique.mem_erase_iff.mp hd
          exact (h.pending candidate waiting hwaiting d hd).imp_right fun hlate => absurd hlate.1 hne
        · next hne =>
          exact (h.pending id w hget d hd).imp_right fun hlate =>
            ⟨hlate.1, hrest (Ne.symm hne) hlate.2⟩
      · dsimp only at hget ⊢
        rw [Dict.get_set] at hget
        -- the candidate enters `ready` unless it is queued already
        by_cases hnew : waiting.erase stepId = [] ∧ candidate ∉ t.order ∧ candidate ∉ t.ready
        · rw [if_pos hnew, List.mem_insertionSort, List.mem_append, List.mem_singleton]
          split at hget
          · next heq => exact .inr (.inr heq.symm)
          · exact (h.queued id hget).imp_right .inl
        · rw [if_neg hnew]
          split at hget
          · next heq =>
            subst heq
            by_contra hnot
            rw [not_or] at hnot
            exact hnew ⟨Option.some.inj hget, hnot⟩
          · exact h.queued id hget
    · next hmem =>
      refine ⟨h.unique, h.subset, fun id w hget d hd => ?_, h.queued⟩
      by_cases hne : id = candidate
      · subst hne
        rw [hwaiting] at hget
        cases hget
        exact (h.pending id waiting hwaiting d hd).imp_right fun hlate =>
          absurd (hlate.1 ▸ hd) hmem
      · exact (h.pending id w hget d hd).imp_right fun hlate => ⟨hlate.1, hrest hne hlate.2⟩

theorem unblock_all_scanning {candidates : List String}
    (h : t.Scanning dependencies stepId candidates) :
    (candidates.foldl (unblock stepId) t).Scanning dependencies stepId [] := by
  induction candidates generalizing t with
  | nil => exact h
  | cons candidate candidates ih => exact ih (unblock_scanning h)

theorem step_complete {ready : List String} (h : t.Complete dependencies)
    (hready : t.ready = stepId :: ready) :
    (t.incoming.keys.foldl (unblock stepId)
      { t with ready := ready, order := t.order ++ [stepId] }).Complete dependencies := by
  have hstart : Topology.Scanning dependencies stepId t.incoming.keys
      { t with ready := ready, order := t.order ++ [stepId] } := by
    refine ⟨h.unique, h.subset, fun id waiting hget d hd => ?_, fun id hget => ?_⟩
    · have hnot := h.pending id waiting hget d hd
      by_cases hd' : d = stepId
      · refine .inr ⟨hd', Dict.mem_keys.mpr ?_⟩
        rw [show t.incoming.get id = some waiting from hget]
        rfl
      · refine .inl fun hmem => ?_
        rcases List.mem_append.mp hmem with hmem | hmem
        · exact hnot hmem
        · exact hd' (List.mem_singleton.mp hmem)
    · have hold := h.queued id hget
      rw [hready, List.mem_cons] at hold
      rcases hold with hold | rfl | hold
      · exact .inl (List.mem_append_left _ hold)
      · exact .inl (List.mem_append_right _ (List.mem_singleton_self _))
      · exact .inr hold
  have hend := unblock_all_scanning hstart
  refine ⟨hend.unique, hend.subset, fun id waiting hget d hd => ?_, hend.queued⟩
  exact (hend.pending id waiting hget d hd).resolve_right fun hlate =>
    List.not_mem_nil hlate.2

theorem topologyLoop_complete (fuel : Nat) (h : t.Complete dependencies) :
    (topologyLoop fuel t).Complete dependencies := by
  induction fuel generalizing t with
  | zero => exact h
  | succ fuel ih =>
    unfold topologyLoop
    split
    · exact h
    · next stepId ready hready => exact ih (step_complete h hready)

theorem Topology.Sound.length_le (h : t.Sound dependencies) :
    (t.order ++ t.ready).length ≤ dependencies.keys.length := by
  refine (List.subperm_of_subset h.nodup fun id hid => ?_).length_le
  rw [Dict.mem_keys]
  rcases List.mem_append.mp hid with hid | hid
  · exact h.known id hid
  · rw [← h.keys, h.ready id hid]
    rfl

theorem unblock_all_order (candidates : List String) (t : Topology) :
    (candidates.foldl (unblock stepId) t).order = t.order := by
  induction candidates generalizing t with
  | nil => rfl
  | cons candidate candidates ih => rw [List.foldl_cons, ih, unblock_order]

/-- With as much fuel as there are steps, nothing is ready at the end. -/
theorem topologyLoop_ready {fuel : Nat} (h : t.Sound dependencies)
    (hfuel : dependencies.keys.length ≤ t.order.length + fuel) :
    (topologyLoop fuel t).ready = [] := by
  induction fuel generalizing t with
  | zero =>
    have hlength := h.length_le
    rw [List.length_append] at hlength
    exact List.length_eq_zero_iff.mp (by rw [topologyLoop]; omega)
  | succ fuel ih =>
    unfold topologyLoop
    split
    · next hready => exact hready
    · next stepId ready hready =>
      apply ih
      · exact unblock_all_sound _ (pop_sound h hready) (by simp)
      · rw [unblock_all_order, List.length_append, List.length_singleton]
        omega

end

/-- All dependencies of the steps are steps. -/
def StepDict.Closed (steps : StepDict) : Prop :=
  ∀ e ∈ steps.entries, ∀ d ∈ e.2.dependencies, d ∈ steps.entries.map Prod.fst

def StepDict.dependsOn (steps : StepDict) (stepId d : String) : Prop :=
  ∃ step, (stepId, step) ∈ steps.entries ∧ d ∈ step.dependencies

theorem dependsOn_sorted (steps : StepDict) (stepId d : String) :
    dependsOn steps.sorted stepId d ↔ steps.dependsOn stepId d := by
  unfold dependsOn StepDict.dependsOn StepDict.sorted
  simp only [Dict.get_ofList_of_nodup steps.nodup]
  constructor
  · rintro ⟨step, hfind, hd⟩
    exact ⟨step, Assoc.mem_of_find hfind, hd⟩
  · rintro ⟨step, hmem, hd⟩
    exact ⟨step, Assoc.find_of_mem_nodup steps.nodup hmem, hd⟩

theorem complete_start {dependencies : Dict String (List String)}
    (h : ∀ id ds, dependencies.get id = some ds → ds.Nodup) :
    ({ incoming := dependencies
       ready := dependencies.keys.filter (fun id => dependencies.get id = some [])
       order := [] } : Topology).Complete dependencies where
  unique := h
  subset id ds hget := ⟨ds, hget, List.Subset.refl ds⟩
  pending _ _ _ _ _ := List.not_mem_nil
  queued id hget := by
    refine .inr (List.mem_filter.mpr ⟨Dict.mem_keys.mpr ?_, decide_eq_true hget⟩)
    rw [show dependencies.get id = some [] from hget]
    rfl

/-- Where the order is refused, the steps left out wait for each other. -/
theorem cycle_of_error {steps : StepDict} (hclosed : steps.Closed) {e : PyError}
    (h : topologicalOrder steps.sorted = .error e) :
    ∃ id, Relation.TransGen steps.dependsOn id id := by
  unfold topologicalOrder at h
  dsimp only at h
  split at h
  · next hlength =>
    have hget : ∀ id, (steps.sorted.map fun _ step => sortedSet step.dependencies).get id =
        (steps.sorted.get id).map fun step => sortedSet step.dependencies :=
      fun id => Dict.get_map _ _ _
    have hsound := topologyLoop_sound steps.sorted.keys.length
      (topology_start (steps.sorted.map fun _ step => sortedSet step.dependencies))
    have hcomplete := topologyLoop_complete steps.sorted.keys.length (complete_start
      fun id ds hds => by
        rw [hget, Option.map_eq_some_iff] at hds
        obtain ⟨step, _, rfl⟩ := hds
        exact nodup_sortedSet _)
    have hempty := @topologyLoop_ready _ _ steps.sorted.keys.length
      (topology_start (steps.sorted.map fun _ step => sortedSet step.dependencies))
      (by simp [Dict.keys, Dict.map])
    revert hlength hsound hcomplete hempty
    generalize topologyLoop _ _ = t
    intro hlength hsound hcomplete hempty
    have hnodup : t.order.Nodup := (List.nodup_append.mp hsound.nodup).1
    obtain ⟨x, hx⟩ : ∃ x ∈ steps.sorted.keys, x ∉ t.order := by
      by_contra hall
      push Not at hall
      have hsub : ∀ id ∈ t.order, id ∈ steps.sorted.keys := fun id hid => by
        have hknown := hsound.known id hid
        rw [hget, Option.isSome_map] at hknown
        exact Dict.mem_keys.mpr hknown
      exact hlength (Nat.le_antisymm (List.subperm_of_subset hnodup hsub).length_le
        (List.subperm_of_subset steps.sorted.keys_nodup hall).length_le)
    refine Precedence.exists_cycle (l := steps.sorted.keys.filter fun id => id ∉ t.order)
      (List.ne_nil_of_mem (List.mem_filter.mpr ⟨hx.1, decide_eq_true hx.2⟩)) fun id hid => ?_
    obtain ⟨hkey, hleft⟩ := List.mem_filter.mp hid
    have hleft := of_decide_eq_true hleft
    have hsome : (t.incoming.get id).isSome = true := by
      rw [hsound.keys, hget, Option.isSome_map]
      exact Dict.mem_keys.mp hkey
    obtain ⟨waiting, hwaiting⟩ := Option.isSome_iff_exists.mp hsome
    cases waiting with
    | nil =>
      have hqueued := hcomplete.queued id hwaiting
      rw [hempty] at hqueued
      exact (hqueued.elim hleft List.not_mem_nil).elim
    | cons d waiting =>
      obtain ⟨ds, hds, hsub⟩ := hcomplete.subset id _ hwaiting
      rw [hget, Option.map_eq_some_iff] at hds
      obtain ⟨step, hstep, rfl⟩ := hds
      have hd : d ∈ step.dependencies := mem_sortedSet.mp (hsub List.mem_cons_self)
      have hdepends : steps.dependsOn id d :=
        (dependsOn_sorted steps id d).mp ⟨step, hstep, hd⟩
      refine ⟨d, List.mem_filter.mpr ⟨?_, decide_eq_true ?_⟩, hdepends⟩
      · rw [mem_sorted_keys]
        obtain ⟨step', hmem', hd'⟩ := hdepends
        exact hclosed _ hmem' d hd'
      · exact hcomplete.pending id _ hwaiting d List.mem_cons_self
  · cases h

theorem ordered_of_ok {steps : StepDict} {order : List String}
    (h : topologicalOrder steps.sorted = .ok order) :
    Precedence.Ordered steps.dependsOn order ∧ ∀ id, id ∈ order ↔ id ∈ steps.entries.map Prod.fst := by
  obtain ⟨hordered, hmem⟩ := topologicalOrder_ok h
  refine ⟨hordered.mono fun x d hd => (dependsOn_sorted steps x d).mpr hd, fun id => ?_⟩
  rw [hmem, ← Dict.mem_keys, mem_sorted_keys]

/-- Where all dependencies are steps, the order is refused exactly when there is a cycle. -/
theorem topologicalOrder_error_iff {steps : StepDict} (hclosed : steps.Closed) :
    topologicalOrderOf steps = .error (operationsError "plan step dependencies contain a cycle") ↔
      ∃ id, Relation.TransGen steps.dependsOn id id := by
  rw [topologicalOrderOf_eq]
  constructor
  · exact cycle_of_error hclosed
  · rintro ⟨id, hcycle⟩
    cases horder : topologicalOrder steps.sorted with
    | ok order =>
      obtain ⟨hordered, hmem⟩ := ordered_of_ok horder
      obtain ⟨d, ⟨step, hentry, hd⟩, _⟩ := Relation.TransGen.head'_iff.mp hcycle
      have hid : id ∈ order := (hmem id).mpr (List.mem_map_of_mem (f := Prod.fst) hentry)
      exact absurd hcycle (hordered.acyclic hid)
    | error e =>
      unfold topologicalOrder at horder
      dsimp only at horder
      split at horder
      · cases horder
        rfl
      · cases horder

/-- **The topological order of a dictionary of steps.** An order that is returned has every step
once, each after all it depends on; the order is refused exactly when a step depends on itself,
however far; and the order of the entries makes no difference. -/
theorem topological_order (steps : StepDict) (hclosed : steps.Closed) :
    (∀ order, topologicalOrderOf steps = .ok order →
      order.Perm (steps.entries.map Prod.fst) ∧
      ∀ before after stepId d, order = before ++ stepId :: after → steps.dependsOn stepId d →
        d ∈ before) ∧
    (topologicalOrderOf steps = .error (operationsError "plan step dependencies contain a cycle") ↔
      ∃ id, Relation.TransGen steps.dependsOn id id) ∧
    ∀ other : StepDict, other.entries.Perm steps.entries →
      topologicalOrderOf other = topologicalOrderOf steps := by
  refine ⟨fun order horder => ?_, topologicalOrder_error_iff hclosed, fun other hperm => ?_⟩
  · rw [topologicalOrderOf_eq] at horder
    obtain ⟨hordered, hmem⟩ := ordered_of_ok horder
    refine ⟨?_, fun before after stepId d heq hd => hordered.before heq hd⟩
    refine (List.perm_ext_iff_of_nodup ?_ steps.nodup).mpr hmem
    exact topologicalOrder_nodup horder
  · rw [topologicalOrderOf_eq, topologicalOrderOf_eq, sorted_perm hperm]

/-! ### A workflow and a loop -/

def sampleStep (dependencies : List String) : Step where
  stepId := ""
  action := "act"
  dependencies
  requiredCapabilities := []
  resourceRequests := ∅
  resourceAllocation := ∅
  earliestStart := none
  deadline := none
  expectedOutcomes := []
  command := []
  status := .pending
  assignedAgentId := none
  assignedAt := none
  startedAt := none
  completedAt := none

def workflow : StepDict where
  entries := [("verify", sampleStep ["primary"]), ("report", sampleStep ["verify", "primary"]),
    ("primary", sampleStep [])]
  nodup := by decide

theorem topological_order_workflow :
    ["primary", "verify", "report"].Perm (workflow.entries.map Prod.fst) ∧
      ¬ ∃ id, Relation.TransGen workflow.dependsOn id id := by
  have hclosed : workflow.Closed := by unfold StepDict.Closed; decide
  have hrun : topologicalOrderOf workflow = .ok ["primary", "verify", "report"] := by
    decide +kernel
  obtain ⟨hok, herror, -⟩ := topological_order workflow hclosed
  refine ⟨(hok _ hrun).1, ?_⟩
  rw [← herror, hrun]
  intro h
  cases h

end Edon.Operations
