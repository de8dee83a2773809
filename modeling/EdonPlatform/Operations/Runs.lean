import EdonPlatform.Operations.Goals

/- Runs of operations from a bootstrapped world, in terms of effects on its state. What
   every effect keeps holds after every run (`bootstrapped_invariant`); and where an
   invariant lets each effect meet a property exactly under a condition, a run meets the
   property at each of its steps exactly when it meets the condition at each event it
   records (`bootstrapped_along_iff`). -/
namespace Edon.Operations
open Transition

/-- The two states, if they are there, are related. -/
def Ledger.Relates (P : OperationalState → OperationalState → Prop) (l l' : Ledger) : Prop :=
  ∀ s s', l.state = some s → l'.state = some s' → P s s'

/-- The state, if it is there, has the property. -/
def Ledger.Has (P : OperationalState → Prop) (l : Ledger) : Prop :=
  ∀ s, l.state = some s → P s

/-- The call meets the condition in the state it reads. -/
def Ledger.Meets (Q : OperationalState → Call → Prop) (l : Ledger) (c : Call) : Prop :=
  ∀ s, l.state = some s → Q s c

/-- A call of a world that has a state changes nothing or has an effect. -/
theorem next_effect (py : Python) {l : Ledger} {s : OperationalState} (hs : l.state = some s)
    (e : Call × Keywords) : next py l e = l ∨
      (next py l e ≠ l ∧ ∃ s', (next py l e).state = some s' ∧ Effect s e.1 s') := by
  rcases run_cases py l e with hsame | ⟨d, hdraft, hcommitted⟩
  · exact .inl hsame
  · right
    constructor
    · intro heq
      have hversion := hcommitted.version
      rw [show (runCall py l e).2 = l from heq] at hversion
      omega
    · have hstep : StateStep e.1 l.state (next py l e).state :=
        commits_state (k := e.2) ⟨d, hdraft, hcommitted⟩
      generalize (next py l e).state = o' at hstep
      rw [hs] at hstep
      cases hstep with
      | effect heffect => exact ⟨_, rfl, heffect⟩

theorem bootstrapWorld_state {py : Python} {institution : Json} {actorId authorizationRef : String}
    {sourceLineage : List String} {timestamp : Option String} {now : Instant} {l : Ledger}
    (h : bootstrapWorld py institution actorId authorizationRef sourceLineage timestamp now =
      .ok l) : ∃ stamp, l.state = some (operationalState stamp) := by
  obtain ⟨stamp, _, h⟩ := bind_ok.mp h
  obtain ⟨_, _, h⟩ := bind_ok.mp h
  obtain ⟨_, _, h⟩ := bind_ok.mp h
  obtain ⟨_, _, h⟩ := bind_ok.mp h
  obtain ⟨_, _, h⟩ := bind_ok.mp h
  cases h
  exact ⟨stamp, rfl⟩

section
variable {py : Python} {institution : Json} {actorId authorizationRef : String}
  {sourceLineage : List String} {timestamp : Option String} {now : Instant} {l : Ledger}
  {I : OperationalState → Prop}

theorem bootstrapped_invariant (hstart : ∀ stamp, I (operationalState stamp))
    (hstep : ∀ s c s', I s → Effect s c s' → I s')
    (h : bootstrapWorld py institution actorId authorizationRef sourceLineage timestamp now = .ok l)
    (calls : List (Call × Keywords)) :
    ∃ s, (exec (next py) l calls).state = some s ∧ I s := by
  refine exec_invariant (I := fun l : Ledger => ∃ s, l.state = some s ∧ I s) ?_ ?_ calls
  · rintro l e ⟨s, hs, hI⟩
    rcases next_effect py hs e with hsame | ⟨_, s', hs', heffect⟩
    · rw [hsame]
      exact ⟨s, hs, hI⟩
    · exact ⟨s', hs', hstep s e.1 s' hI heffect⟩
  · obtain ⟨stamp, hstamp⟩ := bootstrapWorld_state h
    exact ⟨_, hstamp, hstart stamp⟩

theorem bootstrapped_along_iff {P : OperationalState → OperationalState → Prop}
    {Q : OperationalState → Call → Prop} (hstart : ∀ stamp, I (operationalState stamp))
    (hsame : ∀ s, I s → P s s)
    (hstep : ∀ s c s', I s → Effect s c s' → (P s s' ↔ Q s c) ∧ (Q s c → I s'))
    (h : bootstrapWorld py institution actorId authorizationRef sourceLineage timestamp now = .ok l)
    (calls : List (Call × Keywords)) :
    Along (next py) (fun l _ l' => l.Relates P l') l calls ↔
      Along (next py) (fun l e l' => l' ≠ l → l.Meets Q e.1) l calls := by
  obtain ⟨stamp, hstamp⟩ := bootstrapWorld_state h
  have step : ∀ l e, (∃ s, l.state = some s ∧ I s) →
      (l.Relates P (next py l e) ↔ (next py l e ≠ l → l.Meets Q e.1)) ∧
      ((next py l e ≠ l → l.Meets Q e.1) → ∃ s, (next py l e).state = some s ∧ I s) := by
    rintro l e ⟨s, hs, hI⟩
    rcases next_effect py hs e with heq | ⟨hne, s', hs', heffect⟩
    · rw [heq]
      refine ⟨iff_of_true ?_ (fun hne => absurd rfl hne), fun _ => ⟨s, hs, hI⟩⟩
      intro t t' ht ht'
      rw [hs] at ht ht'
      cases ht
      cases ht'
      exact hsame s hI
    · obtain ⟨hiff, hkeep⟩ := hstep s e.1 s' hI heffect
      have hmeets : (next py l e ≠ l → l.Meets Q e.1) ↔ Q s e.1 := by
        constructor
        · intro hmeets
          exact hmeets hne s hs
        · intro hQ _ t ht
          rw [hs] at ht
          cases ht
          exact hQ
      have hrelates : l.Relates P (next py l e) ↔ P s s' := by
        constructor
        · intro hrelates
          exact hrelates s s' hs hs'
        · intro hP t t' ht ht'
          rw [hs] at ht
          rw [hs'] at ht'
          cases ht
          cases ht'
          exact hP
      rw [hmeets, hrelates]
      exact ⟨hiff, fun hQ => ⟨s', hs', hkeep hQ⟩⟩
  constructor
  · refine Along.of_invariant (I := fun l : Ledger => ∃ s, l.state = some s ∧ I s) ?_
      ⟨_, hstamp, hstart stamp⟩
    intro l e hI hP
    have hQ := (step l e hI).1.mp hP
    exact ⟨hQ, (step l e hI).2 hQ⟩
  · refine Along.of_invariant (I := fun l : Ledger => ∃ s, l.state = some s ∧ I s) ?_
      ⟨_, hstamp, hstart stamp⟩
    intro l e hI hQ
    exact ⟨(step l e hI).1.mpr hQ, (step l e hI).2 hQ⟩

/-- Every state of a run has the property exactly when every recorded event meets the
condition. -/
theorem bootstrapped_has_iff {P : OperationalState → Prop} {Q : OperationalState → Call → Prop}
    (hstart : ∀ stamp, I (operationalState stamp)) (hI : ∀ s, I s → P s)
    (hstep : ∀ s c s', I s → Effect s c s' → (P s' ↔ Q s c) ∧ (Q s c → I s'))
    (h : bootstrapWorld py institution actorId authorizationRef sourceLineage timestamp now = .ok l)
    (calls : List (Call × Keywords)) :
    Along (next py) (fun _ _ l' => l'.Has P) l calls ↔
      Along (next py) (fun l e l' => l' ≠ l → l.Meets Q e.1) l calls := by
  rw [← bootstrapped_along_iff (P := fun _ => P) hstart hI hstep h calls]
  obtain ⟨stamp, hstamp⟩ := bootstrapWorld_state h
  -- a world that has a state keeps having one
  have hkeep : ∀ l e, (∃ s, l.state = some s) → ∃ s, (next py l e).state = some s := by
    rintro l e ⟨s, hs⟩
    rcases next_effect py hs e with heq | ⟨_, s', hs', _⟩
    · exact ⟨s, by rw [heq, hs]⟩
    · exact ⟨s', hs'⟩
  constructor
  · refine Along.of_invariant (I := fun l : Ledger => ∃ s, l.state = some s) ?_ ⟨_, hstamp⟩
    intro l e hl hhas
    exact ⟨fun _ s' _ hs' => hhas s' hs', hkeep l e hl⟩
  · refine Along.of_invariant (I := fun l : Ledger => ∃ s, l.state = some s) ?_ ⟨_, hstamp⟩
    rintro l e ⟨s, hs⟩ hrelates
    exact ⟨fun s' hs' => hrelates s s' hs hs', hkeep l e ⟨s, hs⟩⟩

end

/-- What holds of every state of a run holds of its last. -/
theorem Ledger.Has.along_exec {py : Python} {P : OperationalState → Prop} {l : Ledger}
    {calls : List (Call × Keywords)} {e : Call × Keywords}
    (h : Along (next py) (fun _ _ l' => l'.Has P) l (calls ++ [e])) :
    (exec (next py) l (calls ++ [e])).Has P := by
  have := ((along_append _ _ _ _ _).mp h).2.1
  rw [exec_append]
  exact this

/-! ## Reachable worlds -/

/-- A world before its first operation: it has the operational state it was bootstrapped with, or
none yet. -/
inductive Started (py : Python) : Ledger → Prop where
  | bootstrapped {institution : Json} {actorId authorizationRef : String}
      {sourceLineage : List String} {timestamp : Option String} {now : Instant} {l : Ledger}
      (h : bootstrapWorld py institution actorId authorizationRef sourceLineage timestamp now =
        .ok l) : Started py l
  | created (actorId authorizationRef : String) (sourceLineage : List String) :
      Started py (createdLedger none actorId authorizationRef sourceLineage)

/-- Operations lead to the world. -/
def Reachable (py : Python) (l : Ledger) : Prop :=
  ∃ start calls, Started py start ∧ l = exec (next py) start calls

/-- What a call leaves behind: what was there, an initialized state, or what its draft makes of the
state it read. -/
theorem next_drafted {py : Python} {I : OperationalState → Prop}
    (hstart : ∀ stamp, I (operationalState stamp))
    (hstep : ∀ (s : OperationalState) (c : Call) (k : Keywords) (d : Draft), I s →
      c.draft py k (some s) = .ok d → I (updates d.changes s))
    {l : Ledger} (h : l.Has I) (e : Call × Keywords) : (next py l e).Has I := by
  intro s' hs'
  rcases run_cases py l e with hsame | ⟨d, hdraft, hcommitted⟩
  · rw [show next py l e = l from hsame] at hs'
    exact h s' hs'
  · have hstate : applyChanges d.changes l.state = .ok (next py l e).state := hcommitted.state
    rw [hs'] at hstate
    cases hl : l.state with
    | some s =>
      rw [hl] at hdraft hstate
      rw [applyChanges_some] at hstate
      rw [← Option.some.inj (Except.ok.inj hstate)]
      exact hstep s e.1 e.2 d (h s hl) hdraft
    | none =>
      rw [hl] at hdraft hstate
      rcases draft_none hdraft with ⟨_, stamp, hchanges⟩ | ⟨o, stamp, hchanges⟩
      · rw [hchanges] at hstate
        cases hstate
        exact hstart stamp
      · rw [hchanges] at hstate
        cases hstate

/-- What every draft keeps holds in every world that operations lead to. -/
theorem Reachable.has_drafted {py : Python} {I : OperationalState → Prop}
    (hstart : ∀ stamp, I (operationalState stamp))
    (hstep : ∀ (s : OperationalState) (c : Call) (k : Keywords) (d : Draft), I s →
      c.draft py k (some s) = .ok d → I (updates d.changes s))
    {l : Ledger} (h : Reachable py l) : l.Has I := by
  obtain ⟨start, calls, hstarted, rfl⟩ := h
  refine exec_invariant (I := fun l : Ledger => l.Has I)
    (fun l e hl => next_drafted hstart hstep hl e) ?_ calls
  intro s hs
  cases hstarted with
  | bootstrapped hboot =>
    obtain ⟨stamp, hstamp⟩ := bootstrapWorld_state hboot
    rw [hstamp] at hs
    cases hs
    exact hstart stamp
  | created => cases hs

/-- What every effect keeps holds in every world that operations lead to. -/
theorem Reachable.has {py : Python} {I : OperationalState → Prop}
    (hstart : ∀ stamp, I (operationalState stamp)) (hstep : ∀ s c s', I s → Effect s c s' → I s')
    {l : Ledger} (h : Reachable py l) : l.Has I :=
  h.has_drafted hstart fun s c _ _ hI hd => hstep s c _ hI (draft_effect hd)

/-! ## Writing records -/

theorem exists_get_set {α : Type} {d : Dict String α} {id k : String} {v w : α}
    (h : d.get k = some v) : ∃ v', (d.set id w).get k = some v' := by
  rw [Dict.get_set]
  split
  · exact ⟨w, rfl⟩
  · exact ⟨v, h⟩

section
variable {s s' : OperationalState} {P : Plan → Prop}

/-- What holds of every plan still does when one that has it is written. -/
theorem forall_setPlan (h : ∀ id plan, s.plans.get id = some plan → P plan) {id : String}
    {plan : Plan} (hplan : P plan) (hs' : s'.plans = s.plans.set id plan) :
    ∀ id plan, s'.plans.get id = some plan → P plan := by
  intro id' plan' hplan'
  rw [hs', Dict.get_set] at hplan'
  split at hplan'
  · cases hplan'
    exact hplan
  · exact h id' plan' hplan'

/-- One plan is written after another. -/
theorem forall_setPlans (h : ∀ id plan, s.plans.get id = some plan → P plan)
    {oldId newId : String} {old new : Plan} (hold : P old) (hnew : P new)
    (hs' : s'.plans = (s.plans.set oldId old).set newId new) :
    ∀ id plan, s'.plans.get id = some plan → P plan :=
  forall_setPlan (s := { s with plans := s.plans.set oldId old }) (forall_setPlan h hold rfl)
    hnew hs'

end

end Edon.Operations
