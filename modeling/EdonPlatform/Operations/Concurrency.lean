import EdonPlatform.Operations.Goals

/- Operations of one world that run at the same time. An operation reads the state in
   one transaction and appends its event in another, so between the two any number of
   other operations may append; a thread holds what it drafted until then. The append
   checks the version the caller passed, not the version that was read.

   The model keeps, with each draft, the version and the state it was computed from,
   and with each recorded event the state its changes were applied to. Neither is
   stored by the code.

   What is proved: `no_lost_update_iff`, that over any interleaving a recorded event
   was computed from the state its changes were applied to exactly when the version
   its caller expected was not ahead of the version that was read, and
   `future_version_overwrites`, an interleaving in which it was ahead. -/
namespace Edon.Operations
open Transition

/-- Every operation but `ingest_observation` reads the state. -/
def Call.reads : Call → Bool
  | .ingestObservation .. => false
  | _ => true

/-- An operation that has read and not yet appended. -/
structure Reading where
  call : Call
  keywords : Keywords
  draft : Draft
  version : Int
  state : Option OperationalState

/-- A recorded event: what it was drafted from, and the state it was applied to. -/
structure Recorded where
  reading : Reading
  before : Option OperationalState

structure System where
  world : Ledger
  reading : Nat → Option Reading
  recorded : List Recorded

def System.start (l : Ledger) : System := ⟨l, fun _ => none, []⟩

inductive Event where
  | read (thread : Nat) (call : Call) (keywords : Keywords)
  | append (thread : Nat)
  | crash (thread : Nat)

def System.hold (s : System) (thread : Nat) (r : Option Reading) : System :=
  { s with reading := fun t => if t = thread then r else s.reading t }

def step (py : Python) (s : System) : Event → System
  | .read thread call keywords =>
    match call.draft py keywords s.world.state with
    | .error _ => s.hold thread none
    | .ok draft =>
      s.hold thread (some ⟨call, keywords, draft, s.world.version, s.world.state⟩)
  | .append thread =>
    match s.reading thread with
    | none => s
    | some r =>
      let world := (s.world.append r.draft r.keywords).2
      { s.hold thread none with
        world
        recorded :=
          -- an event was recorded when the version moved
          if world.version = s.world.version then s.recorded
          else s.recorded ++ [⟨r, s.world.state⟩] }
  | .crash thread => s.hold thread none

/-- The changes of the event were computed from the snapshot of the version it
expected, and applied to that same state. -/
def Recorded.Current (e : Recorded) : Prop :=
  e.reading.call.reads = true →
    e.reading.version = e.reading.keywords.expectedVersion ∧ e.reading.state = e.before

/-- The caller's version was not ahead of the one that was read. -/
def Reading.InTime (r : Reading) : Prop :=
  r.call.reads = true → r.keywords.expectedVersion ≤ r.version

/-- The same, of the step that reads. -/
def System.ReadsInTime (s : System) : Event → Prop
  | .read _ call keywords => call.reads = true → keywords.expectedVersion ≤ s.world.version
  | _ => True

/-! ## One step -/

/-- What holds between the world and what the threads have read. -/
structure Sound (l : Ledger) (s : System) : Prop where
  reading : ∀ t r, s.reading t = some r →
    r.version ≤ s.world.version ∧ (r.version = s.world.version → r.state = s.world.state)
  recorded : ∀ e ∈ s.recorded, e.reading.version ≤ e.reading.keywords.expectedVersion ∧
    (e.reading.version = e.reading.keywords.expectedVersion → e.reading.state = e.before)
  entries : s.world.entries.map (fun e => e.request.changes) =
    l.entries.map (fun e => e.request.changes) ++
      s.recorded.map (fun e => e.reading.draft.changes)

theorem hold_reading {s : System} {thread t : Nat} {held : Option Reading} {r : Reading}
    (h : (s.hold thread held).reading t = some r) : held = some r ∨ s.reading t = some r := by
  unfold System.hold at h
  simp only at h
  split at h
  · exact .inl h
  · exact .inr h

theorem sound_hold_none {l : Ledger} {s : System} (h : Sound l s) (thread : Nat) :
    Sound l (s.hold thread none) := by
  refine ⟨?_, h.recorded, h.entries⟩
  intro t r hr
  rcases hold_reading hr with hr | hr
  · cases hr
  · exact h.reading t r hr

/-- A recorded event leaves every other reading behind. -/
theorem sound_recorded {l world : Ledger} {s : System} {thread : Nat} {r : Reading}
    (h : Sound l s) (hr : s.reading thread = some r)
    (hcommitted : s.world.Committed r.draft r.keywords world) :
    Sound l { s.hold thread none with
      world
      recorded := s.recorded ++ [⟨r, s.world.state⟩] } := by
  have hversion := hcommitted.version
  refine ⟨?_, ?_, ?_⟩
  · intro t r' hr'
    rcases hold_reading hr' with hr' | hr'
    · cases hr'
    · obtain ⟨hle, _⟩ := h.reading t r' hr'
      show r'.version ≤ world.version ∧ (r'.version = world.version → _)
      refine ⟨by omega, ?_⟩
      intro heq
      omega
  · intro e he
    rcases List.mem_append.mp he with he | he
    · exact h.recorded e he
    · cases List.mem_singleton.mp he
      rw [hcommitted.expected]
      exact h.reading thread r hr
  · obtain ⟨request, hentries, _, hchanges, _⟩ := hcommitted.entries
    show world.entries.map _ = _
    rw [hentries, List.map_append, List.map_append, h.entries, List.append_assoc]
    simp [hchanges]

theorem sound_step (py : Python) {l : Ledger} (s : System) (e : Event) (h : Sound l s) :
    Sound l (step py s e) := by
  cases e with
  | read thread call keywords =>
    simp only [step]
    split
    · exact sound_hold_none h thread
    · refine ⟨?_, h.recorded, h.entries⟩
      intro t r hr
      rcases hold_reading hr with hr | hr
      · cases hr
        exact ⟨le_refl _, fun _ => rfl⟩
      · exact h.reading t r hr
  | append thread =>
    simp only [step]
    split
    · exact h
    · next r hr =>
      have hcases := append_cases s.world r.draft r.keywords
      generalize (s.world.append r.draft r.keywords).2 = world at hcases ⊢
      rcases hcases with rfl | hcommitted
      · rw [if_pos rfl]
        exact sound_hold_none h thread
      · have hmoved : world.version ≠ s.world.version := by
          have hversion := hcommitted.version
          omega
        rw [if_neg hmoved]
        exact sound_recorded h hr hcommitted
  | crash thread => exact sound_hold_none h thread

theorem sound_start (l : Ledger) : Sound l (System.start l) := by
  refine ⟨?_, ?_, ?_⟩
  · intro t r hr
    cases hr
  · intro e he
    cases he
  · exact (List.append_nil _).symm

/-- A recorded event was computed from what it was applied to exactly when its caller
was in time. -/
theorem current_iff {l : Ledger} {s : System} (h : Sound l s) {e : Recorded}
    (he : e ∈ s.recorded) : e.Current ↔ e.reading.InTime := by
  obtain ⟨hle, hstate⟩ := h.recorded e he
  constructor
  · intro hcurrent hreads
    exact le_of_eq (hcurrent hreads).1.symm
  · intro htime hreads
    have heq := le_antisymm hle (htime hreads)
    exact ⟨heq, hstate heq⟩

/-! ## Runs -/

/-- Every operation that has read, appended or not, was in time. -/
def System.InTime (s : System) : Prop :=
  (∀ t r, s.reading t = some r → r.InTime) ∧ ∀ e ∈ s.recorded, e.reading.InTime

theorem inTime_step (py : Python) {s : System} {e : Event} (h : s.InTime)
    (he : s.ReadsInTime e) : (step py s e).InTime := by
  have hnone : ∀ thread t r, (s.hold thread none).reading t = some r → r.InTime := by
    intro thread t r hr
    rcases hold_reading hr with hr | hr
    · cases hr
    · exact h.1 t r hr
  cases e with
  | read thread call keywords =>
    simp only [step]
    split
    · exact ⟨hnone thread, h.2⟩
    · refine ⟨?_, h.2⟩
      intro t r hr
      rcases hold_reading hr with hr | hr
      · cases hr
        exact he
      · exact h.1 t r hr
  | append thread =>
    simp only [step]
    split
    · exact h
    · next r hr =>
      refine ⟨hnone thread, ?_⟩
      intro e he
      simp only at he
      split at he
      · exact h.2 e he
      · rcases List.mem_append.mp he with he | he
        · exact h.2 e he
        · cases List.mem_singleton.mp he
          exact h.1 thread r hr
  | crash thread => exact ⟨hnone thread, h.2⟩

theorem inTime_run (py : Python) {s : System} {events : List Event} (h : s.InTime)
    (hall : Along (step py) (fun s e _ => s.ReadsInTime e) s events) :
    (exec (step py) s events).InTime := by
  induction events generalizing s with
  | nil => exact h
  | cons e events ih => exact ih (inTime_step py h hall.1) hall.2

/-- **An update is lost exactly when a caller expects a version from the future.** Over
any interleaving of operations on any world, with any expected versions: a recorded
event was computed from the snapshot of the version it expected, and applied to that
state, if and only if its caller's version was not ahead of the version that was read;
so no update is lost in a run in which every operation reads in time. -/
theorem no_lost_update_iff (py : Python) (l : Ledger) (events : List Event) :
    (∀ e ∈ (exec (step py) (System.start l) events).recorded,
      e.Current ↔ e.reading.InTime) ∧
    (Along (step py) (fun s e _ => s.ReadsInTime e) (System.start l) events →
      ∀ e ∈ (exec (step py) (System.start l) events).recorded, e.Current) := by
  have hsound : Sound l (exec (step py) (System.start l) events) :=
    exec_invariant (fun s e => sound_step py s e) (sound_start l) events
  refine ⟨fun e he => current_iff hsound he, ?_⟩
  intro hall e he
  have hstart : (System.start l).InTime := by
    refine ⟨?_, ?_⟩
    · intro t r hr
      cases hr
    · intro e he
      cases he
  exact (current_iff hsound he).mpr ((inTime_run py hstart hall).2 e he)

/-! ## An update that is lost -/

/-- Both threads read version 1; the caller of the second expects version 2. -/
def futureVersion : List Event :=
  [.read 0 (.createGoal "goal-1" "Restore the service" 50 none [] none none [] true)
      (sampleKeywords "event-1" 0),
   .append 0,
   .read 0 (.transitionGoal "goal-1" "PAUSED" "waiting for parts") (sampleKeywords "event-2" 1),
   .read 1 (.transitionGoal "goal-1" "BLOCKED" "no operator") (sampleKeywords "event-3" 2),
   .append 0,
   .append 1]

theorem future_versions :
    (exec (step samplePython) (System.start sampleLedger) futureVersion).recorded.map
      (fun e => (e.reading.call.reads, e.reading.version, e.reading.keywords.expectedVersion)) =
        [(true, 0, 0), (true, 1, 1), (true, 1, 2)] := by
  decide +kernel

/-- **An event overwrites a goal it did not read.** The goal is paused at version 2; the
event that expected version 2 was computed at version 1 and blocks it. -/
theorem future_version_overwrites :
    (exec (step samplePython) (System.start sampleLedger) futureVersion).world.goalStatus
      "goal-1" = some .blocked ∧
    ¬ ∀ events, ∀ e ∈ (exec (step samplePython) (System.start sampleLedger) events).recorded,
      e.Current := by
  refine ⟨by decide +kernel, ?_⟩
  intro hall
  have hmem : ((true, 1, 2) : Bool × Int × Int) ∈
      (exec (step samplePython) (System.start sampleLedger) futureVersion).recorded.map
        (fun e => (e.reading.call.reads, e.reading.version,
          e.reading.keywords.expectedVersion)) := by
    rw [future_versions]
    simp
  obtain ⟨e, he, heq⟩ := List.mem_map.mp hmem
  obtain ⟨hreads, heq⟩ := Prod.mk.inj heq
  obtain ⟨hread, hexpected⟩ := Prod.mk.inj heq
  have hcurrent := (hall futureVersion e he hreads).1
  omega

end Edon.Operations
