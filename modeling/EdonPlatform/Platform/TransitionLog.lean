import EdonPlatform.Platform.ExecutionAssurance
import EdonPlatform.Lib.Run

/- The log of the transitions of execution commands
   (packages/platform-core/src/execution-assurance.ts), over histories of creations,
   dispatches and transitions.

   What is proved:
     1. `accounted_next_iff` — a call keeps the log accounted for exactly when it records if
        and only if it sets a status.
     2. `transition_log_iff` — so the log accounts for the statuses throughout a history
        exactly when each of its calls does.
     3. `revisit_unrecorded` — a status entered twice with one payload. -/
namespace Edon.Platform
open Transition Js Fallible

/-! ## Histories of calls -/

inductive ExecutionCall where
  | create (now : Int) (recordedAt : String) (r : ExecutionRequest)
  | dispatch (recordedAt : String) (command : ExecutionCommand)
  | transition (recordedAt : String) (command : ExecutionCommand)
      (origin : Option ExecutionStatus) (target : ExecutionStatus) (payload : Value)

/-- A change of the status of a command; there is none before its creation. -/
structure StatusChange where
  commandId : String
  origin : Option ExecutionStatus
  target : Option ExecutionStatus
  deriving DecidableEq

def ExecutionTransition.change (r : ExecutionTransition) : StatusChange :=
  ⟨r.commandId, r.fromStatus, some r.toStatus⟩

namespace ExecutionCall

def change : ExecutionCall → StatusChange
  | .create _ _ r => ⟨r.commandId, none, some .dispatchPending⟩
  | .dispatch _ command => ⟨command.commandId, some command.status, some .dispatchRejected⟩
  | .transition _ command origin target _ => ⟨command.commandId, origin, some target⟩

section
variable {σ ν : Type} (a : ShadowExecutionAssurance σ ν)

/-- The id under which the call records. -/
def recordId : ExecutionCall → String
  | .create _ _ r => a.transitionId r.commandId .dispatchPending pendingPayload
  | .dispatch _ command => a.transitionId command.commandId .dispatchRejected rejectedPayload
  | .transition _ command _ target payload => a.transitionId command.commandId target payload

def perform : ExecutionCall → σ → Except ExecutionError (ExecutionCommand × σ)
  | .create now recordedAt r => a.create now recordedAt r
  | .dispatch recordedAt command => a.dispatch recordedAt command
  | .transition recordedAt command origin target payload =>
    a.transition recordedAt command origin target payload

/-- Whether the call sets a status where it returns: a creation does where the id is free, a
transition where it starts from a status. -/
def Changes (t : σ) : ExecutionCall → Prop
  | .create _ _ r => a.repositories.find r.commandId t = none
  | .dispatch _ _ => True
  | .transition _ _ origin _ _ => origin ≠ none

/-- The call, where it returns, finds the id of its record free exactly when it sets a status. -/
def Recorded (t : σ) (c : ExecutionCall) : Prop :=
  ∀ p, c.perform a t = .ok p → (¬ a.repositories.taken (c.recordId a) t ↔ c.Changes a t)

end
end ExecutionCall

structure ExecutionHistory (σ : Type) where
  store : σ
  changes : List StatusChange := []

section
variable {σ ν : Type} (a : ShadowExecutionAssurance σ ν)

/-- The call is made, and a change of the status of its command that is seen is noted. -/
def ExecutionHistory.next (h : ExecutionHistory σ) (c : ExecutionCall) : ExecutionHistory σ :=
  match c.perform a h.store with
  | .error _ => h
  | .ok (_, store) =>
    let before := a.repositories.status c.change.commandId h.store
    let after := a.repositories.status c.change.commandId store
    if after = before then { h with store }
    else ⟨store, h.changes ++ [⟨c.change.commandId, before, after⟩]⟩

/-- The changes lead from one status to another, each from where the one before it ended. -/
def Links : Option ExecutionStatus → List StatusChange → Option ExecutionStatus → Prop
  | status, [], last => status = last
  | status, c :: changes, last => c.origin = status ∧ Links c.target changes last

def ofCommand (id : String) (changes : List StatusChange) : List StatusChange :=
  changes.filter fun c => c.commandId = id

/-- The log has one record for each change, in order, and the records of each command lead to
the status it has. -/
structure ExecutionHistory.Accounted (h : ExecutionHistory σ) : Prop where
  counted : (a.repositories.log h.store).map ExecutionTransition.change = h.changes
  linked : ∀ id, Links none
    (ofCommand id ((a.repositories.log h.store).map ExecutionTransition.change))
    (a.repositories.status id h.store)

/-- The log accounts for the changes after each of the calls. -/
def AlwaysAccounted (t : σ) (calls : List ExecutionCall) : Prop :=
  Along (ExecutionHistory.next a) (fun _ _ h => h.Accounted a) { store := t } calls

/-- Each of the calls records what it changes, where it is made. -/
def AlwaysRecorded (t : σ) (calls : List ExecutionCall) : Prop :=
  Along (ExecutionHistory.next a) (fun h c _ => c.Recorded a h.store) { store := t } calls

end

theorem links_append {status middle last : Option ExecutionStatus} {l m : List StatusChange}
    (hl : Links status l middle) (hm : Links middle m last) : Links status (l ++ m) last := by
  induction l generalizing status with
  | nil =>
    cases hl
    exact hm
  | cons c l ih => exact ⟨hl.1, ih hl.2⟩

section
variable {σ ν : Type} {a : ShadowExecutionAssurance σ ν}

/-- What a call that returned did: it set the status of its command or left all as they are,
and it recorded its change or nothing. -/
structure ExecutionCall.Effect (a : ShadowExecutionAssurance σ ν) (c : ExecutionCall) (t t' : σ) :
    Prop where
  before : c.Changes a t → a.repositories.status c.change.commandId t = c.change.origin
  after : c.Changes a t → a.repositories.status c.change.commandId t' = c.change.target
  moves : c.Changes a t → c.change.target ≠ c.change.origin
  elsewhere : ∀ id, ¬ (c.Changes a t ∧ id = c.change.commandId) →
    a.repositories.status id t' = a.repositories.status id t
  new : ¬ a.repositories.taken (c.recordId a) t →
    (a.repositories.log t').map ExecutionTransition.change =
      (a.repositories.log t).map ExecutionTransition.change ++ [c.change]
  old : a.repositories.taken (c.recordId a) t → a.repositories.log t' = a.repositories.log t

theorem ExecutionCall.effect_of (c : ExecutionCall) {t t₁ t' : σ} {command : ExecutionCommand}
    {r : ExecutionTransition}
    (hwrites : a.repositories.Writes (c.Changes a t) command t t₁)
    (hrecords : a.repositories.Records r t₁ t')
    (hid : command.commandId = c.change.commandId) (hstatus : some command.status = c.change.target)
    (hrecord : r.transitionId = c.recordId a) (hchange : r.change = c.change)
    (hbefore : c.Changes a t → a.repositories.status c.change.commandId t = c.change.origin)
    (hmoves : c.Changes a t → c.change.target ≠ c.change.origin) : c.Effect a t t' where
  before := hbefore
  moves := hmoves
  after := by
    intro hdone
    rw [ExecutionRepositories.status, hrecords.find, ← hid, hwrites.here hdone, ← hstatus]
    rfl
  elsewhere := by
    intro id hother
    rw [ExecutionRepositories.status, hrecords.find, hwrites.elsewhere id (hid ▸ hother)]
    rfl
  new := by
    intro hfree
    obtain ⟨payload, hlog⟩ := hrecords.new fun htaken =>
      hfree (hrecord ▸ (hwrites.taken _).mp htaken)
    rw [hlog, List.map_append, hwrites.log, ← hchange]
    rfl
  old := by
    intro htaken
    rw [hrecords.old ((hwrites.taken _).mpr (hrecord ▸ htaken)), hwrites.log]

theorem transition_effect (hlaws : a.repositories.Lawful) {recordedAt : String}
    {command returned : ExecutionCommand} {origin : Option ExecutionStatus}
    {target : ExecutionStatus} {payload : Value} {t t' : σ}
    (h : a.transition recordedAt command origin target payload t = .ok (returned, t')) :
    (ExecutionCall.transition recordedAt command origin target payload).Effect a t t' := by
  obtain ⟨hstarts, t₁, hwrites, hrecords⟩ := transition_ok hlaws h
  refine ExecutionCall.effect_of _ hwrites hrecords rfl rfl rfl rfl ?_ ?_
  · intro hsome
    obtain ⟨status, horigin⟩ := Option.ne_none_iff_exists'.mp hsome
    exact (hstarts status horigin).2.trans horigin.symm
  · intro hsome hsame
    obtain ⟨hallowed, -⟩ := hstarts target hsame.symm
    exact not_mem_transitions target hallowed

theorem perform_effect (hlaws : a.repositories.Lawful) {c : ExecutionCall} {t t' : σ}
    {returned : ExecutionCommand} (h : c.perform a t = .ok (returned, t')) : c.Effect a t t' := by
  cases c with
  | create now recordedAt r =>
    obtain ⟨-, t₁, hwrites, hrecords⟩ := create_ok hlaws h
    refine ExecutionCall.effect_of _ hwrites hrecords rfl rfl rfl rfl ?_ ?_
    · intro hfree
      show (a.repositories.find r.commandId t).map Prod.fst = none
      rw [show a.repositories.find r.commandId t = none from hfree]
      rfl
    · intro _ hsame
      cases hsame
  | dispatch recordedAt command =>
    have heffect := transition_effect hlaws h
    exact {
      before := fun _ => heffect.before (Option.some_ne_none _)
      after := fun _ => heffect.after (Option.some_ne_none _)
      moves := fun _ => heffect.moves (Option.some_ne_none _)
      elsewhere := fun id hother => heffect.elsewhere id fun hhere => hother ⟨trivial, hhere.2⟩
      new := heffect.new
      old := heffect.old }
  | transition recordedAt command origin target payload => exact transition_effect hlaws h

/-- A call that returned notes its change exactly where it set the status. -/
theorem next_changes {h : ExecutionHistory σ} {c : ExecutionCall} {returned : ExecutionCommand}
    {t' : σ} (hperform : c.perform a h.store = .ok (returned, t')) (heffect : c.Effect a h.store t') :
    (h.next a c).store = t' ∧
    (c.Changes a h.store → (h.next a c).changes = h.changes ++ [c.change]) ∧
    (¬ c.Changes a h.store → (h.next a c).changes = h.changes) := by
  unfold ExecutionHistory.next
  rw [hperform]
  dsimp only
  by_cases hdone : c.Changes a h.store
  · rw [heffect.before hdone, heffect.after hdone, if_neg (heffect.moves hdone)]
    exact ⟨rfl, fun _ => rfl, fun hnot => absurd hdone hnot⟩
  · rw [if_pos (heffect.elsewhere _ fun hhere => hdone hhere.1)]
    exact ⟨rfl, fun hyes => absurd hyes hdone, fun _ => rfl⟩

theorem ofCommand_append (id : String) (changes : List StatusChange) (c : StatusChange) :
    ofCommand id (changes ++ [c]) =
      ofCommand id changes ++ if c.commandId = id then [c] else [] := by
  unfold ofCommand
  rw [List.filter_append, List.filter_singleton]
  by_cases hid : c.commandId = id <;> simp [hid]

/-- A call keeps the log accounted for exactly when it records what it changes. -/
theorem accounted_next_iff (hlaws : a.repositories.Lawful) (h : ExecutionHistory σ)
    (c : ExecutionCall) (haccounted : h.Accounted a) :
    (h.next a c).Accounted a ↔ c.Recorded a h.store := by
  cases hperform : c.perform a h.store with
  | error e =>
    have hsame : h.next a c = h := by
      unfold ExecutionHistory.next
      rw [hperform]
    rw [hsame]
    refine iff_of_true haccounted ?_
    intro p hp
    rw [hperform] at hp
    cases hp
  | ok p =>
    obtain ⟨returned, t'⟩ := p
    have heffect := perform_effect hlaws hperform
    obtain ⟨hstore, hnoted, hunnoted⟩ := next_changes hperform heffect
    have hrecorded : c.Recorded a h.store ↔
        (¬ a.repositories.taken (c.recordId a) h.store ↔ c.Changes a h.store) :=
      ⟨fun hall => hall _ hperform, fun hone _ _ => hone⟩
    rw [hrecorded]
    have hlengths := congrArg List.length haccounted.counted
    by_cases htaken : a.repositories.taken (c.recordId a) h.store <;>
      by_cases hdone : c.Changes a h.store
    · -- the change is lost
      refine iff_of_false (fun hnext => ?_) fun hiff => hiff.mpr hdone htaken
      have hcounted := hnext.counted
      rw [hstore, hnoted hdone, heffect.old htaken, haccounted.counted] at hcounted
      have := congrArg List.length hcounted
      rw [List.length_append, List.length_singleton] at this
      omega
    · refine iff_of_true ⟨?_, fun id => ?_⟩ (iff_of_false (not_not.mpr htaken) hdone)
      · rw [hstore, hunnoted hdone, heffect.old htaken]
        exact haccounted.counted
      · rw [hstore, heffect.old htaken, heffect.elsewhere id fun hhere => hdone hhere.1]
        exact haccounted.linked id
    · refine iff_of_true ⟨?_, fun id => ?_⟩ (iff_of_true htaken hdone)
      · rw [hstore, hnoted hdone, heffect.new htaken, haccounted.counted]
      · rw [hstore, heffect.new htaken, ofCommand_append]
        by_cases hid : c.change.commandId = id
        · subst hid
          rw [if_pos rfl, heffect.after hdone]
          refine links_append (haccounted.linked _) ⟨?_, rfl⟩
          exact (heffect.before hdone).symm
        · rw [if_neg hid, List.append_nil, heffect.elsewhere id fun hhere => hid hhere.2.symm]
          exact haccounted.linked id
    · -- nothing changed, and a record was made
      refine iff_of_false (fun hnext => ?_) fun hiff => hdone (hiff.mp htaken)
      have hcounted := hnext.counted
      rw [hstore, hunnoted hdone, heffect.new htaken, haccounted.counted] at hcounted
      have := congrArg List.length hcounted
      rw [List.length_append, List.length_singleton] at this
      omega

/-- Along a run that starts with nothing stored. -/
theorem accounted_along_iff (hlaws : a.repositories.Lawful) {t : σ}
    (hlog : a.repositories.log t = []) (hempty : ∀ id, a.repositories.find id t = none)
    (calls : List ExecutionCall) : AlwaysAccounted a t calls ↔ AlwaysRecorded a t calls := by
  refine along_keeps_iff (accounted_next_iff hlaws) ⟨?_, fun id => ?_⟩ calls
  · rw [hlog]
    rfl
  · rw [hlog]
    show none = (a.repositories.find id t).map Prod.fst
    rw [hempty]
    rfl

end

/-- **The transition log.** In every sequence of creations, dispatches and transitions, in the
database as in memory, the log has after each call one record for every change of a status so
far, in order, and the records of each command lead to the status it has, exactly when every call
that returns finds the id of its record free if and only if it sets a status. -/
theorem transition_log_iff (js : Runtime) (tenantId : String) (calls : List ExecutionCall) :
    (∀ pg, AlwaysAccounted ⟨js, postgres pg tenantId⟩ {} calls ↔
      AlwaysRecorded ⟨js, postgres pg tenantId⟩ {} calls) ∧
    (AlwaysAccounted ⟨js, inMemory tenantId⟩ {} calls ↔
      AlwaysRecorded ⟨js, inMemory tenantId⟩ {} calls) :=
  ⟨fun pg => accounted_along_iff (postgres_lawful pg tenantId) rfl (fun _ => rfl) calls,
    accounted_along_iff (inMemory_lawful tenantId) rfl (fun _ => rfl) calls⟩

/-! ## A status entered twice -/

def moved (origin target : ExecutionStatus) : ExecutionCall :=
  .transition "2026-07-24T16:00:02Z"
    (sampleAssurance.pending (executionRequest "P-1" "key-1")) (some origin) target (.obj [])

/-- A command that is acknowledged, not known of, and acknowledged again. -/
def acknowledgedTwice : List ExecutionCall :=
  [.create 0 "2026-07-24T16:00:00Z" (executionRequest "P-1" "key-1"),
    moved .dispatchPending .dispatched, moved .dispatched .acknowledged,
    moved .acknowledged .outcomeUnknown, moved .outcomeUnknown .acknowledged]

/-- The second acknowledgement has no record. -/
theorem revisit_unrecorded : ¬ AlwaysAccounted sampleAssurance {} acknowledgedTwice := by
  rintro ⟨-, -, -, -, haccounted, -⟩
  have hlengths := congrArg List.length haccounted.counted
  rw [List.length_map] at hlengths
  exact absurd hlengths (by decide +kernel)

end Edon.Platform
