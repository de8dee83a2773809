import EdonPlatform.Institutional.Reproducibility
import EdonPlatform.Lib.Cycles

/- When the events of an accepted composition are executed.

   Events are executed by time, then by the place of their mechanism in the causal order, and then
   by the text of their id, which has the number of the transition in three digits or more.

   What is proved:
     1. `turns_planned` — the events are those of the transitions that the mechanisms list, with
        their times.
     2. `causality_iff` — the causal edges are respected exactly where the times respect them: the
        order of the mechanisms decides only between events at one time, and an edge counts for it
        only if its relation is written in capitals.
     3. `declared_order_iff` — the transitions of a mechanism with one time keep their order
        exactly where the texts of their numbers do, which those from 1000 on do not. -/
namespace Edon.Composition
open KeyedSort Checkpoints

/-! ## The order of execution -/

/-- `a` is executed before `b`. -/
def Trajectory.Before (t : Trajectory) (a b : Event) : Prop :=
  [a.eventId, b.eventId].Sublist (t.intermediateStates.map IntermediateState.eventId)

section
variable {rt : Runtime} {initial : State} {events : List Event}
variable {horizons : List Institutional.Horizon} {t : Trajectory}

/-- The events are executed one after the other. -/
theorem executed_events (h : replayTrajectory rt initial events horizons = .ok t) :
    t.intermediateStates.map IntermediateState.eventId = t.events.map Event.eventId := by
  obtain ⟨passage, _, hpassage, rfl⟩ := replay_ok h
  show (passage.done.map (intermediateState rt)).map IntermediateState.eventId =
    (sortBy Event.key events).map Event.eventId
  rw [← (pass_walk hpassage).1.items, List.map_map, List.map_map]
  rfl

theorem keys_ascending (h : replayTrajectory rt initial events horizons = .ok t) :
    t.events.Pairwise fun a b => a.key < b.key := by
  have hnodup := replay_nodup h
  have hne : t.events.Pairwise fun a b => a.eventId ≠ b.eventId := List.pairwise_map.mp hnodup
  have hsorted : t.events.Pairwise fun a b => a.key ≤ b.key := by
    rw [replay_events h]
    exact pairwise_sortBy events
  refine (hsorted.and hne).imp fun {a b} hab => lt_of_le_of_ne hab.1 fun heq => hab.2 ?_
  exact congrArg (fun k => (ofLex (ofLex k).2).2) heq

theorem before_iff (h : replayTrajectory rt initial events horizons = .ok t) {a b : Event}
    (ha : a ∈ t.events) (hb : b ∈ t.events) : t.Before a b ↔ a.key < b.key := by
  have hnodup := replay_nodup h
  rw [← pair_sublist_iff (keys_ascending h) ha hb]
  unfold Trajectory.Before
  rw [executed_events h]
  constructor
  · intro hsublist
    obtain ⟨l, hl, heq⟩ := List.sublist_map_iff.mp hsublist
    obtain ⟨a', l, rfl, ha', heq⟩ := List.map_eq_cons_iff.mp heq.symm
    obtain ⟨b', l, rfl, hb', heq⟩ := List.map_eq_cons_iff.mp heq
    cases List.map_eq_nil_iff.mp heq
    have hmem := hl.subset
    rw [List.inj_on_of_nodup_map hnodup (hmem List.mem_cons_self) ha ha',
      List.inj_on_of_nodup_map hnodup (hmem (List.mem_cons_of_mem _ List.mem_cons_self)) hb hb'] at hl
    exact hl
  · exact fun hsublist => hsublist.map Event.eventId

end

/-- By time, place and id. -/
theorem key_lt_iff {a b : Event} : a.key < b.key ↔ a.atSeconds < b.atSeconds ∨
    a.atSeconds = b.atSeconds ∧ (a.order < b.order ∨ a.order = b.order ∧ a.eventId < b.eventId) := by
  unfold Event.key
  rw [Prod.Lex.toLex_lt_toLex, Prod.Lex.toLex_lt_toLex]

/-! ## What the mechanisms plan -/

section
variable (rt : Runtime)

/-- The edge inhibits its target. -/
def Edge.inhibits (e : Edge) : Bool :=
  Institutional.upperCase rt.ir e.relationType = Relation.inhibits.name &&
    (e.conditions.getD "inhibit_target" (.bool true)).toOption.any PyValue.truthy

def inhibited (edges : List Edge) (key : String) : Bool :=
  edges.any fun e => e.target.key = key && e.inhibits rt

/-- The keys of the mechanisms, sorted. -/
def keysOf (mechanisms : List Mechanism) : List String :=
  (Dict.ofList (mechanisms.map fun m => (m.ref.key, m))).keys

/-- The place of a mechanism in the causal order. -/
def placeOf (mechanisms : List Mechanism) (edges : List Edge) (key : String) : Nat :=
  ((orderOf (keysOf mechanisms) edges).toOption.getD []).idxOf key

/-- The number and the time of the transition, if it is executed. -/
def plannedTransition (place : Nat) (transition : PyValue × Nat) : Option (Nat × Int) :=
  (executable transition.1).map fun x =>
    (transition.2, ((transitionTime rt place x.1).toOption).getD 0)

/-- The numbers and the times of the transitions of a mechanism that are executed. -/
def planned (mechanisms : List Mechanism) (edges : List Edge) (m : Mechanism) : List (Nat × Int) :=
  if inhibited rt edges m.ref.key then []
  else (((transitionsOf m).toOption.getD []).zipIdx).filterMap
    (plannedTransition rt (placeOf mechanisms edges m.ref.key))

end

/-- The event is that of a planned transition. -/
structure Realizes (runId : String) (place : Nat) (m : Mechanism) (p : Nat × Int) (a : Event) :
    Prop where
  mechanism : a.mechanismRef = m.ref.key
  order : a.order = place
  eventId : a.eventId = eventIdOf runId place p.1
  atSeconds : a.atSeconds = p.2

section
variable {rt : Runtime}

theorem relation_named {text : String} {relation : Relation}
    (h : named Relation.name executableRelations text = some relation) : relation.name = text := by
  have hname := List.find?_some h
  exact of_decide_eq_true hname

theorem Relation.name_injective : Function.Injective Relation.name := by
  intro a b h
  cases a <;> cases b <;> first | rfl | exact absurd h (by decide)

theorem edgeEffect_inhibits {ir : Institutional.IR} {keys : List String} {e : Edge} {effect : Effect}
    (h : edgeEffect rt ir keys e = .ok effect) (key : String) :
    effect = .inhibits key ↔ (e.target.key = key && e.inhibits rt) = true := by
  obtain ⟨relation, hrelation, h⟩ := bind_ok.mp h
  have hname := relation_named (orRaise_ok.mp hrelation)
  obtain ⟨_, _, h⟩ := bind_ok.mp h
  obtain ⟨_, _, h⟩ := bind_ok.mp h
  obtain ⟨_, _, h⟩ := bind_ok.mp h
  obtain ⟨_, _, h⟩ := bind_ok.mp h
  obtain ⟨_, _, h⟩ := bind_ok.mp h
  obtain ⟨_, _, h⟩ := bind_ok.mp h
  obtain ⟨_, _, h⟩ := bind_ok.mp h
  unfold Edge.inhibits
  rw [← hname]
  have hother : relation ≠ .inhibits → (effect = .inhibits key ↔
      (decide (e.target.key = key) && (decide (relation.name = Relation.inhibits.name) &&
        (e.conditions.getD "inhibit_target" (.bool true)).toOption.any PyValue.truthy)) = true) := by
    intro hne
    have hnot : ¬ relation.name = Relation.inhibits.name := fun heq =>
      hne (Relation.name_injective heq)
    rw [decide_eq_false hnot, Bool.false_and, Bool.and_false]
    refine iff_of_false ?_ Bool.false_ne_true
    rintro rfl
    cases relation with
    | inhibits => exact hne rfl
    | amplifies =>
      obtain ⟨_, _, h⟩ := bind_ok.mp h
      cases h
    | mitigates =>
      obtain ⟨_, _, h⟩ := bind_ok.mp h
      cases h
    | composesWith => cases h
    | preconditionFor => cases h
    | causes => cases h
  by_cases hinhibits : relation = .inhibits
  · subst hinhibits
    obtain ⟨flag, hflag, h⟩ := bind_ok.mp h
    cases h
    rw [hflag, decide_eq_true rfl, Bool.true_and]
    show _ ↔ (decide _ && flag.truthy) = true
    cases flag.truthy <;> simp
  · exact hother hinhibits

theorem inhibits_iff {ir : Institutional.IR} {keys : List String} {edges : List Edge}
    {effects : List Effect} (h : edgeEffects rt ir keys [] edges = .ok effects) (key : String) :
    Effect.inhibits key ∈ effects ↔ inhibited rt edges key = true := by
  obtain ⟨hall, -, -⟩ := edgeEffects_ok.mp h
  unfold inhibited
  rw [List.any_eq_true]
  constructor
  · intro hmem
    obtain ⟨e, he, heffect⟩ := mem_of_mapM hall _ hmem
    exact ⟨e, he, (edgeEffect_inhibits heffect key).mp rfl⟩
  · rintro ⟨e, he, hinhibits⟩
    obtain ⟨effect, hmem, heffect⟩ := result_of_mapM hall e he
    rw [(edgeEffect_inhibits heffect key).mpr hinhibits] at hmem
    exact hmem

/-! ## The events of the plan -/

theorem eventOf_realizes {runId : String} {ir : Institutional.IR} {p : Placement} {index : Nat}
    {fields : List (String × PyValue)} {operation : PyValue} {a : Event} {m : Mechanism}
    (hkey : p.key = m.ref.key) (h : eventOf rt runId ir p index fields operation = .ok a) :
    Realizes runId p.place m (index, ((transitionTime rt p.place fields).toOption).getD 0) a := by
  obtain ⟨_, _, h⟩ := bind_ok.mp h
  obtain ⟨_, _, h⟩ := bind_ok.mp h
  obtain ⟨_, _, h⟩ := bind_ok.mp h
  obtain ⟨time, htime, h⟩ := bind_ok.mp h
  cases h
  exact ⟨hkey, rfl, rfl, by rw [htime]; rfl⟩

theorem transitionEvent_some {runId : String} {ir : Institutional.IR} {p : Placement}
    {transition : PyValue × Nat} {a : Event} {m : Mechanism} (hkey : p.key = m.ref.key)
    (h : transitionEvent rt runId ir p transition = .ok (some a)) :
    ∃ q, plannedTransition rt p.place transition = some q ∧ Realizes runId p.place m q a := by
  unfold transitionEvent at h
  cases hexecutable : executable transition.1 with
  | none =>
    rw [hexecutable] at h
    cases h
  | some x =>
    rw [hexecutable] at h
    obtain ⟨a', ha', h⟩ := bind_ok.mp h
    cases h
    unfold plannedTransition
    rw [hexecutable]
    exact ⟨_, rfl, eventOf_realizes hkey ha'⟩

theorem transitionEvent_planned {runId : String} {ir : Institutional.IR} {p : Placement}
    {transition : PyValue × Nat} {o : Option Event} {q : Nat × Int}
    (h : transitionEvent rt runId ir p transition = .ok o)
    (hq : plannedTransition rt p.place transition = some q) : ∃ a, o = some a := by
  unfold plannedTransition at hq
  unfold transitionEvent at h
  cases hexecutable : executable transition.1 with
  | none =>
    rw [hexecutable] at hq
    cases hq
  | some x =>
    rw [hexecutable] at h
    obtain ⟨a, _, h⟩ := bind_ok.mp h
    cases h
    exact ⟨a, rfl⟩

/-- The events of the turn of a mechanism are those of the transitions it plans. -/
theorem step_realizes {runId : String} {ir : Institutional.IR} {map : Dict String Mechanism}
    {effects : List Effect} {turn : String × Nat} {step : CausalStep × List Event}
    (h : mechanismStep rt runId ir map effects turn = .ok step) :
    ∃ m, map.get turn.1 = some m ∧
      (m.ref.key = turn.1 → ∀ qs, qs = (if Effect.inhibits turn.1 ∈ effects then []
          else (((transitionsOf m).toOption.getD []).zipIdx).filterMap
            (plannedTransition rt turn.2)) →
        (∀ a ∈ step.2, ∃ q ∈ qs, Realizes runId turn.2 m q a) ∧
        ∀ q ∈ qs, ∃ a ∈ step.2, Realizes runId turn.2 m q a) := by
  obtain ⟨m, hm, h⟩ := bind_ok.mp h
  obtain ⟨_, _, h⟩ := bind_ok.mp h
  obtain ⟨_, _, h⟩ := bind_ok.mp h
  refine ⟨m, orRaise_ok.mp hm, ?_⟩
  rintro hkey qs rfl
  split at h
  · next hinhibits =>
    cases h
    rw [if_pos hinhibits]
    exact ⟨fun _ ha => absurd ha List.not_mem_nil, fun _ hq => absurd hq List.not_mem_nil⟩
  · next hinhibits =>
    obtain ⟨events, hevents, h⟩ := bind_ok.mp h
    cases h
    obtain ⟨transitions, htransitions, hevents⟩ := bind_ok.mp hevents
    obtain ⟨events', hall, hevents⟩ := bind_ok.mp hevents
    obtain ⟨options, hoptions, hall⟩ := bind_ok.mp hall
    cases hall
    obtain ⟨_, _, hevents⟩ := bind_ok.mp hevents
    cases hevents
    rw [if_neg hinhibits, htransitions]
    constructor
    · intro a ha
      obtain ⟨o, ho, rfl⟩ := List.mem_filterMap.mp ha
      obtain ⟨transition, hmem, htransition⟩ := mem_of_mapM hoptions _ ho
      obtain ⟨q, hq, hrealizes⟩ := transitionEvent_some hkey.symm htransition
      exact ⟨q, List.mem_filterMap.mpr ⟨transition, hmem, hq⟩, hrealizes⟩
    · intro q hq
      obtain ⟨transition, hmem, hq⟩ := List.mem_filterMap.mp hq
      obtain ⟨o, ho, htransition⟩ := result_of_mapM hoptions transition hmem
      obtain ⟨a, rfl⟩ := transitionEvent_planned htransition hq
      obtain ⟨q', hq', hrealizes⟩ := transitionEvent_some hkey.symm htransition
      cases hq.symm.trans hq'
      exact ⟨a, List.mem_filterMap.mpr ⟨some a, ho, rfl⟩, hrealizes⟩

variable {runId : String} {document : Json} {mechanisms : List Mechanism} {edges : List Edge}
variable {seed : Int} {run : Run}

/-- What an accepted composition has gone through. -/
theorem compose_stages (h : compose rt runId document mechanisms edges seed = .ok run) :
    ∃ ir effects order turns,
      (mechanisms.map fun m => m.ref.key).Nodup ∧
      edgeEffects rt ir (keysOf mechanisms) [] edges = .ok effects ∧
      orderOf (keysOf mechanisms) edges = .ok order ∧
      order.zipIdx.mapM (mechanismStep rt runId ir
        (Dict.ofList (mechanisms.map fun m => (m.ref.key, m))) effects) = .ok turns ∧
      replayTrajectory rt (initialState ir) (turns.flatMap Prod.snd) ir.horizons =
        .ok run.trajectory := by
  obtain ⟨ir, hir, h⟩ := bind_ok.mp h
  obtain ⟨_, _, h⟩ := bind_ok.mp h
  obtain ⟨_, hlength, h⟩ := bind_ok.mp h
  obtain ⟨effects, heffects, h⟩ := bind_ok.mp h
  obtain ⟨order, horder, h⟩ := bind_ok.mp h
  obtain ⟨turns, hturns, h⟩ := bind_ok.mp h
  obtain ⟨trajectory, htrajectory, h⟩ := bind_ok.mp h
  obtain ⟨_, _, h⟩ := bind_ok.mp h
  obtain ⟨_, _, h⟩ := bind_ok.mp h
  cases h
  have hnodup := Dict.nodup_of_length
    ((of_decide_eq_true (require_ok.mp hlength)).trans (List.length_map ..).symm)
  rw [List.map_map] at hnodup
  exact ⟨ir, effects, order, turns, hnodup, heffects, horder, hturns, htrajectory⟩

theorem get_mechanism (hnodup : (mechanisms.map fun m => m.ref.key).Nodup) {m : Mechanism} {key : String} :
    (Dict.ofList (mechanisms.map fun m => (m.ref.key, m))).get key = some m ↔
      m ∈ mechanisms ∧ m.ref.key = key := by
  have hkeys : ((mechanisms.map fun m => (m.ref.key, m)).map Prod.fst).Nodup := by
    rw [List.map_map]
    exact hnodup
  constructor
  · intro hget
    obtain ⟨m', hm', heq⟩ := List.mem_map.mp (Dict.mem_of_get_ofList hget)
    cases heq
    exact ⟨hm', rfl⟩
  · rintro ⟨hm, rfl⟩
    rw [Dict.get_ofList_of_nodup hkeys]
    exact Assoc.find_of_mem_nodup hkeys (List.mem_map.mpr ⟨m, hm, rfl⟩)

theorem mem_keysOf (hnodup : (mechanisms.map fun m => m.ref.key).Nodup) {key : String} :
    key ∈ keysOf mechanisms ↔ ∃ m ∈ mechanisms, m.ref.key = key := by
  unfold keysOf
  rw [Dict.mem_keys, Option.isSome_iff_exists]
  exact exists_congr fun m => get_mechanism hnodup

/-- The ends of the edges of an accepted composition are its mechanisms. -/
theorem ends_known {ir : Institutional.IR} {keys : List String} {effects : List Effect}
    (h : edgeEffects rt ir keys [] edges = .ok effects) :
    ∀ e ∈ edges, e.source.key ∈ keys ∧ e.target.key ∈ keys := by
  intro e he
  obtain ⟨_, _, heffect⟩ := result_of_mapM (edgeEffects_ok.mp h).1 e he
  exact edgeEffect_ends heffect

theorem mem_turns {order : List String} (hnodup : order.Nodup) {turn : String × Nat} :
    turn ∈ order.zipIdx ↔ turn.1 ∈ order ∧ turn.2 = order.idxOf turn.1 := by
  rw [List.mem_zipIdx_iff_getElem?]
  constructor
  · intro hget
    obtain ⟨hlt, heq⟩ := List.getElem?_eq_some_iff.mp hget
    rw [← heq]
    exact ⟨List.getElem_mem hlt, (List.Nodup.idxOf_getElem hnodup _ hlt).symm⟩
  · rintro ⟨hmem, heq⟩
    rw [heq]
    exact List.getElem?_idxOf hmem

/-- The turns of an accepted composition and the plans of its mechanisms. -/
theorem turns_planned (h : compose rt runId document mechanisms edges seed = .ok run) :
    (∀ a ∈ run.trajectory.events, ∃ m ∈ mechanisms, ∃ q ∈ planned rt mechanisms edges m,
      Realizes runId (placeOf mechanisms edges m.ref.key) m q a) ∧
    ∀ m ∈ mechanisms, ∀ q ∈ planned rt mechanisms edges m, ∃ a ∈ run.trajectory.events,
      Realizes runId (placeOf mechanisms edges m.ref.key) m q a := by
  obtain ⟨ir, effects, order, turns, hnodup, heffects, horder, hturns, htrajectory⟩ :=
    compose_stages h
  have hkeys : (keysOf mechanisms).Nodup := Dict.keys_nodup _
  obtain ⟨hperm, -⟩ := orderOf_ok hkeys (fun e he => (ends_known heffects e he).2) horder
  have horderNodup := hperm.nodup_iff.mpr hkeys
  have hplace : ∀ key, placeOf mechanisms edges key = order.idxOf key := by
    intro key
    unfold placeOf
    rw [horder]
    rfl
  have hmem : ∀ a, a ∈ run.trajectory.events ↔ ∃ turn ∈ turns, a ∈ turn.2 := by
    intro a
    rw [replay_events htrajectory, mem_sortBy, List.mem_flatMap]
  have hplanned : ∀ m, planned rt mechanisms edges m =
      if Effect.inhibits m.ref.key ∈ effects then []
      else (((transitionsOf m).toOption.getD []).zipIdx).filterMap
        (plannedTransition rt (order.idxOf m.ref.key)) := by
    intro m
    unfold planned
    simp only [hplace, inhibits_iff heffects]
  constructor
  · intro a ha
    obtain ⟨step, hstep, ha⟩ := (hmem a).mp ha
    obtain ⟨turn, hturn, hok⟩ := mem_of_mapM hturns _ hstep
    obtain ⟨hturnMem, hidx⟩ := (mem_turns horderNodup).mp hturn
    obtain ⟨m, hget, hrealizes⟩ := step_realizes hok
    obtain ⟨hm, hkey⟩ := (get_mechanism hnodup).mp hget
    have hqs := hplanned m
    rw [hkey, ← hidx] at hqs
    obtain ⟨q, hq, hreal⟩ := (hrealizes hkey _ hqs).1 a ha
    refine ⟨m, hm, q, hq, ?_⟩
    rw [hplace, hkey, ← hidx]
    exact hreal
  · intro m hm q hq
    have hmemOrder : m.ref.key ∈ order := hperm.mem_iff.mpr ((mem_keysOf hnodup).mpr ⟨m, hm, rfl⟩)
    have hturn : (m.ref.key, order.idxOf m.ref.key) ∈ order.zipIdx :=
      (mem_turns horderNodup).mpr ⟨hmemOrder, rfl⟩
    obtain ⟨step, hstep, hok⟩ := result_of_mapM hturns _ hturn
    obtain ⟨m', hget, hrealizes⟩ := step_realizes hok
    cases ((get_mechanism hnodup).mpr ⟨hm, rfl⟩).symm.trans hget
    obtain ⟨a, ha, hreal⟩ := (hrealizes rfl _ (hplanned m)).2 q hq
    rw [hplace]
    exact ⟨a, (hmem a).mpr ⟨step, hstep, ha⟩, hreal⟩

/-! ## Causal edges -/

variable (rt) in
/-- The relation of the edge is causal, in any case. -/
def Edge.causes (e : Edge) : Bool :=
  Institutional.upperCase rt.ir e.relationType = Relation.causes.name ∨
    Institutional.upperCase rt.ir e.relationType = Relation.preconditionFor.name

variable (rt) in
/-- All events of the source of a causal edge are executed before all events of its target. -/
def Run.Causal (edges : List Edge) (run : Run) : Prop :=
  ∀ e ∈ edges, e.causes rt = true → ∀ a ∈ run.trajectory.events, ∀ b ∈ run.trajectory.events,
    a.mechanismRef = e.source.key → b.mechanismRef = e.target.key → run.trajectory.Before a b

variable (rt) in
/-- No transition of the target of a causal edge has an earlier time than one of the source. Where
the relation is not written in capitals, it has a later one, or the same where the order has the
source first. -/
def CausalTimes (mechanisms : List Mechanism) (edges : List Edge) : Prop :=
  ∀ e ∈ edges, e.causes rt = true → ∀ s ∈ mechanisms, ∀ t ∈ mechanisms,
    s.ref.key = e.source.key → t.ref.key = e.target.key →
    ∀ p ∈ planned rt mechanisms edges s, ∀ q ∈ planned rt mechanisms edges t,
      if e.causal = true then p.2 ≤ q.2
      else p.2 < q.2 ∨ p.2 = q.2 ∧
        placeOf mechanisms edges s.ref.key < placeOf mechanisms edges t.ref.key

instance (t : Trajectory) (a b : Event) : Decidable (t.Before a b) :=
  inferInstanceAs (Decidable ([a.eventId, b.eventId].Sublist _))

instance (edges : List Edge) (run : Run) : Decidable (run.Causal rt edges) :=
  inferInstanceAs (Decidable (∀ e ∈ edges, e.causes rt = true → ∀ a ∈ run.trajectory.events,
    ∀ b ∈ run.trajectory.events, a.mechanismRef = e.source.key → b.mechanismRef = e.target.key →
      run.trajectory.Before a b))

instance (mechanisms : List Mechanism) (edges : List Edge) :
    Decidable (CausalTimes rt mechanisms edges) :=
  inferInstanceAs (Decidable (∀ e ∈ edges, e.causes rt = true → ∀ s ∈ mechanisms, ∀ t ∈ mechanisms,
    s.ref.key = e.source.key → t.ref.key = e.target.key →
    ∀ p ∈ planned rt mechanisms edges s, ∀ q ∈ planned rt mechanisms edges t,
      if e.causal = true then p.2 ≤ q.2
      else p.2 < q.2 ∨ p.2 = q.2 ∧
        placeOf mechanisms edges s.ref.key < placeOf mechanisms edges t.ref.key))

/-- A relation in capitals puts the source before the target. -/
theorem placeOf_lt (h : compose rt runId document mechanisms edges seed = .ok run) {e : Edge}
    (he : e ∈ edges) (hcausal : e.causal = true) :
    placeOf mechanisms edges e.source.key < placeOf mechanisms edges e.target.key := by
  obtain ⟨ir, effects, order, turns, hnodup, heffects, horder, -⟩ := compose_stages h
  have hends := ends_known heffects
  obtain ⟨hperm, hordered⟩ := orderOf_ok (Dict.keys_nodup _) (fun e he => (hends e he).2) horder
  unfold placeOf
  rw [horder]
  exact hordered.idxOf_lt (hperm.mem_iff.mpr (hends e he).2)
    (mem_incomingOf.mpr ⟨e, he, hcausal, rfl, rfl⟩)

theorem placeOf_inj (h : compose rt runId document mechanisms edges seed = .ok run)
    {s t : Mechanism} (hs : s ∈ mechanisms) (heq : placeOf mechanisms edges s.ref.key = placeOf
      mechanisms edges t.ref.key) :
    s.ref.key = t.ref.key := by
  obtain ⟨ir, effects, order, turns, hnodup, heffects, horder, -⟩ := compose_stages h
  obtain ⟨hperm, -⟩ := orderOf_ok (Dict.keys_nodup _)
    (fun e he => (ends_known heffects e he).2) horder
  unfold placeOf at heq
  rw [horder] at heq
  exact (List.idxOf_inj (hperm.mem_iff.mpr ((mem_keysOf hnodup).mpr ⟨s, hs, rfl⟩))).mp heq

/-- **Causal order.** The events of the source of a causal edge are executed before those of its
target, for every such edge, exactly if the times of their transitions are in that order. -/
theorem causality_iff (h : compose rt runId document mechanisms edges seed = .ok run) :
    run.Causal rt edges ↔ CausalTimes rt mechanisms edges := by
  obtain ⟨hevents, hplans⟩ := turns_planned h
  obtain ⟨ir, effects, order, turns, hnodup, -, -, -, htrajectory⟩ := compose_stages h
  constructor
  · intro hcausal e he hcauses s hs t ht hsource htarget p hp q hq
    obtain ⟨a, ha, hreal⟩ := hplans s hs p hp
    obtain ⟨b, hb, hreal'⟩ := hplans t ht q hq
    have hbefore := hcausal e he hcauses a ha b hb (hreal.mechanism.trans hsource)
      (hreal'.mechanism.trans htarget)
    rw [before_iff htrajectory ha hb, key_lt_iff, hreal.atSeconds, hreal'.atSeconds] at hbefore
    split
    · rcases hbefore with hlt | ⟨heq, -⟩
      · exact hlt.le
      · exact heq.le
    · rcases hbefore with hlt | ⟨heq, hplace | ⟨hplace, hid⟩⟩
      · exact .inl hlt
      · rw [hreal.order, hreal'.order] at hplace
        exact .inr ⟨heq, Int.ofNat_lt.mp hplace⟩
      · -- the edge leads from the mechanism to itself
        rw [hreal.order, hreal'.order] at hplace
        have hself := placeOf_inj h hs (Int.ofNat_inj.mp hplace)
        have hagain := hcausal e he hcauses a ha a ha (hreal.mechanism.trans hsource)
          (hreal.mechanism.trans (hself.trans htarget))
        exact absurd ((before_iff htrajectory ha ha).mp hagain) (lt_irrefl _)
  · intro htimes e he hcauses a ha b hb hsource htarget
    obtain ⟨s, hs, p, hp, hreal⟩ := hevents a ha
    obtain ⟨t, ht, q, hq, hreal'⟩ := hevents b hb
    have hs' : s.ref.key = e.source.key := hreal.mechanism.symm.trans hsource
    have ht' : t.ref.key = e.target.key := hreal'.mechanism.symm.trans htarget
    have htime := htimes e he hcauses s hs t ht hs' ht' p hp q hq
    rw [before_iff htrajectory ha hb, key_lt_iff, hreal.atSeconds, hreal'.atSeconds, hreal.order,
      hreal'.order, Int.ofNat_lt]
    split at htime
    · next hwritten =>
      have hplace := placeOf_lt h he hwritten
      rw [← hs', ← ht'] at hplace
      rcases lt_or_eq_of_le htime with hlt | heq
      · exact .inl hlt
      · exact .inr ⟨heq, .inl hplace⟩
    · exact htime.imp_right fun htie => ⟨htie.1, .inl htie.2⟩

end

/-- A cause at 5 seconds and its effect at 20 seconds. -/
theorem causality_respected : ∃ run,
    compose sampleRuntime "run" (Institutional.sampleDocument "HOSPITAL")
      [sampleMechanism "a" 5, sampleMechanism "b" 20] [sampleEdge "a" "b" "CAUSES"] 0 = .ok run ∧
    run.Causal sampleRuntime [sampleEdge "a" "b" "CAUSES"] := by
  have haccepted : (compose sampleRuntime "run" (Institutional.sampleDocument "HOSPITAL")
      [sampleMechanism "a" 5, sampleMechanism "b" 20] [sampleEdge "a" "b" "CAUSES"] 0).toOption.any
      (fun _ => true) = true := by decide +kernel
  obtain ⟨run, hrun, -⟩ := Fallible.ok_of_any haccepted
  exact ⟨run, hrun, (causality_iff hrun).mpr (by decide +kernel)⟩

/-- A cause at 20 seconds is accepted with its effect at 5 seconds, which is executed first. -/
theorem causality_violated : ∃ run,
    compose sampleRuntime "run" (Institutional.sampleDocument "HOSPITAL")
      [sampleMechanism "a" 20, sampleMechanism "b" 5] [sampleEdge "a" "b" "CAUSES"] 0 = .ok run ∧
    ¬ run.Causal sampleRuntime [sampleEdge "a" "b" "CAUSES"] := by
  have hviolated : (compose sampleRuntime "run" (Institutional.sampleDocument "HOSPITAL")
      [sampleMechanism "a" 20, sampleMechanism "b" 5] [sampleEdge "a" "b" "CAUSES"] 0).toOption.any
      (fun run => decide (¬ run.Causal sampleRuntime [sampleEdge "a" "b" "CAUSES"])) = true := by
    decide +kernel
  obtain ⟨run, hrun, hnot⟩ := Fallible.ok_of_any hviolated
  exact ⟨run, hrun, of_decide_eq_true hnot⟩

/-! ## The texts of the numbers -/

theorem digits_length (k n : Nat) : (Calendar.digits k n).length = k := by
  induction k generalizing n with
  | zero => rfl
  | succ k ih => rw [Calendar.digits, List.length_cons, ih]

theorem digits_add (k d n : Nat) (h : n < 10 ^ (k + d)) :
    Calendar.digits (k + d) n =
      Calendar.digits k (n / 10 ^ d) ++ Calendar.digits d (n % 10 ^ d) := by
  induction k generalizing n with
  | zero =>
    rw [Nat.zero_add] at h ⊢
    rw [Nat.mod_eq_of_lt h]
    rfl
  | succ k ih =>
    have hpow : 10 ^ (k + d) = 10 ^ d * 10 ^ k := by rw [Nat.add_comm, Nat.pow_add]
    have hfirst : n / 10 ^ (k + d) = n / 10 ^ d / 10 ^ k := by rw [hpow, Nat.div_div_eq_div_mul]
    have hrest : n % 10 ^ (k + d) / 10 ^ d = n / 10 ^ d % 10 ^ k := by
      rw [hpow, Nat.mod_mul_right_div_self]
    have hlast : n % 10 ^ (k + d) % 10 ^ d = n % 10 ^ d := by
      rw [hpow, Nat.mod_mul_right_mod]
    rw [Nat.succ_add, Calendar.digits, ih _ (Nat.mod_lt _ (by positivity)), hfirst, hrest, hlast,
      Calendar.digits, List.cons_append]

theorem append_lt_iff (x : List Char) {l m : List Char} : x ++ l < x ++ m ↔ l < m := by
  constructor
  · intro h
    rcases lt_trichotomy l m with hlt | rfl | hgt
    · exact hlt
    · exact absurd h (lt_irrefl _)
    · exact absurd h (lt_asymm (List.append_left_lt hgt))
  · exact List.append_left_lt

theorem lt_pow_width (n : Nat) : n < 10 ^ width n := by
  have hlength : (Nat.toDigits 10 n).length ≤ width n := Nat.le_max_right _ _
  exact (Nat.length_toDigits_le_iff (by decide) (lt_of_lt_of_le (by decide) (Nat.le_max_left 3 _))).mp
    hlength

theorem width_mono {n m : Nat} (h : n ≤ m) : width n ≤ width m := by
  refine max_le_max le_rfl ?_
  refine (Nat.length_toDigits_le_iff (by decide) Nat.length_toDigits_pos).mpr (h.trans_lt ?_)
  exact (Nat.length_toDigits_le_iff (by decide) Nat.length_toDigits_pos).mp le_rfl

/-- The text of the smaller number comes first, if the number is at most what the other one has in
as many digits. -/
theorem digits_lt_iff {n m : Nat} (h : n < m) :
    Calendar.digits (width n) n < Calendar.digits (width m) m ↔
      n ≤ m / 10 ^ (width m - width n) := by
  have hwidth : width m = width n + (width m - width n) :=
    (Nat.add_sub_cancel' (width_mono h.le)).symm
  have hm := lt_pow_width m
  generalize width m - width n = d at hwidth ⊢
  rw [hwidth] at hm ⊢
  rw [digits_add _ _ _ hm]
  have hhead : m / 10 ^ d < 10 ^ width n := by
    rw [Nat.div_lt_iff_lt_mul (by positivity), ← Nat.pow_add]
    exact hm
  rcases lt_trichotomy n (m / 10 ^ d) with hlt | heq | hgt
  · refine iff_of_true ?_ hlt.le
    have hdigits := Calendar.digits_lt hlt hhead [] (Calendar.digits d (m % 10 ^ d))
    rwa [List.append_nil] at hdigits
  · refine iff_of_true ?_ heq.le
    have hd : 0 < d := by
      by_contra hzero
      rw [Nat.eq_zero_of_not_pos hzero, Nat.pow_zero, Nat.div_one] at heq
      exact h.ne heq
    obtain ⟨d, rfl⟩ := Nat.exists_eq_succ_of_ne_zero hd.ne'
    have hlonger : [] < Calendar.digits (d + 1) (m % 10 ^ (d + 1)) := List.nil_lt_cons _ _
    have hless := (append_lt_iff (Calendar.digits (width n) n)).mpr hlonger
    rw [List.append_nil] at hless
    rw [← heq]
    exact hless
  · refine iff_of_false ?_ (not_le.mpr hgt)
    have hdigits := Calendar.digits_lt hgt (lt_pow_width n) (Calendar.digits d (m % 10 ^ d)) []
    rw [List.append_nil] at hdigits
    exact lt_asymm hdigits

theorem eventIdOf_lt_iff {runId : String} {place i j : Nat} (h : i < j) :
    eventIdOf runId place i < eventIdOf runId place j ↔ i ≤ j / 10 ^ (width j - width i) := by
  unfold eventIdOf padded
  generalize runId ++ ":" ++ String.ofList (Calendar.digits (width place) place) ++ ":" = before
  rw [String.lt_iff, String.toList_append, String.toList_append, append_lt_iff,
    String.toList_ofList, String.toList_ofList]
  exact digits_lt_iff h

theorem eventIdOf_inj {runId : String} {place i j : Nat}
    (h : eventIdOf runId place i = eventIdOf runId place j) : i = j := by
  by_contra hne
  have hdigits : Calendar.digits (width i) i = Calendar.digits (width j) j := by
    have hpadded : padded i = padded j := (String.append_right_inj _).mp h
    exact String.ofList_injective hpadded
  have hwidth : width i = width j := by
    rw [← digits_length (width i) i, hdigits, digits_length]
  have hless : ∀ {n m : Nat}, n < m → width n = width m →
      Calendar.digits (width n) n ≠ Calendar.digits (width m) m := by
    intro n m hlt hsame
    have hdigits := Calendar.digits_lt hlt (lt_pow_width m) [] []
    rw [List.append_nil, List.append_nil, ← hsame] at hdigits
    rw [← hsame]
    exact ne_of_lt hdigits
  rcases Nat.lt_or_gt_of_ne hne with hlt | hgt
  · exact hless hlt hwidth hdigits
  · exact hless hgt hwidth.symm hdigits.symm

/-! ## Declared order -/

/-- The event of the transition with a number in the list of a mechanism. -/
structure Event.OfTransition (runId key : String) (index : Nat) (a : Event) : Prop where
  mechanism : a.mechanismRef = key
  eventId : a.eventId = eventIdOf runId a.order.toNat index

/-- The transitions of a mechanism with one time are executed in the order of the list. -/
def Run.DeclaredOrder (runId : String) (mechanisms : List Mechanism) (run : Run) : Prop :=
  ∀ m ∈ mechanisms, ∀ i j, i < j → ∀ a ∈ run.trajectory.events, ∀ b ∈ run.trajectory.events,
    a.OfTransition runId m.ref.key i → b.OfTransition runId m.ref.key j →
      a.atSeconds = b.atSeconds → run.trajectory.Before a b

/-- Of two transitions with one time, the number of the first is at most the leading digits of that
of the second, as many of them as it has itself. -/
def NumbersOrdered (rt : Runtime) (mechanisms : List Mechanism) (edges : List Edge) : Prop :=
  ∀ m ∈ mechanisms, ∀ p ∈ planned rt mechanisms edges m, ∀ q ∈ planned rt mechanisms edges m,
    p.1 < q.1 → p.2 = q.2 → p.1 ≤ q.1 / 10 ^ (width q.1 - width p.1)

instance (rt : Runtime) (mechanisms : List Mechanism) (edges : List Edge) :
    Decidable (NumbersOrdered rt mechanisms edges) :=
  inferInstanceAs (Decidable (∀ m ∈ mechanisms, ∀ p ∈ planned rt mechanisms edges m,
    ∀ q ∈ planned rt mechanisms edges m, p.1 < q.1 → p.2 = q.2 →
      p.1 ≤ q.1 / 10 ^ (width q.1 - width p.1)))

section
variable {rt : Runtime} {runId : String} {document : Json} {mechanisms : List Mechanism}
variable {edges : List Edge} {seed : Int} {run : Run}

theorem Realizes.ofTransition {place : Nat} {m : Mechanism} {q : Nat × Int} {a : Event}
    (h : Realizes runId place m q a) : a.OfTransition runId m.ref.key q.1 where
  mechanism := h.mechanism
  eventId := by rw [h.order, h.eventId, Int.toNat_natCast]

/-- The number of a transition is that of the plan. -/
theorem Realizes.index {place index : Nat} {m : Mechanism} {q : Nat × Int} {a : Event} {key : String}
    (h : Realizes runId place m q a) (ha : a.OfTransition runId key index) : q.1 = index :=
  eventIdOf_inj (h.ofTransition.eventId.symm.trans ha.eventId)

/-- Two transitions of a mechanism with one time are executed in the order of their texts. -/
theorem before_of_realizes (h : compose rt runId document mechanisms edges seed = .ok run)
    {m : Mechanism} {place : Nat} {p q : Nat × Int} {a b : Event} (ha : a ∈ run.trajectory.events)
    (hb : b ∈ run.trajectory.events) (hp : Realizes runId place m p a)
    (hq : Realizes runId place m q b) (hlt : p.1 < q.1) (htime : p.2 = q.2) :
    run.trajectory.Before a b ↔ p.1 ≤ q.1 / 10 ^ (width q.1 - width p.1) := by
  obtain ⟨ir, effects, order, turns, -, -, -, -, htrajectory⟩ := compose_stages h
  rw [before_iff htrajectory ha hb, key_lt_iff, hp.atSeconds, hq.atSeconds, hp.order, hq.order,
    hp.eventId, hq.eventId, htime, ← @eventIdOf_lt_iff runId place _ _ hlt]
  simp only [lt_irrefl, true_and, false_or]

/-- **Declared order.** The transitions of every mechanism that share a time are executed as they
are listed exactly if the texts of their numbers are in that order. -/
theorem declared_order_iff (h : compose rt runId document mechanisms edges seed = .ok run) :
    run.DeclaredOrder runId mechanisms ↔ NumbersOrdered rt mechanisms edges := by
  obtain ⟨hevents, hplans⟩ := turns_planned h
  obtain ⟨ir, effects, order, turns, hnodup, -, -, -, htrajectory⟩ := compose_stages h
  constructor
  · intro hdeclared m hm p hp q hq hlt htime
    obtain ⟨a, ha, hreal⟩ := hplans m hm p hp
    obtain ⟨b, hb, hreal'⟩ := hplans m hm q hq
    have hsame : a.atSeconds = b.atSeconds := by rw [hreal.atSeconds, hreal'.atSeconds, htime]
    exact (before_of_realizes h ha hb hreal hreal' hlt htime).mp
      (hdeclared m hm p.1 q.1 hlt a ha b hb hreal.ofTransition hreal'.ofTransition hsame)
  · intro hnumbers m hm i j hlt a ha b hb hi hj hsame
    obtain ⟨s, hs, p, hp, hreal⟩ := hevents a ha
    obtain ⟨t, ht, q, hq, hreal'⟩ := hevents b hb
    have hsm : s = m := List.inj_on_of_nodup_map hnodup hs hm (hreal.mechanism.symm.trans hi.mechanism)
    have htm : t = m := List.inj_on_of_nodup_map hnodup ht hm (hreal'.mechanism.symm.trans hj.mechanism)
    subst hsm htm
    have hpi := hreal.index hi
    have hqj := hreal'.index hj
    have hless : p.1 < q.1 := by rw [hpi, hqj]; exact hlt
    have htime : p.2 = q.2 := by rw [← hreal.atSeconds, ← hreal'.atSeconds, hsame]
    exact (before_of_realizes h ha hb hreal hreal' hless htime).mpr
      (hnumbers t hm p hp q hq hless htime)

/-- The texts of the first 1000 numbers are in order. -/
theorem numbers_ordered_of_lt
    (hcount : ∀ m ∈ mechanisms, ∀ q ∈ planned rt mechanisms edges m, q.1 < 1000) :
    NumbersOrdered rt mechanisms edges := by
  intro m hm p hp q hq hlt _
  have hwidth : ∀ n < 1000, width n = 3 := by
    intro n hn
    exact max_eq_left ((Nat.length_toDigits_le_iff (by decide) (by decide)).mpr hn)
  rw [hwidth _ (hcount m hm p hp), hwidth _ (hcount m hm q hq)]
  exact hlt.le.trans_eq (Nat.div_one _).symm

end

/-- A mechanism whose list has two transitions that are executed, with some before and between them
that are not. -/
def sampleList (before between : Nat) : Mechanism where
  ref := ⟨"a", "1"⟩
  specification :=
    let transition (level : Int) : PyValue := .dict [("operation", .str "SET"),
      ("target_object_id", .str "R"), ("attribute", .str "level"), ("value", .int level)]
    .dict [("state_transitions", .list (List.replicate before (.dict []) ++ transition 1 ::
      List.replicate between (.dict []) ++ [transition 2]))]

theorem declared_order_short : ∃ run,
    compose sampleRuntime "run" (Institutional.sampleDocument "HOSPITAL") [sampleList 0 1] [] 0 =
      .ok run ∧ run.DeclaredOrder "run" [sampleList 0 1] := by
  have haccepted : (compose sampleRuntime "run" (Institutional.sampleDocument "HOSPITAL")
      [sampleList 0 1] [] 0).toOption.any (fun _ => true) = true := by decide +kernel
  obtain ⟨run, hrun, -⟩ := Fallible.ok_of_any haccepted
  exact ⟨run, hrun, (declared_order_iff hrun).mpr (by decide +kernel)⟩

/-- The transition with the number 1000 is executed before the one with the number 101. -/
theorem declared_order_long : ∃ run,
    compose sampleRuntime "run" (Institutional.sampleDocument "HOSPITAL") [sampleList 101 898] [] 0 =
      .ok run ∧ ¬ run.DeclaredOrder "run" [sampleList 101 898] := by
  have hexecuted : (compose sampleRuntime "run" (Institutional.sampleDocument "HOSPITAL")
      [sampleList 101 898] [] 0).toOption.any (fun run =>
        ∃ a ∈ run.trajectory.events, ∃ b ∈ run.trajectory.events,
          (a.mechanismRef = "a@1" ∧ a.eventId = eventIdOf "run" a.order.toNat 101) ∧
          (b.mechanismRef = "a@1" ∧ b.eventId = eventIdOf "run" b.order.toNat 1000) ∧
          a.atSeconds = b.atSeconds ∧ ¬ run.trajectory.Before a b) = true := by decide +kernel
  obtain ⟨run, hrun, hfound⟩ := Fallible.ok_of_any hexecuted
  obtain ⟨a, ha, b, hb, ⟨hra, hia⟩, ⟨hrb, hib⟩, hsame, hnot⟩ := of_decide_eq_true hfound
  refine ⟨run, hrun, fun hdeclared => hnot ?_⟩
  exact hdeclared _ List.mem_cons_self 101 1000 (by decide) a ha b hb ⟨hra, hia⟩ ⟨hrb, hib⟩ hsame

end Edon.Composition
