import EdonPlatform.Common.Contracts
import EdonPlatform.Lib.Run
import EdonPlatform.Lib.Search
import EdonPlatform.Lib.SimplePaths

/- The provenance graph (edon/provenance/graph.py): nodes and edges that are only added, where an
   edge is refused when its target already reaches its source.

   What is proved:
     1. `cycle_refused_iff` — between known nodes an edge is refused for a cycle exactly when its
        target reaches its source.
     2. `stays_acyclic` — over every run of calls the graph has no cycle, and a call that is
        rejected leaves it alone.
     3. `trace_paths_once_iff` — the paths that are traced are the simple paths, and each is
        listed once exactly when no step of one has parallel edges.

   Correspondence (Python ↔ Lean):
     `NODE_TYPES`, `RELATIONS`, `EVIDENCE_STATUSES` ↔ `nodeTypes`, `relations`, `evidenceStatuses`
     `_identifier`, `_timestamp`, `_sha256`         ↔ `identifierOf`, `timestamp`, `sha256`
     `_metadata`                                    ↔ `metadataOf`
     `record_node`, `record_edge`                   ↔ `Graph.recordNode`, `Graph.recordEdge`
     `_reachable`                                   ↔ `Graph.reachable`
     `trace_paths`                                  ↔ `Graph.tracePaths` -/
namespace Edon.Provenance
open Transition Relation

def nodeTypes : List String :=
  ["SOURCE", "STATE_ASSERTION", "STATE_PROJECTION", "C1_INFERENCE", "PLAN",
   "OPTIMIZATION_CANDIDATE", "AUTHORIZATION", "COMMIT", "OUTCOME", "ACTIONNET_EXPERIENCE",
   "ARTIFACT"]

def relations : List String :=
  ["DERIVED_FROM", "INFORMED", "PROPOSED", "OPTIMIZED", "AUTHORIZED", "COMMITTED", "RESULTED_IN",
   "CAPTURED_AS", "CONTESTS"]

def evidenceStatuses : List String :=
  ["DECLARED", "OBSERVED_ORDER", "INTERVENTION_VERIFIED", "CONTESTED"]

def graphError (message : String) : PyError := ⟨.provenanceGraphError, message⟩

def cycleError : PyError := graphError "provenance edge would create a cycle"

structure Node where
  nodeId : String
  nodeType : String
  payloadSha256 : String
  occurredAt : String
  availableToControllerAt : String
  metadata : PyValue

structure Edge where
  edgeId : String
  sourceNodeId : String
  targetNodeId : String
  relation : String
  evidenceStatus : String
  evidenceRefs : List String
  recordedAt : String

/-- The arguments of `record_node`. -/
structure NodeCall where
  nodeId : PyValue
  nodeType : PyValue
  payloadSha256 : PyValue
  occurredAt : PyValue
  availableToControllerAt : PyValue
  metadata : PyValue := .null

/-- The arguments of `record_edge`. -/
structure EdgeCall where
  edgeId : PyValue
  sourceNodeId : PyValue
  targetNodeId : PyValue
  relation : PyValue
  evidenceStatus : PyValue
  evidenceRefs : PyValue
  recordedAt : PyValue

structure Graph where
  tenantId : String
  worldId : String
  nodes : Dict String Node := ∅
  edges : Dict String Edge := ∅

namespace Graph

/-- The targets of the edges from a node, in the order of the ids of the edges. -/
def targets (g : Graph) (nodeId : String) : List String :=
  (g.edges.values.filter fun e => e.sourceNodeId = nodeId).map Edge.targetNodeId

/-- `sorted(adjacency.get(current, set()))`. -/
def successors (g : Graph) (nodeId : String) : List String := sortedSet (g.targets nodeId)

/-- `_reachable`. -/
def reachable (g : Graph) (sourceId targetId : String) : Bool :=
  Search.reaches g.successors (g.edges.values.map Edge.sourceNodeId) sourceId targetId

/-- The node or edge as it is hashed. -/
def nodeCore (g : Graph) (node : Node) : PyValue :=
  .dict [("schema_version", .str "edon-causal-provenance-node.v1"), ("node_id", .str node.nodeId),
    ("tenant_id", .str g.tenantId), ("world_id", .str g.worldId), ("node_type", .str node.nodeType),
    ("payload_sha256", .str node.payloadSha256), ("occurred_at", .str node.occurredAt),
    ("available_to_controller_at", .str node.availableToControllerAt), ("metadata", node.metadata),
    ("binding_authority", .bool false)]

def edgeCore (g : Graph) (edge : Edge) : PyValue :=
  .dict [("schema_version", .str "edon-causal-provenance-edge.v1"), ("edge_id", .str edge.edgeId),
    ("tenant_id", .str g.tenantId), ("world_id", .str g.worldId),
    ("source_node_id", .str edge.sourceNodeId), ("target_node_id", .str edge.targetNodeId),
    ("relation", .str edge.relation), ("evidence_status", .str edge.evidenceStatus),
    ("evidence_refs", .list (edge.evidenceRefs.map .str)), ("recorded_at", .str edge.recordedAt),
    ("binding_authority", .bool false)]

end Graph

section
variable (rt : DatedInterpreter)

def identifierOf (value : PyValue) (label : String) : Except PyError String :=
  boundedText rt .provenanceGraphError 240 value label

def timestamp (value : PyValue) (label : String) : Except PyError String :=
  timestampOf rt .provenanceGraphError value label

def sha256 (value : PyValue) (label : String) : Except PyError String :=
  digestOf rt .provenanceGraphError value label

/-- `_metadata(metadata or {})`. -/
def metadataOf (value : PyValue) : Except PyError PyValue := do
  let value := if value.truthy then value else .dict []
  require (value matches .dict _) (graphError "metadata must be an object")
  finiteValue .provenanceGraphError value "metadata"

/-- `str(value).upper()`, one of the names. -/
def nameOf (names : List String) (message : String) (value : PyValue) : Except PyError String := do
  let normalized := upper (value.toStr rt.toInterpreter)
  require (normalized ∈ names) (graphError (message ++ normalized))
  return normalized

/-- The node a call describes. -/
def nodeOf (call : NodeCall) : Except PyError Node := do
  let nodeType ← nameOf rt nodeTypes "unsupported provenance node type: " call.nodeType
  let occurredAt ← timestamp rt call.occurredAt "occurred_at"
  let availableToControllerAt ←
    timestamp rt call.availableToControllerAt "available_to_controller_at"
  require (¬ availableToControllerAt < occurredAt)
    (graphError "available_to_controller_at cannot precede occurred_at")
  let nodeId ← identifierOf rt call.nodeId "node_id"
  let payloadSha256 ← sha256 rt call.payloadSha256 "payload_sha256"
  let metadata ← metadataOf call.metadata
  return { nodeId, nodeType, payloadSha256, occurredAt, availableToControllerAt, metadata }

/-- `record_node`: what it returns or raises, and the graph it leaves. -/
def Graph.recordNode (call : NodeCall) (g : Graph) : Except PyError Node × Graph :=
  match nodeOf rt call with
  | .error e => (.error e, g)
  | .ok node =>
    match g.nodes.get node.nodeId with
    | some existing =>
      if (g.nodeCore existing).sha256Json rt.toInterpreter ≠
          (g.nodeCore node).sha256Json rt.toInterpreter then
        (.error (graphError "node_id is already bound to different content"), g)
      else (.ok existing, g)
    | none => (.ok node, { g with nodes := g.nodes.set node.nodeId node })

/-- The rest of an edge, once its ends were checked. -/
def detailsOf (call : EdgeCall) (sourceNodeId targetNodeId : String) : Except PyError Edge := do
  let relation ← nameOf rt relations "unsupported provenance relation: " call.relation
  let evidenceStatus ← nameOf rt evidenceStatuses "unsupported evidence status: " call.evidenceStatus
  let refs ← (← call.evidenceRefs.iterate).mapM fun item => identifierOf rt item "evidence_ref"
  let evidenceRefs := sortedSet refs
  require (!evidenceRefs.isEmpty) (graphError "at least one evidence_ref is required")
  let edgeId ← identifierOf rt call.edgeId "edge_id"
  let recordedAt ← timestamp rt call.recordedAt "recorded_at"
  return { edgeId, sourceNodeId, targetNodeId, relation, evidenceStatus, evidenceRefs, recordedAt }

/-- The edge a call describes. -/
def Graph.edgeOf (call : EdgeCall) (g : Graph) : Except PyError Edge := do
  let source ← identifierOf rt call.sourceNodeId "source_node_id"
  let target ← identifierOf rt call.targetNodeId "target_node_id"
  require (g.nodes.contains source && g.nodes.contains target)
    (graphError "provenance edge references an unknown node")
  require (¬ (source = target ∨ g.reachable target source = true)) cycleError
  detailsOf rt call source target

/-- `record_edge`: what it returns or raises, and the graph it leaves. -/
def Graph.recordEdge (call : EdgeCall) (g : Graph) : Except PyError Edge × Graph :=
  match g.edgeOf rt call with
  | .error e => (.error e, g)
  | .ok edge =>
    match g.edges.get edge.edgeId with
    | some existing =>
      if (g.edgeCore existing).sha256Json rt.toInterpreter ≠
          (g.edgeCore edge).sha256Json rt.toInterpreter then
        (.error (graphError "edge_id is already bound to different content"), g)
      else (.ok existing, g)
    | none => (.ok edge, { g with edges := g.edges.set edge.edgeId edge })

/-- `trace_paths`. -/
def Graph.tracePaths (source target : PyValue) (maxDepth : Nat) (g : Graph) :
    Except PyError (List (List String)) := do
  let source ← identifierOf rt source "source_node_id"
  let target ← identifierOf rt target "target_node_id"
  require (g.nodes.contains source && g.nodes.contains target)
    (graphError "trace endpoint is not registered")
  return SimplePaths.paths g.targets source target maxDepth

inductive Call where
  | node (call : NodeCall)
  | edge (call : EdgeCall)

/-- The graph after a call. -/
def Graph.call (g : Graph) : Call → Graph
  | .node call => (g.recordNode rt call).2
  | .edge call => (g.recordEdge rt call).2

def Graph.rejects (g : Graph) : Call → Prop
  | .node call => ∃ e, (g.recordNode rt call).1 = .error e
  | .edge call => ∃ e, (g.recordEdge rt call).1 = .error e

end

/-! ## Reachability -/

/-- Some edge leads from the one node to the other. -/
def Graph.Adjacent (g : Graph) (a b : String) : Prop :=
  ∃ e ∈ g.edges.values, e.sourceNodeId = a ∧ e.targetNodeId = b

def Graph.Acyclic (g : Graph) : Prop := ∀ a, ¬ TransGen g.Adjacent a a

section
variable {g : Graph}

theorem mem_targets {a b : String} : b ∈ g.targets a ↔ g.Adjacent a b := by
  unfold Graph.targets Graph.Adjacent
  simp only [List.mem_map, List.mem_filter, decide_eq_true_eq, and_assoc]

theorem step_successors : Search.Step g.successors = g.Adjacent := by
  funext a b
  exact propext (mem_sortedSet.trans mem_targets)

/-- **The search finds a node exactly when edges lead to it.** -/
theorem reachable_iff {a b : String} : g.reachable a b = true ↔ ReflTransGen g.Adjacent a b := by
  unfold Graph.reachable
  rw [Search.reaches_iff, step_successors]
  intro u hu
  obtain ⟨v, hv⟩ := List.exists_mem_of_ne_nil _ hu
  obtain ⟨e, he, hsource, _⟩ := mem_targets.mp (mem_sortedSet.mp hv)
  exact hsource ▸ List.mem_map_of_mem he

/-- Both conditions of the check. -/
theorem refuses_iff {s t : String} :
    (s = t ∨ g.reachable t s = true) ↔ ReflTransGen g.Adjacent t s := by
  rw [reachable_iff]
  exact or_iff_right_of_imp fun h => h ▸ .refl

/-- A new edge whose target does not reach its source closes no cycle. -/
theorem Graph.Acyclic.add_edge (h : g.Acyclic) {e : Edge}
    (hsafe : ¬ ReflTransGen g.Adjacent e.targetNodeId e.sourceNodeId) :
    ({ g with edges := g.edges.set e.edgeId e } : Graph).Acyclic := by
  have hadjacent : ∀ a b, ({ g with edges := g.edges.set e.edgeId e } : Graph).Adjacent a b →
      g.Adjacent a b ∨ (e.sourceNodeId = a ∧ e.targetNodeId = b) := by
    rintro a b ⟨x, hx, hends⟩
    obtain ⟨k, hk⟩ := Dict.mem_values.mp hx
    rw [Dict.get_set] at hk
    split at hk
    · cases hk
      exact .inr hends
    · exact .inl ⟨x, Dict.mem_values.mpr ⟨k, hk⟩, hends⟩
  -- a walk in the new graph is one in the old, or it comes to the source and goes on from the target
  have hwalk : ∀ a b, TransGen ({ g with edges := g.edges.set e.edgeId e } : Graph).Adjacent a b →
      TransGen g.Adjacent a b ∨ (ReflTransGen g.Adjacent a e.sourceNodeId ∧
        ReflTransGen g.Adjacent e.targetNodeId b) := by
    intro a b hab
    induction hab with
    | single hstep =>
      rcases hadjacent _ _ hstep with hold | ⟨rfl, rfl⟩
      · exact .inl (.single hold)
      · exact .inr ⟨.refl, .refl⟩
    | tail _ hstep ih =>
      rcases hadjacent _ _ hstep with hold | ⟨rfl, rfl⟩
      · rcases ih with hall | ⟨hto, hfrom⟩
        · exact .inl (hall.tail hold)
        · exact .inr ⟨hto, hfrom.tail hold⟩
      · rcases ih with hall | ⟨hto, _⟩
        · exact .inr ⟨hall.to_reflTransGen, .refl⟩
        · exact .inr ⟨hto, .refl⟩
  intro a ha
  rcases hwalk a a ha with hold | ⟨hto, hfrom⟩
  · exact h a hold
  · exact hsafe (hfrom.trans hto)

end

/-! ## What is refused -/

section
variable {rt : DatedInterpreter} {g : Graph}

theorem identifierOf_error {value : PyValue} {label : String} {e : PyError}
    (h : identifierOf rt value label = .error e) :
    e = graphError (label ++ " must contain between 1 and " ++ toString 240 ++ " characters") := by
  unfold identifierOf boundedText bounded at h
  dsimp only at h
  split at h
  · exact (Except.error.inj h).symm
  · cases h

theorem timestamp_error {value : PyValue} {label : String} {e : PyError}
    (h : timestamp rt value label = .error e) :
    e = graphError (label ++ " must be an ISO-8601 timestamp") ∨
      e = graphError (label ++ " must include a timezone") ∨ e = overflow := by
  unfold timestamp timestampOf at h
  split at h
  · exact .inl (Except.error.inj h).symm
  · exact .inr (.inl (Except.error.inj h).symm)
  · rcases Fallible.bind_error.mp h with h | ⟨_, _, h⟩
    · unfold astimezone at h
      split at h
      · cases h
      · exact .inr (.inr (Except.error.inj h).symm)
    · cases h

theorem nameOf_error {names : List String} {message : String} {value : PyValue} {e : PyError}
    (h : nameOf rt names message value = .error e) : ∃ text, e = graphError (message ++ text) := by
  rcases Fallible.bind_error.mp h with h | ⟨_, _, h⟩
  · unfold require at h
    split at h
    · cases h
    · exact ⟨_, (Except.error.inj h).symm⟩
  · cases h

theorem mapM_error {f : PyValue → Except PyError String} {l : List PyValue} {e : PyError}
    (h : l.mapM f = .error e) : ∃ x ∈ l, f x = .error e := by
  induction l with
  | nil => cases h
  | cons x l ih =>
    rw [List.mapM_cons] at h
    rcases Fallible.bind_error.mp h with h | ⟨_, _, h⟩
    · exact ⟨x, List.mem_cons_self, h⟩
    · rcases Fallible.bind_error.mp h with h | ⟨_, _, h⟩
      · obtain ⟨y, hy, hfy⟩ := ih h
        exact ⟨y, List.mem_cons_of_mem _ hy, hfy⟩
      · cases h

theorem iterate_error {value : PyValue} {e : PyError} (h : value.iterate = .error e) :
    e.cls = .typeError := by
  cases value <;> cases h <;> rfl

/-- Once the ends of an edge were checked, a cycle is no longer what it is refused for. -/
theorem detailsOf_ne_cycle {call : EdgeCall} {s t : String} :
    detailsOf rt call s t ≠ .error cycleError := by
  have hname : ∀ {message text : String}, message.toList.head? = some 'u' →
      cycleError ≠ graphError (message ++ text) := by
    intro message text hhead heq
    have heq := congrArg (fun e : PyError => e.message.toList.head?) heq
    unfold cycleError graphError at heq
    dsimp only at heq
    rw [String.toList_append, List.head?_append, hhead, Option.some_or] at heq
    exact absurd heq (by decide)
  intro h
  rcases Fallible.bind_error.mp h with h | ⟨relation, _, h⟩
  · obtain ⟨text, heq⟩ := nameOf_error h
    exact hname rfl heq
  rcases Fallible.bind_error.mp h with h | ⟨status, _, h⟩
  · obtain ⟨text, heq⟩ := nameOf_error h
    exact hname rfl heq
  rcases Fallible.bind_error.mp h with h | ⟨items, _, h⟩
  · exact absurd (iterate_error h) (by decide)
  rcases Fallible.bind_error.mp h with h | ⟨refs, _, h⟩
  · obtain ⟨item, _, h⟩ := mapM_error h
    exact absurd (identifierOf_error h) (by decide)
  rcases Fallible.bind_error.mp h with h | ⟨_, _, h⟩
  · unfold require at h
    split at h
    · cases h
    · exact absurd (Except.error.inj h) (by decide)
  rcases Fallible.bind_error.mp h with h | ⟨edgeId, _, h⟩
  · exact absurd (identifierOf_error h) (by decide)
  rcases Fallible.bind_error.mp h with h | ⟨recordedAt, _, h⟩
  · rcases timestamp_error h with heq | heq | heq <;> exact absurd heq (by decide)
  · cases h

/-- **A cycle is refused, and only a cycle.** -/
theorem cycle_refused_iff {call : EdgeCall} {s t : String}
    (hs : identifierOf rt call.sourceNodeId "source_node_id" = .ok s)
    (ht : identifierOf rt call.targetNodeId "target_node_id" = .ok t)
    (hsource : g.nodes.contains s = true) (htarget : g.nodes.contains t = true) :
    (g.recordEdge rt call).1 = .error cycleError ↔ ReflTransGen g.Adjacent t s := by
  rw [← refuses_iff]
  have hknown : (g.nodes.contains s && g.nodes.contains t) = true := by rw [hsource, htarget]; rfl
  have hedge : g.edgeOf rt call =
      (require (¬ (s = t ∨ g.reachable t s = true)) cycleError >>=
        fun _ : Unit => detailsOf rt call s t) := by
    have hends : require (g.nodes.contains s && g.nodes.contains t)
        (graphError "provenance edge references an unknown node") = .ok () := require_ok.mpr hknown
    unfold Graph.edgeOf
    rw [hs, ht]
    dsimp only [bind, Except.bind]
    rw [hends]
  unfold Graph.recordEdge
  rw [hedge]
  by_cases hcycle : s = t ∨ g.reachable t s = true
  · have hrefused : require (decide ¬ (s = t ∨ g.reachable t s = true)) cycleError =
        .error cycleError :=
      if_neg (by rw [decide_eq_true_iff]; exact not_not_intro hcycle)
    rw [hrefused]
    exact iff_of_true rfl hcycle
  · have hpasses : require (decide ¬ (s = t ∨ g.reachable t s = true)) cycleError = .ok () :=
      require_ok.mpr (decide_eq_true hcycle)
    rw [hpasses]
    refine iff_of_false ?_ hcycle
    show ¬ _ = _
    cases hdetails : detailsOf rt call s t with
    | error e =>
      intro h
      have h : Except.error e = Except.error cycleError := h
      exact detailsOf_ne_cycle (hdetails.trans (congrArg _ (Except.error.inj h)))
    | ok edge =>
      intro h
      dsimp only [bind, Except.bind] at h
      split at h
      · split at h
        · exact absurd (Except.error.inj h) (by decide)
        · cases h
      · cases h

theorem recordNode_edges (call : NodeCall) : (g.recordNode rt call).2.edges = g.edges := by
  unfold Graph.recordNode
  split
  · rfl
  · split
    · split <;> rfl
    · rfl

theorem Graph.Acyclic.recordEdge (h : g.Acyclic) (call : EdgeCall) :
    (g.recordEdge rt call).2.Acyclic := by
  unfold Graph.recordEdge
  split
  · exact h
  · next edge hedge =>
    split
    · split <;> exact h
    · apply h.add_edge
      obtain ⟨s, _, hedge⟩ := bind_ok.mp hedge
      obtain ⟨t, _, hedge⟩ := bind_ok.mp hedge
      obtain ⟨_, _, hedge⟩ := bind_ok.mp hedge
      obtain ⟨_, hsafe, hedge⟩ := bind_ok.mp hedge
      obtain ⟨_, _, hedge⟩ := bind_ok.mp hedge
      obtain ⟨_, _, hedge⟩ := bind_ok.mp hedge
      obtain ⟨_, _, hedge⟩ := bind_ok.mp hedge
      obtain ⟨_, _, hedge⟩ := bind_ok.mp hedge
      obtain ⟨_, _, hedge⟩ := bind_ok.mp hedge
      obtain ⟨_, _, hedge⟩ := bind_ok.mp hedge
      obtain ⟨_, _, hedge⟩ := bind_ok.mp hedge
      cases hedge
      rw [← refuses_iff]
      exact of_decide_eq_true (require_ok.mp hsafe)

theorem call_rejected {c : Call} (h : g.rejects rt c) : g.call rt c = g := by
  cases c with
  | node call =>
    obtain ⟨e, h⟩ := h
    show (g.recordNode rt call).2 = g
    unfold Graph.recordNode at h ⊢
    split at h <;> [rfl; skip]
    split at h
    · split at h
      · split <;> rfl
      · cases h
    · cases h
  | edge call =>
    obtain ⟨e, h⟩ := h
    show (g.recordEdge rt call).2 = g
    unfold Graph.recordEdge at h ⊢
    split at h <;> [rfl; skip]
    split at h
    · split at h
      · split <;> rfl
      · cases h
    · cases h

end

/-- **Provenance stays acyclic.** Over every run of calls the graph has no cycle, a rejected call
leaves it as it was, and an edge between known nodes is refused for a cycle exactly when its
target already reaches its source. -/
theorem stays_acyclic (rt : DatedInterpreter) (tenantId worldId : String) (calls : List Call) :
    Along (Graph.call rt) (fun g c g' => g'.Acyclic ∧ (g.rejects rt c → g' = g) ∧
      ∀ call s t, c = .edge call → identifierOf rt call.sourceNodeId "source_node_id" = .ok s →
        identifierOf rt call.targetNodeId "target_node_id" = .ok t →
        g.nodes.contains s = true → g.nodes.contains t = true →
        ((g.recordEdge rt call).1 = .error cycleError ↔ ReflTransGen g.Adjacent t s))
      { tenantId, worldId } calls := by
  apply along_of_invariant (I := Graph.Acyclic)
  · intro g c h
    have hnext : (g.call rt c).Acyclic := by
      cases c with
      | node call =>
        have hsame : (g.call rt (.node call)).Adjacent = g.Adjacent := by
          unfold Graph.Adjacent Graph.call
          rw [recordNode_edges]
        unfold Graph.Acyclic
        rw [hsame]
        exact h
      | edge call => exact h.recordEdge call
    refine ⟨⟨hnext, call_rejected, ?_⟩, hnext⟩
    intro call s t _ hs ht hsource htarget
    exact cycle_refused_iff hs ht hsource htarget
  · -- a graph without edges
    intro a ha
    obtain ⟨b, hstep, _⟩ := TransGen.head'_iff.mp ha
    obtain ⟨e, he, _⟩ := hstep
    cases he

/-! ## Traced paths -/

/-- A path of the graph without repeated nodes, with at most `maxDepth` edges. -/
abbrev Graph.SimplePath (g : Graph) (source target : String) (maxDepth : Nat) (p : List String) :
    Prop :=
  SimplePaths.SimplePath g.targets source target maxDepth p

/-- The number of edges from the one node to the other. -/
def Graph.edgesBetween (g : Graph) (u v : String) : Nat :=
  (g.edges.values.filter fun e => e.sourceNodeId = u ∧ e.targetNodeId = v).length

theorem count_targets (g : Graph) (u v : String) :
    (g.targets u).count v = g.edgesBetween u v := by
  unfold Graph.targets Graph.edgesBetween
  rw [List.count, List.countP_map, List.countP_filter, List.countP_eq_length_filter]
  congr 2
  funext e
  rw [Bool.eq_iff_iff]
  simp [and_comm]

/-- **Trace paths.** What is traced are the simple paths, each listed once, exactly when no step of
such a path has parallel edges. -/
theorem trace_paths_once_iff {rt : DatedInterpreter} {g : Graph} {source target : PyValue}
    {maxDepth : Nat} {paths : List (List String)}
    (h : g.tracePaths rt source target maxDepth = .ok paths) :
    ∃ s t, identifierOf rt source "source_node_id" = .ok s ∧
      identifierOf rt target "target_node_id" = .ok t ∧
      (((∀ p, p ∈ paths ↔ g.SimplePath s t maxDepth p) ∧ paths.Nodup) ↔
        ∀ p, g.SimplePath s t maxDepth p → ∀ u v, [u, v] <:+: p → g.edgesBetween u v = 1) := by
  obtain ⟨s, hs, h⟩ := bind_ok.mp h
  obtain ⟨t, ht, h⟩ := bind_ok.mp h
  obtain ⟨_, _, h⟩ := bind_ok.mp h
  cases h
  refine ⟨s, t, hs, ht, ?_⟩
  rw [and_iff_right fun p => SimplePaths.mem_paths_iff g.targets, SimplePaths.once_iff]
  simp only [count_targets]

/-- A runtime for small graphs. -/
def sampleRuntime : DatedInterpreter :=
  { plainInterpreter with
    fromisoformat := fun _ => .instant 0
    isoformat := fun _ => "2026-08-30T00:00:00+00:00"
    parseHex := fun _ => some 0 }

def sampleNode (nodeId : String) : Call :=
  .node { nodeId := .str nodeId, nodeType := .str "SOURCE"
          payloadSha256 := .str ("sha256:" ++ String.ofList (List.replicate 64 '0'))
          occurredAt := .str "2026-08-30T00:00:00+00:00"
          availableToControllerAt := .str "2026-08-30T00:00:00+00:00" }

def sampleEdge (edgeId relation : String) : Call :=
  .edge { edgeId := .str edgeId, sourceNodeId := .str "source:a", targetNodeId := .str "c1:a"
          relation := .str relation, evidenceStatus := .str "DECLARED"
          evidenceRefs := .list [.str "evidence"], recordedAt := .str "2026-08-30T00:00:00+00:00" }

/-- Two nodes with two edges between them. -/
def parallelEdges : Graph :=
  exec (Graph.call sampleRuntime) { tenantId := "tenant-a", worldId := "world-a" }
    [sampleNode "source:a", sampleNode "c1:a", sampleEdge "edge:a" "INFORMED",
      sampleEdge "edge:b" "CONTESTS"]

theorem trace_paths_once_sample : ∃ paths,
    parallelEdges.tracePaths sampleRuntime (.str "source:a") (.str "c1:a") 32 = .ok paths ∧
      ∃ s t, identifierOf sampleRuntime (.str "source:a") "source_node_id" = .ok s ∧
        identifierOf sampleRuntime (.str "c1:a") "target_node_id" = .ok t ∧
        (((∀ p, p ∈ paths ↔ parallelEdges.SimplePath s t 32 p) ∧ paths.Nodup) ↔
          ∀ p, parallelEdges.SimplePath s t 32 p →
            ∀ u v, [u, v] <:+: p → parallelEdges.edgesBetween u v = 1) := by
  have htest : (parallelEdges.tracePaths sampleRuntime (.str "source:a") (.str "c1:a") 32).isOk =
      true := by decide +kernel
  cases h : parallelEdges.tracePaths sampleRuntime (.str "source:a") (.str "c1:a") 32 with
  | error e =>
    rw [h] at htest
    cases htest
  | ok paths => exact ⟨paths, rfl, trace_paths_once_iff h⟩

/-- The path is listed for each of the two edges. -/
theorem parallel_edges_twice : ∃ paths,
    parallelEdges.tracePaths sampleRuntime (.str "source:a") (.str "c1:a") 32 = .ok paths ∧
      paths = [["source:a", "c1:a"], ["source:a", "c1:a"]] ∧ ¬ paths.Nodup := by
  have htest : ((parallelEdges.tracePaths sampleRuntime (.str "source:a")
      (.str "c1:a") 32).toOption.any
        fun paths => paths = [["source:a", "c1:a"], ["source:a", "c1:a"]]) = true := by
    decide +kernel
  obtain ⟨paths, h, heq⟩ := Fallible.ok_of_any htest
  have heq := of_decide_eq_true heq
  refine ⟨paths, h, heq, ?_⟩
  rw [heq]
  decide

end Edon.Provenance
