import Mathlib
import EdonPlatform.Registry.Concurrency
import EdonPlatform.Runtime.Promotion

/- The agreement of the compiler, the registry and the runtime, in both directions. A candidate that
   one approval is enough for is promoted by a registry of its own, so that the statement about
   promoted documents is not empty.

   What is proved:
     1. `promotes_one` — the registration, the approval and the promotion of such a candidate go
        through.
     2. `promoted_executable_iff` — the runtime accepts a promoted document exactly when it can
        execute the facts of its candidate.
     3. `unresolved_mechanism_promoted` — a candidate whose fact has no value is promoted too. -/
namespace Edon.Runtime
open Json Compiler Registry Interleaving Transition

/-! ## One candidate in a registry of its own -/

section
variable {py : Python} {db : RegistryDb}

theorem content_of_verify {rows : List AuditRow} {hash : String}
    (h : HashChain.verifyFrom (auditLinks py) hash rows = true) : ∀ r ∈ rows,
      (auditLinks py).content r = r.eventHash := by
  induction rows generalizing hash with
  | nil => exact fun r hr => absurd hr List.not_mem_nil
  | cons r rows ih =>
    obtain ⟨hjoins, hrest⟩ := HashChain.verifyFrom_cons.mp h
    intro s hs
    rcases List.mem_cons.mp hs with rfl | hs
    · exact hjoins.2
    · exact ih hrest s hs

/-- An event of a type the audit does not have yet is appended. -/
theorem appendAudit_new (hsha : Function.Injective py.sha256)
    (hchain : db.verifyAuditChain py = true) {eventType : String}
    (htype : ∀ r ∈ db.auditEvents, r.eventType ≠ eventType) (entityId : String) (payload : Json)
    (timestamp : String) : ∃ row, row.eventType = eventType ∧
      appendAudit py eventType entityId payload timestamp db =
        .ok { db with auditEvents := db.auditEvents ++ [row] } := by
  refine ⟨_, rfl, if_neg fun hany => ?_⟩
  obtain ⟨r, hr, hsame⟩ := List.any_eq_true.mp hany
  have hcontent := content_of_verify hchain r hr
  rw [of_decide_eq_true hsame] at hcontent
  have hfields := same_obj_iff.mp (same_of_sha256Json hsha hcontent)
  exact htype r hr (Json.str.inj (Option.some.inj (hfields "event_type")))


/-- A chain that verifies, of events of these types. -/
structure Stage (py : Python) (db : RegistryDb) (types : List String) : Prop where
  chain : db.verifyAuditChain py = true
  types : db.auditEvents.map AuditRow.eventType = types

theorem Stage.append (hsha : Function.Injective py.sha256) {types : List String}
    (h : Stage py db types) {eventType : String} (hnew : eventType ∉ types) (entityId : String)
    (payload : Json) (timestamp : String) : ∃ t,
      appendAudit py eventType entityId payload timestamp db = .ok t ∧
      t.candidates = db.candidates ∧ t.reviews = db.reviews ∧ t.mechanisms = db.mechanisms ∧
      Stage py t (types ++ [eventType]) := by
  have htype : ∀ r ∈ db.auditEvents, r.eventType ≠ eventType := by
    rintro r hr rfl
    exact hnew (h.types ▸ List.mem_map_of_mem hr)
  obtain ⟨row, hrow, hok⟩ := appendAudit_new hsha h.chain htype entityId payload timestamp
  obtain ⟨event, heq, hjoins⟩ := appendAudit_ok hok
  refine ⟨_, hok, rfl, rfl, rfl, heq ▸ Audits.verifies ⟨event, rfl, hjoins⟩ h.chain, ?_⟩
  rw [List.map_append, h.types, List.map_singleton, hrow]

/-- The row of a candidate. -/
def rowOf (py : Python) (run : CompilerRunRow) (c : CompilerCandidate) : CandidateRow where
  candidateId := c.candidateId
  runId := run.runId
  mechanismId := c.mechanism.mechanismId
  mechanismVersion := c.mechanism.version
  riskClass := c.mechanism.riskClass.value
  candidateSha256 := sha256Json py.sha256 c.row
  payload := c.row.canon
  status := .registered
  createdAt := run.createdAt

theorem registerTx_one (hsha : Function.Injective py.sha256) {c : CompilerCandidate}
    (hid : c.candidateId ≠ "") (run : CompilerRunRow) : ∃ t,
      registerTx py run [c.row] ∅ = .ok ([c.candidateId], t) ∧
      t.candidates.rows = [rowOf py run c] ∧ t.reviews.rows = [] ∧ t.mechanisms.rows = [] ∧
      Stage py t ["COMPILER_RUN_REGISTERED", "CANDIDATE_REGISTERED"] := by
  obtain ⟨compilerRuns, hruns⟩ := Table.insert_of_get (Table.get_empty run.runId)
  obtain ⟨db₁, haudit₁, hcandidates₁, hreviews₁, hmechanisms₁, hstage₁⟩ :=
    (⟨rfl, rfl⟩ : Stage py { (∅ : RegistryDb) with compilerRuns } []).append hsha
      List.not_mem_nil run.runId
      (.obj [("input_sha256", .str run.inputSha256), ("output_sha256", .str run.outputSha256)])
      run.createdAt
  obtain ⟨candidates, hinsert⟩ : ∃ u, db₁.candidates.insert (rowOf py run c) = some u := by
    rw [hcandidates₁]
    exact Table.insert_of_get (Table.get_empty _)
  obtain ⟨db₂, haudit₂, hcandidates₂, hreviews₂, hmechanisms₂, hstage₂⟩ :=
    (⟨hstage₁.chain, hstage₁.types⟩ : Stage py { db₁ with candidates } _).append hsha
      (by decide : "CANDIDATE_REGISTERED" ∉ ["COMPILER_RUN_REGISTERED"]) c.candidateId
      (.obj [("candidate_sha256", .str (sha256Json py.sha256 c.row)), ("run_id", .str run.runId)])
      run.createdAt
  have hcandidate : registerCandidate py run c.row db₁ = .ok (c.candidateId, db₂) := by
    refine bind_ok.mpr ⟨_, rfl, bind_ok.mpr ⟨_, rfl, bind_ok.mpr ⟨_, rfl, bind_ok.mpr ⟨(),
      require_ok.mpr (decide_eq_true ⟨hid, rfl⟩), bind_ok.mpr ⟨_, rfl, bind_ok.mpr ⟨(), rfl,
      bind_ok.mpr ⟨_, rfl, bind_ok.mpr ⟨_, rfl, bind_ok.mpr ⟨_, rfl, ?_⟩⟩⟩⟩⟩⟩⟩⟩⟩
    exact bind_ok.mpr ⟨candidates, orRaise_ok.mpr hinsert, bind_ok.mpr ⟨db₂, haudit₂, rfl⟩⟩
  refine ⟨db₂, ?_, ?_, ?_, ?_, hstage₂⟩
  · exact bind_ok.mpr ⟨compilerRuns, orRaise_ok.mpr hruns, bind_ok.mpr ⟨db₁, haudit₁,
      bind_ok.mpr ⟨(c.candidateId, db₂), hcandidate, bind_ok.mpr ⟨([], db₂), rfl, rfl⟩⟩⟩⟩
  · rw [hcandidates₂, (Table.rows_insert hinsert).1, hcandidates₁]
    rfl
  · rw [hreviews₂]
    exact congrArg Table.rows hreviews₁
  · rw [hmechanisms₂]
    exact congrArg Table.rows hmechanisms₁


/-! ## The approval -/

def approvalArgs (c : CompilerCandidate) : ReviewArgs where
  candidateId := c.candidateId
  reviewerId := "reviewer-1"
  reviewerRole := "INSTITUTIONAL_REVIEWER"
  decision := "APPROVE"
  rationale := "checked"
  resolutions := Dict.ofList (c.conflicts.map fun id => (id, "resolved"))
  timestamp := some "day-2"

/-- The candidate needs one approval, by a reviewer of any role. -/
structure OneApproval (c : CompilerCandidate) : Prop where
  named : c.candidateId ≠ ""
  approvals : requiredApprovals c.mechanism.riskClass.value = 1
  roles : requiredRoles c.mechanism.riskClass.value = []

theorem mem_resolutions {c : CompilerCandidate} {key : String} :
    key ∈ (approvalArgs c).resolutions.keys ↔ key ∈ c.conflicts := by
  have hkeys : (c.conflicts.map fun id => (id, "resolved")).map Prod.fst = c.conflicts := by
    rw [List.map_map]
    exact List.map_id _
  constructor
  · intro hkey
    obtain ⟨value, hvalue⟩ := Option.isSome_iff_exists.mp (Dict.mem_keys.mp hkey)
    obtain ⟨id, hid, heq⟩ := List.mem_map.mp (Dict.mem_of_get_ofList hvalue)
    cases heq
    exact hid
  · intro hkey
    exact Dict.mem_keys.mpr (Dict.isSome_get_ofList (hkeys.symm ▸ hkey))

/-- The one approval makes the candidate ready. -/
theorem ready_one {c : CompilerCandidate} (hone : OneApproval c) {candidate : CandidateRow}
    (hrisk : candidate.riskClass = c.mechanism.riskClass.value)
    (hpayload : candidate.payload = c.row.canon) {review : ReviewRow}
    (hdecision : review.decision = .approve)
    (hresolutions : review.resolutions = (approvalArgs c).resolutions) :
    candidateStatus [review] candidate = .ok .readyToPromote := by
  unfold candidateStatus
  have happrovals : approvalsOf [review] = [review] :=
    approvalsOf_eq fun r hr => (List.mem_singleton.mp hr).symm ▸ hdecision
  have hnot : ∀ decision : ReviewDecision, decision ≠ .approve →
      ¬ ([review].any (fun r => r.decision = decision)) = true := by
    intro decision hne hany
    obtain ⟨r, hr, heq⟩ := List.any_eq_true.mp hany
    rw [List.mem_singleton.mp hr, hdecision] at heq
    exact hne (of_decide_eq_true heq).symm
  rw [if_neg (hnot .reject nofun), if_neg (hnot .revisionRequired nofun), hpayload,
    conflictsOf_row]
  refine if_pos ⟨?_, ?_, ?_⟩
  · rw [hrisk, hone.approvals, happrovals]
    exact le_refl 1
  · rw [hrisk, hone.roles]
    exact fun role hrole => absurd hrole List.not_mem_nil
  · intro conflict hconflict
    obtain ⟨id, hid, rfl⟩ := List.mem_map.mp hconflict
    rw [happrovals, List.flatMap_singleton, hresolutions]
    exact List.mem_map_of_mem (mem_resolutions.mpr hid)

theorem run_lift {α β : Type} {x : Except PyError α} {a : α} {f : α → Program β} (h : x = .ok a) :
    ((liftM x : Program α) >>= f).run (execute py) db = (f a).run (execute py) db := by
  subst h
  rfl

theorem run_candidateRow {β : Type} {id : String} {candidate : CandidateRow}
    {f : CandidateRow → Program β} (h : db.candidates.get id = some candidate) :
    (candidateRow id >>= f).run (execute py) db = (f candidate).run (execute py) db := by
  show ((sql (.candidate id) >>= fun row => (liftM (orRaise _ row) : Program CandidateRow)) >>=
    f).run _ _ = _
  rw [bind_assoc]
  show ((liftM (orRaise _ (db.candidates.get id)) : Program CandidateRow) >>= f).run _ _ = _
  exact run_lift (orRaise_ok.mpr h)

/-- The outcome of a transaction that commits. -/
theorem run_transaction {α β : Type} {body : RegistryDb → Except PyError (α × RegistryDb)}
    {f : α → Program β} {a : α} {t : RegistryDb} (h : body db = .ok (a, t)) :
    (((liftM (Fallible.transaction body db).1 : Program α) >>= f).run (execute py)
      (Fallible.transaction body db).2) = (f a).run (execute py) t := by
  unfold Fallible.transaction
  rw [h]
  rfl

theorem withStatus_candidateId (status : CandidateStatus) (r : CandidateRow) :
    (CandidateRow.withStatus status r).candidateId = r.candidateId := rfl

/-- The registry after an update of a candidate's status. -/
def setStatus (t : RegistryDb) (candidateId : String) (status : CandidateStatus) :
    RegistryDb :=
  { t with
    candidates := t.candidates.modify candidateId (CandidateRow.withStatus status)
      (withStatus_candidateId status) }

/-- The review is accepted, and the candidate is ready. -/
theorem submitReview_one (hsha : Function.Injective py.sha256) {c : CompilerCandidate}
    (hone : OneApproval c) {candidate : CandidateRow} (hid : candidate.candidateId = c.candidateId)
    (hrisk : candidate.riskClass = c.mechanism.riskClass.value)
    (hpayload : candidate.payload = c.row.canon) (hstatus : candidate.status = .registered)
    (hcandidates : db.candidates.rows = [candidate]) (hreviews : db.reviews.rows = [])
    {types : List String} (hstage : Stage py db types) (hnew : "CANDIDATE_REVIEWED" ∉ types) :
    ∃ t d review, (submitReview py 0 (approvalArgs c)).run (execute py) db = (.ok d, t) ∧
      t.candidates.rows = [candidate.withStatus .readyToPromote] ∧ t.reviews.rows = [review] ∧
      review.candidateId = c.candidateId ∧ review.decision = .approve ∧
      review.resolutions = (approvalArgs c).resolutions ∧ t.mechanisms = db.mechanisms ∧
      Stage py t (types ++ ["CANDIDATE_REVIEWED"]) := by
  have hget : db.candidates.get c.candidateId = some candidate :=
    Table.get_eq_some.mpr ⟨hcandidates ▸ List.mem_singleton_self _, hid⟩
  obtain ⟨reviews, hinsert⟩ : ∃ u, db.reviews.insert
      (reviewRow py 0 (approvalArgs c) .approve candidate) = some u :=
    Table.insert_of_get (Table.get_eq_none.mpr fun r hr => absurd (hreviews ▸ hr) List.not_mem_nil)
  obtain ⟨t, haudit, hcandidates', hreviews', hmechanisms', hstage'⟩ :=
    (⟨hstage.chain, hstage.types⟩ : Stage py { db with reviews } types).append hsha hnew
      c.candidateId (.obj [
        ("review_id", .str (reviewRow py 0 (approvalArgs c) .approve candidate).reviewId),
        ("reviewer_id", .str "reviewer-1"), ("reviewer_role", .str "INSTITUTIONAL_REVIEWER"),
        ("decision", .str "APPROVE"),
        ("resolutions", resolutionsJson (approvalArgs c).resolutions),
        ("candidate_sha256", .str candidate.candidateSha256)]) "day-2"
  have hrows : t.reviews.rows = [reviewRow py 0 (approvalArgs c) .approve candidate] := by
    rw [hreviews', (Table.rows_insert hinsert).1, hreviews]
    rfl
  have hof : t.reviewsOf c.candidateId = [reviewRow py 0 (approvalArgs c) .approve candidate] := by
    unfold RegistryDb.reviewsOf
    rw [hrows]
    have hfilter : [reviewRow py 0 (approvalArgs c) .approve candidate].filter
        (fun r => r.candidateId = c.candidateId) =
        [reviewRow py 0 (approvalArgs c) .approve candidate] := by
      refine List.filter_eq_self.mpr fun r hr => ?_
      rw [List.mem_singleton.mp hr]
      exact decide_eq_true rfl
    rw [hfilter]
    rfl
  have htx : reviewTx py (reviewRow py 0 (approvalArgs c) .approve candidate) candidate db =
      .ok (.readyToPromote, setStatus t c.candidateId .readyToPromote) := by
    refine bind_ok.mpr ⟨(), require_ok.mpr (decide_eq_true ?_), bind_ok.mpr ⟨reviews,
      orRaise_ok.mpr hinsert, bind_ok.mpr ⟨t, haudit, bind_ok.mpr ⟨.readyToPromote, ?_, rfl⟩⟩⟩⟩
    · rw [hreviews]
      exact Bool.false_ne_true
    · exact (congrArg (fun l => candidateStatus l candidate) hof).trans
        (ready_one hone hrisk hpayload rfl rfl)
  refine ⟨setStatus t c.candidateId .readyToPromote, .obj [
    ("review_id", .str (reviewRow py 0 (approvalArgs c) .approve candidate).reviewId),
    ("candidate_id", .str c.candidateId), ("status", .str CandidateStatus.readyToPromote.name)],
    reviewRow py 0 (approvalArgs c) .approve candidate, ?_, ?_, hrows, rfl, rfl, rfl,
    hmechanisms', ⟨hstage'.chain, hstage'.types⟩⟩
  · unfold submitReview
    have hnamed : named ReviewDecision.value reviewDecisions "APPROVE" = some .approve := by
      decide
    have hargs : strip "reviewer-1" ≠ "" ∧ strip "INSTITUTIONAL_REVIEWER" ≠ "" ∧
        strip "checked" ≠ "" := by
      decide
    refine (run_lift (orRaise_ok.mpr hnamed)).trans ?_
    refine (run_lift (a := ()) (require_ok.mpr (decide_eq_true hargs))).trans ?_
    refine (run_candidateRow hget).trans ?_
    refine (run_lift (a := ()) (require_ok.mpr (decide_eq_true ?_))).trans ?_
    · rw [hstatus]
      exact ⟨nofun, nofun⟩
    refine (run_lift (hpayload ▸ conflictsOf_row c)).trans ?_
    refine (run_lift (a := ()) (require_ok.mpr (decide_eq_true ?_))).trans ?_
    · intro key hkey
      exact List.mem_map_of_mem (mem_resolutions.mp hkey)
    refine (run_lift (a := ()) (require_ok.mpr (decide_eq_true ?_))).trans ?_
    · rintro ⟨_, hne, hempty⟩
      obtain ⟨v, hv⟩ := List.exists_mem_of_ne_nil _ hne
      obtain ⟨id, hid, rfl⟩ := List.mem_map.mp hv
      have hkey := mem_resolutions.mpr hid
      rw [hempty] at hkey
      exact absurd hkey List.not_mem_nil
    exact run_transaction htx
  · show t.candidates.rows.map _ = _
    rw [hcandidates']
    show db.candidates.rows.map _ = _
    rw [hcandidates, List.map_singleton, if_pos hid]

/-- The program returns. -/
def Returns {β : Type} (py : Python) (db : RegistryDb) (p : Program β) : Prop :=
  ∃ b t, p.run (execute py) db = (.ok b, t)

theorem Returns.of_run {β : Type} {p : Program β} {q : Program β} {t : RegistryDb}
    (h : Returns py t q) (hrun : p.run (execute py) db = q.run (execute py) t) :
    Returns py db p := by
  obtain ⟨b, u, hq⟩ := h
  exact ⟨b, u, hrun.trans hq⟩

/-- A field of the promoted document that the promotion leaves as it is. -/
theorem dictIndex_promoted {kvs entries : List (String × Json)} {key : String} {value : Json}
    (hnodup : (entries.map Prod.fst).Nodup) (hentries : Assoc.find entries key = none)
    (h : Assoc.find kvs key = some value) :
    dictIndex (.obj (updated (Assoc.sortKeys (canonFields kvs)) entries)) key =
      .ok (canon value) := by
  show orRaise (keyError key) (Assoc.find (updated _ entries) key) = _
  rw [find_updated _ _ _ hnodup, hentries, find_canon, h]
  rfl

theorem promoteTx_one (hsha : Function.Injective py.sha256) (hmechanisms : db.mechanisms.rows = [])
    {types : List String} (hstage : Stage py db types) (hnew : "MECHANISM_PROMOTED" ∉ types)
    (p : Promotion) : ∃ t, promoteTx py p db = .ok ((), t) := by
  obtain ⟨mechanisms, hinsert⟩ : ∃ u,
      (deactivate p.row.mechanismId db.mechanisms).insert p.row = some u := by
    refine Table.insert_of_get (Table.get_eq_none.mpr fun r hr => ?_)
    obtain ⟨old, hold, _⟩ := List.mem_map.mp hr
    exact absurd (hmechanisms ▸ hold) List.not_mem_nil
  obtain ⟨t, haudit, _⟩ := (⟨hstage.chain, hstage.types⟩ : Stage py { db with
    mechanisms, candidates := db.candidates.modify p.row.candidateId
      (CandidateRow.withStatus .promoted) (fun _ => rfl) } types).append hsha hnew
    (p.row.mechanismId ++ "@" ++ p.row.version) (.obj [("candidate_id", .str p.row.candidateId),
      ("artifact_sha256", .str p.row.artifactSha256), ("promoter_id", .str p.promoterId),
      ("approval_ids", .arr (p.approvalIds.map .str))]) p.row.promotedAt
  exact ⟨t, bind_ok.mpr ⟨mechanisms, orRaise_ok.mpr hinsert, bind_ok.mpr ⟨t, haudit, rfl⟩⟩⟩

theorem returns_promotion {p : Promotion} {d : Json} {t : RegistryDb}
    (h : promoteTx py p db = .ok ((), t)) : Returns py db (do
      let result ← sql (.promotion p)
      let _ ← result
      return d) := by
  refine ⟨d, t, ?_⟩
  exact run_transaction h

/-- The candidate is promoted. -/
theorem promote_one (hsha : Function.Injective py.sha256) {c : CompilerCandidate}
    (hone : OneApproval c) (candidate : CandidateRow) (hid : candidate.candidateId = c.candidateId)
    (hrisk : candidate.riskClass = c.mechanism.riskClass.value)
    (hpayload : candidate.payload = c.row.canon) {review : ReviewRow}
    (hreview : review.candidateId = c.candidateId) (hdecision : review.decision = .approve)
    (hresolutions : review.resolutions = (approvalArgs c).resolutions)
    (hcandidates : db.candidates.rows = [candidate]) (hreviews : db.reviews.rows = [review])
    (hmechanisms : db.mechanisms.rows = []) {types : List String} (hstage : Stage py db types)
    (hnew : "MECHANISM_PROMOTED" ∉ types) :
    Returns py db (promote py 0 c.candidateId "promoter-1" (some "day-3")) := by
  have hget : db.candidates.get c.candidateId = some candidate :=
    Table.get_eq_some.mpr ⟨hcandidates ▸ List.mem_singleton_self _, hid⟩
  have hof : db.reviewsOf c.candidateId = [review] := by
    unfold RegistryDb.reviewsOf
    have hfilter : [review].filter (fun r => r.candidateId = c.candidateId) = [review] := by
      refine List.filter_eq_self.mpr fun r hr => ?_
      rw [List.mem_singleton.mp hr]
      exact decide_eq_true hreview
    rw [hreviews, hfilter]
    rfl
  obtain ⟨kvs, inner, hdict, hinner, hmechanismId, hversion⟩ : ∃ kvs inner,
      c.mechanism.dict = .obj kvs ∧ Assoc.find kvs "metadata" = some (.obj inner) ∧
      Assoc.find kvs "mechanism_id" = some (.str c.mechanism.mechanismId) ∧
      Assoc.find kvs "version" = some (.str c.mechanism.version) := ⟨_, _, rfl, rfl, rfl, rfl⟩
  have hsource : dictIndex candidate.payload "mechanism" = .ok (canon (.obj kvs)) := by
    rw [hpayload, ← hdict]
    exact dictIndex_canon rfl
  have hmetadata : dictOf ((Assoc.find (Assoc.sortKeys (canonFields kvs)) "metadata").getD
      (.obj [])) = .ok (Assoc.sortKeys (canonFields inner)) := by
    rw [find_canon, hinner]
    rfl
  have hfacts : dictGet candidate.payload "facts" (.arr []) =
      .ok (canon (.arr (c.facts.map ReconciledFact.dict))) := by
    rw [hpayload]
    exact dictGet_canon _ rfl
  have hkeys : (["metadata", "approved", "facts", "binding_authority"]).Nodup := by decide
  have hpromoter : strip "promoter-1" ≠ "" := by decide
  unfold promote
  refine .of_run ?_ (run_lift (a := ()) (require_ok.mpr (decide_eq_true hpromoter)))
  refine .of_run ?_ (run_candidateRow hget)
  show Returns py db ((liftM (candidateStatus (db.reviewsOf c.candidateId) candidate) :
    Program CandidateStatus) >>= _)
  rw [hof]
  refine .of_run ?_ (run_lift (ready_one hone hrisk hpayload hdecision hresolutions))
  refine .of_run ?_ (run_lift (a := ()) (require_ok.mpr (decide_eq_true rfl)))
  refine .of_run ?_ (run_lift hsource)
  refine .of_run ?_ (run_lift (a := Assoc.sortKeys (canonFields kvs)) (by rw [canon]; rfl))
  show Returns py db ((liftM (dictOf _) : Program (List (String × Json))) >>= _)
  refine .of_run ?_ (run_lift hmetadata)
  refine .of_run ?_ (run_lift hfacts)
  refine .of_run ?_ (run_lift (dictIndex_promoted hkeys rfl hmechanismId))
  refine .of_run ?_ (run_lift (dictIndex_promoted hkeys rfl hversion))
  obtain ⟨t, htx⟩ := promoteTx_one hsha hmechanisms hstage hnew _
  exact returns_promotion htx

/-! ## The whole run -/

/-- The report of one candidate. -/
def reportOf (c : CompilerCandidate) : Json :=
  .obj [("binding_authority", .bool false), ("qualification", .obj [("passed", .bool true)]),
    ("compiler_run_id", .str "run-1"), ("candidates", .arr [c.row]),
    ("compiler_manifest", .obj [("input_sha256", .str "sha256:0"),
      ("compiled_payload_sha256", .str "sha256:1")])]

theorem registerCompilerRun_one (hsha : Function.Injective py.sha256) {c : CompilerCandidate}
    (hid : c.candidateId ≠ "") : ∃ t run,
      ((registerCompilerRun py 0 (reportOf c) (some "day-1")).run (execute py) ∅).2 = t ∧
      t.candidates.rows = [rowOf py run c] ∧ t.reviews.rows = [] ∧ t.mechanisms.rows = [] ∧
      Stage py t ["COMPILER_RUN_REGISTERED", "CANDIDATE_REGISTERED"] := by
  obtain ⟨t, htx, hrows⟩ := registerTx_one hsha hid {
    runId := "run-1"
    institutionId := ""
    inputSha256 := "sha256:0"
    outputSha256 := "sha256:1"
    payload := (reportOf c).canon
    createdAt := "day-1" }
  refine ⟨t, _, congrArg Prod.snd (?_ : _ = (.ok (.arr [.str c.candidateId]), t)), hrows⟩
  exact run_transaction htx

/-- The report of the candidate is registered, and it is approved with its conflicts resolved. -/
def registerAndReview (c : CompilerCandidate) : List Call :=
  [.registerCompilerRun 0 (reportOf c) (some "day-1"), .submitReview 0 (approvalArgs c)]

/-- **Promotion goes through.** A candidate that one approval is enough for is promoted. -/
theorem promotes_one (hsha : Function.Injective py.sha256) {c : CompilerCandidate}
    (hone : OneApproval c) : ∃ d candidate, (Call.run py
        (.promote 0 c.candidateId "promoter-1" (some "day-3"))
        (exec (next py) ∅ (registerAndReview c))).1 = .ok d ∧
      (exec (next py) ∅ (registerAndReview c)).candidates.get c.candidateId = some candidate ∧
      candidate.payload = c.row.canon := by
  obtain ⟨t, run, hregister, hcandidates, hreviews, hmechanisms, hstage⟩ :=
    registerCompilerRun_one hsha hone.named
  obtain ⟨u, reply, review, hreview, hcandidates', hreviews', hid, hdecision, hresolutions,
    hmechanisms', hstage'⟩ := submitReview_one hsha hone rfl rfl rfl rfl hcandidates hreviews hstage
      (by decide)
  obtain ⟨d, v, hpromote⟩ := promote_one hsha hone ((rowOf py run c).withStatus
    .readyToPromote) rfl rfl rfl hid hdecision hresolutions hcandidates' hreviews'
    (hmechanisms' ▸ hmechanisms) hstage' (by decide)
  have hexec : exec (next py) ∅ (registerAndReview c) = u := by
    show ((submitReview py 0 (approvalArgs c)).run (execute py)
      ((registerCompilerRun py 0 (reportOf c) (some "day-1")).run (execute py) ∅).2).2 = u
    rw [hregister, hreview]
  rw [hexec]
  exact ⟨d, (rowOf py run c).withStatus .readyToPromote, congrArg Prod.fst hpromote,
    Table.get_eq_some.mpr ⟨hcandidates' ▸ List.mem_singleton_self _, rfl⟩, rfl⟩

end

/-! ## A policy for a discharge -/

/-- A digest that tells any two texts apart. -/
def exactDigest (text : String) : String :=
  String.ofList (((sampleDigest text).toList ++ List.replicate 20 '0').take 20 ++ text.toList)

theorem exactDigest_injective : Function.Injective exactDigest := by
  intro a b h
  have hlists := String.ofList_injective h
  have hlength : ∀ text : String,
      (((sampleDigest text).toList ++ List.replicate 20 '0').take 20).length = 20 := by
    intro text
    rw [List.length_take, List.length_append, List.length_replicate]
    omega
  exact String.toList_injective (List.append_inj hlists ((hlength a).trans (hlength b).symm)).2

def exactReader : Reader := { sampleReader with sha256 := exactDigest }

theorem exactReader_sha256 : Function.Injective exactReader.toPython.sha256 :=
  exactDigest_injective

/-- A source with one statement, on who attends a discharge. -/
def attendantSource (sourceId role : String) : SourceDocument :=
  { approverSource .normative sourceId "discharge" role with
    content := .arr [.obj [("mechanism_id", .str "discharge"), ("primitive_type", .str "ACTOR"),
      ("subject", .str "discharge"), ("predicate", .str "attendant"), ("value", .str role)]] }

def onePolicy : CompilerInput where
  institutionVersion := "1"
  sources := [attendantSource "policy-a" "nurse"]
  settings := {}
  distinct := by decide

/-- Two policies name different attendants, and nothing else says who attends. -/
def twoPolicies : CompilerInput where
  institutionVersion := "1"
  sources := [attendantSource "policy-a" "nurse", attendantSource "policy-b" "porter"]
  settings := {}
  distinct := by decide

/-- The candidates of an input. -/
def candidatesFor (input : CompilerInput) : List CompilerCandidate :=
  (compileInstitution exactReader input).toOption.elim [] CompilerOutput.candidates

/-- The input has one candidate, for which one approval is enough. -/
def simple (input : CompilerInput) : Bool :=
  match candidatesFor input with
  | [c] => decide (c.candidateId ≠ "" ∧ requiredApprovals c.mechanism.riskClass.value = 1 ∧
      requiredRoles c.mechanism.riskClass.value = [])
  | _ => false

theorem simple_candidate {input : CompilerInput} (h : simple input = true) :
    ∃ c, candidatesFor input = [c] ∧ CandidateOf exactReader c ∧ OneApproval c ∧
      ∀ k ∈ registerAndReview c, FromCompiler exactReader k := by
  unfold simple at h
  split at h
  · rename_i c hc
    obtain ⟨hnamed, happrovals, hroles⟩ := of_decide_eq_true h
    unfold candidatesFor at hc
    cases hcompiled : compileInstitution exactReader input with
    | error e =>
      rw [hcompiled] at hc
      cases hc
    | ok output =>
      have houtput : output.candidates = [c] := by
        rw [hcompiled] at hc
        exact hc
      refine ⟨c, by rw [candidatesFor, hcompiled]; exact houtput,
        ⟨input, output, hcompiled, houtput ▸ List.mem_singleton_self c⟩,
        ⟨hnamed, happrovals, hroles⟩, ?_⟩
      intro k hk now report timestamp hkind
      subst hkind
      rcases List.mem_cons.mp hk with heq | hin
      · cases heq
        refine ⟨input, output, hcompiled, ?_⟩
        rw [houtput]
        rfl
      · rcases List.mem_singleton.mp hin with ⟨⟩
  · cases h

theorem simple_onePolicy : simple onePolicy = true := by decide +kernel

theorem twoPolicies_unresolved : simple twoPolicies = true ∧ (candidatesFor twoPolicies).any
    (fun c => c.facts.any fun fact => decide (fact.selectedValue = .null)) = true := by
  decide +kernel

/-! ## Agreement -/

/-- **Compile-to-runtime agreement.** A mechanism promoted from a candidate of the compiler passes
the checks of the runtime exactly when every fact of the candidate has a value and no two of them
give one path different values. -/
theorem promoted_executable_iff (rd : Reader) (parseInt : String → Option Int) (calls : List Call)
    (hcalls : ∀ k ∈ calls, FromCompiler rd k) (now : Int) (candidateId promoterId : String)
    (timestamp : Option String) (d : Json)
    (h : (Call.run rd.toPython (.promote now candidateId promoterId timestamp)
      (exec (next rd.toPython) ∅ calls)).1 = .ok d) :
    ∃ candidate c, (exec (next rd.toPython) ∅ calls).candidates.get candidateId = some candidate ∧
      candidate.payload = c.row.canon ∧ CandidateOf rd c ∧
      ∃ checks, validateApprovedMechanism ⟨rd.toPython, parseInt⟩ d = .ok checks ∧
        (checks.all = true ↔ Executable c.facts) := by
  have hcompiled : Compiled rd (exec (next rd.toPython) ∅ calls) :=
    compiled_exec hcalls fun row hrow => absurd hrow List.not_mem_nil
  obtain ⟨candidate, hrow, hchecks⟩ := promoted_checks hcompiled h
  obtain ⟨c, hc, hpayload⟩ := hcompiled candidate (Table.mem_of_get hrow)
  exact ⟨candidate, c, hrow, hpayload, hc, hchecks c hc hpayload _⟩

theorem promoted_executable_iff_policy : ∃ calls id d candidate c,
    (exec (next exactReader.toPython) ∅ calls).candidates.get id = some candidate ∧
      candidate.payload = c.row.canon ∧ CandidateOf exactReader c ∧
      ∃ checks, validateApprovedMechanism ⟨exactReader.toPython, fun _ => none⟩ d = .ok checks ∧
        (checks.all = true ↔ Executable c.facts) := by
  obtain ⟨c, _, _, hone, hcalls⟩ := simple_candidate simple_onePolicy
  obtain ⟨d, _, hpromotes, _⟩ := promotes_one exactReader_sha256 hone
  exact ⟨registerAndReview c, c.candidateId, d, promoted_executable_iff exactReader (fun _ => none)
    (registerAndReview c) hcalls 0 c.candidateId "promoter-1" (some "day-3") d hpromotes⟩

/-- A candidate whose only fact lost its value to a conflict is promoted, and cannot be executed. -/
theorem unresolved_mechanism_promoted :
    ¬ ∀ (rd : Reader) (parseInt : String → Option Int) (calls : List Call),
      (∀ k ∈ calls, FromCompiler rd k) → ∀ (now : Int) (candidateId promoterId : String)
      (timestamp : Option String) (d : Json),
      (Call.run rd.toPython (.promote now candidateId promoterId timestamp)
        (exec (next rd.toPython) ∅ calls)).1 = .ok d →
      ∃ checks, validateApprovedMechanism ⟨rd.toPython, parseInt⟩ d = .ok checks ∧
        checks.all = true := by
  intro h
  obtain ⟨hsimple, hnull⟩ := twoPolicies_unresolved
  obtain ⟨c, hc, hcandidate, hone, hcalls⟩ := simple_candidate hsimple
  obtain ⟨d, candidate, hpromotes, hrow, hpayload⟩ := promotes_one exactReader_sha256 hone
  obtain ⟨checks, hvalid, hall⟩ := h exactReader (fun _ => none) _ hcalls 0 c.candidateId
    "promoter-1" (some "day-3") d hpromotes
  have hcompiled : Compiled exactReader (exec (next exactReader.toPython) ∅ (registerAndReview c)) :=
    compiled_exec hcalls fun row hrow => absurd hrow List.not_mem_nil
  obtain ⟨candidate', hrow', hchecks⟩ := promoted_checks hcompiled hpromotes
  cases hrow.symm.trans hrow'
  obtain ⟨checks', hvalid', hiff⟩ := hchecks c hcandidate hpayload ⟨exactReader.toPython, fun _ => none⟩
  cases hvalid.symm.trans hvalid'
  obtain ⟨c', hc', hany⟩ := List.any_eq_true.mp hnull
  cases List.mem_singleton.mp (hc ▸ hc')
  obtain ⟨fact, hfact, hvalue⟩ := List.any_eq_true.mp hany
  exact (hiff.mp hall).1 fact hfact (of_decide_eq_true hvalue)

end Edon.Runtime
