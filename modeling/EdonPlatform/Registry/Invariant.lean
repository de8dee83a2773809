import EdonPlatform.Lib.Run
import EdonPlatform.Registry.Store

/- The registry under one call after another.

   What is proved:
     1. `sound_register`, `sound_review`, `sound_promote`, `sound_rollback` — each
        transaction keeps `RegistryDb.Sound`.
     2. `call_alone` — a call made alone keeps it when it returns, and leaves the registry
        as it was when it raises.
     3. `registry_invariant` — after every sequence of calls, a mechanism has at most one
        active version, and exactly one from the first promotion of it on; a call that
        raises changes nothing; the candidate of every promoted mechanism is approved; and
        the audit chain verifies. -/
namespace Edon.Registry
open Json Interleaving Fallible Transition

/-! ## What approval means -/

/-- The reviews let the candidate be promoted: none asks for anything else, there are
enough of them by distinct reviewers in the required roles, and every conflict of the
candidate is resolved by one. -/
structure Approved (reviews : List ReviewRow) (candidate : CandidateRow) : Prop where
  approvals : ∀ r ∈ reviews, r.decision = .approve
  enough : requiredApprovals candidate.riskClass ≤ reviews.length
  reviewers : (reviews.map ReviewRow.reviewerId).Nodup
  roles : ∀ role ∈ requiredRoles candidate.riskClass, ∃ r ∈ reviews, r.reviewerRole = role
  conflicts : ∃ conflicts, conflictsOf candidate.payload = .ok conflicts ∧
    ∀ conflict ∈ conflicts, ∃ r ∈ reviews, ∃ key ∈ r.resolutions.keys, conflict = .str key

theorem approvalsOf_eq {reviews : List ReviewRow} (h : ∀ r ∈ reviews, r.decision = .approve) :
    approvalsOf reviews = reviews := by
  apply List.filter_eq_self.mpr
  intro r hr
  exact decide_eq_true (h r hr)

theorem candidateStatus_ready {reviews : List ReviewRow} {candidate : CandidateRow}
    (h : candidateStatus reviews candidate = .ok .readyToPromote) :
    (∀ r ∈ reviews, r.decision = .approve) ∧
      requiredApprovals candidate.riskClass ≤ reviews.length ∧
      (∀ role ∈ requiredRoles candidate.riskClass, ∃ r ∈ reviews, r.reviewerRole = role) ∧
      ∃ conflicts, conflictsOf candidate.payload = .ok conflicts ∧
        ∀ conflict ∈ conflicts, ∃ r ∈ reviews, ∃ key ∈ r.resolutions.keys, conflict = .str key := by
  unfold candidateStatus at h
  split at h
  · cases h
  · next hreject =>
    split at h
    · cases h
    · next hrevision =>
      have hall : ∀ r ∈ reviews, r.decision = .approve := by
        intro r hr
        cases hd : r.decision with
        | approve => rfl
        | reject => exact absurd (List.any_eq_true.mpr ⟨r, hr, decide_eq_true hd⟩) hreject
        | revisionRequired =>
          exact absurd (List.any_eq_true.mpr ⟨r, hr, decide_eq_true hd⟩) hrevision
      rw [approvalsOf_eq hall] at h
      obtain ⟨conflicts, hconflicts, h⟩ := bind_ok.mp h
      dsimp only at h
      split at h
      · next hready =>
        obtain ⟨henough, hroles, hresolved⟩ := hready
        refine ⟨hall, henough, ?_, conflicts, hconflicts, ?_⟩
        · intro role hrole
          exact List.mem_map.mp (hroles role hrole)
        · intro conflict hconflict
          obtain ⟨key, hkey, heq⟩ := List.mem_map.mp (hresolved conflict hconflict)
          obtain ⟨r, hr, hkey⟩ := List.mem_flatMap.mp hkey
          exact ⟨r, hr, key, hkey, heq.symm⟩
      · split at h <;> cases h

theorem candidateStatus_ne_promoted {reviews : List ReviewRow} {candidate : CandidateRow}
    {status : CandidateStatus} (h : candidateStatus reviews candidate = .ok status) :
    status ≠ .promoted := by
  unfold candidateStatus at h
  split at h
  · cases h
    nofun
  · split at h
    · cases h
      nofun
    · obtain ⟨_, _, h⟩ := bind_ok.mp h
      dsimp only at h
      split at h
      · cases h
        nofun
      · cases h
        split <;> nofun

/-! ## What each transaction does -/

section
variable {py : Python} {db t : RegistryDb}

theorem appendAudit_ok {eventType entityId : String} {payload : Json} {timestamp : String}
    (h : appendAudit py eventType entityId payload timestamp db = .ok t) :
    ∃ row, t = { db with auditEvents := db.auditEvents ++ [row] } ∧
      HashChain.Joins (auditLinks py) (HashChain.last (auditLinks py) db.auditEvents) row := by
  unfold appendAudit at h
  dsimp only at h
  split at h
  · cases h
  · cases h
    refine ⟨_, rfl, rfl, ?_⟩
    apply sha256Json_congr
    -- the payload is stored in canonical form
    show canon _ = canon _
    simp only [auditJson, canon, canonFields, canon_canon]

/-- The audit got one event, which joins the chain. -/
def Audits (py : Python) (db t : RegistryDb) : Prop :=
  ∃ row, t.auditEvents = db.auditEvents ++ [row] ∧
    HashChain.Joins (auditLinks py) (HashChain.last (auditLinks py) db.auditEvents) row

theorem Audits.verifies (h : Audits py db t) (hdb : db.verifyAuditChain py = true) :
    t.verifyAuditChain py = true := by
  obtain ⟨row, hrow, hjoins⟩ := h
  unfold RegistryDb.verifyAuditChain
  rw [hrow, HashChain.verify_snoc]
  exact ⟨hdb, hjoins⟩

theorem registerCandidate_ok {run : CompilerRunRow} {candidate : Json} {id : String}
    (h : registerCandidate py run candidate db = .ok (id, t)) :
    (∃ row, db.candidates.insert row = some t.candidates) ∧ t.reviews = db.reviews ∧
      t.mechanisms = db.mechanisms ∧ Audits py db t := by
  unfold registerCandidate at h
  obtain ⟨_, _, h⟩ := bind_ok.mp h
  obtain ⟨_, _, h⟩ := bind_ok.mp h
  obtain ⟨_, _, h⟩ := bind_ok.mp h
  obtain ⟨_, _, h⟩ := bind_ok.mp h
  obtain ⟨_, _, h⟩ := bind_ok.mp h
  obtain ⟨_, _, h⟩ := bind_ok.mp h
  obtain ⟨_, _, h⟩ := bind_ok.mp h
  obtain ⟨_, _, h⟩ := bind_ok.mp h
  obtain ⟨_, _, h⟩ := bind_ok.mp h
  obtain ⟨candidates, hinsert, h⟩ := bind_ok.mp h
  obtain ⟨_, haudit, h⟩ := bind_ok.mp h
  cases h
  obtain ⟨row, rfl, hjoins⟩ := appendAudit_ok haudit
  exact ⟨⟨_, orRaise_ok.mp hinsert⟩, rfl, rfl, row, rfl, hjoins⟩

theorem reviewTx_ok {row : ReviewRow} {candidate : CandidateRow} {status : CandidateStatus}
    (h : reviewTx py row candidate db = .ok (status, t)) :
    (∀ r ∈ db.reviews.rows, row.clashes r = false) ∧ db.reviews.insert row = some t.reviews ∧
      t.mechanisms = db.mechanisms ∧ status ≠ .promoted ∧
      t.candidates = db.candidates.modify row.candidateId (CandidateRow.withStatus status)
        (fun _ => rfl) ∧ Audits py db t := by
  unfold reviewTx at h
  obtain ⟨_, hclash, h⟩ := bind_ok.mp h
  obtain ⟨reviews, hinsert, h⟩ := bind_ok.mp h
  obtain ⟨_, haudit, h⟩ := bind_ok.mp h
  obtain ⟨_, hstatus, h⟩ := bind_ok.mp h
  cases h
  obtain ⟨event, rfl, hjoins⟩ := appendAudit_ok haudit
  refine ⟨?_, orRaise_ok.mp hinsert, rfl, candidateStatus_ne_promoted hstatus, rfl, event, rfl,
    hjoins⟩
  intro r hr
  have hnone := of_decide_eq_true (require_ok.mp hclash)
  rw [Bool.not_eq_true, List.any_eq_false] at hnone
  exact Bool.eq_false_iff.mpr (hnone r hr)

theorem promoteTx_ok {p : Promotion} {u : Unit} (h : promoteTx py p db = .ok (u, t)) :
    (deactivate p.row.mechanismId db.mechanisms).insert p.row = some t.mechanisms ∧
      t.reviews = db.reviews ∧
      t.candidates = db.candidates.modify p.row.candidateId (CandidateRow.withStatus .promoted)
        (fun _ => rfl) ∧ Audits py db t := by
  unfold promoteTx at h
  obtain ⟨mechanisms, hinsert, h⟩ := bind_ok.mp h
  obtain ⟨_, haudit, h⟩ := bind_ok.mp h
  cases h
  obtain ⟨event, rfl, hjoins⟩ := appendAudit_ok haudit
  exact ⟨orRaise_ok.mp hinsert, rfl, rfl, event, rfl, hjoins⟩

theorem rollbackTx_ok {mechanismId targetVersion actorId rationale changedAt : String} {u : Unit}
    (h : rollbackTx py mechanismId targetVersion actorId rationale changedAt db = .ok (u, t)) :
    t.mechanisms = (deactivate mechanismId db.mechanisms).modify (mechanismId, targetVersion)
        (MechanismRow.withActive true) (MechanismRow.withActive_key true) ∧
      t.reviews = db.reviews ∧ t.candidates = db.candidates ∧ Audits py db t := by
  unfold rollbackTx at h
  obtain ⟨_, haudit, h⟩ := bind_ok.mp h
  cases h
  obtain ⟨event, rfl, hjoins⟩ := appendAudit_ok haudit
  exact ⟨rfl, rfl, rfl, event, rfl, hjoins⟩

/-! ## The invariant -/

/-- `r` is an active version of the mechanism. -/
structure RegistryDb.Active (db : RegistryDb) (mechanismId : String) (r : MechanismRow) : Prop where
  row : r ∈ db.mechanisms.rows
  mechanism : r.mechanismId = mechanismId
  active : r.active = true

/-- The candidate of a mechanism: it is promoted, and its reviews make it ready. -/
def RegistryDb.Promoted (db : RegistryDb) (candidateId : String) : Prop :=
  ∃ c, db.candidates.get candidateId = some c ∧ c.status = .promoted ∧
    candidateStatus (db.reviewsOf candidateId) c = .ok .readyToPromote

structure RegistryDb.Sound (py : Python) (db : RegistryDb) : Prop where
  versions : ∀ row ∈ db.mechanisms.rows, ∃! r, db.Active row.mechanismId r
  promoted : ∀ row ∈ db.mechanisms.rows, db.Promoted row.candidateId
  reviewers : (db.reviews.rows.map (fun r => (r.candidateId, r.reviewerId))).Nodup
  chain : db.verifyAuditChain py = true

theorem sound_empty : (∅ : RegistryDb).Sound py := ⟨nofun, nofun, List.nodup_nil, rfl⟩

theorem Promoted.same {candidateId : String} (h : db.Promoted candidateId)
    (hcandidates : t.candidates.get candidateId = db.candidates.get candidateId)
    (hreviews : t.reviewsOf candidateId = db.reviewsOf candidateId) : t.Promoted candidateId := by
  unfold RegistryDb.Promoted at h ⊢
  rw [hcandidates, hreviews]
  exact h

theorem versions_same (h : db.Sound py) (hmechanisms : t.mechanisms = db.mechanisms) :
    ∀ row ∈ t.mechanisms.rows, ∃! r, t.Active row.mechanismId r := by
  rw [hmechanisms]
  intro row hrow
  obtain ⟨r, hactive, hunique⟩ := h.versions row hrow
  refine ⟨r, ⟨hmechanisms ▸ hactive.row, hactive.mechanism, hactive.active⟩, ?_⟩
  intro r' hr'
  exact hunique r' ⟨hmechanisms ▸ hr'.row, hr'.mechanism, hr'.active⟩

theorem sound_registerCandidate {run : CompilerRunRow} {candidate : Json} {id : String}
    (h : db.Sound py) (hok : registerCandidate py run candidate db = .ok (id, t)) : t.Sound py := by
  obtain ⟨⟨c, hinsert⟩, hreviews, hmechanisms, haudit⟩ := registerCandidate_ok hok
  refine ⟨versions_same h hmechanisms, ?_, ?_, haudit.verifies h.chain⟩
  · intro row hrow
    rw [hmechanisms] at hrow
    obtain ⟨old, hold, hpromoted⟩ := h.promoted row hrow
    have hfresh := (Table.rows_insert hinsert).2
    apply Promoted.same ⟨old, hold, hpromoted⟩
    · rw [Table.get_insert hinsert, if_neg]
      rintro heq
      rw [heq, hold] at hfresh
      cases hfresh
    · unfold RegistryDb.reviewsOf
      rw [hreviews]
  · rw [hreviews]
    exact h.reviewers

theorem sound_registerCandidates {run : CompilerRunRow} {candidates : List Json}
    {ids : List String} (h : db.Sound py)
    (hok : registerCandidates py run candidates db = .ok (ids, t)) : t.Sound py := by
  induction candidates generalizing db ids with
  | nil =>
    cases hok
    exact h
  | cons candidate candidates ih =>
    obtain ⟨⟨id, db₁⟩, hfirst, hok⟩ := bind_ok.mp hok
    obtain ⟨⟨_, db₂⟩, hrest, hok⟩ := bind_ok.mp hok
    cases hok
    exact ih (sound_registerCandidate h hfirst) hrest

theorem sound_register {run : CompilerRunRow} {candidates : List Json} {ids : List String}
    (h : db.Sound py) (hok : registerTx py run candidates db = .ok (ids, t)) : t.Sound py := by
  unfold registerTx at hok
  obtain ⟨compilerRuns, _, hok⟩ := bind_ok.mp hok
  obtain ⟨db₁, haudit, hok⟩ := bind_ok.mp hok
  obtain ⟨event, rfl, hjoins⟩ := appendAudit_ok haudit
  refine sound_registerCandidates ?_ hok
  refine ⟨versions_same h rfl, h.promoted, h.reviewers, ?_⟩
  exact Audits.verifies ⟨event, rfl, hjoins⟩ h.chain

theorem reviewsOf_insert {row : ReviewRow} {candidateId : String}
    (hinsert : db.reviews.insert row = some t.reviews) (hne : row.candidateId ≠ candidateId) :
    t.reviewsOf candidateId = db.reviewsOf candidateId := by
  unfold RegistryDb.reviewsOf
  rw [(Table.rows_insert hinsert).1, List.filter_append]
  simp [hne]

theorem sound_review {row : ReviewRow} {candidate : CandidateRow} {status : CandidateStatus}
    (h : db.Sound py) (hcandidate : db.candidates.get row.candidateId = some candidate)
    (hopen : candidate.status ≠ .promoted)
    (hok : reviewTx py row candidate db = .ok (status, t)) : t.Sound py := by
  obtain ⟨hclash, hinsert, hmechanisms, _, hcandidates, haudit⟩ := reviewTx_ok hok
  refine ⟨versions_same h hmechanisms, ?_, ?_, haudit.verifies h.chain⟩
  · intro m hm
    rw [hmechanisms] at hm
    have hpromoted := h.promoted m hm
    -- the candidate of a mechanism is promoted, the one reviewed is not
    have hne : row.candidateId ≠ m.candidateId := by
      intro heq
      obtain ⟨c, hc, hstatus, _⟩ := hpromoted
      rw [← heq, hcandidate] at hc
      cases hc
      exact hopen hstatus
    apply Promoted.same hpromoted
    · rw [hcandidates]
      exact Table.get_modify_ne _ hne
    · exact reviewsOf_insert hinsert hne
  · rw [(Table.rows_insert hinsert).1, List.map_append, List.map_singleton,
      ← List.concat_eq_append]
    apply h.reviewers.concat
    intro hmem
    obtain ⟨r, hr, heq⟩ := List.mem_map.mp hmem
    obtain ⟨hc, hv⟩ := Prod.mk.inj heq
    have hfree := hclash r hr
    simp [ReviewRow.clashes, hc, hv] at hfree

theorem mem_deactivate {mechanismId : String} {mechanisms : Table MechanismRow.key}
    {r : MechanismRow} :
    r ∈ (deactivate mechanismId mechanisms).rows ↔
      (r ∈ mechanisms.rows ∧ r.mechanismId ≠ mechanismId) ∨
        ∃ old ∈ mechanisms.rows, old.mechanismId = mechanismId ∧ r = old.withActive false := by
  unfold deactivate
  rw [Table.mem_update]
  simp only [decide_eq_false_iff_not, decide_eq_true_eq, ne_eq]

/-- Every row after a deactivation comes from a row of the same version. -/
theorem exists_of_mem_deactivate {mechanismId : String} {mechanisms : Table MechanismRow.key}
    {r : MechanismRow} (h : r ∈ (deactivate mechanismId mechanisms).rows) :
    ∃ old ∈ mechanisms.rows, old.key = r.key ∧ old.candidateId = r.candidateId := by
  rcases mem_deactivate.mp h with ⟨hr, _⟩ | ⟨old, hold, _, rfl⟩
  · exact ⟨r, hr, rfl, rfl⟩
  · exact ⟨old, hold, rfl, rfl⟩

/-- Where one mechanism was deactivated and one version of it activated, that version is the
active one, and the other mechanisms have the one they had. -/
theorem versions_activate {mechanismId : String} {new : MechanismRow} (h : db.Sound py)
    (hnew : t.Active mechanismId new)
    (hrows : ∀ r ∈ t.mechanisms.rows,
      r = new ∨ r ∈ (deactivate mechanismId db.mechanisms).rows)
    (hkept : ∀ r ∈ db.mechanisms.rows, r.mechanismId ≠ mechanismId → r ∈ t.mechanisms.rows) :
    ∀ row ∈ t.mechanisms.rows, ∃! r, t.Active row.mechanismId r := by
  have hother : ∀ r ∈ t.mechanisms.rows, r.active = true → r ≠ new →
      r ∈ db.mechanisms.rows ∧ r.mechanismId ≠ mechanismId := by
    intro r hr hactive hne
    rcases hrows r hr with heq | hdead
    · exact absurd heq hne
    · rcases mem_deactivate.mp hdead with hkeep | ⟨old, _, _, rfl⟩
      · exact hkeep
      · cases hactive
  intro row hrow
  by_cases heq : row.mechanismId = mechanismId
  · refine ⟨new, heq ▸ hnew, ?_⟩
    intro r hr
    by_contra hne
    exact (hother r hr.row hr.active hne).2 (hr.mechanism.trans heq)
  · have hold : ∃ old ∈ db.mechanisms.rows, old.mechanismId = row.mechanismId := by
      rcases hrows row hrow with rfl | hdead
      · exact absurd hnew.mechanism heq
      · obtain ⟨old, hold, hkey, _⟩ := exists_of_mem_deactivate hdead
        exact ⟨old, hold, congrArg Prod.fst hkey⟩
    obtain ⟨old, hold, hid⟩ := hold
    obtain ⟨r, hactive, hunique⟩ := h.versions old hold
    rw [hid] at hactive hunique
    have hne : r.mechanismId ≠ mechanismId := by
      rw [hactive.mechanism]
      exact heq
    refine ⟨r, ⟨hkept r hactive.row hne, hactive.mechanism, hactive.active⟩, ?_⟩
    intro r' hr'
    have hne' : r' ≠ new := by
      rintro rfl
      exact heq (hr'.mechanism.symm.trans hnew.mechanism)
    exact hunique r' ⟨(hother r' hr'.row hr'.active hne').1, hr'.mechanism, hr'.active⟩

theorem sound_promote {p : Promotion} {candidate : CandidateRow} {u : Unit} (h : db.Sound py)
    (hcandidate : db.candidates.get p.row.candidateId = some candidate)
    (hready : candidateStatus (db.reviewsOf p.row.candidateId) candidate = .ok .readyToPromote)
    (hactive : p.row.active = true) (hok : promoteTx py p db = .ok (u, t)) : t.Sound py := by
  obtain ⟨hinsert, hreviews, hcandidates, haudit⟩ := promoteTx_ok hok
  have hrows := fun r => Table.mem_insert (s := r) hinsert
  -- whatever was promoted stays so, and the candidate of the new version becomes so
  have hpromoted : ∀ candidateId, candidateId = p.row.candidateId ∨ db.Promoted candidateId →
      t.Promoted candidateId := by
    intro candidateId hid
    by_cases heq : p.row.candidateId = candidateId
    · subst heq
      refine ⟨candidate.withStatus .promoted, ?_, rfl, ?_⟩
      · rw [hcandidates]
        exact Table.get_modify_self _ hcandidate
      · unfold RegistryDb.reviewsOf
        rw [hreviews]
        exact hready
    · rcases hid with hid | hid
      · exact absurd hid.symm heq
      · apply Promoted.same hid
        · rw [hcandidates]
          exact Table.get_modify_ne _ heq
        · unfold RegistryDb.reviewsOf
          rw [hreviews]
  refine ⟨?_, ?_, ?_, haudit.verifies h.chain⟩
  · refine versions_activate h ⟨(hrows p.row).mpr (.inr rfl), rfl, hactive⟩ ?_ ?_
    · intro r hr
      exact ((hrows r).mp hr).symm
    · intro r hr hne
      exact (hrows r).mpr (.inl (mem_deactivate.mpr (.inl ⟨hr, hne⟩)))
  · intro row hrow
    apply hpromoted
    rcases (hrows row).mp hrow with hold | rfl
    · obtain ⟨old, hold, _, hid⟩ := exists_of_mem_deactivate hold
      rw [← hid]
      exact .inr (h.promoted old hold)
    · exact .inl rfl
  · rw [hreviews]
    exact h.reviewers

theorem sound_rollback {mechanismId targetVersion actorId rationale changedAt : String} {u : Unit}
    {target : MechanismRow} (h : db.Sound py)
    (htarget : db.mechanisms.get (mechanismId, targetVersion) = some target)
    (hok : rollbackTx py mechanismId targetVersion actorId rationale changedAt db = .ok (u, t)) :
    t.Sound py := by
  obtain ⟨hmechanisms, hreviews, hcandidates, haudit⟩ := rollbackTx_ok hok
  have hmechanism : target.mechanismId = mechanismId := congrArg Prod.fst (Table.get_key htarget)
  have hdead : target.withActive false ∈ (deactivate mechanismId db.mechanisms).rows :=
    mem_deactivate.mpr (.inr ⟨target, Table.mem_of_get htarget, hmechanism, rfl⟩)
  have hkey : (target.withActive false).key = (mechanismId, targetVersion) :=
    (target.withActive_key false).trans (Table.get_key htarget)
  have hrows : ∀ r, r ∈ t.mechanisms.rows ↔
      (r ∈ (deactivate mechanismId db.mechanisms).rows ∧ r.key ≠ (mechanismId, targetVersion)) ∨
        r = target.withActive true := by
    intro r
    rw [hmechanisms, Table.mem_modify]
    apply or_congr_right
    constructor
    · rintro ⟨old, hold, hkey', rfl⟩
      rw [Table.eq_of_key hold hdead (hkey'.trans hkey.symm)]
      rfl
    · rintro rfl
      exact ⟨_, hdead, hkey, rfl⟩
  refine ⟨?_, ?_, ?_, haudit.verifies h.chain⟩
  · refine versions_activate h ⟨(hrows _).mpr (.inr rfl), hmechanism, rfl⟩ ?_ ?_
    · intro r hr
      rcases (hrows r).mp hr with ⟨hold, _⟩ | hnew
      · exact .inr hold
      · exact .inl hnew
    · intro r hr hne
      refine (hrows r).mpr (.inl ⟨mem_deactivate.mpr (.inl ⟨hr, hne⟩), ?_⟩)
      intro heq
      exact hne (congrArg Prod.fst heq)
  · intro row hrow
    have hold : ∃ old ∈ db.mechanisms.rows, old.candidateId = row.candidateId := by
      rcases (hrows row).mp hrow with ⟨hdeactivated, _⟩ | rfl
      · obtain ⟨old, hold, _, hid⟩ := exists_of_mem_deactivate hdeactivated
        exact ⟨old, hold, hid⟩
      · exact ⟨target, Table.mem_of_get htarget, rfl⟩
    obtain ⟨old, hold, hid⟩ := hold
    rw [← hid]
    apply Promoted.same (h.promoted old hold)
    · rw [hcandidates]
    · unfold RegistryDb.reviewsOf
      rw [hreviews]
  · rw [hreviews]
    exact h.reviewers

/-! ## Mechanisms stay -/

/-- Every mechanism that has a version still has one. -/
def Keeps (db t : RegistryDb) : Prop :=
  ∀ r ∈ db.mechanisms.rows, ∃ r' ∈ t.mechanisms.rows, r'.mechanismId = r.mechanismId

theorem Keeps.refl (db : RegistryDb) : Keeps db db := fun r hr => ⟨r, hr, rfl⟩

theorem Keeps.trans {u : RegistryDb} (h₁ : Keeps db t) (h₂ : Keeps t u) : Keeps db u := by
  intro r hr
  obtain ⟨r₁, hr₁, heq₁⟩ := h₁ r hr
  obtain ⟨r₂, hr₂, heq₂⟩ := h₂ r₁ hr₁
  exact ⟨r₂, hr₂, heq₂.trans heq₁⟩

theorem keeps_same (h : t.mechanisms = db.mechanisms) : Keeps db t := by
  intro r hr
  exact ⟨r, h ▸ hr, rfl⟩

theorem exists_in_deactivate {mechanismId : String} {mechanisms : Table MechanismRow.key}
    {r : MechanismRow} (hr : r ∈ mechanisms.rows) :
    ∃ r' ∈ (deactivate mechanismId mechanisms).rows, r'.mechanismId = r.mechanismId := by
  by_cases heq : r.mechanismId = mechanismId
  · exact ⟨r.withActive false, mem_deactivate.mpr (.inr ⟨r, hr, heq, rfl⟩), rfl⟩
  · exact ⟨r, mem_deactivate.mpr (.inl ⟨hr, heq⟩), rfl⟩

theorem keeps_promote {p : Promotion} {u : Unit} (hok : promoteTx py p db = .ok (u, t)) :
    Keeps db t := by
  intro r hr
  obtain ⟨r', hr', heq⟩ := exists_in_deactivate hr
  exact ⟨r', (Table.mem_insert (promoteTx_ok hok).1).mpr (.inl hr'), heq⟩

theorem keeps_rollback {mechanismId targetVersion actorId rationale changedAt : String} {u : Unit}
    (hok : rollbackTx py mechanismId targetVersion actorId rationale changedAt db = .ok (u, t)) :
    Keeps db t := by
  intro r hr
  obtain ⟨r', hr', heq⟩ := exists_in_deactivate hr
  rw [(rollbackTx_ok hok).1]
  by_cases hkey : r'.key = (mechanismId, targetVersion)
  · exact ⟨r'.withActive true, Table.mem_modify.mpr (.inr ⟨r', hr', hkey, rfl⟩), heq⟩
  · exact ⟨r', Table.mem_modify.mpr (.inl ⟨hr', hkey⟩), heq⟩

theorem registerCandidates_mechanisms {run : CompilerRunRow} {candidates : List Json}
    {ids : List String} (hok : registerCandidates py run candidates db = .ok (ids, t)) :
    t.mechanisms = db.mechanisms := by
  induction candidates generalizing db ids with
  | nil =>
    cases hok
    rfl
  | cons candidate candidates ih =>
    obtain ⟨⟨id, db₁⟩, hfirst, hok⟩ := bind_ok.mp hok
    obtain ⟨⟨_, db₂⟩, hrest, hok⟩ := bind_ok.mp hok
    cases hok
    exact (ih hrest).trans (registerCandidate_ok hfirst).2.2.1

theorem keeps_register {run : CompilerRunRow} {candidates : List Json} {ids : List String}
    (hok : registerTx py run candidates db = .ok (ids, t)) : Keeps db t := by
  unfold registerTx at hok
  obtain ⟨compilerRuns, _, hok⟩ := bind_ok.mp hok
  obtain ⟨db₁, haudit, hok⟩ := bind_ok.mp hok
  obtain ⟨event, rfl, _⟩ := appendAudit_ok haudit
  have hsame := registerCandidates_mechanisms hok
  exact keeps_same hsame

/-! ## One call -/

/-- The program alone in `db`: a return leaves what `Q` says, a raise leaves `db`. -/
abbrev Alone (py : Python) (db : RegistryDb) {α : Type} (p : Program α)
    (Q : α → RegistryDb → Prop) : Prop :=
  p.Meets (execute py) Eq (fun _ _ => True) Q (fun t => t = db) db

theorem alone_lift {α β : Type} {x : Except PyError α} {f : α → Program β}
    {Q : β → RegistryDb → Prop} (h : ∀ a, x = .ok a → Alone py db (f a) Q) :
    Alone py db ((liftM x : Program α) >>= f) Q :=
  Prog.Meets.lift rfl h

theorem alone_sql {β : Type} {c : Statement} {f : Answer c → Program β}
    {Q : β → RegistryDb → Prop}
    (h : (f (execute py c db).1).Meets (execute py) Eq (fun _ _ => True) Q (fun t => t = db)
      (execute py c db).2) : Alone py db (sql c >>= f) Q := by
  apply Prog.Meets.ask
  rintro _ rfl
  exact ⟨trivial, h⟩

theorem alone_candidateRow {α : Type} {candidateId : String} {f : CandidateRow → Program α}
    {Q : α → RegistryDb → Prop}
    (h : ∀ c, db.candidates.get candidateId = some c → Alone py db (f c) Q) :
    Alone py db (candidateRow candidateId >>= f) Q := by
  show Alone py db ((sql (.candidate candidateId) >>= fun row =>
    (liftM (orRaise _ row) : Program CandidateRow)) >>= f) Q
  rw [bind_assoc]
  apply alone_sql
  apply alone_lift
  intro c hc
  exact h c (orRaise_ok.mp hc)

theorem alone_registerCompilerRun (h : db.Sound py) (now : Int) (report : Json)
    (timestamp : Option String) :
    Alone py db (registerCompilerRun py now report timestamp)
      (fun _ t => t.Sound py ∧ Keeps db t) := by
  unfold registerCompilerRun
  -- the checks of the report
  repeat refine alone_lift fun _ _ => ?_
  apply alone_sql
  dsimp only [execute]
  split
  · apply alone_lift
    intro _ _
    apply alone_sql
    exact Prog.meets_pure.mpr ⟨h, Keeps.refl db⟩
  · apply alone_sql
    refine Prog.Meets.transaction rfl ?_
    intro ids t hok
    exact Prog.meets_pure.mpr ⟨sound_register h hok, keeps_register hok⟩

theorem alone_submitReview (h : db.Sound py) (now : Int) (a : ReviewArgs) :
    Alone py db (submitReview py now a) (fun _ t => t.Sound py ∧ Keeps db t) := by
  unfold submitReview
  apply alone_lift
  intro decision _
  apply alone_lift
  intro _ _
  apply alone_candidateRow
  intro candidate hcandidate
  apply alone_lift
  intro _ hopen
  obtain ⟨hopen, _⟩ := of_decide_eq_true (require_ok.mp hopen)
  apply alone_lift
  intro _ _
  apply alone_lift
  intro _ _
  apply alone_lift
  intro _ _
  apply alone_sql
  refine Prog.Meets.transaction rfl ?_
  intro status t hok
  exact Prog.meets_pure.mpr
    ⟨sound_review h hcandidate hopen hok, keeps_same (reviewTx_ok hok).2.2.1⟩

/-- The document a promotion returns names a mechanism that has a version now. -/
theorem alone_promote (h : db.Sound py) (now : Int) (candidateId promoterId : String)
    (timestamp : Option String) :
    Alone py db (promote py now candidateId promoterId timestamp)
      (fun d t => (t.Sound py ∧ Keeps db t) ∧ ∃ m, dictIndex d "mechanism_id" = .ok m ∧
        ∃ r ∈ t.mechanisms.rows, r.mechanismId = pyStr py m) := by
  unfold promote
  apply alone_lift
  intro _ _
  apply alone_candidateRow
  intro candidate hcandidate
  apply alone_sql
  dsimp only [execute]
  apply alone_lift
  intro status hstatus
  apply alone_lift
  intro _ hready
  rw [of_decide_eq_true (require_ok.mp hready)] at hstatus
  apply alone_lift
  intro source _
  apply alone_lift
  intro mechanism _
  apply alone_sql
  dsimp only [execute]
  apply alone_lift
  intro metadata _
  apply alone_lift
  intro facts _
  apply alone_lift
  intro m hm
  apply alone_lift
  intro version _
  apply alone_sql
  refine Prog.Meets.transaction rfl ?_
  intro u t hok
  refine Prog.meets_pure.mpr
    ⟨⟨sound_promote h hcandidate hstatus rfl hok, keeps_promote hok⟩, m, hm, ?_⟩
  exact ⟨_, (Table.mem_insert (promoteTx_ok hok).1).mpr (.inr rfl), rfl⟩

theorem alone_rollback (h : db.Sound py) (now : Int)
    (mechanismId targetVersion actorId rationale : String) (timestamp : Option String) :
    Alone py db (rollback py now mechanismId targetVersion actorId rationale timestamp)
      (fun _ t => t.Sound py ∧ Keeps db t) := by
  unfold rollback
  apply alone_sql
  apply alone_lift
  intro target htarget
  apply alone_sql
  refine Prog.Meets.transaction rfl ?_
  intro u t hok
  exact Prog.meets_pure.mpr ⟨sound_rollback h (orRaise_ok.mp htarget) hok, keeps_rollback hok⟩

/-! ## Sequences of calls -/

variable (py) in
/-- A call made alone: what it returns or raises, and the registry after it. -/
def Call.run (k : Call) (db : RegistryDb) : Except PyError Json × RegistryDb :=
  (k.program py).run (execute py) db

variable (py) in
def next (db : RegistryDb) (k : Call) : RegistryDb := (k.run py db).2

theorem call_alone (h : db.Sound py) (k : Call) :
    Alone py db (k.program py) (fun _ t => t.Sound py ∧ Keeps db t) := by
  cases k with
  | registerCompilerRun now report timestamp => exact alone_registerCompilerRun h now report timestamp
  | submitReview now a => exact alone_submitReview h now a
  | promote now candidateId promoterId timestamp =>
    exact (alone_promote h now candidateId promoterId timestamp).mono (fun _ _ hd => hd.1)
  | rollback now mechanismId targetVersion actorId rationale timestamp =>
    exact alone_rollback h now mechanismId targetVersion actorId rationale timestamp

theorem next_cases (h : db.Sound py) (k : Call) :
    (next py db k).Sound py ∧ Keeps db (next py db k) := by
  unfold next Call.run
  rcases (call_alone h k).run Eq.refl with ⟨d, t, hrun, hkept⟩ | ⟨e, t, hrun, rfl⟩
  · rw [hrun]
    exact hkept
  · rw [hrun]
    exact ⟨h, Keeps.refl _⟩

theorem run_error (h : db.Sound py) {k : Call} {e : PyError} (hraise : (k.run py db).1 = .error e) :
    (k.run py db).2 = db := by
  unfold Call.run at hraise ⊢
  rcases (call_alone h k).run Eq.refl with ⟨d, t, hrun, _⟩ | ⟨e', t, hrun, rfl⟩
  · rw [hrun] at hraise
    cases hraise
  · rw [hrun]

theorem sound_exec (h : db.Sound py) (calls : List Call) : (exec (next py) db calls).Sound py := by
  apply exec_invariant (I := RegistryDb.Sound py) _ h
  intro db k hdb
  exact (next_cases hdb k).1

theorem keeps_exec (h : db.Sound py) (calls : List Call) : Keeps db (exec (next py) db calls) := by
  induction calls generalizing db with
  | nil => exact Keeps.refl db
  | cons k calls ih =>
    obtain ⟨hsound, hkeeps⟩ := next_cases h k
    exact hkeeps.trans (ih hsound)

theorem approved_of_promoted (h : db.Sound py) {row : MechanismRow}
    (hrow : row ∈ db.mechanisms.rows) :
    ∃ c, db.candidates.get row.candidateId = some c ∧ Approved (db.reviewsOf row.candidateId) c := by
  obtain ⟨c, hc, _, hready⟩ := h.promoted row hrow
  obtain ⟨hall, henough, hroles, hconflicts⟩ := candidateStatus_ready hready
  refine ⟨c, hc, hall, henough, ?_, hroles, hconflicts⟩
  -- reviews of one candidate with one reviewer are one review
  have hperm := List.perm_insertionSort reviewBefore
    (db.reviews.rows.filter (fun r => r.candidateId = row.candidateId))
  have hnodup : ((db.reviews.rows.filter (fun r => r.candidateId = row.candidateId)).map
      (fun r => (r.candidateId, r.reviewerId))).Nodup :=
    h.reviewers.sublist (List.filter_sublist.map _)
  apply (hperm.map _).nodup_iff.mpr
  apply List.Nodup.of_map (fun reviewerId => (row.candidateId, reviewerId))
  rw [List.map_map]
  convert hnodup using 1
  apply List.map_congr_left
  intro r hr
  have hid := of_decide_eq_true (List.mem_filter.mp hr).2
  show (row.candidateId, r.reviewerId) = (r.candidateId, r.reviewerId)
  rw [hid]

/-- **The registry keeps its invariant.** After any sequence of calls, returning or raising:
at most one version of a mechanism is active, and exactly one once a promotion of it has
returned; a call that raises changes nothing; the reviews of every promoted candidate
approve it; and the audit chain verifies. -/
theorem registry_invariant (py : Python) (calls : List Call) :
    let db := exec (next py) (∅ : RegistryDb) calls
    (∀ mechanismId r r', db.Active mechanismId r → db.Active mechanismId r' → r = r') ∧
    (∀ (before after : List Call) (now : Int) (candidateId promoterId : String)
      (timestamp : Option String) (d : Json),
      calls = before ++ .promote now candidateId promoterId timestamp :: after →
      (Call.run py (.promote now candidateId promoterId timestamp)
        (exec (next py) (∅ : RegistryDb) before)).1 = .ok d →
      ∃ m, dictIndex d "mechanism_id" = .ok m ∧ ∃! r, db.Active (pyStr py m) r) ∧
    (∀ k e, (Call.run py k db).1 = .error e → (Call.run py k db).2 = db) ∧
    (∀ row ∈ db.mechanisms.rows, ∃ c, db.candidates.get row.candidateId = some c ∧
      Approved (db.reviewsOf row.candidateId) c) ∧
    db.verifyAuditChain py = true := by
  intro db
  have hsound : db.Sound py := sound_exec sound_empty calls
  refine ⟨?_, ?_, fun k e => run_error hsound, fun row => approved_of_promoted hsound,
    hsound.chain⟩
  · intro mechanismId r r' hr hr'
    have hunique := hsound.versions r hr.row
    rw [hr.mechanism] at hunique
    exact hunique.unique hr hr'
  · intro before after now candidateId promoterId timestamp d hcalls hok
    have hbefore : (exec (next py) ∅ before).Sound py := sound_exec sound_empty before
    rcases (alone_promote hbefore now candidateId promoterId timestamp).run Eq.refl with
      ⟨d', t, hrun, ⟨ht, _⟩, m, hm, r, hr, hid⟩ | ⟨e, t, hrun, _⟩
    · have hd : d' = d := by
        have : (Call.run py (.promote now candidateId promoterId timestamp)
          (exec (next py) ∅ before)).1 = .ok d' := congrArg Prod.fst hrun
        rw [hok] at this
        exact (Except.ok.inj this).symm
      subst hd
      refine ⟨m, hm, ?_⟩
      -- what comes after the promotion keeps the mechanism
      have hdb : db = exec (next py) t after := by
        have hnext : next py (exec (next py) ∅ before)
            (.promote now candidateId promoterId timestamp) = t := congrArg Prod.snd hrun
        show exec (next py) ∅ calls = _
        rw [hcalls, exec_append, exec_cons, hnext]
      obtain ⟨r', hr', heq⟩ := keeps_exec ht after r hr
      have hversions := hsound.versions r' (hdb ▸ hr')
      rw [heq, hid] at hversions
      exact hversions
    · have : (Call.run py (.promote now candidateId promoterId timestamp)
        (exec (next py) ∅ before)).1 = .error e := congrArg Prod.fst hrun
      rw [hok] at this
      cases this

end
end Edon.Registry
