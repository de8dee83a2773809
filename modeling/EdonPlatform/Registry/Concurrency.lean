import EdonPlatform.Registry.Invariant

/- Calls of the registry that overlap. `submit_review` and `promote` read the candidate and
   its reviews before their first write, outside the write transaction, so another call may
   commit in between.

   What is proved:
     1. `promotion_respects_reviews_iff` — over every interleaving of any calls from any
        registry: a mechanism is promoted only over approvals, and a promoted candidate stays
        promoted, exactly when no transaction commits on a reading that is `Stale`: the
        reviews a promotion relies on have been joined by one that is no approval, or the
        candidate of a review has been promoted since.
     2. `promoted_over_rejection` — an interleaving that promotes a rejected candidate. -/
namespace Edon.Registry
open Json Interleaving Fallible Transition

section
variable (py : Python)

/-- The pool of calls under way on one registry. -/
abbrev Calls := Pool RegistryDb Statement Answer PyError Json

abbrev advance : Calls → Move Call → Calls := Pool.step (execute py) (Call.program py)

/-- The write transaction commits. -/
def Statement.commits (db : RegistryDb) : Statement → Bool
  | .review row seen => (reviewTx py row seen db).isOk
  | .promotion p => (promoteTx py p db).isOk
  | _ => false

/-- Nothing but approvals of the candidate has been committed when it is promoted. -/
def Statement.PromotesApproved (db : RegistryDb) : Statement → Prop
  | .promotion p => Statement.commits py db (.promotion p) →
      ∀ r ∈ db.reviewsOf p.row.candidateId, r.decision = .approve
  | _ => True

/-- Promoted candidates are promoted afterwards. -/
def RegistryDb.StaysPromoted (db t : RegistryDb) : Prop :=
  ∀ c ∈ db.candidates.rows, c.status = .promoted →
    ∃ c' ∈ t.candidates.rows, c'.candidateId = c.candidateId ∧ c'.status = .promoted

instance Statement.decidablePromotesApproved (db : RegistryDb) :
    (c : Statement) → Decidable (c.PromotesApproved py db)
  | .promotion p => inferInstanceAs (Decidable (Statement.commits py db (.promotion p) →
      ∀ r ∈ db.reviewsOf p.row.candidateId, r.decision = .approve))
  | .compilerRun _ | .runCandidates _ | .register _ _ | .candidate _ | .reviews _ | .review _ _
  | .mechanism _ _ | .rollback _ _ _ _ _ => .isTrue trivial

instance (db t : RegistryDb) : Decidable (db.StaysPromoted t) :=
  inferInstanceAs (Decidable (∀ c ∈ db.candidates.rows, c.status = .promoted →
    ∃ c' ∈ t.candidates.rows, c'.candidateId = c.candidateId ∧ c'.status = .promoted))

/-- The transaction commits although what its call read has been overtaken: a review that is
no approval was committed since, or the candidate was promoted since. -/
def Statement.Stale (db : RegistryDb) : Statement → Prop
  | .promotion p => Statement.commits py db (.promotion p) ∧
      ∃ r ∈ db.reviewsOf p.row.candidateId, r ∉ p.read ∧ r.decision ≠ .approve
  | .review row seen => Statement.commits py db (.review row seen) ∧
      ∃ c ∈ db.candidates.rows, c.candidateId = row.candidateId ∧ c.status = .promoted ∧
        seen.status ≠ .promoted
  | _ => False

/-- What a call knows when it executes a statement, whatever others have done. -/
def Statement.Known : Statement → Prop
  | .promotion p => ∀ r ∈ p.read, r.decision = .approve
  | .review _ seen => seen.status ≠ .promoted
  | _ => True
end

section
variable {py : Python} {db t : RegistryDb}

/-! ## What each call knows -/

/-- The program executes its statements knowingly, whatever happens in between. -/
abbrev Knowing (py : Python) {α : Type} (p : Program α) (Q : α → RegistryDb → Prop)
    (db : RegistryDb) : Prop :=
  p.Meets (execute py) (fun _ _ => True) (fun _ c => c.Known) Q (fun _ => True) db

theorem knowing_lift {α β : Type} {x : Except PyError α} {f : α → Program β}
    {Q : β → RegistryDb → Prop} (h : ∀ a, x = .ok a → Knowing py (f a) Q db) :
    Knowing py ((liftM x : Program α) >>= f) Q db :=
  Prog.Meets.lift trivial h

/-- A statement about which nothing needs to be known. -/
theorem knowing_sql {β : Type} {c : Statement} {f : Answer c → Program β}
    {Q : β → RegistryDb → Prop} (hc : c.Known) (h : ∀ a t, Knowing py (f a) Q t) :
    Knowing py (sql c >>= f) Q db := by
  apply Prog.Meets.ask
  intro t _
  exact ⟨hc, h _ _⟩

theorem knowing_candidateRow {β : Type} {candidateId : String} {f : CandidateRow → Program β}
    {Q : β → RegistryDb → Prop} (h : ∀ c t, Knowing py (f c) Q t) :
    Knowing py (candidateRow candidateId >>= f) Q db := by
  show Knowing py ((sql (.candidate candidateId) >>= fun row =>
    (liftM (orRaise _ row) : Program CandidateRow)) >>= f) Q db
  rw [bind_assoc]
  refine knowing_sql trivial ?_
  intro row t
  apply knowing_lift
  intro c _
  exact h c t

theorem knowing_pure {β : Type} {b : β} :
    Knowing py (pure b : Program β) (fun _ _ => True) db := Prog.meets_pure.mpr trivial

theorem knowing_registerCompilerRun (now : Int) (report : Json) (timestamp : Option String) :
    Knowing py (registerCompilerRun py now report timestamp) (fun _ _ => True) db := by
  unfold registerCompilerRun
  repeat refine knowing_lift fun _ _ => ?_
  refine knowing_sql trivial ?_
  intro existing t
  cases existing with
  | some row =>
    apply knowing_lift
    intro _ _
    exact knowing_sql trivial (fun _ _ => knowing_pure)
  | none =>
    refine knowing_sql trivial ?_
    intro result t
    apply knowing_lift
    intro ids _
    exact knowing_pure

theorem knowing_submitReview (now : Int) (a : ReviewArgs) :
    Knowing py (submitReview py now a) (fun _ _ => True) db := by
  unfold submitReview
  apply knowing_lift
  intro decision _
  apply knowing_lift
  intro _ _
  apply knowing_candidateRow
  intro candidate t
  apply knowing_lift
  intro _ hopen
  apply knowing_lift
  intro conflicts _
  apply knowing_lift
  intro _ _
  apply knowing_lift
  intro _ _
  refine knowing_sql (of_decide_eq_true (require_ok.mp hopen)).1 ?_
  intro result t
  apply knowing_lift
  intro status _
  exact knowing_pure

theorem knowing_promote (now : Int) (candidateId promoterId : String)
    (timestamp : Option String) :
    Knowing py (promote py now candidateId promoterId timestamp) (fun _ _ => True) db := by
  unfold promote
  apply knowing_lift
  intro _ _
  apply knowing_candidateRow
  intro candidate t
  refine knowing_sql trivial ?_
  intro read t
  apply knowing_lift
  intro status hstatus
  apply knowing_lift
  intro _ hready
  rw [of_decide_eq_true (require_ok.mp hready)] at hstatus
  apply knowing_lift
  intro source _
  apply knowing_lift
  intro mechanism _
  refine knowing_sql trivial ?_
  intro reviews t
  apply knowing_lift
  intro metadata _
  apply knowing_lift
  intro facts _
  apply knowing_lift
  intro m _
  apply knowing_lift
  intro version _
  -- the status of the candidate was computed from the reviews read first
  refine knowing_sql (candidateStatus_ready hstatus).1 ?_
  intro result t
  apply knowing_lift
  intro u _
  exact knowing_pure

theorem knowing_rollback (now : Int) (mechanismId targetVersion actorId rationale : String)
    (timestamp : Option String) :
    Knowing py (rollback py now mechanismId targetVersion actorId rationale timestamp)
      (fun _ _ => True) db := by
  unfold rollback
  refine knowing_sql trivial ?_
  intro target t
  apply knowing_lift
  intro row _
  refine knowing_sql trivial ?_
  intro result t
  apply knowing_lift
  intro u _
  exact knowing_pure

theorem knowing_call (k : Call) (db : RegistryDb) :
    Knowing py (k.program py) (fun _ _ => True) db := by
  cases k with
  | registerCompilerRun now report timestamp => exact knowing_registerCompilerRun now report timestamp
  | submitReview now a => exact knowing_submitReview now a
  | promote now candidateId promoterId timestamp =>
    exact knowing_promote now candidateId promoterId timestamp
  | rollback now mechanismId targetVersion actorId rationale timestamp =>
    exact knowing_rollback now mechanismId targetVersion actorId rationale timestamp

/-! ## One statement -/

theorem commits_eq {α : Type} {body : RegistryDb → Except PyError (α × RegistryDb)} :
    (body db).isOk = true ↔ ∃ a t, body db = .ok (a, t) := by
  cases body db with
  | error e => simp [Except.isOk, Except.toBool]
  | ok r => exact iff_of_true rfl ⟨r.1, r.2, rfl⟩

theorem staysPromoted_refl (db : RegistryDb) : db.StaysPromoted db :=
  fun c hc hstatus => ⟨c, hc, rfl, hstatus⟩

theorem staysPromoted_insert {c : CandidateRow} (h : db.candidates.insert c = some t.candidates) :
    db.StaysPromoted t := by
  intro c' hc' hstatus
  exact ⟨c', (Table.mem_insert h).mpr (.inl hc'), rfl, hstatus⟩

theorem staysPromoted_candidates {run : CompilerRunRow} {candidates : List Json}
    {ids : List String} (hok : registerCandidates py run candidates db = .ok (ids, t)) :
    db.StaysPromoted t := by
  induction candidates generalizing db ids with
  | nil =>
    cases hok
    exact staysPromoted_refl _
  | cons candidate candidates ih =>
    obtain ⟨⟨id, db₁⟩, hfirst, hok⟩ := bind_ok.mp hok
    obtain ⟨⟨_, db₂⟩, hrest, hok⟩ := bind_ok.mp hok
    cases hok
    obtain ⟨⟨row, hinsert⟩, _⟩ := registerCandidate_ok hfirst
    intro c hc hstatus
    obtain ⟨c₁, hc₁, hid₁, hstatus₁⟩ := staysPromoted_insert hinsert c hc hstatus
    obtain ⟨c₂, hc₂, hid₂, hstatus₂⟩ := ih hrest c₁ hc₁ hstatus₁
    exact ⟨c₂, hc₂, hid₂.trans hid₁, hstatus₂⟩

theorem staysPromoted_register {run : CompilerRunRow} {candidates : List Json}
    {ids : List String} (hok : registerTx py run candidates db = .ok (ids, t)) :
    db.StaysPromoted t := by
  unfold registerTx at hok
  obtain ⟨compilerRuns, _, hok⟩ := bind_ok.mp hok
  obtain ⟨db₁, haudit, hok⟩ := bind_ok.mp hok
  obtain ⟨event, rfl, _⟩ := appendAudit_ok haudit
  have hstays := staysPromoted_candidates hok
  exact hstays

theorem staysPromoted_promote {p : Promotion} {u : Unit} (hok : promoteTx py p db = .ok (u, t)) :
    db.StaysPromoted t := by
  intro c hc hstatus
  rw [(promoteTx_ok hok).2.2.1]
  by_cases hid : c.candidateId = p.row.candidateId
  · exact ⟨c.withStatus .promoted, Table.mem_modify.mpr (.inr ⟨c, hc, hid, rfl⟩), rfl, rfl⟩
  · exact ⟨c, Table.mem_modify.mpr (.inl ⟨hc, hid⟩), rfl, hstatus⟩

/-- A review that commits takes its candidate out of `PROMOTED`. -/
theorem staysPromoted_review_iff {row : ReviewRow} {candidate : CandidateRow}
    {status : CandidateStatus} (hok : reviewTx py row candidate db = .ok (status, t)) :
    db.StaysPromoted t ↔
      ∀ c ∈ db.candidates.rows, c.candidateId = row.candidateId → c.status ≠ .promoted := by
  obtain ⟨_, _, _, hstatus, hcandidates, _⟩ := reviewTx_ok hok
  constructor
  · intro h c hc hid hpromoted
    obtain ⟨c', hc', hid', hpromoted'⟩ := h c hc hpromoted
    rw [hcandidates] at hc'
    rcases Table.mem_modify.mp hc' with ⟨_, hne⟩ | ⟨old, _, _, rfl⟩
    · exact hne (hid'.trans hid)
    · exact hstatus hpromoted'
  · intro h c hc hpromoted
    rw [hcandidates]
    refine ⟨c, Table.mem_modify.mpr (.inl ⟨hc, ?_⟩), rfl, hpromoted⟩
    intro hid
    exact h c hc hid hpromoted

/-- What a statement executed knowingly does to the two properties. -/
theorem respects_iff {c : Statement} (hknown : c.Known) :
    (c.PromotesApproved py db ∧ db.StaysPromoted (execute py c db).2) ↔ ¬ c.Stale py db := by
  have hsame : ∀ {t : RegistryDb}, t = db → db.StaysPromoted t := by
    rintro t rfl
    exact staysPromoted_refl t
  cases c with
  | promotion p =>
    have hstays : db.StaysPromoted (execute py (.promotion p) db).2 := by
      rcases transaction_cases (promoteTx py p) db with ⟨e, _, htx⟩ | ⟨u, t, hok, htx⟩
      · exact hsame (congrArg Prod.snd htx)
      · show db.StaysPromoted (transaction (promoteTx py p) db).2
        rw [htx]
        exact staysPromoted_promote hok
    rw [and_iff_left hstays]
    constructor
    · rintro happroved ⟨hcommits, r, hr, _, hdecision⟩
      exact hdecision (happroved hcommits r hr)
    · intro hfresh hcommits r hr
      by_contra hdecision
      refine hfresh ⟨hcommits, r, hr, ?_, hdecision⟩
      intro hread
      exact hdecision (hknown r hread)
  | review row candidate =>
    have happroved : Statement.PromotesApproved py db (.review row candidate) := trivial
    rw [and_iff_right happroved]
    rcases transaction_cases (reviewTx py row candidate) db with
      ⟨e, hraise, htx⟩ | ⟨status, t, hok, htx⟩
    · have hfails : ¬ Statement.commits py db (.review row candidate) := by
        show ¬ (reviewTx py row candidate db).isOk = true
        rw [hraise]
        nofun
      refine iff_of_true (hsame (congrArg Prod.snd htx)) ?_
      rintro ⟨hcommits, _⟩
      exact hfails hcommits
    · have hcommits : Statement.commits py db (.review row candidate) = true :=
        commits_eq.mpr ⟨status, t, hok⟩
      show db.StaysPromoted (transaction (reviewTx py row candidate) db).2 ↔ _
      rw [htx, staysPromoted_review_iff hok]
      constructor
      · rintro h ⟨_, c, hc, hid, hpromoted, _⟩
        exact h c hc hid hpromoted
      · intro hfresh c hc hid hpromoted
        exact hfresh ⟨hcommits, c, hc, hid, hpromoted, hknown⟩
  | register run candidates =>
    refine iff_of_true ⟨trivial, ?_⟩ not_false
    rcases transaction_cases (registerTx py run candidates) db with
      ⟨e, _, htx⟩ | ⟨ids, t, hok, htx⟩
    · exact hsame (congrArg Prod.snd htx)
    · show db.StaysPromoted (transaction (registerTx py run candidates) db).2
      rw [htx]
      exact staysPromoted_register hok
  | rollback mechanismId targetVersion actorId rationale changedAt =>
    refine iff_of_true ⟨trivial, ?_⟩ not_false
    rcases transaction_cases (rollbackTx py mechanismId targetVersion actorId rationale changedAt)
      db with ⟨e, _, htx⟩ | ⟨u, t, hok, htx⟩
    · exact hsame (congrArg Prod.snd htx)
    · show db.StaysPromoted (transaction (rollbackTx py mechanismId targetVersion actorId rationale
        changedAt) db).2
      rw [htx]
      intro c hc hstatus
      rw [(rollbackTx_ok hok).2.2.1]
      exact ⟨c, hc, rfl, hstatus⟩
  | compilerRun runId => exact iff_of_true ⟨trivial, hsame rfl⟩ not_false
  | runCandidates runId => exact iff_of_true ⟨trivial, hsame rfl⟩ not_false
  | candidate candidateId => exact iff_of_true ⟨trivial, hsame rfl⟩ not_false
  | reviews candidateId => exact iff_of_true ⟨trivial, hsame rfl⟩ not_false
  | mechanism mechanismId version => exact iff_of_true ⟨trivial, hsame rfl⟩ not_false

/-! ## Interleavings -/

variable (py) in
/-- One move respects the reviews: it promotes only over approvals, and leaves promoted
candidates promoted. -/
def Respects (p : Calls) (m : Move Call) (q : Calls) : Prop :=
  (∀ c ∈ p.pending m, c.PromotesApproved py p.state) ∧ p.state.StaysPromoted q.state

instance (p : Calls) (m : Move Call) (q : Calls) : Decidable (Respects py p m q) :=
  inferInstanceAs (Decidable ((∀ c ∈ p.pending m, c.PromotesApproved py p.state) ∧
    p.state.StaysPromoted q.state))

variable (py) in
/-- The statement the move executes, if any, is not stale. -/
def Fresh (p : Calls) (m : Move Call) (_ : Calls) : Prop :=
  ∀ c ∈ p.pending m, ¬ c.Stale py p.state

variable (py) in
abbrev Informed (p : Calls) : Prop :=
  p.Sound (execute py) (fun _ _ => True) (fun _ c => c.Known)

theorem informed_advance {p : Calls} (h : Informed py p) (m : Move Call) :
    Informed py (advance py p m) :=
  h.step (fun _ => trivial) (fun _ _ _ _ _ => trivial) (fun _ _ => trivial) knowing_call m

theorem respects_move_iff {p : Calls} (h : Informed py p) (m : Move Call) :
    Respects py p m (advance py p m) ↔ Fresh py p m (advance py p m) := by
  unfold Respects Fresh
  rw [Pool.step_state]
  cases hpending : p.pending m with
  | none =>
    refine iff_of_true ⟨nofun, ?_⟩ nofun
    exact staysPromoted_refl p.state
  | some c =>
    have hknown : c.Known := h.pre (fun _ => trivial) hpending
    simp only [Option.mem_some_iff, forall_eq']
    exact respects_iff hknown

/-- **Promotion respects every review that its reading saw.** In every interleaving of calls:
mechanisms are promoted only over approvals and promoted candidates stay promoted, exactly
when no transaction commits on a stale reading. -/
theorem promotion_respects_reviews_iff (py : Python) (db : RegistryDb) (moves : List (Move Call)) :
    Along (advance py) (Respects py) ⟨db, []⟩ moves ↔
      Along (advance py) (Fresh py) ⟨db, []⟩ moves := by
  have hstart : Informed py ⟨db, []⟩ := Pool.sound_nil db
  constructor
  · apply Along.of_invariant _ hstart
    intro p m hp hmove
    exact ⟨(respects_move_iff hp m).mp hmove, informed_advance hp m⟩
  · apply Along.of_invariant _ hstart
    intro p m hp hmove
    exact ⟨(respects_move_iff hp m).mpr hmove, informed_advance hp m⟩

/-! ## Readings overtaken -/

def samplePython : Python where
  repr := fun _ => ""
  -- any digest that tells the few texts of the schedule apart will do
  sha256 := fun s => toString s.utf8ByteSize
  fromisoformat := fun _ => .invalid
  isoformat := fun _ => "2026-01-01T00:00:00+00:00"

/-- One candidate of low risk, approved by one reviewer. Nothing reads the audit but to
append to it, so it starts empty here. -/
def approvedCandidate : RegistryDb where
  compilerRuns := ⟨[{
    runId := "run-1"
    institutionId := "clinic"
    inputSha256 := "sha256:1"
    outputSha256 := "sha256:2"
    payload := .obj []
    createdAt := "1" }], by decide⟩
  candidates := ⟨[{
    candidateId := "candidate-1"
    runId := "run-1"
    mechanismId := "discharge"
    mechanismVersion := "1"
    riskClass := "LOW"
    candidateSha256 := "sha256:3"
    payload := .obj [("mechanism", .obj [("mechanism_id", .str "discharge"), ("version", .str "1")])]
    status := .readyToPromote
    createdAt := "1" }], by decide⟩
  reviews := ⟨[{
    reviewId := "review-1"
    candidateId := "candidate-1"
    reviewerId := "ada"
    reviewerRole := "DOMAIN_REVIEWER"
    decision := .approve
    rationale := "read in full"
    resolutions := ∅
    candidateSha256 := "sha256:3"
    createdAt := "1" }], by decide⟩
  mechanisms := ∅
  auditEvents := []

def sampleReview (reviewerId decision : String) : Move Call :=
  .call (.submitReview 0 {
    candidateId := "candidate-1"
    reviewerId, decision
    reviewerRole := "DOMAIN_REVIEWER"
    rationale := "unsafe"
    resolutions := ∅
    timestamp := some "2" })

/-- A promotion reads the candidate and its approval; a rejection commits; the promotion
commits. -/
def overtaking : List (Move Call) :=
  [.call (.promote 0 "candidate-1" "promoter" (some "3")), .resume 0, .resume 0, .resume 0,
    sampleReview "benno" "REJECT", .resume 1, .resume 1, .resume 0]

theorem overtaking_promotes_rejected :
    ¬ Along (advance samplePython) (Respects samplePython) ⟨approvedCandidate, []⟩ overtaking := by
  decide +kernel

/-- A candidate is promoted over a rejection. -/
theorem promoted_over_rejection :
    ¬ ∀ py db moves, Along (advance py) (Respects py) ⟨db, []⟩ moves := by
  intro h
  exact overtaking_promotes_rejected (h samplePython approvedCandidate overtaking)

end
end Edon.Registry
