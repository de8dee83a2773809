import EdonPlatform.ActionNet.EligibilityLaw
import EdonPlatform.ActionNet.GlobalReleases

/- The law of training eligibility over calls that overlap (edon/actionnet/product/store.py,
   edon/actionnet/network.py). An approval and a release read the experience, its reviews and
   its events in SELECTs of their own before they commit, so another call may commit in
   between; and nothing that is committed later takes back an approval but a quarantine and a
   failed overlap check.

   What is proved: `eligibility_law_iff` — over every interleaving of calls: what is eligible is
   approved, unrejected, overlap-checked and unquarantined, and so is what a release selects,
   exactly when every transaction that commits is `Statement.Ordered`: it rejects no eligible
   experience, makes no rejected one eligible, and releases what is still eligible. -/
namespace Edon.LearningNetwork
open ActionNet Json Interleaving Fallible Transition

/-! ## Calls -/

/-- A call, with the time of its clock. -/
inductive LearningCall where
  | recordExperience (args : ExperienceArgs) (now : Int)
  | recordGovernedIntake (args : GovernedIntakeArgs) (now : Int)
  | reviewExperience (args : ReviewArgs) (now : Int)
  | recordOverlapCheck (args : OverlapCheckArgs) (now : Int)
  | approveTrainingEligibility (args : EligibilityArgs) (now : Int)
  | quarantineExperience (args : QuarantineArgs) (now : Int)
  | createTrainingRelease (args : TrainingReleaseArgs) (now : Int)
  | promoteLocalExperience (args : PromotionArgs) (now : Int)
  | quarantineGlobalRecord (args : GlobalQuarantineArgs) (now : Int)
  | createGlobalTrainingRelease (args : GlobalReleaseArgs) (now : Int)

section
variable (rt : Runtime) (I : Interpreter)

def LearningCall.program : LearningCall → Operation Unit
  | .recordExperience args now => ActionNet.recordExperience rt args now
  | .recordGovernedIntake args now => ActionNet.recordGovernedIntake rt args now
  | .reviewExperience args now => ActionNet.reviewExperience rt args now
  | .recordOverlapCheck args now => ActionNet.recordOverlapCheck rt args now
  | .approveTrainingEligibility args now => ActionNet.approveTrainingEligibility rt args now
  | .quarantineExperience args now => ActionNet.quarantineExperience rt args now
  | .createTrainingRelease args now => ActionNet.createTrainingRelease rt args now
  | .promoteLocalExperience args now => LearningNetwork.promoteLocalExperience rt I args now
  | .quarantineGlobalRecord args now => LearningNetwork.quarantineGlobalRecord rt args now
  | .createGlobalTrainingRelease args now => LearningNetwork.createGlobalTrainingRelease rt args now

/-- The calls under way on the two stores. -/
abbrev Learning := Pool LearningDb Statement Statement.Answer PyError Unit

abbrev advance : Learning → Move LearningCall → Learning :=
  Pool.step (exec rt) (LearningCall.program rt I)

/-- The transaction commits. -/
def Statement.accepted (db : LearningDb) : Statement → Bool
  | .commit w => (w.run rt.toPython db.product).isOk
  | .commitGlobal w => (w.run rt db.network).isOk
  | _ => false
end

/-- The stores before any experience is recorded. -/
def LearningDb.start (mechanisms : Table MechanismRow.key)
    (institutionalIr : Table InstitutionalIrRow.key) : LearningDb where
  product := { (∅ : ProductDb) with mechanisms, institutionalIr }

/-- The export a record is of. -/
def GlobalDb.exportOf (db : GlobalDb) (globalRecordId : String) : Option LocalExportRow :=
  db.localExports.rows.find? fun r => r.globalRecordId = globalRecordId

/-- The experiences a release selects. -/
def Statement.selects (db : LearningDb) : Statement → List (String × String)
  | .commit (.trainingRelease row) => row.experienceIds.map fun id => (row.tenantId, id)
  | .commitGlobal (.trainingRelease row) => row.globalRecordIds.filterMap fun id =>
      (db.network.exportOf id).map LocalExportRow.experience
  | _ => []

/-- Nothing has overtaken the transaction: it rejects no eligible experience, makes no rejected
one eligible, and what it releases is eligible still. -/
def Statement.Ordered (db : LearningDb) (c : Statement) : Prop :=
  (∀ w, c = .commit w → w.Timely db.product) ∧ ∀ key ∈ c.selects db, db.product.Eligible key

/-- The local source of a record was approved. -/
def LearningDb.SourceApproved (db : LearningDb) (id : String) : Prop :=
  ∃ source, db.network.exportOf id = some source ∧
    recorded (db.product.eventsOf source.experience) .trainingEligible = true

/-- What a call knows when it executes a statement, whatever others have done. -/
def Statement.Known (db : LearningDb) : Statement → Prop
  | .commit (.event e) => e.eventType = .trainingEligible → db.product.Approved e.experience
  | .commit (.trainingRelease row) => ∀ id ∈ row.experienceIds,
      recorded (db.product.eventsOf (row.tenantId, id)) .trainingEligible = true
  | .commitGlobal (.trainingRelease row) => ∀ id ∈ row.globalRecordIds, db.SourceApproved id
  | _ => True

/-! ## What others may do -/

/-- Stores in which nothing is lost. -/
structure LearningDb.Grows (db db' : LearningDb) : Prop where
  product : db.product.Grows db'.product
  exports : ∀ id source, db.network.exportOf id = some source →
    db'.network.exportOf id = some source

theorem LearningDb.Grows.refl (db : LearningDb) : db.Grows db :=
  ⟨ProductDb.Grows.refl _, fun _ _ h => h⟩

theorem LearningDb.Grows.trans (db db' db'' : LearningDb) (h : db.Grows db')
    (h' : db'.Grows db'') : db.Grows db'' :=
  ⟨h.product.trans h'.product, fun id source hsource =>
    h'.exports id source (h.exports id source hsource)⟩

section
variable {rt : Runtime} {I : Interpreter} {db t : LearningDb}

theorem globalAudited_ok {g g' : GlobalDb} {eventType entityId createdAt : String} {payload : Json}
    (h : g.audited rt eventType entityId payload createdAt = .ok g') :
    g'.localExports = g.localExports := by
  obtain ⟨network, _, h⟩ := bind_ok.mp h
  cases h
  rfl

/-- The exports of records are kept: a new export is of another record. -/
theorem exportOf_run {w : GlobalWrite} {g g' : GlobalDb} (h : w.run rt g = .ok g') {id : String}
    {source : LocalExportRow} (hsource : g.exportOf id = some source) :
    g'.exportOf id = some source := by
  unfold GlobalDb.exportOf at hsource ⊢
  cases w with
  | promotion localExport record =>
    obtain ⟨_, _, h⟩ := bind_ok.mp h
    obtain ⟨localExports, hinsert, h⟩ := bind_ok.mp h
    obtain ⟨_, _, h⟩ := bind_ok.mp h
    obtain ⟨records, _, h⟩ := bind_ok.mp h
    rw [globalAudited_ok h]
    show localExports.rows.find? _ = some source
    rw [(Table.rows_insert (orRaise_ok.mp hinsert)).1, List.find?_append, hsource,
      Option.some_or]
  | quarantine e =>
    obtain ⟨_, _, h⟩ := bind_ok.mp h
    rw [globalAudited_ok h]
    exact hsource
  | trainingRelease row =>
    obtain ⟨_, _, h⟩ := bind_ok.mp h
    obtain ⟨releases, _, h⟩ := bind_ok.mp h
    rw [globalAudited_ok h]
    exact hsource

theorem exec_commit_ok {w : Write} {product : ProductDb}
    (h : w.run rt.toPython db.product = .ok product) :
    exec rt (.commit w) db = (.ok (), { db with product }) := by
  simp only [exec, h]

theorem exec_commit_error {w : Write} {e : PyError}
    (h : w.run rt.toPython db.product = .error e) :
    exec rt (.commit w) db = (.error e, db) := by
  simp only [exec, h]

theorem exec_grows (db : LearningDb) (c : Statement) : db.Grows (exec rt c db).2 := by
  cases c with
  | commit w =>
    cases h : w.run rt.toPython db.product with
    | ok product =>
      rw [exec_commit_ok h]
      exact ⟨grows_run h, fun _ _ hsource => hsource⟩
    | error e =>
      rw [exec_commit_error h]
      exact .refl db
  | commitGlobal w =>
    cases h : w.run rt db.network with
    | ok network =>
      have hexec : exec rt (.commitGlobal w) db = (.ok (), { db with network }) := by
        simp only [exec, h]
      rw [hexec]
      exact ⟨ProductDb.Grows.refl _, fun _ _ hsource => exportOf_run h hsource⟩
    | error e =>
      have hexec : exec rt (.commitGlobal w) db = (.error e, db) := by
        simp only [exec, h]
      rw [hexec]
      exact .refl db
  | mechanismExists key | institutionalIr key | experience key | reviews key | events key
  | globalRecord id | globalEvents id | localExport id => exact .refl db


/-! ## What each call knows -/

/-- The program executes its statements knowingly, whatever happens in between. -/
abbrev Knowing (rt : Runtime) {α : Type} (p : Operation α) (Q : α → LearningDb → Prop)
    (db : LearningDb) : Prop :=
  p.Meets (exec rt) LearningDb.Grows Statement.Known Q (fun _ => True) db

theorem knowing_lift {α β : Type} {x : Except PyError α} {f : α → Operation β}
    {Q : β → LearningDb → Prop} (h : ∀ a, x = .ok a → Knowing rt (f a) Q db) :
    Knowing rt ((liftM x : Operation α) >>= f) Q db :=
  Prog.Meets.lift trivial h

/-- A statement about which nothing needs to be known. -/
theorem knowing_execute {β : Type} {c : Statement} {f : c.Answer → Operation β}
    {Q : β → LearningDb → Prop} (hc : ∀ t : LearningDb, c.Known t)
    (h : ∀ t, db.Grows t → Knowing rt (f (exec rt c t).1) Q (exec rt c t).2) :
    Knowing rt (execute c >>= f) Q db := by
  apply Prog.Meets.ask
  intro t hgrows
  exact ⟨hc t, h t hgrows⟩

theorem knowing_commit {w : Write} (h : ∀ t, db.Grows t → (Statement.commit w).Known t) :
    Knowing rt (ActionNet.commit w) (fun _ _ => True) db := by
  unfold ActionNet.commit
  apply Prog.Meets.ask
  intro t hgrows
  exact ⟨h t hgrows, Prog.Meets.last trivial fun _ _ => trivial⟩

theorem knowing_commitGlobal {w : GlobalWrite}
    (h : ∀ t, db.Grows t → (Statement.commitGlobal w).Known t) :
    Knowing rt (commitGlobal w) (fun _ _ => True) db := by
  unfold commitGlobal
  apply Prog.Meets.ask
  intro t hgrows
  exact ⟨h t hgrows, Prog.Meets.last trivial fun _ _ => trivial⟩

theorem knowing_experienceRow {β : Type} {tenantId experienceId : String}
    {f : ExperienceRow → Operation β} {Q : β → LearningDb → Prop}
    (h : ∀ row t, db.Grows t → t.product.experiences.get (tenantId, experienceId) = some row →
      Knowing rt (f row) Q t) : Knowing rt (experienceRow tenantId experienceId >>= f) Q db := by
  show Knowing rt ((execute (.experience (tenantId, experienceId)) >>= fun row =>
    (liftM (orRaise _ row) : Operation ExperienceRow)) >>= f) Q db
  rw [bind_assoc]
  refine knowing_execute (fun _ => trivial) ?_
  intro t hgrows
  apply knowing_lift
  intro row hrow
  exact h row t hgrows (orRaise_ok.mp hrow)

/-- What a state was read from is in the store still. -/
structure LearningDb.Shows (db : LearningDb) (key : String × String) (state : ExperienceState) :
    Prop where
  row : db.product.experiences.get key = some state.row
  reviews : ∀ r ∈ state.reviews, r ∈ db.product.reviewsOf key
  events : ∀ e ∈ state.events, e ∈ db.product.eventsOf key

theorem knowing_experienceState {β : Type} {tenantId experienceId : String}
    {f : ExperienceState → Operation β} {Q : β → LearningDb → Prop}
    (h : ∀ state t, db.Grows t → t.Shows (tenantId, experienceId) state →
      Knowing rt (f state) Q t) :
    Knowing rt (experienceState tenantId experienceId >>= f) Q db := by
  unfold experienceState
  rw [bind_assoc]
  apply knowing_experienceRow
  intro row t hgrows hrow
  rw [bind_assoc]
  refine knowing_execute (fun _ => trivial) ?_
  intro u htu
  rw [bind_assoc]
  refine knowing_execute (fun _ => trivial) ?_
  intro v huv
  refine h ⟨row, _, _⟩ v (hgrows.trans _ _ _ (htu.trans _ _ _ huv)) ⟨?_, ?_, ?_⟩
  · exact huv.product.experiences _ _ (htu.product.experiences _ _ hrow)
  · exact fun r hr => huv.product.review hr
  · exact fun e he => he

theorem knowing_governanceEvent {tenantId experienceId : String} {type : GovernanceEventType}
    {actorId createdAt : String} {details : Json}
    (h : type = .trainingEligible → db.product.Approved (tenantId, experienceId)) :
    Knowing rt (governanceEvent rt tenantId experienceId type actorId details createdAt)
      (fun _ _ => True) db := by
  unfold governanceEvent
  apply knowing_experienceRow
  intro row t hgrows _
  apply knowing_commit
  intro u htu htype
  exact (h htype).grows (hgrows.trans _ _ _ htu).product

theorem approvers_nonempty {reviews : List ReviewRow} {d : ReviewDimension}
    (h : approvers reviews d ≠ []) :
    ∃ r ∈ reviews, r.dimension = d ∧ r.decision = .approve := by
  unfold approvers at h
  obtain ⟨_, hid⟩ := List.exists_mem_of_ne_nil _ h
  obtain ⟨r, hr, _⟩ := List.mem_map.mp hid
  obtain ⟨hr, hboth⟩ := List.mem_filter.mp hr
  exact ⟨r, hr, of_decide_eq_true hboth⟩

theorem mem_approvers {reviews : List ReviewRow} {d : ReviewDimension} {r : ReviewRow}
    (hr : r ∈ reviews) (h : r.dimension = d ∧ r.decision = .approve) :
    r.reviewerId ∈ approvers reviews d :=
  List.mem_map.mpr ⟨r, List.mem_filter.mpr ⟨hr, decide_eq_true h⟩, rfl⟩

/-- What the checks of an approval establish. -/
theorem approved_of_checks {key : String × String} {row : ExperienceRow} {reviews : List ReviewRow}
    {events : List GovernanceEvent} (hshows : db.Shows key ⟨row, reviews, events⟩)
    (hprotected : row.isProtected = false) (hreviews : checkReviews row reviews = .ok ())
    (hevents : checkEvents events = .ok ()) : db.product.Approved key := by
  obtain ⟨_, _, hreviews⟩ := bind_ok.mp hreviews
  obtain ⟨_, hmissing, hdisjoint⟩ := bind_ok.mp hreviews
  obtain ⟨_, hoverlap, _⟩ := bind_ok.mp hevents
  have hmissing := List.isEmpty_iff.mp (require_ok.mp hmissing)
  unfold missingDimensions at hmissing
  rw [sortedSet_eq_nil, List.map_eq_nil_iff, List.filter_eq_nil_iff] at hmissing
  have hdimension : ∀ d ∈ requiredDimensions row.sourceType,
      ∃ r ∈ reviews, r.dimension = d ∧ r.decision = .approve := by
    intro d hd
    apply approvers_nonempty
    intro hnone
    exact hmissing d hd (List.isEmpty_iff.mpr hnone)
  obtain ⟨r, hr, hdomain⟩ := hdimension .domain (List.mem_append_left _ (by decide))
  obtain ⟨r', hr', hsafety⟩ := hdimension .safety (List.mem_append_left _ (by decide))
  refine ⟨⟨row, hshows.row, hprotected, fun d hd => ?_⟩,
    ⟨r, hshows.reviews r hr, r', hshows.reviews r' hr', ⟨hdomain, hsafety, ?_⟩⟩, ?_⟩
  · obtain ⟨s, hs, hboth⟩ := hdimension d hd
    exact ⟨s, hshows.reviews s hs, hboth⟩
  · intro hsame
    have hdisjoint := of_decide_eq_true (require_ok.mp hdisjoint)
    refine hdisjoint (List.any_eq_true.mpr ⟨r.reviewerId, mem_approvers hr hdomain, ?_⟩)
    rw [List.contains_iff_mem, hsame]
    exact mem_approvers hr' hsafety
  · have hoverlap := of_decide_eq_true (require_ok.mp hoverlap)
    unfold latestOverlap at hoverlap
    obtain ⟨e, hfind, _⟩ := Option.map_eq_some_iff.mp hoverlap
    have hcheck := List.find?_some hfind
    exact ⟨e, hshows.events e (List.mem_reverse.mp (List.mem_of_find?_eq_some hfind)), hcheck⟩

theorem knowing_checkMechanisms (tenantId : String) (refs : List MechanismRef) :
    Knowing rt (refs.mapM (checkMechanism tenantId)) (fun _ t => db.Grows t) db := by
  refine (Prog.meets_mapM LearningDb.Grows.refl LearningDb.Grows.trans (P := fun _ _ => True)
    (fun _ _ _ _ h => h) ?_ refs db).mono fun _ _ h => h.1
  intro ref s
  unfold checkMechanism
  refine knowing_execute (fun _ => trivial) ?_
  intro t hgrows
  exact Prog.Meets.last trivial fun _ _ => ⟨hgrows, trivial⟩

theorem knowing_checkParent {β : Type} {tenantId : String} {parentId : Option String}
    {f : Unit → Operation β} {Q : β → LearningDb → Prop} (h : ∀ t, Knowing rt (f ()) Q t) :
    Knowing rt (checkParent tenantId parentId >>= f) Q db := by
  cases parentId with
  | none => exact h db
  | some parentId =>
    unfold checkParent
    rw [bind_assoc]
    refine knowing_execute (fun _ => trivial) ?_
    intro t _
    apply knowing_lift
    intro _ _
    exact h t

theorem knowing_recordExperience (args : ExperienceArgs) (now : Int) :
    Knowing rt (ActionNet.recordExperience rt args now) (fun _ _ => True) db := by
  unfold ActionNet.recordExperience
  apply knowing_lift
  intro row _
  refine Prog.meets_bind.mpr ((knowing_checkMechanisms row.tenantId row.mechanismRefs).mono ?_)
  intro _ t _
  apply knowing_checkParent
  intro u
  exact knowing_commit fun _ _ => trivial

theorem knowing_recordGovernedIntake (args : GovernedIntakeArgs) (now : Int) :
    Knowing rt (ActionNet.recordGovernedIntake rt args now) (fun _ _ => True) db := by
  unfold ActionNet.recordGovernedIntake
  apply knowing_lift
  intro tenantId _
  apply knowing_lift
  intro normalized _
  refine knowing_execute (fun _ => trivial) ?_
  intro t _
  apply knowing_lift
  intro _ _
  apply knowing_experienceState
  intro state u _ _
  repeat refine knowing_lift fun _ _ => ?_
  exact knowing_commit fun _ _ => trivial

theorem knowing_reviewExperience (args : ReviewArgs) (now : Int) :
    Knowing rt (ActionNet.reviewExperience rt args now) (fun _ _ => True) db := by
  unfold ActionNet.reviewExperience
  repeat refine knowing_lift fun _ _ => ?_
  apply knowing_experienceRow
  intro row t _ _
  apply knowing_lift
  intro review _
  exact knowing_commit fun _ _ => trivial

theorem knowing_recordOverlapCheck (args : OverlapCheckArgs) (now : Int) :
    Knowing rt (ActionNet.recordOverlapCheck rt args now) (fun _ _ => True) db := by
  unfold ActionNet.recordOverlapCheck
  repeat refine knowing_lift fun _ _ => ?_
  apply knowing_governanceEvent
  intro htype
  split at htype <;> cases htype

theorem knowing_quarantineExperience (args : QuarantineArgs) (now : Int) :
    Knowing rt (ActionNet.quarantineExperience rt args now) (fun _ _ => True) db := by
  unfold ActionNet.quarantineExperience
  repeat refine knowing_lift fun _ _ => ?_
  exact knowing_governanceEvent nofun

/-- An approval is committed where its checks established it. -/
theorem knowing_approveTrainingEligibility (args : EligibilityArgs) (now : Int) :
    Knowing rt (ActionNet.approveTrainingEligibility rt args now) (fun _ _ => True) db := by
  unfold ActionNet.approveTrainingEligibility
  apply knowing_lift
  intro tenantId _
  apply knowing_lift
  intro experienceId _
  apply knowing_experienceRow
  intro row t _ hrow
  apply knowing_lift
  intro _ hprotected
  apply knowing_lift
  intro _ _
  refine knowing_execute (fun _ => trivial) ?_
  intro u htu
  apply knowing_lift
  intro _ hreviews
  refine knowing_execute (fun _ => trivial) ?_
  intro v huv
  apply knowing_lift
  intro _ hevents
  repeat refine knowing_lift fun _ _ => ?_
  refine knowing_governanceEvent fun _ => ?_
  refine @approved_of_checks v _ row _ _ ⟨?_, ?_, fun e he => he⟩ ?_ hreviews hevents
  · exact huv.product.experiences _ _ (htu.product.experiences _ _ hrow)
  · exact fun r hr => huv.product.review hr
  · exact (Bool.not_eq_true _).mp (of_decide_eq_true (require_ok.mp hprotected))

theorem recorded_of_shows {key : String × String} {state : ExperienceState}
    (hshows : db.Shows key state) (h : trainingEligible state.events = true) :
    recorded (db.product.eventsOf key) .trainingEligible = true := by
  obtain ⟨e, he, htype⟩ := recorded_iff.mp (trainingEligible_iff.mp h).1
  exact recorded_iff.mpr ⟨e, hshows.events e he, htype⟩

/-- What a training release selects was approved. -/
theorem knowing_createTrainingRelease (args : TrainingReleaseArgs) (now : Int) :
    Knowing rt (ActionNet.createTrainingRelease rt args now) (fun _ _ => True) db := by
  unfold ActionNet.createTrainingRelease
  apply knowing_lift
  intro tenantId _
  apply knowing_lift
  intro experienceIds _
  apply knowing_lift
  intro _ _
  refine Prog.meets_bind.mpr ((Prog.meets_mapM LearningDb.Grows.refl LearningDb.Grows.trans
    (P := fun id t => recorded (t.product.eventsOf (tenantId, id)) .trainingEligible = true)
    (fun _ _ _ hgrows h => recorded_grows hgrows.product h) ?_ experienceIds db).mono ?_)
  · intro id s
    unfold selectExperience
    apply knowing_experienceState
    intro state t hgrows hshows
    apply knowing_lift
    intro _ _
    apply knowing_lift
    intro _ heligible
    exact Prog.meets_pure.mpr ⟨hgrows, recorded_of_shows hshows (require_ok.mp heligible)⟩
  · rintro hashes t ⟨_, hselected⟩
    repeat refine knowing_lift fun _ _ => ?_
    apply knowing_commit
    intro u hgrows id hid
    exact recorded_grows hgrows.product (hselected id hid)

theorem knowing_promoteLocalExperience (args : PromotionArgs) (now : Int) :
    Knowing rt (LearningNetwork.promoteLocalExperience rt I args now) (fun _ _ => True) db := by
  unfold LearningNetwork.promoteLocalExperience
  apply knowing_lift
  intro checked _
  apply knowing_experienceState
  intro state t _ _
  repeat refine knowing_lift fun _ _ => ?_
  exact knowing_commitGlobal fun _ _ => trivial

theorem knowing_globalRecordState {β : Type} {globalRecordId : String}
    {f : GlobalRecordState → Operation β} {Q : β → LearningDb → Prop}
    (h : ∀ state t, db.Grows t → Knowing rt (f state) Q t) :
    Knowing rt (globalRecordState globalRecordId >>= f) Q db := by
  unfold globalRecordState
  rw [bind_assoc]
  apply knowing_lift
  intro id _
  rw [bind_assoc]
  refine knowing_execute (fun _ => trivial) ?_
  intro t hgrows
  rw [bind_assoc]
  apply knowing_lift
  intro row _
  rw [bind_assoc]
  refine knowing_execute (fun _ => trivial) ?_
  intro u htu
  exact h _ u (hgrows.trans _ _ _ htu)

theorem knowing_quarantineGlobalRecord (args : GlobalQuarantineArgs) (now : Int) :
    Knowing rt (LearningNetwork.quarantineGlobalRecord rt args now) (fun _ _ => True) db := by
  unfold LearningNetwork.quarantineGlobalRecord
  apply knowing_lift
  intro id _
  apply knowing_globalRecordState
  intro state t _
  repeat refine knowing_lift fun _ _ => ?_
  exact knowing_commitGlobal fun _ _ => trivial

theorem sourceApproved_grows (id : String) (s t : LearningDb) (hgrows : s.Grows t)
    (h : s.SourceApproved id) : t.SourceApproved id := by
  obtain ⟨source, hsource, hrecorded⟩ := h
  exact ⟨source, hgrows.exports id source hsource, recorded_grows hgrows.product hrecorded⟩

/-- A release has the records that were selected. -/
theorem globalRelease_ids {args : GlobalReleaseArgs} {now : Int} {releaseId : String}
    {ids : List String} {hashes : List (String × String)} {row : GlobalTrainingReleaseRow}
    (h : globalReleaseOf rt args now releaseId ids hashes = .ok row) :
    row.globalRecordIds = ids := by
  unfold globalReleaseOf at h
  obtain ⟨_, _, h⟩ := bind_ok.mp h
  obtain ⟨_, _, h⟩ := bind_ok.mp h
  obtain ⟨_, _, h⟩ := bind_ok.mp h
  obtain ⟨_, _, h⟩ := bind_ok.mp h
  obtain ⟨_, _, h⟩ := bind_ok.mp h
  cases h
  rfl

theorem knowing_revalidateLocalSource {β : Type} {id : String} {f : Unit → Operation β}
    {Q : β → LearningDb → Prop}
    (h : ∀ t, db.Grows t → t.SourceApproved id → Knowing rt (f ()) Q t) :
    Knowing rt (revalidateLocalSource id >>= f) Q db := by
  unfold revalidateLocalSource
  rw [bind_assoc]
  refine knowing_execute (fun _ => trivial) ?_
  intro t hgrows
  rw [bind_assoc]
  apply knowing_lift
  intro source hsource
  rw [bind_assoc]
  apply knowing_experienceState
  intro state u htu hshows
  apply knowing_lift
  intro _ hvalid
  have hvalid := require_ok.mp hvalid
  simp only [Bool.and_eq_true] at hvalid
  exact h u (hgrows.trans _ _ _ htu)
    ⟨source, htu.exports id source (orRaise_ok.mp hsource), recorded_of_shows hshows hvalid.1.2⟩

/-- The sources of what a global release selects were approved. -/
theorem knowing_createGlobalTrainingRelease (args : GlobalReleaseArgs) (now : Int) :
    Knowing rt (LearningNetwork.createGlobalTrainingRelease rt args now) (fun _ _ => True) db := by
  unfold LearningNetwork.createGlobalTrainingRelease
  apply knowing_lift
  intro releaseId _
  apply knowing_lift
  intro ids _
  apply knowing_lift
  intro _ _
  refine Prog.meets_bind.mpr ((Prog.meets_mapM LearningDb.Grows.refl LearningDb.Grows.trans
    (P := fun id t => t.SourceApproved id) sourceApproved_grows ?_ ids db).mono ?_)
  · intro id s
    unfold selectRecord
    apply knowing_globalRecordState
    intro state t hgrows
    apply knowing_lift
    intro _ _
    apply knowing_revalidateLocalSource
    intro u htu happroved
    exact Prog.meets_pure.mpr ⟨hgrows.trans _ _ _ htu, happroved⟩
  · rintro hashes t ⟨_, hselected⟩
    apply knowing_lift
    intro row hrow
    apply knowing_commitGlobal
    intro u hgrows id hid
    rw [globalRelease_ids hrow] at hid
    exact sourceApproved_grows id t u hgrows (hselected id hid)

theorem knowing_call (k : LearningCall) (db : LearningDb) :
    Knowing rt (k.program rt I) (fun _ _ => True) db := by
  cases k with
  | recordExperience args now => exact knowing_recordExperience args now
  | recordGovernedIntake args now => exact knowing_recordGovernedIntake args now
  | reviewExperience args now => exact knowing_reviewExperience args now
  | recordOverlapCheck args now => exact knowing_recordOverlapCheck args now
  | approveTrainingEligibility args now => exact knowing_approveTrainingEligibility args now
  | quarantineExperience args now => exact knowing_quarantineExperience args now
  | createTrainingRelease args now => exact knowing_createTrainingRelease args now
  | promoteLocalExperience args now => exact knowing_promoteLocalExperience args now
  | quarantineGlobalRecord args now => exact knowing_quarantineGlobalRecord args now
  | createGlobalTrainingRelease args now => exact knowing_createGlobalTrainingRelease args now

/-! ## One statement -/

theorem founded_exec {c : Statement} (hknown : c.Known db) (h : db.product.Founded) :
    (exec rt c db).2.product.Founded := by
  cases c with
  | commit w =>
    cases hrun : w.run rt.toPython db.product with
    | error e =>
      rw [exec_commit_error hrun]
      exact h
    | ok product =>
      rw [exec_commit_ok hrun]
      refine founded_run h hrun ?_
      intro e he htype
      cases w with
      | event e' =>
        rw [List.mem_singleton.mp he] at htype ⊢
        exact hknown htype
      | mechanism row | institutionalIr row | experience row | review row | trainingRelease row
      | governedIntake row => cases he
  | commitGlobal w =>
    have hproduct : (exec rt (.commitGlobal w) db).2.product = db.product := by
      dsimp only [exec]
      split <;> rfl
    rw [hproduct]
    exact h
  | mechanismExists key | institutionalIr key | experience key | reviews key | events key
  | globalRecord id | globalEvents id | localExport id => exact h

/-- A statement keeps the law exactly when what it commits in the product store is timely. -/
theorem lawAbiding_exec_iff {c : Statement} (hknown : c.Known db) (h : db.product.Founded)
    (hlaw : db.product.LawAbiding) : (exec rt c db).2.product.LawAbiding ↔
      (c.accepted rt db → ∀ w, c = .commit w → w.Timely db.product) := by
  cases c with
  | commit w =>
    have hfounded : (exec rt (.commit w) db).2.product.Founded := founded_exec hknown h
    cases hrun : w.run rt.toPython db.product with
    | error e =>
      rw [exec_commit_error hrun]
      refine iff_of_true hlaw ?_
      intro haccepted
      rw [Statement.accepted, hrun] at haccepted
      cases haccepted
    | ok product =>
      rw [exec_commit_ok hrun] at hfounded ⊢
      have haccepted : Statement.accepted rt db (.commit w) = true := by
        rw [Statement.accepted, hrun]
        rfl
      refine (lawAbiding_run_iff h hlaw hrun hfounded).trans ⟨?_, fun htimely => ?_⟩
      · rintro htimely _ w' heq
        cases heq
        exact htimely
      · exact htimely haccepted w rfl
  | commitGlobal w =>
    have hproduct : (exec rt (.commitGlobal w) db).2.product = db.product := by
      dsimp only [exec]
      split <;> rfl
    rw [hproduct]
    exact iff_of_true hlaw nofun
  | mechanismExists key | institutionalIr key | experience key | reviews key | events key
  | globalRecord id | globalEvents id | localExport id => exact iff_of_true hlaw nofun

/-- What a call selects was approved. -/
theorem recorded_of_selects {c : Statement} (hknown : c.Known db) {key : String × String}
    (h : key ∈ c.selects db) : recorded (db.product.eventsOf key) .trainingEligible = true := by
  unfold Statement.selects at h
  split at h
  · obtain ⟨id, hid, rfl⟩ := List.mem_map.mp h
    exact hknown id hid
  · obtain ⟨id, hid, hkey⟩ := List.mem_filterMap.mp h
    obtain ⟨source, hsource, hrecorded⟩ := hknown id hid
    rw [hsource, Option.map_some, Option.some_inj] at hkey
    rw [← hkey]
    exact hrecorded
  · cases h

/-- Where the law holds, what a release selects may be trained on exactly when it is eligible. -/
theorem selects_trainable_iff {c : Statement} (hknown : c.Known db)
    (hlaw : db.product.LawAbiding) :
    (∀ key ∈ c.selects db, db.product.Trainable key) ↔
      ∀ key ∈ c.selects db, db.product.Eligible key := by
  refine forall₂_congr fun key hkey => ⟨fun htrainable => ?_, hlaw key⟩
  exact htrainable.eligible (recorded_of_selects hknown hkey)

/-! ## Interleavings -/

variable (rt) in
/-- One move meets the law: what a release it commits selects may be trained on, and so may what
is eligible after it. -/
def MeetsLaw (p : Learning) (m : Move LearningCall) (q : Learning) : Prop :=
  (∀ c ∈ p.pending m, c.accepted rt p.state →
    ∀ key ∈ c.selects p.state, p.state.product.Trainable key) ∧ q.state.product.LawAbiding

variable (rt) in
/-- The transaction the move commits, if any, is not overtaken. -/
def InOrder (p : Learning) (m : Move LearningCall) (_ : Learning) : Prop :=
  ∀ c ∈ p.pending m, c.accepted rt p.state → c.Ordered p.state

variable (rt) in
/-- Calls under way know what they rely on, and the law holds. -/
structure Lawful (p : Learning) : Prop where
  sound : p.Sound (exec rt) LearningDb.Grows Statement.Known
  founded : p.state.product.Founded
  law : p.state.product.LawAbiding

theorem meetsLaw_move_iff {p : Learning} (h : Lawful rt p) (m : Move LearningCall) :
    MeetsLaw rt p m (advance rt I p m) ↔ InOrder rt p m (advance rt I p m) := by
  unfold MeetsLaw InOrder
  rw [Pool.step_state]
  cases hpending : p.pending m with
  | none =>
    refine iff_of_true ⟨?_, h.law⟩ ?_
    all_goals
      intro c hc
      cases hc
  | some c =>
    have hknown : c.Known p.state := h.sound.pre LearningDb.Grows.refl hpending
    simp only [Option.mem_some_iff, forall_eq']
    rw [lawAbiding_exec_iff hknown h.founded h.law, selects_trainable_iff hknown h.law, and_comm]
    exact forall_and.symm

theorem lawful_advance {p : Learning} (h : Lawful rt p) {m : Move LearningCall}
    (hlaw : MeetsLaw rt p m (advance rt I p m)) : Lawful rt (advance rt I p m) where
  sound := h.sound.step LearningDb.Grows.refl LearningDb.Grows.trans exec_grows knowing_call m
  founded := by
    rw [Pool.step_state]
    cases hpending : p.pending m with
    | none => exact h.founded
    | some c => exact founded_exec (h.sound.pre LearningDb.Grows.refl hpending) h.founded
  law := hlaw.2

theorem lawful_start (mechanisms : Table MechanismRow.key)
    (institutionalIr : Table InstitutionalIrRow.key) :
    Lawful rt ⟨.start mechanisms institutionalIr, []⟩ where
  sound := Pool.sound_nil _
  founded _ hrecorded := by
    obtain ⟨_, he, _⟩ := recorded_iff.mp hrecorded
    cases he
  law _ heligible := by
    obtain ⟨_, he, _⟩ := recorded_iff.mp (trainingEligible_iff.mp heligible).1
    cases he

/-- **What is eligible may be trained on, while nothing is overtaken.** In every interleaving of
calls: the law holds in every state reached, and every release that commits selects only what
may be trained on, exactly when every transaction that commits is in order: it rejects no
eligible experience, makes no rejected one eligible, and releases what is eligible still. -/
theorem eligibility_law_iff (rt : Runtime) (I : Interpreter)
    (mechanisms : Table MechanismRow.key) (institutionalIr : Table InstitutionalIrRow.key)
    (moves : List (Move LearningCall)) :
    Along (advance rt I) (MeetsLaw rt) ⟨.start mechanisms institutionalIr, []⟩ moves ↔
      Along (advance rt I) (InOrder rt) ⟨.start mechanisms institutionalIr, []⟩ moves := by
  have hstart : Lawful rt ⟨.start mechanisms institutionalIr, []⟩ :=
    lawful_start mechanisms institutionalIr
  constructor
  · apply Along.of_invariant _ hstart
    intro p m hp hmove
    exact ⟨(meetsLaw_move_iff hp m).mp hmove, lawful_advance hp hmove⟩
  · apply Along.of_invariant _ hstart
    intro p m hp hmove
    have hlaw := (meetsLaw_move_iff (I := I) hp m).mpr hmove
    exact ⟨hlaw, lawful_advance hp hlaw⟩

end
end Edon.LearningNetwork
