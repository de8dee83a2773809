import EdonPlatform.ActionNet.Experiences

/- What a training-eligible experience has to have, and what one write does to it
   (edon/actionnet/product/store.py, `experience_state` and `approve_training_eligibility`).

   `experience_state` reads the eligibility off the events: approved once, never quarantined, and
   no failed overlap check last. It does not look at the reviews.

   What is proved:
     1. `trainable_iff` — an eligible experience whose approval was established is what the law
        asks for, unless it has a REJECT.
     2. `lawAbiding_run_iff` — a write keeps the law exactly when it is `Timely`: it rejects no
        eligible experience and makes no rejected one eligible.
     3. `founded_run` — approvals stay established, where only established ones are recorded. -/
namespace Edon.ActionNet

/-! ## The law -/

/-- What an approval establishes, and nothing takes back: the approvals by distinct reviewers
of an experience that is not protected, and an overlap check. -/
structure ProductDb.Approved (db : ProductDb) (key : String × String) : Prop where
  row : ∃ row, db.experiences.get key = some row ∧ row.isProtected = false ∧
    ∀ d ∈ requiredDimensions row.sourceType,
      ∃ r ∈ db.reviewsOf key, r.dimension = d ∧ r.decision = .approve
  distinct : ∃ r ∈ db.reviewsOf key, ∃ r' ∈ db.reviewsOf key,
    (r.dimension = .domain ∧ r.decision = .approve) ∧
      (r'.dimension = .safety ∧ r'.decision = .approve) ∧ r.reviewerId ≠ r'.reviewerId
  checked : ∃ e ∈ db.eventsOf key, e.eventType.isOverlapCheck = true

/-- The experience has a REJECT. -/
def ProductDb.Rejected (db : ProductDb) (key : String × String) : Prop :=
  ∃ r ∈ db.reviewsOf key, r.decision = .reject

/-- What holds of an experience that may be trained on. -/
structure ProductDb.Trainable (db : ProductDb) (key : String × String) : Prop where
  approved : db.Approved key
  unrejected : ¬ db.Rejected key
  overlap : latestOverlap (db.eventsOf key) = some .overlapCheckPassed
  unquarantined : recorded (db.eventsOf key) .quarantined = false

def ProductDb.Eligible (db : ProductDb) (key : String × String) : Prop :=
  trainingEligible (db.eventsOf key) = true

/-- **The law**: what is eligible may be trained on. -/
def ProductDb.LawAbiding (db : ProductDb) : Prop := ∀ key, db.Eligible key → db.Trainable key

/-- Every approval that is recorded was established. -/
def ProductDb.Founded (db : ProductDb) : Prop :=
  ∀ key, recorded (db.eventsOf key) .trainingEligible = true → db.Approved key

theorem mem_reviewsOf {db : ProductDb} {key : String × String} {r : ReviewRow} :
    r ∈ db.reviewsOf key ↔ r ∈ db.reviews.rows ∧ r.experience = key := by
  unfold ProductDb.reviewsOf
  rw [List.mem_insertionSort, List.mem_filter, decide_eq_true_eq]

theorem recorded_iff {events : List GovernanceEvent} {type : GovernanceEventType} :
    recorded events type = true ↔ ∃ e ∈ events, e.eventType = type := by
  unfold recorded
  simp only [List.any_eq_true, decide_eq_true_eq]

theorem trainingEligible_iff {events : List GovernanceEvent} : trainingEligible events = true ↔
    recorded events .trainingEligible = true ∧ recorded events .quarantined = false ∧
      latestOverlap events ≠ some .overlapCheckFailed := by
  unfold trainingEligible
  rw [decide_eq_true_eq, Bool.not_eq_true]

/-- There is a last overlap check where there is one. -/
theorem latestOverlap_checked {events : List GovernanceEvent}
    (h : ∃ e ∈ events, e.eventType.isOverlapCheck = true) :
    latestOverlap events = some .overlapCheckPassed ∨
      latestOverlap events = some .overlapCheckFailed := by
  obtain ⟨e, he, hcheck⟩ := h
  unfold latestOverlap
  cases hfind : events.reverse.find? fun e => e.eventType.isOverlapCheck with
  | none => exact absurd hcheck (List.find?_eq_none.mp hfind e (List.mem_reverse.mpr he))
  | some last =>
    have hlast := List.find?_some hfind
    rw [Option.map_some]
    cases htype : last.eventType with
    | overlapCheckPassed => exact .inl rfl
    | overlapCheckFailed => exact .inr rfl
    | _ =>
      rw [htype] at hlast
      cases hlast

/-- An eligible experience may be trained on unless it is rejected. -/
theorem trainable_iff {db : ProductDb} (h : db.Founded) {key : String × String}
    (heligible : db.Eligible key) : db.Trainable key ↔ ¬ db.Rejected key := by
  obtain ⟨happroval, hquarantined, hfailed⟩ := trainingEligible_iff.mp heligible
  have happroved := h key happroval
  refine ⟨fun htrainable => htrainable.unrejected, fun hrejected => ?_⟩
  exact ⟨happroved, hrejected, (latestOverlap_checked happroved.checked).resolve_right hfailed,
    hquarantined⟩

/-- What may be trained on, and has an approval, is eligible. -/
theorem ProductDb.Trainable.eligible {db : ProductDb} {key : String × String}
    (h : db.Trainable key) (happroval : recorded (db.eventsOf key) .trainingEligible = true) :
    db.Eligible key := by
  refine trainingEligible_iff.mpr ⟨happroval, h.unquarantined, ?_⟩
  rw [h.overlap]
  nofun

/-- Where approvals are established, the law is that no eligible experience is rejected. -/
theorem lawAbiding_iff {db : ProductDb} (h : db.Founded) :
    db.LawAbiding ↔ ∀ key, db.Eligible key → ¬ db.Rejected key := by
  refine forall_congr' fun key => imp_congr_right fun heligible => ?_
  exact trainable_iff h heligible

/-! ## What a write adds -/

def Write.events : Write → List GovernanceEvent
  | .event e => [e]
  | _ => []

def Write.reviews : Write → List ReviewRow
  | .review row => [row]
  | _ => []

/-- A store in which nothing is lost. -/
structure ProductDb.Grows (db db' : ProductDb) : Prop where
  experiences : ∀ key row, db.experiences.get key = some row → db'.experiences.get key = some row
  reviews : ∀ r ∈ db.reviews.rows, r ∈ db'.reviews.rows
  events : ∀ e ∈ db.governanceEvents, e ∈ db'.governanceEvents

theorem ProductDb.Grows.refl (db : ProductDb) : db.Grows db :=
  ⟨fun _ _ h => h, fun _ h => h, fun _ h => h⟩

theorem ProductDb.Grows.trans {db db' db'' : ProductDb} (h : db.Grows db') (h' : db'.Grows db'') :
    db.Grows db'' where
  experiences key row hrow := h'.experiences key row (h.experiences key row hrow)
  reviews r hr := h'.reviews r (h.reviews r hr)
  events e he := h'.events e (h.events e he)

theorem ProductDb.Grows.review {db db' : ProductDb} (h : db.Grows db') {key : String × String}
    {r : ReviewRow} (hr : r ∈ db.reviewsOf key) : r ∈ db'.reviewsOf key := by
  rw [mem_reviewsOf] at hr ⊢
  exact ⟨h.reviews r hr.1, hr.2⟩

theorem ProductDb.Grows.event {db db' : ProductDb} (h : db.Grows db') {key : String × String}
    {e : GovernanceEvent} (he : e ∈ db.eventsOf key) : e ∈ db'.eventsOf key := by
  unfold ProductDb.eventsOf at he ⊢
  rw [List.mem_filter] at he ⊢
  exact ⟨h.events e he.1, he.2⟩

/-- What is approved stays approved. -/
theorem ProductDb.Approved.grows {db db' : ProductDb} {key : String × String}
    (h : db.Approved key) (hgrows : db.Grows db') : db'.Approved key := by
  obtain ⟨row, hrow, hunprotected, happroved⟩ := h.row
  obtain ⟨r, hr, r', hr', hboth⟩ := h.distinct
  obtain ⟨e, he, hcheck⟩ := h.checked
  refine ⟨⟨row, hgrows.experiences key row hrow, hunprotected, ?_⟩,
    ⟨r, hgrows.review hr, r', hgrows.review hr', hboth⟩, ⟨e, hgrows.event he, hcheck⟩⟩
  intro d hd
  obtain ⟨r, hr, hdecision⟩ := happroved d hd
  exact ⟨r, hgrows.review hr, hdecision⟩

theorem recorded_grows {db db' : ProductDb} (hgrows : db.Grows db') {key : String × String}
    {type : GovernanceEventType} (h : recorded (db.eventsOf key) type = true) :
    recorded (db'.eventsOf key) type = true := by
  rw [recorded_iff] at h ⊢
  obtain ⟨e, he, htype⟩ := h
  exact ⟨e, hgrows.event he, htype⟩

section
variable {py : Python} {db db' : ProductDb} {w : Write}

theorem audited_ok {tenantId eventType entityId createdAt : String} {payload : Json}
    (h : db.audited py tenantId eventType entityId payload createdAt = .ok db') :
    ∃ audit, db' = { db with audit } := by
  unfold ProductDb.audited at h
  dsimp only at h
  split at h
  · cases h
  · cases h
    exact ⟨_, rfl⟩

/-- A write adds its review or its event, and loses no experience. -/
theorem run_adds (h : w.run py db = .ok db') :
    db'.governanceEvents = db.governanceEvents ++ w.events ∧
      db'.reviews.rows = db.reviews.rows ++ w.reviews ∧
        ∀ key row, db.experiences.get key = some row → db'.experiences.get key = some row := by
  cases w with
  | mechanism row =>
    obtain ⟨_, _, h⟩ := bind_ok.mp h
    obtain ⟨_, rfl⟩ := audited_ok h
    exact ⟨(List.append_nil _).symm, (List.append_nil _).symm, fun _ _ hrow => hrow⟩
  | institutionalIr row =>
    obtain ⟨_, _, h⟩ := bind_ok.mp h
    obtain ⟨_, rfl⟩ := audited_ok h
    exact ⟨(List.append_nil _).symm, (List.append_nil _).symm, fun _ _ hrow => hrow⟩
  | experience row =>
    obtain ⟨experiences, hinsert, h⟩ := bind_ok.mp h
    obtain ⟨_, rfl⟩ := audited_ok h
    refine ⟨(List.append_nil _).symm, (List.append_nil _).symm, fun key row' hrow => ?_⟩
    have hinsert := orRaise_ok.mp hinsert
    show experiences.get key = some row'
    rw [Table.get_insert hinsert, if_neg, hrow]
    -- the key of a row that is added was free
    rintro rfl
    rw [(Table.rows_insert hinsert).2] at hrow
    cases hrow
  | review row =>
    obtain ⟨_, _, h⟩ := bind_ok.mp h
    obtain ⟨reviews, hinsert, h⟩ := bind_ok.mp h
    obtain ⟨_, rfl⟩ := audited_ok h
    exact ⟨(List.append_nil _).symm, (Table.rows_insert (orRaise_ok.mp hinsert)).1,
      fun _ _ hrow => hrow⟩
  | event e =>
    obtain ⟨_, _, h⟩ := bind_ok.mp h
    obtain ⟨_, rfl⟩ := audited_ok h
    exact ⟨rfl, (List.append_nil _).symm, fun _ _ hrow => hrow⟩
  | trainingRelease row =>
    obtain ⟨_, _, h⟩ := bind_ok.mp h
    obtain ⟨_, rfl⟩ := audited_ok h
    exact ⟨(List.append_nil _).symm, (List.append_nil _).symm, fun _ _ hrow => hrow⟩
  | governedIntake row =>
    obtain ⟨_, _, h⟩ := bind_ok.mp h
    obtain ⟨_, _, h⟩ := bind_ok.mp h
    obtain ⟨_, rfl⟩ := audited_ok h
    exact ⟨(List.append_nil _).symm, (List.append_nil _).symm, fun _ _ hrow => hrow⟩

theorem grows_run (h : w.run py db = .ok db') : db.Grows db' := by
  obtain ⟨hevents, hreviews, hexperiences⟩ := run_adds h
  refine ⟨hexperiences, fun r hr => ?_, fun e he => ?_⟩
  · rw [hreviews]
    exact List.mem_append_left _ hr
  · rw [hevents]
    exact List.mem_append_left _ he

theorem eventsOf_run (h : w.run py db = .ok db') (key : String × String) :
    db'.eventsOf key = db.eventsOf key ++ w.events.filter fun e => e.experience = key := by
  unfold ProductDb.eventsOf
  rw [(run_adds h).1, List.filter_append]

theorem rejected_run (h : w.run py db = .ok db') (key : String × String) :
    db'.Rejected key ↔
      db.Rejected key ∨ ∃ r ∈ w.reviews, r.experience = key ∧ r.decision = .reject := by
  unfold ProductDb.Rejected
  simp only [mem_reviewsOf, (run_adds h).2.1, List.mem_append]
  constructor
  · rintro ⟨r, ⟨hr | hr, hkey⟩, hdecision⟩
    · exact .inl ⟨r, ⟨hr, hkey⟩, hdecision⟩
    · exact .inr ⟨r, hr, hkey, hdecision⟩
  · rintro (⟨r, ⟨hr, hkey⟩, hdecision⟩ | ⟨r, hr, hkey, hdecision⟩)
    · exact ⟨r, ⟨.inl hr, hkey⟩, hdecision⟩
    · exact ⟨r, ⟨.inr hr, hkey⟩, hdecision⟩

/-! ## One write -/

/-- A review rejects no eligible experience, and an event makes no rejected one eligible. -/
def Write.Timely (db : ProductDb) : Write → Prop
  | .review row => row.decision = .reject → ¬ db.Eligible row.experience
  | .event e => db.Rejected e.experience →
      trainingEligible (db.eventsOf e.experience ++ [e]) = false
  | _ => True

/-- A write that adds neither an event nor a review changes nothing the law is about. -/
theorem lawAbiding_same (h : w.run py db = .ok db') (hevents : w.events = [])
    (hreviews : w.reviews = []) (hlaw : ∀ key, db.Eligible key → ¬ db.Rejected key)
    (key : String × String) (heligible : db'.Eligible key) : ¬ db'.Rejected key := by
  unfold ProductDb.Eligible at heligible
  rw [eventsOf_run h, hevents, List.filter_nil, List.append_nil] at heligible
  rw [rejected_run h, hreviews]
  rintro (hrejected | ⟨r, hr, _⟩)
  · exact hlaw key heligible hrejected
  · cases hr

/-- A write keeps the law exactly when it is timely. -/
theorem lawAbiding_run_iff (hfounded : db.Founded) (hlaw : db.LawAbiding)
    (h : w.run py db = .ok db') (hfounded' : db'.Founded) : db'.LawAbiding ↔ w.Timely db := by
  rw [lawAbiding_iff hfounded] at hlaw
  rw [lawAbiding_iff hfounded']
  cases w with
  | review row =>
    have hevents : ∀ key, db'.Eligible key ↔ db.Eligible key := by
      intro key
      unfold ProductDb.Eligible
      rw [eventsOf_run h]
      simp [Write.events]
    constructor
    · intro hnone hreject heligible
      refine hnone row.experience ((hevents _).mpr heligible) ?_
      exact (rejected_run h _).mpr (.inr ⟨row, List.mem_singleton_self row, rfl, hreject⟩)
    · intro htimely key heligible hrejected
      rw [hevents] at heligible
      rcases (rejected_run h key).mp hrejected with hrejected | ⟨r, hr, rfl, hreject⟩
      · exact hlaw key heligible hrejected
      · rw [List.mem_singleton.mp hr] at heligible hreject
        exact htimely hreject heligible
  | event e =>
    have hrejected : ∀ key, db'.Rejected key ↔ db.Rejected key := by
      intro key
      rw [rejected_run h]
      simp [Write.reviews]
    have hown : db'.eventsOf e.experience = db.eventsOf e.experience ++ [e] := by
      rw [eventsOf_run h]
      simp [Write.events]
    constructor
    · intro hnone hreject
      by_contra heligible
      rw [Bool.not_eq_false, ← hown] at heligible
      exact hnone e.experience heligible ((hrejected _).mpr hreject)
    · intro htimely key heligible hreject
      rw [hrejected] at hreject
      by_cases hkey : e.experience = key
      · subst hkey
        unfold ProductDb.Eligible at heligible
        rw [hown, htimely hreject] at heligible
        cases heligible
      · -- the events of another experience are what they were
        have hother : db'.eventsOf key = db.eventsOf key := by
          rw [eventsOf_run h]
          simp [Write.events, hkey]
        unfold ProductDb.Eligible at heligible
        rw [hother] at heligible
        exact hlaw key heligible hreject
  | mechanism row => exact iff_of_true (lawAbiding_same h rfl rfl hlaw) trivial
  | institutionalIr row => exact iff_of_true (lawAbiding_same h rfl rfl hlaw) trivial
  | experience row => exact iff_of_true (lawAbiding_same h rfl rfl hlaw) trivial
  | trainingRelease row => exact iff_of_true (lawAbiding_same h rfl rfl hlaw) trivial
  | governedIntake row => exact iff_of_true (lawAbiding_same h rfl rfl hlaw) trivial

/-- Approvals stay established, where the event of the write records an established one. -/
theorem founded_run (hfounded : db.Founded) (h : w.run py db = .ok db')
    (hevent : ∀ e ∈ w.events, e.eventType = .trainingEligible → db.Approved e.experience) :
    db'.Founded := by
  intro key hrecorded
  rw [eventsOf_run h, recorded_iff] at hrecorded
  obtain ⟨e, he, htype⟩ := hrecorded
  rcases List.mem_append.mp he with he | he
  · exact (hfounded key (recorded_iff.mpr ⟨e, he, htype⟩)).grows (grows_run h)
  · obtain ⟨he, hkey⟩ := List.mem_filter.mp he
    rw [← of_decide_eq_true hkey]
    exact (hevent e he htype).grows (grows_run h)

end
end Edon.ActionNet
