import EdonPlatform.ActionNet.Eligibility

/- What holds of the product store and the network store whatever the calls do, in order or not
   (edon/actionnet/product/store.py, edon/actionnet/network.py).

   What is proved: `released_approved` — over every interleaving of calls: a training release or a
   global release that was ever committed selects nothing that was not approved, which means the
   required approvals, distinct reviewers of domain and safety, an overlap check, and an experience
   that is not protected. What can go wrong between a reading and a commit is only that the
   approval was taken back. -/
namespace Edon.LearningNetwork
open ActionNet Json Interleaving Fallible Transition

/-! ## Releases -/

/-- What the releases of the stores select was approved. -/
structure LearningDb.ReleasesApproved (db : LearningDb) : Prop where
  training : ∀ row ∈ db.product.trainingReleases.rows, ∀ id ∈ row.experienceIds,
    db.product.Approved (row.tenantId, id)
  network : ∀ row ∈ db.network.releases.rows, ∀ id ∈ row.globalRecordIds,
    ∃ source, db.network.exportOf id = some source ∧ db.product.Approved source.experience

section
variable {rt : Runtime} {I : Interpreter} {db : LearningDb}

/-- A write in the product store adds no release but its own. -/
theorem trainingReleases_run {w : Write} {p p' : ProductDb} (h : w.run rt.toPython p = .ok p')
    {row : TrainingReleaseRow} (hrow : row ∈ p'.trainingReleases.rows) :
    row ∈ p.trainingReleases.rows ∨ w = .trainingRelease row := by
  cases w with
  | mechanism added | institutionalIr added | experience added =>
    obtain ⟨_, _, h⟩ := bind_ok.mp h
    obtain ⟨_, rfl⟩ := ActionNet.audited_ok h
    exact .inl hrow
  | review added | governedIntake added =>
    obtain ⟨_, _, h⟩ := bind_ok.mp h
    obtain ⟨_, _, h⟩ := bind_ok.mp h
    obtain ⟨_, rfl⟩ := ActionNet.audited_ok h
    exact .inl hrow
  | event e =>
    obtain ⟨_, _, h⟩ := bind_ok.mp h
    obtain ⟨_, rfl⟩ := ActionNet.audited_ok h
    exact .inl hrow
  | trainingRelease added =>
    obtain ⟨releases, hinsert, h⟩ := bind_ok.mp h
    obtain ⟨_, rfl⟩ := ActionNet.audited_ok h
    rcases (Table.mem_insert (orRaise_ok.mp hinsert)).mp hrow with hold | rfl
    · exact .inl hold
    · exact .inr rfl

theorem globalAudited_releases {g g' : GlobalDb} {eventType entityId createdAt : String}
    {payload : Json} (h : g.audited rt eventType entityId payload createdAt = .ok g') :
    g'.releases = g.releases := by
  obtain ⟨network, _, h⟩ := bind_ok.mp h
  cases h
  rfl

/-- A write in the network store adds no release but its own. -/
theorem globalReleases_run {w : GlobalWrite} {g g' : GlobalDb} (h : w.run rt g = .ok g')
    {row : GlobalTrainingReleaseRow} (hrow : row ∈ g'.releases.rows) :
    row ∈ g.releases.rows ∨ w = .trainingRelease row := by
  cases w with
  | promotion localExport record =>
    obtain ⟨_, _, h⟩ := bind_ok.mp h
    obtain ⟨localExports, _, h⟩ := bind_ok.mp h
    obtain ⟨_, _, h⟩ := bind_ok.mp h
    obtain ⟨records, _, h⟩ := bind_ok.mp h
    rw [globalAudited_releases h] at hrow
    exact .inl hrow
  | quarantine e =>
    obtain ⟨_, _, h⟩ := bind_ok.mp h
    rw [globalAudited_releases h] at hrow
    exact .inl hrow
  | trainingRelease added =>
    obtain ⟨_, _, h⟩ := bind_ok.mp h
    obtain ⟨releases, hinsert, h⟩ := bind_ok.mp h
    rw [globalAudited_releases h] at hrow
    rcases (Table.mem_insert (orRaise_ok.mp hinsert)).mp hrow with hold | rfl
    · exact .inl hold
    · exact .inr rfl

/-- Releases stay approved where the stores grow and every new release selects what was
approved. -/
theorem ReleasesApproved.grows {db' : LearningDb} (h : db.ReleasesApproved) (hgrows : db.Grows db')
    (htraining : ∀ row ∈ db'.product.trainingReleases.rows,
      row ∈ db.product.trainingReleases.rows ∨
        ∀ id ∈ row.experienceIds, db.product.Approved (row.tenantId, id))
    (hnetwork : ∀ row ∈ db'.network.releases.rows,
      row ∈ db.network.releases.rows ∨ ∀ id ∈ row.globalRecordIds,
        ∃ source, db.network.exportOf id = some source ∧ db.product.Approved source.experience) :
    db'.ReleasesApproved := by
  constructor
  · intro row hrow id hid
    have happroved : db.product.Approved (row.tenantId, id) := by
      rcases htraining row hrow with hold | hnew
      · exact h.training row hold id hid
      · exact hnew id hid
    exact happroved.grows hgrows.product
  · intro row hrow id hid
    have hsource : ∃ source, db.network.exportOf id = some source ∧
        db.product.Approved source.experience := by
      rcases hnetwork row hrow with hold | hnew
      · exact h.network row hold id hid
      · exact hnew id hid
    obtain ⟨source, hexport, happroved⟩ := hsource
    exact ⟨source, hgrows.exports id source hexport, happroved.grows hgrows.product⟩

/-- A statement that is executed knowingly keeps the releases approved. -/
theorem releasesApproved_exec {c : Statement} (hknown : c.Known db) (hfounded : db.product.Founded)
    (h : db.ReleasesApproved) : (exec rt c db).2.ReleasesApproved := by
  refine ReleasesApproved.grows h (exec_grows db c) ?_ ?_
  · intro row hrow
    cases c with
    | commit w =>
      cases hrun : w.run rt.toPython db.product with
      | error e =>
        rw [exec_commit_error hrun] at hrow
        exact .inl hrow
      | ok product =>
        rw [exec_commit_ok hrun] at hrow
        rcases trainingReleases_run hrun hrow with hold | rfl
        · exact .inl hold
        · exact .inr fun id hid => hfounded _ (hknown id hid)
    | commitGlobal w =>
      have hproduct : (exec rt (.commitGlobal w) db).2.product = db.product := by
        dsimp only [exec]
        split <;> rfl
      rw [hproduct] at hrow
      exact .inl hrow
    | mechanismExists key | institutionalIr key | experience key | reviews key | events key
    | globalRecord id | globalEvents id | localExport id => exact .inl hrow
  · intro row hrow
    cases c with
    | commit w =>
      have hnetwork : (exec rt (.commit w) db).2.network = db.network := by
        dsimp only [exec]
        split <;> rfl
      rw [hnetwork] at hrow
      exact .inl hrow
    | commitGlobal w =>
      cases hrun : w.run rt db.network with
      | error e =>
        have hexec : exec rt (.commitGlobal w) db = (.error e, db) := by
          simp only [exec, hrun]
        rw [hexec] at hrow
        exact .inl hrow
      | ok network =>
        have hexec : exec rt (.commitGlobal w) db = (.ok (), { db with network }) := by
          simp only [exec, hrun]
        rw [hexec] at hrow
        rcases globalReleases_run hrun hrow with hold | rfl
        · exact .inl hold
        · refine .inr fun id hid => ?_
          obtain ⟨source, hexport, hrecorded⟩ := hknown id hid
          exact ⟨source, hexport, hfounded _ hrecorded⟩
    | mechanismExists key | institutionalIr key | experience key | reviews key | events key
    | globalRecord id | globalEvents id | localExport id => exact .inl hrow

variable (rt) in
/-- Calls under way know what they rely on, and what was released was approved. -/
structure Vouched (p : Learning) : Prop where
  sound : p.Sound (exec rt) LearningDb.Grows Statement.Known
  founded : p.state.product.Founded
  releases : p.state.ReleasesApproved

theorem vouched_advance {p : Learning} (h : Vouched rt p) (m : Move LearningCall) :
    Vouched rt (advance rt I p m) where
  sound := h.sound.step LearningDb.Grows.refl LearningDb.Grows.trans exec_grows knowing_call m
  founded := by
    rw [Pool.step_state]
    cases hpending : p.pending m with
    | none => exact h.founded
    | some c => exact founded_exec (h.sound.pre LearningDb.Grows.refl hpending) h.founded
  releases := by
    rw [Pool.step_state]
    cases hpending : p.pending m with
    | none => exact h.releases
    | some c =>
      exact releasesApproved_exec (h.sound.pre LearningDb.Grows.refl hpending) h.founded h.releases

theorem vouched_start (mechanisms : Table MechanismRow.key)
    (institutionalIr : Table InstitutionalIrRow.key) :
    Vouched rt ⟨.start mechanisms institutionalIr, []⟩ where
  sound := Pool.sound_nil _
  founded := (lawful_start mechanisms institutionalIr : Lawful rt _).founded
  releases := by
    constructor
    · intro row hrow
      cases hrow
    · intro row hrow
      cases hrow

/-- **Nothing is released that was not approved.** In every state that an interleaving of calls
reaches, whatever overtakes what, every release that was committed selects only experiences that
were approved by the reviewers of every dimension and are not protected. -/
theorem released_approved (rt : Runtime) (I : Interpreter) (mechanisms : Table MechanismRow.key)
    (institutionalIr : Table InstitutionalIrRow.key) (moves : List (Move LearningCall)) :
    (Transition.exec (advance rt I) ⟨.start mechanisms institutionalIr, []⟩
      moves).state.ReleasesApproved := by
  have hvouched := exec_invariant (I := Vouched rt) (fun _ m hp => vouched_advance (I := I) hp m)
    (vouched_start mechanisms institutionalIr) moves
  exact hvouched.releases

end
end Edon.LearningNetwork
