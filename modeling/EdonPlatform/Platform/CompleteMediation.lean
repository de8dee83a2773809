import EdonPlatform.Platform.Mediation
import Mathlib.Data.List.Infix

/- Complete mediation: whether a request changes a record only for a principal with the
   capability of its route. Every handler but one stands behind a line of
   `capabilityFor` that admits every path the handler takes, whatever the handler does; the
   line of `POST /v1/institution-compilations` is missing.

   What is proved:
     1. `complete_mediation_iff` — a request changes records only if its principal has the
        capability, exactly when it does not enqueue a compile request of its own.
     2. `compilation_unmediated` — a principal without any role enqueues one. -/
namespace Edon.Platform
open Js Fallible

section
variable {ρ : Type}

/-- The dedupe key and the id of the message are new. -/
def Outbox.Admits (outbox : Outbox) (m : OutboxMessage) : Prop :=
  (∀ row ∈ outbox.rows, row.message.dedupeKey ≠ m.dedupeKey) ∧ outbox.get m.outboxId = none

/-- The principal has a role with a capability of the route, and in that role a membership that
is active and has not expired. -/
def HttpRequest.Authorized (h : HttpRequest) (s : TransitionService) (records : PlatformRecords ρ) :
    Prop :=
  ∃ p capability role m, h.principal = some p ∧ capabilityFor h.method h.path = some capability ∧
    role ∈ p.roles ∧ role ∈ rolesForCapability capability ∧
    records.getActorMembership p.actorId role = some m ∧ m.active = true ∧
    m.expired s h.now = false

/-- The request is a `POST /v1/institution-compilations` that is let through and names an
institution, and its message is new. -/
def HttpRequest.Enqueues (h : HttpRequest) (s : TransitionService) (records : PlatformRecords ρ) :
    Prop :=
  h.method = "POST" ∧ h.path = "/v1/institution-compilations" ∧
    ∃ body bind p institutionId, mediate s h records = .ok (body, some bind) ∧
      h.principal = some p ∧
      let s' := { s with tenantId := p.tenantId }
      let r := h.call p body bind.toRequestBinding records
      r.text s'.service "institution_id" "" = .ok institutionId ∧ institutionId ≠ "" ∧
        records.db.outbox.Admits (requestMessage s' institutionId r)

/-! ## The two lists -/

theorem testAll_cons {p : Segment} {ps : List Segment} {xs : List String}
    (h : testAll (p :: ps) xs = true) :
    ∃ y ys, xs = y :: ys ∧ p.test y = true ∧ testAll ps ys = true := by
  cases xs with
  | nil => cases h
  | cons y ys =>
    obtain ⟨hy, hys⟩ := Bool.and_eq_true_iff.mp h
    exact ⟨y, ys, rfl, hy, hys⟩

theorem testAll_nil {xs : List String} (h : testAll [] xs = true) : xs = [] := by
  cases xs with
  | nil => rfl
  | cons y ys => cases h

theorem testPath_segments {ps : List Segment} {path : String} (h : testPath ps path = true) :
    ∃ xs, segments path = "" :: xs ∧ testAll ps xs = true := by
  unfold testPath at h
  split at h
  · next x xs hsegments =>
    obtain ⟨hx, hall⟩ := Bool.and_eq_true_iff.mp h
    have hx : x = "" := of_decide_eq_true hx
    subst hx
    exact ⟨xs, hsegments, hall⟩
  · cases h

theorem testEnd_of_testPath {ps : List Segment} {path : String} (h : testPath ps path = true) :
    testEnd ps path = true := by
  obtain ⟨xs, hsegments, hall⟩ := testPath_segments h
  unfold testEnd
  rw [hsegments]
  exact List.any_eq_true.mpr ⟨xs, (List.mem_tails xs xs).mpr (List.suffix_refl xs), hall⟩

theorem segments_join (path : String) :
    ['/'].intercalate ((segments path).map String.toList) = path.toList := by
  unfold segments
  rw [List.map_map]
  simp only [Function.comp_def, String.toList_ofList, List.map_id']
  exact List.intercalate_splitOn '/'

/-- The export handler takes no path that the two tests of its capability do not take. -/
theorem export_path {path : String}
    (h : testPath [.text "v1", .text "reconstructions", .any, .text "export"] path = true) :
    (startsWith "/v1/reconstructions/" path && endsWith "/export" path) = true := by
  have hjoin := segments_join path
  obtain ⟨xs, hsegments, hall⟩ := testPath_segments h
  obtain ⟨a, xs₁, rfl, ha, hall₁⟩ := testAll_cons hall
  obtain ⟨b, xs₂, rfl, hb, hall₂⟩ := testAll_cons hall₁
  obtain ⟨i, xs₃, rfl, _, hall₃⟩ := testAll_cons hall₂
  obtain ⟨d, xs₄, rfl, hd, hall₄⟩ := testAll_cons hall₃
  have ha : a = "v1" := of_decide_eq_true ha
  have hb : b = "reconstructions" := of_decide_eq_true hb
  have hd : d = "export" := of_decide_eq_true hd
  subst ha hb hd
  rw [hsegments, testAll_nil hall₄] at hjoin
  unfold startsWith endsWith
  rw [Bool.and_eq_true_iff, List.isPrefixOf_iff_prefix, List.isSuffixOf_iff_suffix, ← hjoin]
  refine ⟨⟨i.toList ++ "/export".toList, ?_⟩, ⟨"/v1/reconstructions/".toList ++ i.toList, ?_⟩⟩
  · simp [List.intercalate]
  · simp [List.intercalate]

/-- A line of `capabilityFor` admits every path the handler takes. -/
def RouteCondition.Covered (r : RouteCondition) : Prop :=
  ∃ e ∈ capabilities, e.method = r.method ∧ ∀ path, r.test path = true → e.test path = true

theorem covered_by {r : RouteCondition} {e : Capability} (n : Nat) (he : capabilities[n]? = some e)
    (hmethod : e.method = r.method) (h : ∀ path, r.test path = true → e.test path = true) :
    r.Covered :=
  ⟨e, List.mem_of_getElem? he, hmethod, h⟩

/-- **Coverage.** Every handler is covered but that of the compile requests. -/
theorem handlers_covered : ∀ r ∈ handlers, r.route ≠ .postCompilations → r.Covered := by
  have hread : ∀ {test : String → Bool} {route : Route}, (∀ path, test path = true →
      (startsWith "/v1/state/" path || startsWith "/v1/incidents/" path ||
        startsWith "/v1/proposals/" path || startsWith "/v1/decisions/" path ||
        startsWith "/v1/outcomes/" path || startsWith "/v1/executions/" path) = true) →
      (⟨"GET", test, route⟩ : RouteCondition).Covered :=
    fun h => covered_by 23 rfl rfl h
  have hreleases : ∀ path, startsWith "/v1/model-releases/" path = true →
      startsWith "/v1/model-releases" path = true := by
    intro path h
    rw [startsWith, List.isPrefixOf_iff_prefix] at h ⊢
    exact (List.prefix_append _ ['/']).trans h
  unfold handlers
  simp only [List.forall_mem_cons]
  refine ⟨?_, ?_, ?_, ?_, ?_, ?_, ?_, ?_, ?_, ?_, ?_, ?_, ?_, ?_, ?_, ?_, ?_, ?_, ?_, ?_, ?_, ?_,
    ?_, ?_, ?_, ?_, ?_, ?_, ?_, ?_, ?_⟩
  · exact fun _ => covered_by 0 rfl rfl (fun _ h => h)
  · exact fun _ => covered_by 1 rfl rfl (fun _ h => h)
  · exact fun _ => covered_by 2 rfl rfl (fun _ h => h)
  · exact fun _ => covered_by 3 rfl rfl (fun _ h => h)
  · exact fun _ => covered_by 5 rfl rfl (fun _ h => h)
  · exact fun _ => covered_by 6 rfl rfl (fun _ h => h)
  · exact fun _ => covered_by 7 rfl rfl (fun _ h => h)
  · exact fun _ => covered_by 4 rfl rfl (fun _ h => h)
  · exact fun _ => covered_by 9 rfl rfl (fun _ h => h)
  · exact fun _ => covered_by 11 rfl rfl (fun _ h => testEnd_of_testPath h)
  · exact fun _ => covered_by 8 rfl rfl (fun _ h => h)
  · refine fun _ => covered_by 16 rfl rfl ?_
    intro path h
    rw [of_decide_eq_true h]
    decide +kernel
  · exact fun _ => covered_by 16 rfl rfl hreleases
  · exact fun _ => covered_by 21 rfl rfl (fun _ h => h)
  · exact fun _ => covered_by 22 rfl rfl (fun _ h => h)
  · exact fun _ => covered_by 17 rfl rfl (fun _ h => h)
  · exact fun _ => covered_by 18 rfl rfl (fun _ h => h)
  · exact fun _ => covered_by 19 rfl rfl (fun _ h => h)
  · exact fun hne => absurd rfl hne
  · exact fun _ => covered_by 20 rfl rfl (fun _ h => h)
  · exact fun _ => hread (fun _ h => by simp [h])
  · exact fun _ => hread (fun _ h => by simp [h])
  · exact fun _ => covered_by 15 rfl rfl (fun _ h => h)
  · exact fun _ => hread (fun _ h => by simp [h])
  · exact fun _ => hread (fun _ h => by simp [h])
  · exact fun _ => hread (fun _ h => by simp [h])
  · exact fun _ => hread (fun _ h => by simp [h])
  · exact fun _ => covered_by 12 rfl rfl (fun _ h => h)
  · exact fun _ => covered_by 14 rfl rfl (fun _ h => export_path h)
  · exact fun _ => covered_by 13 rfl rfl (fun _ h => h)
  · exact fun r hr => nomatch hr

theorem capability_of_route {method path : String} {route : Route}
    (h : routeOf method path = some route) (hne : route ≠ .postCompilations) :
    ∃ capability, capabilityFor method path = some capability := by
  obtain ⟨r, hr, rfl⟩ := Option.map_eq_some_iff.mp h
  have hfound := List.find?_some hr
  rw [decide_eq_true_eq] at hfound
  obtain ⟨hmethod, htest⟩ := hfound
  obtain ⟨e, he, hsame, hcovers⟩ := handlers_covered r (List.mem_of_find?_eq_some hr) hne
  unfold capabilityFor
  cases hfind : capabilities.find? fun c => c.method = method ∧ c.test path = true with
  | none =>
    have hno := List.find?_eq_none.mp hfind e he
    simp [hsame, hmethod, hcovers path htest] at hno
  | some e => exact ⟨e.capability path, rfl⟩

/-- One handler takes compile requests, at one path. -/
theorem route_postCompilations {method path : String}
    (h : routeOf method path = some .postCompilations) :
    method = "POST" ∧ path = "/v1/institution-compilations" := by
  obtain ⟨r, hr, hroute⟩ := Option.map_eq_some_iff.mp h
  have hfound := List.find?_some hr
  rw [decide_eq_true_eq] at hfound
  obtain ⟨hmethod, htest⟩ := hfound
  have hr := List.mem_of_find?_eq_some hr
  have hone : ∀ r ∈ handlers, r.route = .postCompilations →
      r.method = "POST" ∧ r.test = isPath "/v1/institution-compilations" := by
    unfold handlers
    simp only [List.forall_mem_cons]
    simp
  obtain ⟨hpost, hpath⟩ := hone r hr hroute
  rw [hpath] at htest
  exact ⟨hmethod.symm.trans hpost, of_decide_eq_true htest⟩

/-! ## Requests that are let through -/

variable {s : TransitionService}

/-- What a request that is let through has passed. -/
theorem mediate_ok {h : HttpRequest} {records : PlatformRecords ρ} {body : Value}
    {bind : Option HttpBinding} (hok : mediate s h records = .ok (body, bind)) :
    h.read = .ok body ∧ h.authenticate = .ok () ∧ h.binding body = .ok bind ∧
      h.authorize s body records = .ok () ∧ h.checkVersion s body bind records.db = .ok () := by
  obtain ⟨_, hread, hok⟩ := bind_ok.mp hok
  obtain ⟨_, hauthenticate, hok⟩ := bind_ok.mp hok
  obtain ⟨_, hbinding, hok⟩ := bind_ok.mp hok
  obtain ⟨_, hauthorize, hok⟩ := bind_ok.mp hok
  obtain ⟨_, hversion, hok⟩ := bind_ok.mp hok
  cases hok
  exact ⟨hread, hauthenticate, hbinding, hauthorize, hversion⟩

/-- A request that is let through on a route with a capability is authorized. -/
theorem authorized_of_mediate {h : HttpRequest} {records : PlatformRecords ρ} {body : Value}
    {bind : Option HttpBinding} {capability : String}
    (hok : mediate s h records = .ok (body, bind))
    (hcapability : capabilityFor h.method h.path = some capability) : h.Authorized s records := by
  obtain ⟨_, _, _, hauthorize, _⟩ := mediate_ok hok
  unfold HttpRequest.authorize at hauthorize
  rw [hcapability] at hauthorize
  dsimp only at hauthorize
  split at hauthorize
  · next p role hp hrole =>
    split at hauthorize
    · next m hm =>
      split at hauthorize
      · next hvalid =>
        unfold HttpRequest.matchingRole at hrole
        rw [hp] at hrole
        have hrole : p.roles.find? (fun r => r ∈ rolesForCapability capability) = some role := hrole
        have hallowed := List.find?_some hrole
        rw [decide_eq_true_eq] at hallowed
        exact ⟨p, capability, role, m, hp, hcapability, List.mem_of_find?_eq_some hrole, hallowed,
          hm, hvalid.1, hvalid.2⟩
      · cases hauthorize
    · cases hauthorize
  · cases hauthorize

/-! ## Compile requests -/

/-- A message that is enqueued is a new row, where it is admitted. -/
theorem enqueueOutbox_changes_iff {now : Int} {message : OutboxMessage} {outbox : Outbox} :
    (∃ inserted outbox', enqueueOutbox now message outbox = .ok (inserted, outbox') ∧
      outbox' ≠ outbox) ↔ outbox.Admits message := by
  constructor
  · rintro ⟨inserted, outbox', h, hchanged⟩
    rcases enqueueOutbox_cases h with ⟨_, hsame⟩ | ⟨rfl, hinsert⟩
    · exact absurd hsame hchanged
    · refine ⟨?_, (Table.rows_insert hinsert).2⟩
      intro row hrow hkey
      unfold enqueueOutbox at h
      rw [if_pos (List.any_eq_true.mpr ⟨row, hrow, decide_eq_true hkey⟩)] at h
      cases h
  · rintro ⟨hfresh, hfree⟩
    have hfree : outbox.get (OutboxRow.outboxId { message, availableAt := now, createdAt := now }) =
        none := hfree
    obtain ⟨outbox', hinsert⟩ := Table.insert_of_get hfree
    have hany : ¬ outbox.rows.any (fun r => r.message.dedupeKey = message.dedupeKey) = true := by
      intro hany
      obtain ⟨row, hrow, hkey⟩ := List.any_eq_true.mp hany
      exact hfresh row hrow (of_decide_eq_true hkey)
    refine ⟨true, outbox', ?_, ?_⟩
    · unfold enqueueOutbox
      rw [if_neg hany, hinsert]
    · intro hsame
      have hlength := congrArg (fun t => t.rows.length) hsame
      rw [(Table.rows_insert hinsert).1] at hlength
      simp at hlength

theorem postCompilations_changes_iff {r : Request} {outbox : Outbox} :
    (∃ reply outbox', postCompilations s r outbox = .ok (reply, outbox') ∧ outbox' ≠ outbox) ↔
      ∃ institutionId, r.text s.service "institution_id" "" = .ok institutionId ∧
        institutionId ≠ "" ∧ outbox.Admits (requestMessage s institutionId r) := by
  constructor
  · rintro ⟨reply, outbox', h, hchanged⟩
    obtain ⟨institutionId, htext, h⟩ := bind_ok.mp h
    split at h
    · cases h
      exact absurd rfl hchanged
    · next hne =>
      obtain ⟨⟨inserted, outbox''⟩, henqueue, h⟩ := bind_ok.mp h
      cases h
      exact ⟨institutionId, htext, hne, enqueueOutbox_changes_iff.mp ⟨_, _, henqueue, hchanged⟩⟩
  · rintro ⟨institutionId, htext, hne, hadmits⟩
    obtain ⟨inserted, outbox', henqueue, hchanged⟩ : ∃ inserted outbox',
        enqueueOutbox r.now (requestMessage s institutionId r) outbox = .ok (inserted, outbox') ∧
          outbox' ≠ outbox := enqueueOutbox_changes_iff.mpr hadmits
    have hpost : ∃ reply, postCompilations s r outbox = .ok (reply, outbox') := by
      unfold postCompilations
      rw [htext]
      show ∃ reply, (if institutionId = "" then _ else _) = Except.ok (reply, outbox')
      rw [if_neg hne, henqueue]
      exact ⟨_, rfl⟩
    obtain ⟨reply, hpost⟩ := hpost
    exact ⟨reply, outbox', hpost, hchanged⟩

variable (c : ControlPlane ρ)

/-- What changes the records is a handler of a request that is let through. -/
theorem handle_changes {h : HttpRequest} {records : PlatformRecords ρ}
    (hchanged : (c.handle h records).2 ≠ records) :
    ∃ body bind route reply records', mediate c.service h records = .ok (body, bind) ∧
      routeOf h.method h.path = some route ∧
      c.perform h body bind records route = .ok (reply, records') ∧ records' ≠ records := by
  unfold ControlPlane.handle at hchanged
  split at hchanged
  · exact absurd rfl hchanged
  · split at hchanged
    · exact absurd rfl hchanged
    · next body bind hmediate =>
      split at hchanged
      · exact absurd rfl hchanged
      · next route hroute =>
        split at hchanged
        · next reply records' hperform =>
          exact ⟨body, bind, route, reply, records', hmediate, hroute, hperform, hchanged⟩
        · exact absurd rfl hchanged

/-- A request that is let through changes what its handler changes. -/
theorem handle_of_perform {h : HttpRequest} {records records' : PlatformRecords ρ} {body : Value}
    {bind : Option HttpBinding} {route : Route} {reply : Reply} (hpublic : h.isPublic = false)
    (hmediate : mediate c.service h records = .ok (body, bind))
    (hroute : routeOf h.method h.path = some route)
    (hperform : c.perform h body bind records route = .ok (reply, records')) :
    c.handle h records = (reply, records') := by
  unfold ControlPlane.handle
  rw [hpublic, hmediate, hroute]
  simp only [Bool.false_eq_true, if_false, hperform]

theorem perform_postCompilations {h : HttpRequest} {records records' : PlatformRecords ρ}
    {body : Value} {bind : Option HttpBinding} {reply : Reply}
    (hperform : c.perform h body bind records .postCompilations = .ok (reply, records')) :
    ∃ p b outbox, h.principal = some p ∧ bind = some b ∧
      postCompilations { c.service with tenantId := p.tenantId }
        (h.call p body b.toRequestBinding records) records.db.outbox = .ok (reply, outbox) ∧
      records' = { records with db := { records.db with outbox } } := by
  unfold ControlPlane.perform bound at hperform
  dsimp only at hperform
  cases hp : h.principal with
  | none =>
    rw [hp] at hperform
    cases hperform
  | some p =>
    rw [hp] at hperform
    cases bind with
    | none => cases hperform
    | some b =>
      obtain ⟨⟨reply', outbox⟩, hpost, hperform⟩ := bind_ok.mp hperform
      cases hperform
      exact ⟨p, b, outbox, rfl, rfl, hpost, rfl⟩

/-- **Mediation is complete** up to the compile requests: a request changes the records only for
a principal that is authorized for its route, exactly when it enqueues no compile request. -/
theorem complete_mediation_iff (h : HttpRequest) (records : PlatformRecords ρ) :
    ((c.handle h records).2 ≠ records → h.Authorized c.service records) ↔
      ¬ h.Enqueues c.service records := by
  constructor
  · rintro hmediated ⟨hmethod, hpath, body, b, p, institutionId, hmediate, hp, htext, hne, hadmits⟩
    obtain ⟨reply, outbox, hpost, hchanged⟩ :=
      postCompilations_changes_iff.mpr ⟨institutionId, htext, hne, hadmits⟩
    have hperform : c.perform h body (some b) records .postCompilations =
        .ok (reply, { records with db := { records.db with outbox } }) := by
      unfold ControlPlane.perform bound
      rw [hp]
      exact bind_ok.mpr ⟨_, hpost, rfl⟩
    have hroute : routeOf h.method h.path = some .postCompilations := by
      rw [hmethod, hpath]
      decide +kernel
    have hpublic : h.isPublic = false := by
      unfold HttpRequest.isPublic
      rw [hmethod]
      simp
    have hhandle := handle_of_perform c hpublic hmediate hroute hperform
    obtain ⟨_, capability, _, _, _, hcapability, _⟩ := hmediated (by
      rw [hhandle]
      intro hsame
      exact hchanged (congrArg (fun r => r.db.outbox) hsame))
    -- no line of `capabilityFor` is for the route
    rw [hmethod, hpath] at hcapability
    have hnone : capabilityFor "POST" "/v1/institution-compilations" = none := by decide +kernel
    rw [hnone] at hcapability
    cases hcapability
  · intro hnot hchanged
    obtain ⟨body, bind, route, reply, records', hmediate, hroute, hperform, hchanged⟩ :=
      handle_changes c hchanged
    by_cases hcompile : route = .postCompilations
    · subst hcompile
      obtain ⟨p, b, outbox, hp, rfl, hpost, rfl⟩ := perform_postCompilations c hperform
      obtain ⟨hmethod, hpath⟩ := route_postCompilations hroute
      have houtbox : outbox ≠ records.db.outbox := by
        rintro rfl
        exact hchanged rfl
      obtain ⟨institutionId, htext, hne, hadmits⟩ :=
        postCompilations_changes_iff.mp ⟨reply, outbox, hpost, houtbox⟩
      exact absurd ⟨hmethod, hpath, body, b, p, institutionId, hmediate, hp, htext, hne, hadmits⟩ hnot
    · obtain ⟨capability, hcapability⟩ := capability_of_route hroute hcompile
      exact authorized_of_mediate hmediate hcapability

end

/-! ## A principal without a role -/

/-- A server whose other handlers only answer. -/
def sampleControlPlane : ControlPlane Unit where
  service := {
    js := Runtime.sample
    pg := Service.sample.pg
    tenantId := "northstar"
    sha256 := id
    stringify _ := "" }
  publicReply _ := ⟨200, .null⟩
  others _ _ _ _ records := .ok (⟨200, .null⟩, records)

def samplePrincipal (roles : List String) : VerifiedPrincipal :=
  ⟨"northstar", "user-1", "HUMAN", roles, none⟩

def sampleHttpBinding : Value :=
  .obj [("tenant_id", .str "northstar"), ("actor_id", .str "user-1"), ("correlation_id", .str "c"),
    ("trace_id", .str "t"), ("idempotency_key", .str "k"),
    ("contract_version", .str contractVersion), ("request_timestamp", .str "2026-01-01T00:00:00Z")]

def unprivileged : HttpRequest where
  method := "POST"
  path := "/v1/institution-compilations"
  body := some (.obj [("binding", sampleHttpBinding), ("institution_id", .str "clinic")])
  facilityScope := none
  correlationId := none
  principal := some (samplePrincipal [])
  now := 0

/-- The principal has no role, and the message is enqueued. -/
theorem compilation_unmediated :
    ¬ ((sampleControlPlane.handle unprivileged ⟨{}, ∅, ∅, ∅, ()⟩).2 ≠ ⟨{}, ∅, ∅, ∅, ()⟩ →
      unprivileged.Authorized sampleControlPlane.service (ρ := Unit) ⟨{}, ∅, ∅, ∅, ()⟩) := by
  intro hmediated
  have hqueued : (sampleControlPlane.handle unprivileged ⟨{}, ∅, ∅, ∅, ()⟩).2.db.outbox.rows.map
      (fun r => r.message.aggregateId) = ["clinic"] := by decide +kernel
  obtain ⟨p, _, role, _, hp, _, hrole, _⟩ := hmediated (by
    intro hsame
    rw [hsame] at hqueued
    cases hqueued)
  cases hp
  cases hrole

end Edon.Platform
