import EdonPlatform.Federation.Hierarchy

/- Routes and their escalations. `route_decision` commits the route and only then opens the
   escalation, with checks of its own: the severity, the digests of the evidence, the reason,
   and an identifier that is derived from the decision's where the call gives none. What these
   refuse leaves a route that escalates and no record of the escalation.

   `escalated_iff`: a call stores both or neither exactly when its route does not escalate or
   the escalation passes those checks (`Covered`), for every store and every call; and in a
   run, every stored route that escalates has its escalation at every point exactly when all
   calls do. -/
namespace Edon.Federation

/-- The escalation of a route. -/
def EscalationRow.For (e : EscalationRow) (r : Route) : Prop :=
  e.tenantId = r.tenantId ∧ e.decisionId = r.decisionId ∧ e.sourceScopeId = r.sourceScopeId ∧
    e.targetScopeId = r.targetScopeId

def hasEscalation (escalations : Table EscalationRow.key) (r : Route) : Prop :=
  ∃ e ∈ escalations.rows, e.For r

/-- Every stored route that escalates has its escalation. -/
def Escalated (db : FederationDb) : Prop :=
  ∀ r ∈ db.routes.rows, r.disposition = .escalate → hasEscalation db.escalations r.toRoute

/-- What the escalation of a route needs to be stored. -/
structure Escalatable (escalations : Table EscalationRow.key) (args : RouteArgs) (route : Route) :
    Prop where
  severity : upper args.severity ∈ severities
  evidence : ∀ d ∈ args.evidenceSha256, isIdentifier d = true
  identifier : isIdentifier (args.escalation route).escalationId = true
  reason : strip args.reason ≠ ""
  fresh : escalations.get (route.tenantId.1, strip (args.escalation route).escalationId) = none

section
variable (I : Interpreter)

/-- The route of the call does not escalate, is refused, or can be stored with its escalation;
or the decision has an escalation between the two scopes already. -/
def Covered (db : FederationDb) (args : RouteArgs) (now : String) : Prop :=
  ∀ route, routeOf I db args now = .ok route → route.disposition = .escalate →
    db.routes.get (route.tenantId.1, route.decisionId.1) = none →
    Escalatable db.escalations args route ∨ hasEscalation db.escalations route

/-- The call stores a route that escalates together with its escalation, and no escalation
without a route. -/
def BothOrNeither (db : FederationDb) (args : RouteArgs) (now : String) : Prop :=
  let after := (routeDecision I args now db).2
  (∀ r ∈ after.routes.rows, r ∉ db.routes.rows → r.disposition = .escalate →
    hasEscalation after.escalations r.toRoute) ∧
  (after.routes = db.routes → after.escalations = db.escalations)

/-- What the claim of a call comes to: only calls that route decisions are concerned. -/
def Call.Covered (db : FederationDb) : Call → Prop
  | .routeDecision args now => Federation.Covered I db args now
  | _ => True

end

section
variable {I : Interpreter} {db db' : FederationDb}

/-! ## When an escalation is stored -/

theorem identifierSet_succeeds {values : List String} {label : String} :
    (∃ ids, identifierSet values label = .ok ids) ↔ ∀ v ∈ values, isIdentifier v = true := by
  constructor
  · intro h v hv
    obtain ⟨ids, h⟩ := h
    obtain ⟨all, hall, -⟩ := bind_ok.mp h
    obtain ⟨i, -, hi⟩ := result_of_mapM hall v hv
    exact (toIdentifier_ok.mp hi).1
  · intro h
    have heach : ∀ v ∈ values, ∃ i, toIdentifier v label = .ok i := by
      intro v hv
      unfold toIdentifier
      have hv := h v hv
      unfold isIdentifier at hv
      rw [Bool.and_eq_true, decide_eq_true_eq, decide_eq_true_eq] at hv
      exact ⟨_, dif_pos ⟨strip_strip v, hv⟩⟩
    obtain ⟨ids, hids⟩ := Fallible.mapM_succeeds heach
    exact ⟨_, bind_ok.mpr ⟨ids, hids, rfl⟩⟩

/-- What `open_escalation` checks of the escalation of a route before it writes. -/
theorem escalationOf_ok {args : RouteArgs} {route : Route} {now : String} {e : Escalation}
    (h : escalationOf (args.escalation route) now = .ok e) :
    (upper args.severity ∈ severities ∧ (∀ d ∈ args.evidenceSha256, isIdentifier d = true) ∧
      isIdentifier (args.escalation route).escalationId = true ∧ strip args.reason ≠ "") ∧
    e.tenantId = route.tenantId ∧ e.decisionId = route.decisionId ∧
      e.sourceScopeId = route.sourceScopeId ∧ e.targetScopeId = route.targetScopeId ∧
      e.escalationId.1 = strip (args.escalation route).escalationId ∧
      e.reason = strip args.reason := by
  obtain ⟨_, hseverity, h⟩ := bind_ok.mp h
  obtain ⟨evidence, hevidence, h⟩ := bind_ok.mp h
  obtain ⟨tenantId, htenant, h⟩ := bind_ok.mp h
  obtain ⟨escalationId, hid, h⟩ := bind_ok.mp h
  obtain ⟨decisionId, hdecision, h⟩ := bind_ok.mp h
  obtain ⟨sourceScopeId, hsource, h⟩ := bind_ok.mp h
  obtain ⟨targetScopeId, htarget, h⟩ := bind_ok.mp h
  obtain ⟨_, hreason, h⟩ := bind_ok.mp h
  cases h
  have hsame {i j : Identifier} {label : String} (h : toIdentifier j.1 label = .ok i) : i = j := by
    rw [toIdentifier_text, Except.ok.injEq] at h
    exact h.symm
  exact ⟨⟨of_decide_eq_true (require_ok.mp hseverity), identifierSet_succeeds.mp ⟨_, hevidence⟩,
    (toIdentifier_ok.mp hid).1, of_decide_eq_true (require_ok.mp hreason)⟩, hsame htenant,
    hsame hdecision, hsame hsource, hsame htarget, (toIdentifier_ok.mp hid).2, rfl⟩

theorem insertEscalation_ok {args : RouteArgs} {route : Route} {now : String} {row : EscalationRow}
    (h : insertEscalation I (args.escalation route) now db = .ok (row, db')) :
    Escalatable db.escalations args route ∧ row.For route ∧ row.reason = strip args.reason ∧
      ∃ escalations, db.escalations.insert row = some escalations ∧
        db' = { db with escalations } := by
  obtain ⟨e, he, h⟩ := bind_ok.mp h
  obtain ⟨escalations, hinsert, h⟩ := bind_ok.mp h
  obtain ⟨⟨hseverity, hevidence, hid, hreason⟩, htenant, hdecision, hsource, htarget, hkey, htext⟩ :=
    escalationOf_ok he
  have hinsert := insertRow_ok.mp hinsert
  cases h
  refine ⟨⟨hseverity, hevidence, hid, hreason, ?_⟩, ⟨htenant, hdecision, hsource, htarget⟩, htext,
    escalations, hinsert, rfl⟩
  have hfree := (Table.rows_insert hinsert).2
  rw [EscalationRow.key, htenant, hkey] at hfree
  exact hfree

theorem insertEscalation_succeeds {args : RouteArgs} {route : Route} (now : String)
    (h : Escalatable db.escalations args route) :
    ∃ row db', insertEscalation I (args.escalation route) now db = .ok (row, db') := by
  obtain ⟨evidence, hevidence⟩ := (@identifierSet_succeeds _ "evidence_sha256").mpr h.evidence
  have hid : toIdentifier (args.escalation route).escalationId "escalation_id" =
      .ok ⟨strip (args.escalation route).escalationId, strip_strip _, by
        simpa [isIdentifier] using h.identifier⟩ :=
    toIdentifier_ok.mpr ⟨h.identifier, rfl⟩
  obtain ⟨e, he⟩ : ∃ e, escalationOf (args.escalation route) now = .ok e :=
    ⟨_, bind_ok.mpr ⟨(), require_ok.mpr (decide_eq_true h.severity), bind_ok.mpr ⟨evidence, hevidence,
      bind_ok.mpr ⟨_, toIdentifier_text route.tenantId _, bind_ok.mpr ⟨_, hid,
        bind_ok.mpr ⟨_, toIdentifier_text route.decisionId _,
          bind_ok.mpr ⟨_, toIdentifier_text route.sourceScopeId _,
            bind_ok.mpr ⟨_, toIdentifier_text route.targetScopeId _,
              bind_ok.mpr ⟨(), require_ok.mpr (decide_eq_true h.reason), rfl⟩⟩⟩⟩⟩⟩⟩⟩⟩
  obtain ⟨-, htenant, -, -, -, hkey, -⟩ := escalationOf_ok he
  have hfree : db.escalations.get
      ({ e with recordSha256 := e.toValue.sha256Json I } : EscalationRow).key = none := by
    rw [EscalationRow.key, htenant, hkey]
    exact h.fresh
  obtain ⟨escalations, hinsert⟩ := Table.insert_of_get hfree
  exact ⟨_, _, bind_ok.mpr ⟨e, he, bind_ok.mpr ⟨escalations, insertRow_ok.mpr hinsert, rfl⟩⟩⟩

/-- Escalations stay. -/
theorem openEscalation_grows (args : EscalationArgs) (now : String) {e : EscalationRow}
    (he : e ∈ db.escalations.rows) : e ∈ (openEscalation I args now db).2.escalations.rows := by
  unfold openEscalation
  split
  · exact he
  · next row db₁ hinsert =>
    obtain ⟨_, _, hinsert⟩ := bind_ok.mp hinsert
    obtain ⟨escalations, hrow, hinsert⟩ := bind_ok.mp hinsert
    cases hinsert
    have hmem := (Table.mem_insert (insertRow_ok.mp hrow)).mpr (.inl he)
    dsimp only
    split
    · exact hmem
    · next event db₂ hevent =>
      rw [recordEscalationEvent_ok hevent]
      exact hmem

/-- **After the route, its escalation is there exactly when it can be stored or was there.** -/
theorem hasEscalation_openEscalation (args : RouteArgs) (route : Route) (now : String) :
    hasEscalation (openEscalation I (args.escalation route) now db).2.escalations route ↔
      Escalatable db.escalations args route ∨ hasEscalation db.escalations route := by
  constructor
  · intro h
    unfold openEscalation at h
    split at h
    · exact .inr h
    · next row db₁ hinsert => exact .inl (insertEscalation_ok hinsert).1
  · intro h
    rcases h with h | ⟨e, he, hfor⟩
    · obtain ⟨row, db₁, hinsert⟩ := insertEscalation_succeeds (I := I) now h
      obtain ⟨-, hfor, -, escalations, htable, rfl⟩ := insertEscalation_ok hinsert
      refine ⟨row, ?_, hfor⟩
      have hmem := (Table.mem_insert htable).mpr (.inr rfl)
      unfold openEscalation
      rw [hinsert]
      dsimp only
      split
      · exact hmem
      · next event db₂ hevent =>
        rw [recordEscalationEvent_ok hevent]
        exact hmem
    · exact ⟨e, openEscalation_grows _ _ he, hfor⟩

/-! ## One call -/

theorem bothOrNeither_iff (args : RouteArgs) (now : String) :
    BothOrNeither I db args now ↔ Covered I db args now := by
  rcases @routeDecision_cases I db args now with ⟨hsame, hrefused⟩ |
    ⟨route, row, routes, hroute, hrow, hinsert, hafter⟩
  · refine iff_of_true ?_ ?_
    · unfold BothOrNeither
      rw [hsame]
      exact ⟨fun r hr hnew => absurd hr hnew, fun _ => rfl⟩
    · intro route hroute _ hfree
      obtain ⟨e, he⟩ := hrefused route hroute
      have hrow : db.routes.get ({ route with recordSha256 := route.toValue.sha256Json I } :
          RouteRow).key = none := hfree
      obtain ⟨routes, hinsert⟩ := Table.insert_of_get hrow
      have hok : insertRoute I route db = .ok _ :=
        bind_ok.mpr ⟨routes, insertRow_ok.mpr hinsert, rfl⟩
      cases he.symm.trans hok
  · have hfresh := (Table.rows_insert hinsert).2
    have hnew : row ∉ db.routes.rows := fun hmem => Table.get_eq_none.mp hfresh row hmem rfl
    have hcovered : Covered I db args now ↔ (row.disposition = .escalate →
        Escalatable db.escalations args route ∨ hasEscalation db.escalations route) := by
      subst hrow
      constructor
      · intro h hescalate
        exact h _ hroute hescalate hfresh
      · intro h route' hroute' hescalate _
        cases hroute.symm.trans hroute'
        exact h hescalate
    rw [hcovered]
    unfold BothOrNeither
    rw [hafter]
    by_cases hescalate : row.disposition = .escalate
    · rw [if_pos hescalate]
      have hroutes := (@openEscalation_frame I { db with routes }
        (args.escalation route) now).2.2
      have hstored := @hasEscalation_openEscalation I { db with routes } args route now
      constructor
      · intro h _
        have hmem : row ∈ routes.rows := (Table.mem_insert hinsert).mpr (.inr rfl)
        have hown := h.1 row (hroutes ▸ hmem) hnew hescalate
        rw [hrow] at hown
        exact hstored.mp hown
      · intro h
        refine ⟨?_, ?_⟩
        · intro r hr hrnew _
          rw [hroutes] at hr
          have hr := ((Table.mem_insert hinsert).mp hr).resolve_left hrnew
          rw [hr, hrow]
          exact hstored.mpr (h hescalate)
        · intro hunchanged
          rw [hroutes] at hunchanged
          have hmem : row ∈ routes.rows := (Table.mem_insert hinsert).mpr (.inr rfl)
          have hunchanged : routes = db.routes := hunchanged
          rw [hunchanged] at hmem
          exact absurd hmem hnew
    · rw [if_neg hescalate]
      refine iff_of_true ⟨?_, fun _ => rfl⟩ fun h => absurd h hescalate
      intro r hr hrnew hr'
      have hr := ((Table.mem_insert hinsert).mp hr).resolve_left hrnew
      rw [hr] at hr'
      exact absurd hr' hescalate

/-! ## Runs -/

theorem Escalated.of_frame (h : Escalated db) (hroutes : db'.routes = db.routes)
    (hgrows : ∀ e ∈ db.escalations.rows, e ∈ db'.escalations.rows) : Escalated db' := by
  intro r hr hescalate
  rw [hroutes] at hr
  obtain ⟨e, he, hfor⟩ := h r hr hescalate
  exact ⟨e, hgrows e he, hfor⟩

theorem routeDecision_grows (args : RouteArgs) (now : String) {e : EscalationRow}
    (he : e ∈ db.escalations.rows) : e ∈ (routeDecision I args now db).2.escalations.rows := by
  rcases @routeDecision_cases I db args now with ⟨h, -⟩ |
    ⟨route, row, routes, -, -, -, h⟩
  · rw [h]
    exact he
  · rw [h]
    split
    · exact @openEscalation_grows I { db with routes } _ _ _ he
    · exact he

/-- One call keeps every escalating route escalated exactly when it is covered. -/
theorem escalated_next {call : Call} (h : Escalated db) :
    Escalated (next I db call) ↔ call.Covered I db := by
  have hother {db' : FederationDb} (hroutes : db'.routes = db.routes)
      (hescalations : db'.escalations = db.escalations) : Escalated db' :=
    h.of_frame hroutes fun e he => hescalations ▸ he
  cases call with
  | registerScope args now =>
    refine iff_of_true ?_ trivial
    rw [next]
    refine committed_of_ok h fun row db' hok => ?_
    obtain ⟨-, scopes, -, rfl⟩ := registerScope_ok hok
    exact hother rfl rfl
  | projectWorld worlds tenantId scopeId projectionId targetScopeId createdAt now =>
    refine iff_of_true ?_ trivial
    rw [next]
    refine committed_of_ok h fun row db' hok => ?_
    obtain ⟨-, projections, -, rfl⟩ := projectWorld_ok hok
    exact hother rfl rfl
  | aggregateScope tenantId targetScopeId projectionId sourceScopeIds publishTo createdAt now =>
    refine iff_of_true ?_ trivial
    rw [next]
    refine committed_of_ok h fun row db' hok => ?_
    obtain ⟨-, projections, -, rfl⟩ := aggregateScope_ok hok
    exact hother rfl rfl
  | recordEscalationEvent tenantId escalationId eventType actorId note createdAt now =>
    refine iff_of_true ?_ trivial
    rw [next]
    refine committed_of_ok h fun event db' hok => ?_
    rw [recordEscalationEvent_ok hok]
    exact hother rfl rfl
  | openEscalation args now =>
    refine iff_of_true ?_ trivial
    rw [next]
    exact h.of_frame (openEscalation_frame args now).2.2 fun e => openEscalation_grows args now
  | routeDecision args now =>
    rw [next]
    refine Iff.trans ?_ (bothOrNeither_iff args now)
    constructor
    · intro hafter
      refine ⟨fun r hr _ hescalate => hafter r hr hescalate, ?_⟩
      rcases @routeDecision_cases I db args now with ⟨hsame, -⟩ |
        ⟨route, row, routes, -, -, hinsert, hstored⟩
      · intro _
        exact congrArg FederationDb.escalations hsame
      · intro hunchanged
        have hroutes : (routeDecision I args now db).2.routes = routes := by
          rw [hstored]
          split
          · exact (openEscalation_frame ..).2.2
          · rfl
        have hmem : row ∈ routes.rows := (Table.mem_insert hinsert).mpr (.inr rfl)
        rw [hroutes.symm.trans hunchanged] at hmem
        exact absurd rfl (Table.get_eq_none.mp (Table.rows_insert hinsert).2 row hmem)
    · intro hboth r hr hescalate
      by_cases hold : r ∈ db.routes.rows
      · obtain ⟨e, he, hfor⟩ := h r hold hescalate
        exact ⟨e, routeDecision_grows args now he, hfor⟩
      · exact hboth.1 r hr hold hescalate

/-- **Every route that escalates has its escalation exactly when the calls are covered**: one
call on any store, and every point of every run. -/
theorem escalated_iff (I : Interpreter) :
    (∀ db args now, BothOrNeither I db args now ↔ Covered I db args now) ∧
    ∀ calls, Transition.Along (next I) (fun _ _ db' => Escalated db') ∅ calls ↔
      Transition.Along (next I) (fun db call _ => call.Covered I db) ∅ calls := by
  refine ⟨fun db args now => bothOrNeither_iff args now, fun calls => ?_⟩
  have hempty : Escalated ∅ := by
    intro r hr
    cases hr
  exact Transition.along_keeps_iff (fun db call h => escalated_next h) hempty calls

end

/-! ## A severity nobody knows -/

/-- A root and a facility below it. -/
def facilityScopes : List Call :=
  [.registerScope { tenantId := "clinic", scopeId := "root", scopeType := "GLOBAL", name := "Root" }
     "2026-01-01T00:00:00+00:00",
   .registerScope { tenantId := "clinic", scopeId := "ward", scopeType := "FACILITY", name := "Ward",
                    parentScopeId := some "root" } "2026-01-01T00:00:00+00:00"]

/-- A decision of high impact whose severity is not one of the five. -/
def urgentDecision : RouteArgs where
  tenantId := "clinic"
  decisionId := "decision-1"
  sourceScopeId := "ward"
  consequenceScopeIds := []
  impactScore := .float (.finite (1 / 2))
  uncertainty := .float (.finite 0)
  context := .dict []
  severity := "urgent"

theorem urgent_route_alone :
    ¬ BothOrNeither plainInterpreter
        (Transition.exec (next plainInterpreter) ∅ facilityScopes) urgentDecision
        "2026-01-01T00:01:00+00:00" ∧
      ¬ Escalated (Transition.exec (next plainInterpreter) ∅ (facilityScopes ++
        [.routeDecision urgentDecision "2026-01-01T00:01:00+00:00"])) := by
  obtain ⟨route, hroute, hescalate⟩ : ∃ route, routeOf plainInterpreter
      (Transition.exec (next plainInterpreter) ∅ facilityScopes) urgentDecision
        "2026-01-01T00:01:00+00:00" = .ok route ∧ route.disposition = .escalate := by
    have h : (routeOf plainInterpreter (Transition.exec (next plainInterpreter) ∅ facilityScopes)
        urgentDecision "2026-01-01T00:01:00+00:00").toOption.any
          (fun route => route.disposition = .escalate) = true := by decide +kernel
    cases hr : routeOf plainInterpreter (Transition.exec (next plainInterpreter) ∅ facilityScopes)
        urgentDecision "2026-01-01T00:01:00+00:00" with
    | error e =>
      rw [hr] at h
      cases h
    | ok route =>
      rw [hr] at h
      exact ⟨route, rfl, of_decide_eq_true h⟩
  have hempty : (Transition.exec (next plainInterpreter) ∅ facilityScopes).routes.rows = [] ∧
      (Transition.exec (next plainInterpreter) ∅ facilityScopes).escalations.rows = [] :=
    ⟨List.isEmpty_iff.mp (by decide +kernel), List.isEmpty_iff.mp (by decide +kernel)⟩
  have hnot : ¬ Covered plainInterpreter (Transition.exec (next plainInterpreter) ∅ facilityScopes)
      urgentDecision "2026-01-01T00:01:00+00:00" := by
    intro hcovered
    have hfree : (Transition.exec (next plainInterpreter) ∅ facilityScopes).routes.get
        (route.tenantId.1, route.decisionId.1) = none :=
      Table.get_eq_none.mpr fun r hr => by rw [hempty.1] at hr; cases hr
    rcases hcovered route hroute hescalate hfree with h | ⟨e, he, -⟩
    · exact absurd h.severity (by decide)
    · rw [hempty.2] at he
      cases he
  refine ⟨fun hboth => hnot ((bothOrNeither_iff _ _).mp hboth), fun hafter => ?_⟩
  rw [Transition.exec_append, Transition.exec_cons, Transition.exec_nil] at hafter
  have hbefore : Escalated (Transition.exec (next plainInterpreter) ∅ facilityScopes) := by
    intro r hr
    rw [hempty.1] at hr
    cases hr
  exact hnot ((escalated_next hbefore).mp hafter)

end Edon.Federation
