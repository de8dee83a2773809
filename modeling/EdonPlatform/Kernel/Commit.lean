import EdonPlatform.Kernel.Tokens
import EdonPlatform.Lib.Run
import EdonPlatform.World.Transactions

/- Commits through the kernel (edon/kernel/commit.py, `KernelAuthorizedWorld`), by any
   number of threads that interleave between the transactions of a call and may crash
   at any of them.

   A call reads the events of its world, verifies its token, commits to the world store
   and consumes the token: four steps over two databases, so a thread is at one of the
   stages `started`, `looked`, `verified` and `committed`, and an exception or a crash
   takes it back to `idle` with what it has written so far.

   What is proved:
     1. `step_sound` — every event of the store is covered by the claims of an issued
        token, and every thread past verification has such claims.
     2. `kernel_commits` — over any run, each issued token authorizes at most one
        committed event, and each committed event agrees with the claims of an issued
        token.

   Assumed: SHA-256 is injective on texts, and the HMAC is unforgeable, that is, nobody
   starts a call with a token whose signature verifies but which was not issued before
   (`Unforgeable`, a guard on the steps of the run). -/
namespace Edon.Kernel
open Json World Transition

/-- A call of `create_world` or `append_event`. -/
inductive Call where
  | createWorld (tenantId worldId : String) (initialState : Json)
      (actorId authorityVersion executionToken : String) (sourceLineage : List String)
      (timestamp : Option String)
  | appendEvent (tenantId worldId eventId eventType : String) (mutations : List Json)
      (actorId authorityVersion : String) (expectedVersion : Int) (executionToken : String)
      (sourceLineage : List String) (timestamp : Option String)

def Call.executionToken : Call → String
  | .createWorld _ _ _ _ _ token _ _ => token
  | .appendEvent _ _ _ _ _ _ _ _ token _ _ => token

/-- `existing_event`: the event the call is about, if its world has it. -/
def existingEvent (db : WorldDb) (tenantId worldId eventId : String) : Option EventRow :=
  match events db tenantId worldId with
  | .ok rows => rows.find? (fun row => row.eventId = eventId)
  | .error _ => none

def Call.existing (db : WorldDb) : Call → Option EventRow
  | .createWorld t w _ _ _ _ _ _ => existingEvent db t w "WORLD_CREATED"
  | .appendEvent t w e _ _ _ _ _ _ _ _ => existingEvent db t w e

def Call.verifyRequest (existing : Option EventRow) : Call → VerifyRequest
  | .createWorld t w state actor version _ _ _ =>
    { tenantId := t
      worldId := w
      actorId := actor
      expectedWorldVersion := -1
      eventId := "WORLD_CREATED"
      eventType := "WORLD_CREATED"
      mutations := [(Mutation.replaceRoot state).toJson]
      authorityVersion := some version
      allowConsumed := existing.isSome
      expectedEventHash := existing.map EventRow.eventHash }
  | .appendEvent t w e ty ms actor version expected _ _ _ =>
    { tenantId := t
      worldId := w
      actorId := actor
      expectedWorldVersion := expected
      eventId := e
      eventType := ty
      mutations := ms
      authorityVersion := some version
      allowConsumed := existing.isSome
      expectedEventHash := existing.map EventRow.eventHash }

/-- The commit to the world store, with the token as the authorization. -/
def Call.commit (py : Python) (now : String) (db : WorldDb) :
    Call → Except PyError Snapshot × WorldDb
  | .createWorld t w state actor _ token lineage timestamp =>
    World.createWorld py now t w state actor token lineage timestamp db
  | .appendEvent t w e ty ms actor _ expected token lineage timestamp =>
    World.appendEvent py now t w e ty ms actor expected token lineage timestamp db

def Call.eventIdentity : Call → String
  | .createWorld t w _ _ _ _ _ _ => Kernel.eventIdentity t w "WORLD_CREATED"
  | .appendEvent t w e _ _ _ _ _ _ _ _ => Kernel.eventIdentity t w e

/-! ## The system -/

/-- Where a thread is in its call. -/
inductive Stage where
  | idle
  | started (c : Call)
  | looked (c : Call) (existing : Option EventRow)
  | verified (c : Call)
  | committed (c : Call) (snapshot : Snapshot)

/-- The two databases, the claims of the tokens handed out, and the threads. -/
structure System where
  db : WorldDb
  tokens : TokenDb
  issued : List Claims
  stage : Nat → Stage

def System.empty : System := ⟨∅, ∅, [], fun _ => .idle⟩

def System.goto (s : System) (thread : Nat) (stage : Stage) : System :=
  { s with stage := fun t => if t = thread then stage else s.stage t }

inductive Event where
  | issue (request : IssueRequest) (tokenId nonce : String) (now : Int)
  | start (thread : Nat) (c : Call)
  | look (thread : Nat)
  | verify (thread : Nat) (now : Int)
  | commit (thread : Nat) (now : String)
  | consume (thread : Nat) (consumedAt : String)
  | crash (thread : Nat)

section
variable (py : Python) (authority : Authority)

def step (s : System) : Event → System
  | .issue request tokenId nonce now =>
    match issueWorldEvent py authority request tokenId nonce now s.tokens with
    | .ok (claims, tokens) => { s with tokens, issued := s.issued ++ [claims] }
    | .error _ => s
  | .start thread c =>
    match s.stage thread with
    | .idle => s.goto thread (.started c)
    | _ => s
  | .look thread =>
    match s.stage thread with
    | .started c => s.goto thread (.looked c (c.existing s.db))
    | _ => s
  | .verify thread now =>
    match s.stage thread with
    | .looked c existing =>
      match verifyWorldEvent py authority c.executionToken (c.verifyRequest existing) now
          s.tokens with
      | .ok _ => s.goto thread (.verified c)
      | .error _ => s.goto thread .idle
    | _ => s
  | .commit thread now =>
    match s.stage thread with
    | .verified c =>
      match c.commit py now s.db with
      | (.ok snapshot, db) => { s.goto thread (.committed c snapshot) with db }
      | (.error _, db) => { s.goto thread .idle with db }
    | _ => s
  | .consume thread consumedAt =>
    match s.stage thread with
    | .committed c snapshot =>
      match Kernel.consume py authority c.executionToken c.eventIdentity
          (snapshot.eventHash.getD "None") consumedAt s.tokens with
      | .ok tokens => { s.goto thread .idle with tokens }
      | .error _ => s.goto thread .idle
    | _ => s
  | .crash thread => s.goto thread .idle

/-- Some issued token has this text. -/
def WasIssued (s : System) (token : String) : Prop :=
  ∃ c ∈ s.issued, c.token py authority = token

/-- **Unforgeability.** A token a call starts with was issued if its signature
verifies. -/
def Unforgeable (s : System) : Event → Prop
  | .start _ c => signatureValid authority c.executionToken = true →
      WasIssued py authority s c.executionToken
  | _ => True

/-- The steps of the system as a relation, under unforgeability. -/
def Step : System → Event → System → Prop :=
  guard (Unforgeable py authority) (fun s e t => t = step py authority s e)

/-- The event agrees with the claims in everything they say, and names their token as
its authorization. -/
structure Covers (c : Claims) (row : EventRow) : Prop where
  authorization : row.authorizationRef = c.token py authority
  tenant : row.tenantId = c.tenantId
  world : row.worldId = c.worldId
  actor : row.actorId = c.actorId
  event : row.eventId = c.eventId
  type : row.eventType = c.eventType
  version : row.expectedVersion = c.expectedWorldVersion
  mutations : row.mutations = (c.mutations.map Mutation.toJson).map Json.canon

/-! ## Invariant -/

/-- What a stage of a call has established about its token. -/
def StageSound (s : System) : Stage → Prop
  | .idle => True
  | .started c => signatureValid authority c.executionToken = true →
      WasIssued py authority s c.executionToken
  | .looked c _ => signatureValid authority c.executionToken = true →
      WasIssued py authority s c.executionToken
  | .verified c => ∃ claims ∈ s.issued, claims.token py authority = c.executionToken ∧
      Authorizes py claims (c.verifyRequest none)
  | .committed _ _ => True

structure Sound (s : System) : Prop where
  stages : ∀ thread, StageSound py authority s (s.stage thread)
  events : ∀ row ∈ s.db.worldEvents.rows, ∃ c ∈ s.issued, Covers py authority c row

end

section
variable {py : Python} {authority : Authority}

theorem sound_empty : Sound py authority System.empty := ⟨fun _ => trivial, nofun⟩

/-- Two checks that accept a text normalize it in the same way. -/
theorem identifier_eq {cls cls' : ErrorClass} {value label label' a b : String}
    (ha : identifier cls value label = .ok a) (hb : identifier cls' value label' = .ok b) :
    a = b :=
  (identifier_ok ha).trans (identifier_ok hb).symm

theorem same_mutationsJson {ms ms' : List Mutation}
    (h : Same (mutationsJson ms) (mutationsJson ms')) :
    (ms.map Mutation.toJson).map Json.canon = (ms'.map Mutation.toJson).map Json.canon := by
  simpa [Same, mutationsJson, Json.canon, canonList_eq_map] using h

/-- The row of a checked request is covered by the claims that authorize it. -/
theorem covers_row (hsha : Function.Injective py.sha256) {c : Claims} {r : VerifyRequest}
    {request : World.Request} {event : World.Event} (hauth : Authorizes py c r)
    (hchecked : Checked py r.tenantId r.worldId r.eventId r.eventType r.actorId
      r.expectedWorldVersion r.mutations (c.token py authority) request)
    (hevent : event.toRequest = request) : Covers py authority c (eventRow py event) := by
  subst hevent
  obtain ⟨ms, hms, hmut⟩ := hchecked.mutations
  obtain ⟨ms', hms', hhash⟩ := hauth.mutations
  have hsame : ms' = ms := Except.ok.inj (hms'.symm.trans hms)
  subst hsame
  refine ⟨?_, ?_, ?_, ?_, ?_, ?_, ?_, ?_⟩
  · exact (bounded_ok hchecked.authorization).1.trans (strip_token c)
  · exact identifier_eq hchecked.tenant hauth.tenant
  · exact identifier_eq hchecked.world hauth.world
  · exact identifier_eq hchecked.actor hauth.actor
  · exact identifier_eq hchecked.event hauth.event
  · exact identifier_eq hchecked.type hauth.type
  · exact hchecked.expected.trans hauth.version
  · show event.mutations.map Json.canon = _
    rw [hmut]
    exact same_mutationsJson (same_of_sha256Json hsha hhash).symm

/-- A commit writes nothing, or one event that the claims behind its call cover. -/
theorem commit_covers (hsha : Function.Injective py.sha256) {c : Claims} {call : Call}
    (htoken : c.token py authority = call.executionToken)
    (hauth : Authorizes py c (call.verifyRequest none)) (now : String) (db : WorldDb) :
    (call.commit py now db).2 = db ∨
    ∃ row, (call.commit py now db).2.worldEvents.rows = db.worldEvents.rows ++ [row] ∧
      Covers py authority c row := by
  cases call with
  | createWorld t w state actor version token lineage timestamp =>
    replace htoken : c.token py authority = token := htoken
    subst htoken
    rcases createWorld_cases py now t w state actor (c.token py authority) lineage timestamp db with
      h | ⟨request, fields, hrequest, _, hrec, _⟩
    · exact .inl h
    · obtain ⟨hchecked, _⟩ := createRequest_ok py hrequest
      exact .inr ⟨_, hrec.events, covers_row hsha hauth hchecked rfl⟩
  | appendEvent t w e ty ms actor version expected token lineage timestamp =>
    replace htoken : c.token py authority = token := htoken
    subst htoken
    rcases appendEvent_cases py now t w e ty ms actor expected (c.token py authority) lineage
      timestamp db with h | ⟨request, world, state, hrequest, _, _, _, hrec, _⟩
    · exact .inl h
    · exact .inr ⟨_, hrec.events, covers_row hsha hauth (appendRequest_ok hrequest) rfl⟩

/-- What a stage established stays true when more tokens are issued. -/
theorem StageSound.mono {s s' : System} (hissued : ∀ c ∈ s.issued, c ∈ s'.issued) {stage : Stage}
    (h : StageSound py authority s stage) : StageSound py authority s' stage := by
  have hwas : ∀ token, WasIssued py authority s token → WasIssued py authority s' token :=
    fun _ ⟨c, hc, ht⟩ => ⟨c, hissued c hc, ht⟩
  cases stage with
  | idle => trivial
  | started c => exact fun hv => hwas _ (h hv)
  | looked c existing => exact fun hv => hwas _ (h hv)
  | verified c =>
    obtain ⟨claims, hc, hrest⟩ := h
    exact ⟨claims, hissued claims hc, hrest⟩
  | committed c snapshot => trivial

/-- A thread that moves to a sound stage keeps the system sound. -/
theorem Sound.goto {s s' : System} (hs : Sound py authority s) {thread : Nat} (stage : Stage)
    (hstage : StageSound py authority s stage) (hissued : s'.issued = s.issued)
    (hthreads : s'.stage = (s.goto thread stage).stage)
    (hevents : ∀ row ∈ s'.db.worldEvents.rows, ∃ c ∈ s.issued, Covers py authority c row) :
    Sound py authority s' := by
  have hmono : ∀ c ∈ s.issued, c ∈ s'.issued := fun c hc => hissued ▸ hc
  refine ⟨?_, ?_⟩
  · intro t
    rw [hthreads]
    show StageSound py authority s' (if t = thread then stage else s.stage t)
    split
    · exact hstage.mono hmono
    · exact (hs.stages t).mono hmono
  · intro row hrow
    obtain ⟨c, hc, hcovers⟩ := hevents row hrow
    exact ⟨c, hmono c hc, hcovers⟩

theorem step_sound (hsha : Function.Injective py.sha256) {s t : System} {e : Event}
    (hs : Sound py authority s) (h : Step py authority s e t) : Sound py authority t := by
  obtain ⟨hforge, rfl⟩ := h
  cases e with
  | issue request tokenId nonce now =>
    simp only [step]
    split
    · next claims tokens _ =>
      have hmono : ∀ c ∈ s.issued, c ∈ s.issued ++ [claims] :=
        fun c hc => List.mem_append_left _ hc
      refine ⟨fun t => (hs.stages t).mono hmono, ?_⟩
      intro row hrow
      obtain ⟨c, hc, hcovers⟩ := hs.events row hrow
      exact ⟨c, hmono c hc, hcovers⟩
    · exact hs
  | start thread c =>
    simp only [step]
    split
    · exact hs.goto (.started c) hforge rfl rfl hs.events
    · exact hs
  | look thread =>
    simp only [step]
    split
    · next c hstage =>
      have hsound := hs.stages thread
      rw [hstage] at hsound
      exact hs.goto (.looked c _) hsound rfl rfl hs.events
    · exact hs
  | verify thread now =>
    simp only [step]
    split
    · next c existing hstage =>
      have hsound := hs.stages thread
      rw [hstage] at hsound
      split
      · next payload hverify =>
        -- the signature verified, so the token was issued, with claims that match
        have hsign := signatureValid_of_decode (verify_ok hverify).1
        obtain ⟨claims, hclaims, htoken⟩ := hsound hsign
        rw [← htoken] at hverify
        have hauth := verify_claims hverify
        refine hs.goto (.verified c) ⟨claims, hclaims, htoken, ?_⟩ rfl rfl hs.events
        cases c <;> exact { hauth with }
      · exact hs.goto .idle trivial rfl rfl hs.events
    · exact hs
  | commit thread now =>
    simp only [step]
    split
    · next c hstage =>
      have hsound := hs.stages thread
      rw [hstage] at hsound
      obtain ⟨claims, hclaims, htoken, hauth⟩ := hsound
      have hevents : ∀ row ∈ (c.commit py now s.db).2.worldEvents.rows,
          ∃ claims ∈ s.issued, Covers py authority claims row := by
        intro row hrow
        rcases commit_covers hsha htoken hauth now s.db with h | ⟨new, hnew, hcovers⟩
        · rw [h] at hrow
          exact hs.events row hrow
        · rw [hnew, List.mem_append, List.mem_singleton] at hrow
          rcases hrow with hrow | rfl
          · exact hs.events row hrow
          · exact ⟨claims, hclaims, hcovers⟩
      split
      · next snapshot db hcommit =>
        rw [hcommit] at hevents
        exact hs.goto (.committed c snapshot) trivial rfl rfl hevents
      · next e db hcommit =>
        rw [hcommit] at hevents
        exact hs.goto .idle trivial rfl rfl hevents
    · exact hs
  | consume thread consumedAt =>
    simp only [step]
    split
    · split
      · exact hs.goto .idle trivial rfl rfl hs.events
      · exact hs.goto .idle trivial rfl rfl hs.events
    · exact hs
  | crash thread => exact hs.goto .idle trivial rfl rfl hs.events

/-- **Commits are single use.** In every run, with crashes anywhere, a committed event
agrees with the claims of a token the kernel issued, and no issued token authorizes two
committed events. -/
theorem kernel_commits (hsha : Function.Injective py.sha256) {es : List Event} {s : System}
    (hrun : Run (Step py authority) System.empty es s) :
    (∀ row ∈ s.db.worldEvents.rows, ∃ c ∈ s.issued, Covers py authority c row) ∧
    ∀ c ∈ s.issued, ∀ row ∈ s.db.worldEvents.rows, ∀ row' ∈ s.db.worldEvents.rows,
      row.authorizationRef = c.token py authority →
      row'.authorizationRef = c.token py authority → row = row' := by
  have hsound := hrun.invariant (fun _ _ _ hs h => step_sound hsha hs h) sound_empty
  refine ⟨hsound.events, ?_⟩
  intro c _ row hrow row' hrow' hauth hauth'
  obtain ⟨d, _, hd⟩ := hsound.events row hrow
  obtain ⟨d', _, hd'⟩ := hsound.events row' hrow'
  -- both events are covered by claims with this token, so they have the same identity
  obtain ⟨ht, hw, he⟩ := token_inj
    ((hd.authorization.symm.trans hauth).trans (hauth'.symm.trans hd'.authorization))
  apply Table.eq_of_key hrow hrow'
  show (row.tenantId, row.worldId, row.eventId) = (row'.tenantId, row'.worldId, row'.eventId)
  rw [hd.tenant, hd.world, hd.event, hd'.tenant, hd'.world, hd'.event, ht, hw, he]

/-- A token that was issued stays issued. -/
theorem wasIssued_step {s : System} {token : String} (h : WasIssued py authority s token)
    (e : Event) : WasIssued py authority (step py authority s e) token := by
  obtain ⟨c, hc, htoken⟩ := h
  refine ⟨c, ?_, htoken⟩
  cases e with
  | issue request tokenId nonce now =>
    simp only [step]
    split
    · exact List.mem_append_left _ hc
    · exact hc
  | start thread call => simp only [step]; split <;> exact hc
  | look thread => simp only [step]; split <;> exact hc
  | verify thread now =>
    simp only [step]
    split
    · split <;> exact hc
    · exact hc
  | commit thread now =>
    simp only [step]
    split
    · split <;> exact hc
    · exact hc
  | consume thread consumedAt =>
    simp only [step]
    split
    · split <;> exact hc
    · exact hc
  | crash thread => exact hc

/-- A call that is issued a token, crashes after its commit, and is retried. -/
def retryRun (request : IssueRequest) (tokenId nonce : String) (call : Call) : List Event :=
  [.issue request tokenId nonce 0, .start 0 call, .look 0, .verify 0 10,
   .commit 0 "2026-01-01T00:00:00+00:00", .crash 0, .start 1 call, .look 1, .verify 1 20,
   .commit 1 "2026-01-01T00:00:10+00:00", .consume 1 "2026-01-01T00:00:11+00:00"]

theorem retry_run {request : IssueRequest} {tokenId nonce : String} {call : Call}
    (hissued : WasIssued py authority
      (step py authority System.empty (.issue request tokenId nonce 0)) call.executionToken) :
    Run (Step py authority) System.empty (retryRun request tokenId nonce call)
      (exec (step py authority) System.empty (retryRun request tokenId nonce call)) := by
  have hretry := wasIssued_step (wasIssued_step (wasIssued_step (wasIssued_step (wasIssued_step
    hissued (.start 0 call)) (.look 0)) (.verify 0 10))
    (.commit 0 "2026-01-01T00:00:00+00:00")) (.crash 0)
  refine .cons ⟨trivial, rfl⟩ (.cons ⟨fun _ => hissued, rfl⟩ ?_)
  refine .cons ⟨trivial, rfl⟩ (.cons ⟨trivial, rfl⟩ (.cons ⟨trivial, rfl⟩ ?_))
  refine .cons ⟨trivial, rfl⟩ (.cons ⟨fun _ => hretry, rfl⟩ ?_)
  refine .cons ⟨trivial, rfl⟩ (.cons ⟨trivial, rfl⟩ (.cons ⟨trivial, rfl⟩ ?_))
  exact .cons ⟨trivial, rfl⟩ (.nil _)

end

/-! ## A run with a crash and a retry -/

/-- A runtime whose digests are the texts themselves. -/
def plainPython : Python where
  repr := fun _ => ""
  sha256 := id
  fromisoformat := fun _ => .invalid
  isoformat := fun _ => ""

def plainAuthority : Authority where
  keyId := "kernel-local-v1"
  hmac := id

def sampleClaims : Claims where
  tokenId := "token-1"
  nonce := "nonce-1"
  tenantId := "tenant"
  worldId := "world"
  actorId := "actor"
  issuerId := "kernel-authority"
  authorityVersion := "v1"
  expectedWorldVersion := -1
  eventId := "WORLD_CREATED"
  eventType := "WORLD_CREATED"
  mutations := [.replaceRoot (.obj [])]
  issuedAt := 0
  expiresAt := 300

def sampleIssue : IssueRequest where
  tenantId := "tenant"
  worldId := "world"
  actorId := "actor"
  authorityVersion := "v1"
  expectedWorldVersion := -1
  eventId := "WORLD_CREATED"
  eventType := "WORLD_CREATED"
  mutations := [(Mutation.replaceRoot (.obj [])).toJson]
  ttlSeconds := 300
  issuerId := "kernel-authority"

def sampleCall : Call :=
  .createWorld "tenant" "world" (.obj []) "actor" "v1"
    (sampleClaims.token plainPython plainAuthority) [] none

theorem sample_issued : WasIssued plainPython plainAuthority
    (step plainPython plainAuthority System.empty (.issue sampleIssue "token-1" "nonce-1" 0))
    sampleCall.executionToken :=
  ⟨sampleClaims, by decide +kernel, rfl⟩

theorem kernel_commits_retry :
    let s := exec (step plainPython plainAuthority) System.empty
      (retryRun sampleIssue "token-1" "nonce-1" sampleCall)
    (∀ row ∈ s.db.worldEvents.rows, ∃ c ∈ s.issued, Covers plainPython plainAuthority c row) ∧
    ∀ c ∈ s.issued, ∀ row ∈ s.db.worldEvents.rows, ∀ row' ∈ s.db.worldEvents.rows,
      row.authorizationRef = c.token plainPython plainAuthority →
      row'.authorizationRef = c.token plainPython plainAuthority → row = row' :=
  kernel_commits (fun _ _ h => h) (retry_run sample_issued)

end Edon.Kernel
