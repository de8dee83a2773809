import EdonPlatform.Kernel.Consistency

/- Retries of a call that was committed (edon/kernel/commit.py,
   `KernelAuthorizedWorld.append_event`), in every state a run can reach in between.

   What is proved:
     1. `verified_iff` — a retry before its token expires is verified exactly when the token
        is free or was consumed by a call with this spelling of its ids, and the event id is
        in normal form.
     2. `retried_iff` — where an append has its stored event, that is exactly when the retry
        is answered, writes no event and leaves the token consumed.
     3. `retry_iff` — so for every retry after the commit of a call, in every run.

   Assumed: as in `Kernel.Consistency`, and SHA-256 is injective on texts. -/
namespace Edon.Kernel
open Json World Transition Fallible

/-! ## The retry -/

section
variable {py : Python} {authority : Authority}

/-- A text that the kernel accepts the store accepts too, with the same normal form. -/
theorem worldIdentifier_of_token {value label normalized : String}
    (h : tokenIdentifier value label = .ok normalized) (label' : String) :
    worldIdentifier value label' = .ok normalized := by
  obtain ⟨rfl, hne, hlen⟩ := bounded_ok h
  exact if_neg (not_or.mpr ⟨hne, not_lt.mpr hlen⟩)

/-- An event a look finds is in the store, with the id as the call writes it. -/
theorem existing_some {db : WorldDb} {c : Call} {row : EventRow} (h : c.existing db = some row) :
    row ∈ db.worldEvents.rows ∧ row.eventId = c.eventId := by
  have hfound : ∀ t w e, existingEvent db t w e = some row →
      row ∈ db.worldEvents.rows ∧ row.eventId = e := by
    intro t w e he
    unfold existingEvent at he
    split at he
    · next rows hrows =>
      obtain ⟨t', _, hrows⟩ := bind_ok.mp hrows
      obtain ⟨w', _, hrows⟩ := bind_ok.mp hrows
      cases hrows
      have hid : row.eventId = e := by simpa using List.find?_some he
      exact ⟨(List.mem_filter.mp (List.mem_of_find?_eq_some he)).1, hid⟩
    · cases he
  cases c with
  | createWorld => exact hfound _ _ _ h
  | appendEvent => exact hfound _ _ _ h

/-- A padded event id is found nowhere. -/
theorem existing_padded {db : WorldDb} (hpaired : Paired db) {c : Call}
    (hpadded : strip c.eventId ≠ c.eventId) : c.existing db = none := by
  cases hexisting : c.existing db with
  | none => rfl
  | some row =>
    obtain ⟨hrow, hid⟩ := existing_some hexisting
    exact absurd (hid ▸ hpaired.clean row hrow) hpadded

/-- The event a look finds is the stored one when the id is in normal form, and none when it
is not. -/
theorem existing_eq {db : WorldDb} (hpaired : Paired db) {c : Call} {claims : Claims}
    {event : EventRow} (hauth : Authorizes py claims (c.verifyRequest none))
    (hevent : db.worldEvents.get (claims.tenantId, claims.worldId, claims.eventId) = some event) :
    c.existing db = if strip c.eventId = c.eventId then some event else none := by
  have hexisting : c.existing db = (eventRows db claims.tenantId claims.worldId).find?
      (fun row => row.eventId = c.eventId) := by
    have hevents : events db (c.verifyRequest none).tenantId (c.verifyRequest none).worldId =
        .ok (eventRows db claims.tenantId claims.worldId) := by
      refine bind_ok.mpr ⟨claims.tenantId, ?_, bind_ok.mpr ⟨claims.worldId, ?_, rfl⟩⟩
      · exact worldIdentifier_of_token hauth.tenant _
      · exact worldIdentifier_of_token hauth.world _
    cases c with
    | createWorld t w state actor version token lineage timestamp =>
      simp only [Call.existing, existingEvent]
      rw [show events db t w = _ from hevents]
      rfl
    | appendEvent t w e ty ms actor version expected token lineage timestamp =>
      simp only [Call.existing, existingEvent]
      rw [show events db t w = _ from hevents]
      rfl
  have hid : claims.eventId = strip c.eventId := by
    cases c with
    | createWorld => exact identifier_ok hauth.event
    | appendEvent => exact identifier_ok hauth.event
  split
  · next hclean =>
    rw [hexisting]
    rw [hid, hclean] at hevent
    have hkey := Table.get_key hevent
    have hmem : event ∈ eventRows db claims.tenantId claims.worldId := by
      refine List.mem_filter.mpr ⟨Table.mem_of_get hevent, ?_⟩
      exact decide_eq_true ⟨congrArg Prod.fst hkey, congrArg (fun k => k.2.1) hkey⟩
    have howns : event.eventId = c.eventId := congrArg (fun k => k.2.2) hkey
    cases hfind : (eventRows db claims.tenantId claims.worldId).find?
        (fun row => row.eventId = c.eventId) with
    | none => exact absurd (decide_eq_true howns) (List.find?_eq_none.mp hfind event hmem)
    | some row =>
      -- the rows of a world with one id are one row
      obtain ⟨hrow, hids⟩ := List.mem_filter.mp (List.mem_of_find?_eq_some hfind)
      have hrowId : row.eventId = c.eventId := by simpa using List.find?_some hfind
      obtain ⟨ht, hw⟩ := of_decide_eq_true hids
      have hget := Table.get_of_mem hrow
      rw [show row.key = (claims.tenantId, claims.worldId, c.eventId) from
        Prod.ext ht (Prod.ext hw hrowId), hevent] at hget
      exact hget.symm
  · next hpadded => exact existing_padded hpaired hpadded

theorem checkConsumed_iff {r : VerifyRequest} {tokenId : String} {db : TokenDb} :
    checkConsumed r tokenId db = .ok () ↔
      ∀ row, db.consumedKernelTokens.get tokenId = some row → r.allowConsumed = true ∧
        row.eventIdentity = eventIdentity r.tenantId r.worldId r.eventId ∧
        r.expectedEventHash = some row.eventHash := by
  unfold checkConsumed
  cases db.consumedKernelTokens.get tokenId with
  | none =>
    refine iff_of_true rfl ?_
    intro row hrow
    cases hrow
  | some consumed =>
    dsimp only
    rw [require_ok, decide_eq_true_eq]
    constructor
    · intro h row hrow
      cases hrow
      exact h
    · intro h
      exact h consumed rfl

end

section
variable (py : Python) (authority : Authority)

/-- The retry is answered with the snapshot, writes no event, and leaves the token consumed for
the event of the call. -/
structure Retried (s : System) (claims : Claims) (c : Call) (snapshot : Snapshot)
    (result : Except PyError Snapshot × System) : Prop where
  returned : result.1 = .ok snapshot
  unwritten : result.2.db = s.db
  consumed : ∃ row, result.2.tokens.consumedKernelTokens.get claims.tokenId = some row ∧
    row.eventIdentity = c.eventIdentity ∧ snapshot.eventHash = some row.eventHash

/-- The window of the token is open, and the token is free or was consumed under the ids as
this call writes them, with no whitespace around the event id. -/
def Recognisable (s : System) (claims : Claims) (c : Call) (t : Int) : Prop :=
  claims.issuedAt - 60 ≤ t ∧
    ∀ row, s.tokens.consumedKernelTokens.get claims.tokenId = some row →
      row.eventIdentity = c.eventIdentity ∧ strip c.eventId = c.eventId

end

section
variable {py : Python} {authority : Authority}

/-- What was found for a call changes the replay check of its verification only. -/
theorem Verified.found {s : System} {c : Call} {claims : Claims}
    (h : Verified py authority s c claims) (existing : Option EventRow) :
    Authorizes py claims (c.verifyRequest existing) ∧
      ∀ v, (c.verifyRequest existing).authorityVersion = some v → v = claims.authorityVersion := by
  cases c with
  | createWorld => exact ⟨{ h.authorizes with }, h.version⟩
  | appendEvent => exact ⟨{ h.authorizes with }, h.version⟩

theorem replay_check (c : Call) (existing : Option EventRow) :
    (c.verifyRequest existing).allowConsumed = existing.isSome ∧
      (c.verifyRequest existing).expectedEventHash = existing.map EventRow.eventHash ∧
      eventIdentity (c.verifyRequest existing).tenantId (c.verifyRequest existing).worldId
        (c.verifyRequest existing).eventId = c.eventIdentity := by
  cases c with
  | createWorld => exact ⟨rfl, rfl, rfl⟩
  | appendEvent => exact ⟨rfl, rfl, rfl⟩

/-- The row of a consumed token has the hash of the event of the token's claims. -/
theorem Consistent.consumed_hash {s : System} (hs : Consistent py authority s) {claims : Claims}
    (hissued : claims ∈ s.issued) {hash : String} (hevent : EventAt s.db claims hash)
    {row : ConsumedRow} (hrow : s.tokens.consumedKernelTokens.get claims.tokenId = some row) :
    row.eventHash = hash := by
  obtain ⟨claims', hclaims', hid, -, other, hother, hhash⟩ :=
    hs.consumed row (Table.mem_of_get hrow)
  have hkey : row.tokenId = claims.tokenId := Table.get_key hrow
  have hsame := hs.distinct claims' hclaims' claims hissued (hid.symm.trans hkey)
  obtain ⟨event, hstored, heventHash⟩ := hevent
  rw [hsame, hstored] at hother
  cases hother
  exact hhash.symm.trans heventHash

/-- A retry before its token expires is verified exactly when it is recognisable. -/
theorem verified_iff {s : System} (hs : Consistent py authority s) {c : Call} {claims : Claims}
    (h : Verified py authority s c claims) {hash : String} (hevent : EventAt s.db claims hash)
    {t : Int} (huntil : t ≤ claims.expiresAt) :
    (∃ payload, verifyWorldEvent py authority c.executionToken (c.verifyRequest (c.existing s.db)) t
      s.tokens = .ok payload) ↔ Recognisable s claims c t := by
  obtain ⟨event, hstored, hhash⟩ := id hevent
  have hexisting := existing_eq hs.paired h.authorizes hstored
  have hdrawn := (hs.drawn claims h.issued).1
  obtain ⟨hauth, hversion⟩ := h.found (c.existing s.db)
  obtain ⟨hallowed, hexpected, hidentity⟩ := replay_check c (c.existing s.db)
  have hconsumed : checkConsumed (c.verifyRequest (c.existing s.db)) claims.tokenId s.tokens =
      .ok () ↔ ∀ row, s.tokens.consumedKernelTokens.get claims.tokenId = some row →
        row.eventIdentity = c.eventIdentity ∧ strip c.eventId = c.eventId := by
    rw [checkConsumed_iff]
    refine forall_congr' fun row => forall_congr' fun hrow => ?_
    rw [hallowed, hexpected, hidentity, hexisting]
    have hsame : event.eventHash = row.eventHash :=
      hhash.trans (hs.consumed_hash h.issued hevent hrow).symm
    split
    · next hclean =>
      constructor
      · intro hall
        exact ⟨hall.2.1, hclean⟩
      · intro hall
        exact ⟨rfl, hall.1, congrArg some hsame⟩
    · next hpadded =>
      constructor
      · intro hall
        cases hall.1
      · intro hall
        exact absurd hall.2 hpadded
  rw [← h.token, verify_iff]
  constructor
  · rintro ⟨-, -, hwindow, tokenId, hid, hcheck⟩
    cases (hdrawn.identifier "token_id").symm.trans hid
    exact ⟨hwindow.1, hconsumed.mp hcheck⟩
  · rintro ⟨hfrom, hcheck⟩
    exact ⟨hauth, hversion, ⟨hfrom, huntil⟩, claims.tokenId, hdrawn.identifier _,
      hconsumed.mpr hcheck⟩

/-- The retry of a call whose commit the store answers as before. -/
theorem retried_iff (hsha : Function.Injective py.sha256) {s : System}
    (hs : Consistent py authority s) {c : Call} {claims : Claims}
    (h : Verified py authority s c claims) {snapshot : Snapshot} {hash : String}
    (hsnapshot : snapshot.eventHash = some hash) (hevent : EventAt s.db claims hash) {now : String}
    (hanswers : c.commit py now s.db = (.ok snapshot, s.db)) {t : Int}
    (huntil : t ≤ claims.expiresAt) (consumedAt : String) :
    Retried s claims c snapshot (authorizedCall py authority c t now consumedAt s) ↔
      Recognisable s claims c t := by
  rw [← verified_iff hs h hevent huntil]
  have hdrawn := (hs.drawn claims h.issued).1
  constructor
  · intro hretried
    have hreturned := hretried.returned
    unfold authorizedCall at hreturned
    split at hreturned
    · cases hreturned
    · next payload hverify => exact ⟨payload, hverify⟩
  · rintro ⟨payload, hverify⟩
    obtain ⟨-, hrecognised⟩ := (verified_iff hs h hevent huntil).mp ⟨payload, hverify⟩
    -- the consumption finds its own row, or the token free
    have hconsume : ∃ tokens, Kernel.consume py authority c.executionToken c.eventIdentity hash
        consumedAt s.tokens = .ok tokens ∧
        ∃ row, tokens.consumedKernelTokens.get claims.tokenId = some row ∧
          row.eventIdentity = c.eventIdentity ∧ row.eventHash = hash := by
      rw [← h.token]
      cases hrow : s.tokens.consumedKernelTokens.get claims.tokenId with
      | none =>
        refine consume_free hdrawn hrow ?_ _ _ _
        intro r hr hdigest
        obtain ⟨claims', hclaims', hid, hsha', -⟩ := hs.consumed r hr
        rw [hsha', String.append_right_inj] at hdigest
        have hsame := tokenId_of_token (hsha hdigest)
        have hget := Table.get_of_mem hr
        rw [show r.tokenId = claims.tokenId from hid.trans hsame, hrow] at hget
        cases hget
      | some row =>
        have hidentity := (hrecognised row hrow).1
        have hhash := hs.consumed_hash h.issued hevent hrow
        exact ⟨s.tokens, consume_again hdrawn hrow hidentity hhash consumedAt, row, hrow, hidentity,
          hhash⟩
    obtain ⟨tokens, hconsume, row, hrow, hidentity, hhash⟩ := hconsume
    have hresult : authorizedCall py authority c t now consumedAt s =
        (.ok snapshot, { s with tokens }) := by
      unfold authorizedCall
      rw [hverify]
      dsimp only
      rw [hanswers]
      dsimp only
      rw [hsnapshot, Option.getD_some, hconsume]
    rw [hresult]
    exact ⟨rfl, rfl, row, hrow, hidentity, hsnapshot.trans (congrArg some hhash.symm)⟩

/-- A retry with a padded event id is refused once the token is consumed. -/
theorem padded_refused_again {s : System} (hpaired : Paired s.db) {claims : Claims}
    {c : Call} (hid : UrlSafe claims.tokenId) (htoken : claims.token py authority = c.executionToken)
    (hpadded : strip c.eventId ≠ c.eventId) {row : ConsumedRow}
    (hrow : s.tokens.consumedKernelTokens.get claims.tokenId = some row) (snapshot : Snapshot) (t : Int)
    (now consumedAt : String) :
    ¬ Retried s claims c snapshot (authorizedCall py authority c t now consumedAt s) := by
  intro hretried
  have hreturned := hretried.returned
  unfold authorizedCall at hreturned
  split at hreturned
  · cases hreturned
  · next payload hverify =>
    rw [← htoken] at hverify
    obtain ⟨-, -, -, tokenId, hown, hcheck⟩ := verify_iff.mp ⟨payload, hverify⟩
    cases (hid.identifier "token_id").symm.trans hown
    obtain ⟨hallowed, -, -⟩ := checkConsumed_iff.mp hcheck row hrow
    rw [(replay_check c _).1, existing_padded hpaired hpadded] at hallowed
    cases hallowed

/-- The store answers an append that was committed as it did then, in every later state. -/
theorem commit_again {c : Call} (hc : c.appends = true) {first : String} {db db' : WorldDb}
    {snapshot : Snapshot} (hcommit : (c.commit py first db).1 = .ok snapshot)
    (hgrows : Grows (c.commit py first db).2 db') (now : String) :
    c.commit py now db' = (.ok snapshot, db') := by
  cases c with
  | createWorld => cases hc
  | appendEvent t w e ty ms actor version expected token lineage timestamp =>
    obtain ⟨request, row, hrequest, hstored, rfl⟩ := append_answer hcommit
    exact append_again hrequest (hstored.mono hgrows) now timestamp

/-- Claims with one token are one. -/
theorem Consistent.claims_eq {s : System} (hs : Consistent py authority s) {c c' : Claims}
    (hc : c ∈ s.issued) (hc' : c' ∈ s.issued)
    (htoken : c.token py authority = c'.token py authority) : c = c' :=
  hs.distinct c hc c' hc' (tokenId_of_token htoken)

end

/-- **Retry of a committed append.** In every run, with other threads, crashes and other
uses of the store anywhere, the retry of an append that was committed returns the first
answer, writes no event and leaves the token consumed for the event, while the token is not
expired, exactly when it is recognisable. -/
theorem retry_iff (py : Python) (authority : Authority) (hsha : Function.Injective py.sha256)
    (before later : List Action) (s₁ s₂ : System) (thread : Nat) (c : Call) (hc : c.appends = true)
    (first : String) (snapshot : Snapshot)
    (hbefore : Run (Act py authority) System.empty before s₁)
    (hstage : s₁.stage thread = .verified c)
    (hcommit : (c.commit py first s₁.db).1 = .ok snapshot)
    (hlater : Run (Act py authority)
      (act py authority s₁ (.kernel (.commit thread first))) later s₂)
    (claims : Claims) (hissued : claims ∈ s₂.issued)
    (htoken : claims.token py authority = c.executionToken) (t : Int)
    (huntil : t ≤ claims.expiresAt) (now consumedAt : String) :
    Retried s₂ claims c snapshot (authorizedCall py authority c t now consumedAt s₂) ↔
      Recognisable s₂ claims c t := by
  obtain ⟨hs₁, -⟩ := run_consistent consistent_empty hbefore
  have hstep : Act py authority s₁ (.kernel (.commit thread first))
    (act py authority s₁ (.kernel (.commit thread first))) := ⟨trivial, rfl⟩
  have hs := act_consistent hs₁ hstep
  obtain ⟨hs₂, hmore⟩ := run_consistent hs hlater
  -- the claims the thread verified are the ones of the retry
  obtain ⟨claims', hverified⟩ : ∃ claims, Verified py authority s₁ c claims := by
    have hheld := hs₁.stages thread
    rwa [hstage] at hheld
  have hlaterVerified := hverified.mono ((act_extends hs₁ hstep).trans hmore)
  cases hs₂.claims_eq hlaterVerified.issued hissued (hlaterVerified.token.trans htoken.symm)
  have hself : s₁.goto thread (.verified c) = s₁ := hstage ▸ s₁.goto_self thread
  have hresult : c.commit py first s₁.db = (.ok snapshot, (c.commit py first s₁.db).2) :=
    Prod.ext hcommit rfl
  have hafter := @step_commit_ok py authority s₁ thread c first snapshot _ hresult
  rw [hself] at hafter
  have hdb : (act py authority s₁ (.kernel (.commit thread first))).db =
      (c.commit py first s₁.db).2 := congrArg System.db hafter
  obtain ⟨hash, hhash, hevent⟩ := hverified.commit hresult (hdb ▸ hs.paired)
  have hgrows : Grows (c.commit py first s₁.db).2 s₂.db := hdb ▸ hmore.store
  exact retried_iff hsha hs₂ hlaterVerified hhash (hevent.mono hgrows)
    (commit_again hc hcommit hgrows now) huntil consumedAt

theorem act_commit (py : Python) (authority : Authority) (s : System) (thread : Nat) {c : Call}
    {first : String} {snapshot : Snapshot} {db : WorldDb}
    (h : c.commit py first s.db = (.ok snapshot, db)) :
    act py authority (s.goto thread (.verified c)) (.kernel (.commit thread first)) =
      { s with db }.goto thread (.committed c snapshot) :=
  @step_commit_ok py authority s thread c first snapshot db h

/-- A verified call that commits consumes its free token. -/
theorem commit_consume {py : Python} {authority : Authority} {s : System} {thread : Nat} {c : Call}
    {claims : Claims} (hid : UrlSafe claims.tokenId)
    (htoken : claims.token py authority = c.executionToken)
    (hfree : s.tokens.consumedKernelTokens = ∅) {first : String} {snapshot : Snapshot} {db : WorldDb}
    (hcommit : c.commit py first s.db = (.ok snapshot, db)) (consumedAt : String) :
    ∃ tokens row, tokens.consumedKernelTokens.get claims.tokenId = some row ∧
      Run (Act py authority)
        (act py authority (s.goto thread (.verified c)) (.kernel (.commit thread first)))
        [.kernel (.consume thread consumedAt)] ({ s with db, tokens }.goto thread .idle) := by
  have hnone : s.tokens.consumedKernelTokens.get claims.tokenId = none := by
    rw [hfree]
    rfl
  have hdigest : ∀ r ∈ s.tokens.consumedKernelTokens.rows,
      r.tokenSha256 ≠ "sha256:" ++ py.sha256 (claims.token py authority) := by
    rw [hfree]
    intro r hr
    cases hr
  obtain ⟨tokens, hconsume, row, hrow, -, -⟩ :=
    consume_free hid hnone hdigest c.eventIdentity (snapshot.eventHash.getD "None") consumedAt
  rw [htoken] at hconsume
  have hconsumed := @step_consume_ok py authority { s with db } thread c consumedAt snapshot tokens
    hconsume
  refine ⟨tokens, row, hrow, ?_⟩
  rw [act_commit py authority s thread hcommit]
  exact Run.single ⟨trivial, hconsumed.symm⟩

/-! ## A padded event id -/

/-- An authority that signs with one byte. -/
def briefAuthority : Authority where
  keyId := "kernel-local-v1"
  hmac := fun _ => [0]

def setLevelRoot : Mutation := .replaceRoot (.obj [("level", .int 1)])

/-- The authority issues a token for an event of the ward. -/
def levelIssue : IssueRequest where
  tenantId := "clinic"
  worldId := "ward"
  actorId := "kernel"
  authorityVersion := "v1"
  expectedWorldVersion := 0
  eventId := "event-1"
  eventType := "LEVEL_SET"
  mutations := [setLevelRoot.toJson]
  ttlSeconds := 300
  issuerId := "kernel-authority"

def levelClaims : Claims where
  tokenId := drawnId
  nonce := "nonce-1"
  tenantId := "clinic"
  worldId := "ward"
  actorId := "kernel"
  issuerId := "kernel-authority"
  authorityVersion := "v1"
  expectedWorldVersion := 0
  eventId := "event-1"
  eventType := "LEVEL_SET"
  mutations := [setLevelRoot]
  issuedAt := 0
  expiresAt := 300

def levelToken : String := levelClaims.token textPython briefAuthority

/-- The event is appended with a space after its id. -/
def paddedAppend : Call :=
  .appendEvent "clinic" "ward" "event-1 " "LEVEL_SET" [setLevelRoot.toJson] "kernel" "v1" 0 levelToken
    [] none

def createWard : World.Call :=
  .createWorld "2026-01-01T00:00:00Z" "clinic" "ward" (.obj []) "kernel" "token-1" [] none

/-- The ward is created, the token is issued, and the append is verified. -/
def levelRun : List Action :=
  [.store (.world createWard), .kernel (.issue levelIssue drawnId "nonce-1" 0),
    .kernel (.start 0 paddedAppend), .kernel (.look 0), .kernel (.verify 0 10)]

/-- The system with the ward and the issued token. -/
def levelSystem (tokens : TokenDb) : System := ⟨createdWard, tokens, [levelClaims], fun _ => .idle⟩

theorem level_issued : ∃ tokens, tokens.consumedKernelTokens = ∅ ∧
    issueWorldEvent textPython briefAuthority levelIssue drawnId "nonce-1" 0 ∅ =
      .ok (levelClaims, tokens) := by
  have hissue : (issueWorldEvent textPython briefAuthority levelIssue drawnId "nonce-1" 0
      ∅).toOption.map Prod.fst = some levelClaims := by decide +kernel
  obtain ⟨result, hresult, hfst⟩ := Option.map_eq_some_iff.mp hissue
  have hissued : issueWorldEvent textPython briefAuthority levelIssue drawnId "nonce-1" 0 ∅ =
      .ok (levelClaims, result.2) := toOption_ok.mp (hresult.trans (congrArg some (Prod.ext hfst rfl)))
  obtain ⟨-, _, t, -, -, htokens⟩ := issue_ok hissued
  exact ⟨result.2, congrArg TokenDb.consumedKernelTokens htokens, hissued⟩

theorem level_normal : normalizeMutations textPython [setLevelRoot.toJson] = .ok [setLevelRoot] := by
  decide +kernel

/-- A call with this token is verified while the token is free. -/
theorem padded_verified {tokens : TokenDb} (hfree : tokens.consumedKernelTokens = ∅)
    (existing : Option EventRow) : ∃ payload, verifyWorldEvent textPython briefAuthority levelToken
      (paddedAppend.verifyRequest existing) 10 tokens = .ok payload := by
  have hauth : Authorizes textPython levelClaims (paddedAppend.verifyRequest existing) :=
    { tenant := (by decide +kernel : tokenIdentifier "clinic" "tenant_id" = .ok "clinic")
      world := (by decide +kernel : tokenIdentifier "ward" "world_id" = .ok "ward")
      actor := (by decide +kernel : tokenIdentifier "kernel" "actor_id" = .ok "kernel")
      event := (by decide +kernel : tokenIdentifier "event-1 " "event_id" = .ok "event-1")
      type := (by decide +kernel : tokenIdentifier "LEVEL_SET" "event_type" = .ok "LEVEL_SET")
      version := rfl
      mutations := ⟨[setLevelRoot], level_normal, rfl⟩ }
  have hversion : ∀ v, (paddedAppend.verifyRequest existing).authorityVersion = some v →
      v = levelClaims.authorityVersion := by
    intro v hv
    exact (Option.some.inj hv).symm
  have hunused : checkConsumed (paddedAppend.verifyRequest existing) drawnId tokens = .ok () := by
    rw [checkConsumed_iff, hfree]
    intro row hrow
    cases hrow
  exact verify_iff.mpr ⟨hauth, hversion, by decide, drawnId, drawnId_urlSafe.identifier _, hunused⟩

theorem level_run : ∃ tokens, tokens.consumedKernelTokens = ∅ ∧
    Run (Act textPython briefAuthority) System.empty levelRun
      ((levelSystem tokens).goto 0 (.verified paddedAppend)) := by
  obtain ⟨tokens, hfree, hissued⟩ := level_issued
  refine ⟨tokens, hfree, ?_⟩
  have hcreate : act textPython briefAuthority System.empty (.store (.world createWard)) =
      ⟨createdWard, ∅, [], fun _ => .idle⟩ := by
    rw [createdWard, World.afterCalls, exec_cons, exec_nil]
    rfl
  have hissue : act textPython briefAuthority ⟨createdWard, ∅, [], fun _ => .idle⟩
      (.kernel (.issue levelIssue drawnId "nonce-1" 0)) = levelSystem tokens := by
    simp only [act, step, hissued]
    rfl
  have hlooked := @exec_looked textPython briefAuthority (levelSystem tokens) 0 rfl paddedAppend
  obtain ⟨payload, hverify⟩ := padded_verified hfree (paddedAppend.existing createdWard)
  have hverified := @step_verify_ok textPython briefAuthority (levelSystem tokens) 0 paddedAppend 10
    payload hverify
  refine .cons ⟨trivial, hcreate.symm⟩ (.cons ⟨drawnId_urlSafe, hissue.symm⟩ ?_)
  refine .cons (t := (levelSystem tokens).goto 0 (.started paddedAppend)) ⟨?_, rfl⟩ ?_
  · intro _
    exact ⟨levelClaims, List.mem_singleton_self _, rfl⟩
  refine .cons (t := (levelSystem tokens).goto 0
    (.looked paddedAppend (paddedAppend.existing createdWard))) ⟨trivial, hlooked.symm⟩ ?_
  exact .cons ⟨trivial, hverified.symm⟩ (.nil _)

theorem briefAuthority_sign (segment : String) : (sign briefAuthority segment).length = 2 := by
  rw [sign, b64encode, String.length_ofList]
  rfl

theorem level_reference : worldAuthorizationRef levelToken = .ok levelToken := by
  have hpayload : (render (canon (levelClaims.payload textPython briefAuthority))).length ≤ 1000 := by
    decide +kernel
  have hlength := tokenText_length briefAuthority (levelClaims.payload textPython briefAuthority)
  rw [briefAuthority_sign] at hlength
  rw [levelToken]
  refine worldAuthorizationRef_token ?_
  rw [Claims.token]
  generalize (tokenText briefAuthority (levelClaims.payload textPython briefAuthority)).length = n
    at hlength ⊢
  generalize (render (canon (levelClaims.payload textPython briefAuthority))).length = m
    at hlength hpayload
  omega

/-- The append commits. -/
theorem padded_commits (now : String) : ∃ snapshot db,
    paddedAppend.commit textPython now createdWard = (.ok snapshot, db) := by
  obtain ⟨ward, hward⟩ : ∃ ward, createdWard.worlds.get ("clinic", "ward") = some ward :=
    Option.isSome_iff_exists.mp (by decide +kernel)
  have hstart : (createdWard.worlds.get ("clinic", "ward")).map
      (fun r => (r.currentVersion, r.state)) = some (0, .obj []) := by decide +kernel
  rw [hward, Option.map_some, Option.some.injEq, Prod.mk.injEq] at hstart
  have hrequest : appendRequest textPython "clinic" "ward" "event-1 " "LEVEL_SET"
      [setLevelRoot.toJson] "kernel" 0 levelToken [] = .ok ⟨"clinic", "ward", "event-1", "LEVEL_SET",
        "kernel", 0, [setLevelRoot.toJson], levelToken, []⟩ := by
    refine bind_ok.mpr ⟨"clinic", by decide +kernel, bind_ok.mpr ⟨"ward", by decide +kernel, ?_⟩⟩
    refine bind_ok.mpr ⟨"event-1", by decide +kernel, ?_⟩
    refine bind_ok.mpr ⟨"LEVEL_SET", by decide +kernel, ?_⟩
    refine bind_ok.mpr ⟨"kernel", by decide +kernel, bind_ok.mpr ⟨_, level_reference, ?_⟩⟩
    exact bind_ok.mpr ⟨_, level_normal, rfl⟩
  have happly : applyMutations textPython ward.state [setLevelRoot.toJson] =
      .ok (.obj [("level", .int 1)]) := by
    rw [hstart.2]
    decide +kernel
  have hfresh : createdWard.worldEvents.get ("clinic", "ward", "event-1") = none := by
    decide +kernel
  obtain ⟨snapshot, db, hcommit⟩ := World.append_succeeds Function.injective_id (afterCalls_sound _)
    now none hrequest hfresh hward hstart.1 happly
  rw [paddedAppend]
  exact ⟨snapshot, db, hcommit⟩
theorem paddedAppend_token :
    levelClaims.token textPython briefAuthority = paddedAppend.executionToken := by
  rw [paddedAppend, Call.executionToken, levelToken]

theorem paddedAppend_padded : strip paddedAppend.eventId ≠ paddedAppend.eventId := by
  decide +kernel

/-- The append is verified and committed, and its thread crashes: the token is free. -/
theorem retry_iff_padded : ∃ s₂ snapshot,
    (Retried s₂ levelClaims paddedAppend snapshot (authorizedCall textPython briefAuthority
        paddedAppend 20 "2026-01-01T00:02:00Z" "2026-01-01T00:02:00Z" s₂) ↔
      Recognisable s₂ levelClaims paddedAppend 20) := by
  obtain ⟨tokens, hfree, hrun⟩ := level_run
  obtain ⟨snapshot, db, hcommit⟩ := padded_commits "2026-01-01T00:01:00Z"
  have hlater := @Run.single _ _ (Act textPython briefAuthority)
    (act textPython briefAuthority ((levelSystem tokens).goto 0 (.verified paddedAppend))
      (.kernel (.commit 0 "2026-01-01T00:01:00Z"))) _ (.kernel (.crash 0)) ⟨trivial, rfl⟩
  have hissued : levelClaims ∈ (act textPython briefAuthority (act textPython briefAuthority
      ((levelSystem tokens).goto 0 (.verified paddedAppend))
      (.kernel (.commit 0 "2026-01-01T00:01:00Z"))) (.kernel (.crash 0))).issued := by
    rw [act_commit textPython briefAuthority (levelSystem tokens) 0 hcommit]
    exact List.mem_singleton_self _
  exact ⟨_, snapshot, retry_iff textPython briefAuthority Function.injective_id levelRun
    [.kernel (.crash 0)] _ _ 0 paddedAppend rfl "2026-01-01T00:01:00Z" snapshot hrun
    (System.goto_stage ..) (congrArg Prod.fst hcommit) hlater levelClaims hissued paddedAppend_token 20
    (by decide) "2026-01-01T00:02:00Z" "2026-01-01T00:02:00Z"⟩

/-- The append is committed and its token consumed; the same call, before the token expires, is
refused. -/
theorem padded_retry_refused : ∃ s₁ s₂ snapshot,
    Run (Act textPython briefAuthority) System.empty levelRun s₁ ∧
    s₁.stage 0 = .verified paddedAppend ∧
    (paddedAppend.commit textPython "2026-01-01T00:01:00Z" s₁.db).1 = .ok snapshot ∧
    Run (Act textPython briefAuthority)
      (act textPython briefAuthority s₁ (.kernel (.commit 0 "2026-01-01T00:01:00Z")))
      [.kernel (.consume 0 "2026-01-01T00:01:00Z")] s₂ ∧
    levelClaims ∈ s₂.issued ∧
    levelClaims.token textPython briefAuthority = paddedAppend.executionToken ∧
    20 ≤ levelClaims.expiresAt ∧
    ¬ Retried s₂ levelClaims paddedAppend snapshot (authorizedCall textPython briefAuthority
      paddedAppend 20 "2026-01-01T00:02:00Z" "2026-01-01T00:02:00Z" s₂) := by
  obtain ⟨tokens, hfree, hrun⟩ := level_run
  obtain ⟨snapshot, db, hcommit⟩ := padded_commits "2026-01-01T00:01:00Z"
  obtain ⟨consumed, row, hrow, hlater⟩ := @commit_consume textPython briefAuthority
    (levelSystem tokens) 0 paddedAppend levelClaims drawnId_urlSafe paddedAppend_token hfree _ snapshot
    db hcommit "2026-01-01T00:01:00Z"
  obtain ⟨hverified, -⟩ := run_consistent consistent_empty hrun
  have hstep : Act textPython briefAuthority
      ((levelSystem tokens).goto 0 (.verified paddedAppend))
      (.kernel (.commit 0 "2026-01-01T00:01:00Z")) (act textPython briefAuthority
        ((levelSystem tokens).goto 0 (.verified paddedAppend))
        (.kernel (.commit 0 "2026-01-01T00:01:00Z"))) := ⟨trivial, rfl⟩
  have hcommitted := act_consistent hverified hstep
  obtain ⟨hconsumed, -⟩ := run_consistent hcommitted hlater
  exact ⟨_, _, snapshot, hrun, System.goto_stage .., congrArg Prod.fst hcommit, hlater,
    List.mem_singleton_self _, paddedAppend_token, by decide,
    padded_refused_again hconsumed.paired drawnId_urlSafe paddedAppend_token paddedAppend_padded hrow
      snapshot 20 _ _⟩

end Edon.Kernel
