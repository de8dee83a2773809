import EdonPlatform.Lib.Base64
import EdonPlatform.World.Store

/- Execution tokens of the kernel (edon/kernel/tokens.py, `KernelTokenAuthority`). A token
   is the base64 of the canonical JSON of its claims, a dot, and the base64 of an HMAC of
   the first part.

   Correspondence (Python ↔ Lean):
     `_b64encode`, `_b64decode`     ↔ `b64encode`, `b64decode`
     `_identifier`                  ↔ `tokenIdentifier`
     `_sign`                        ↔ `sign`
     `issue_world_event`            ↔ `issueWorldEvent` (`claims` builds its payload)
     `decode_and_verify_signature`  ↔ `decodeAndVerifySignature`
     `verify_world_event`           ↔ `verifyWorldEvent`
     `consume`                      ↔ `consume`

   Times are epoch seconds, as `_epoch` gives them. The random token id and nonce are
   arguments of `issueWorldEvent`. -/
namespace Edon.Kernel
open Json World

def tokenError (message : String) : PyError := ⟨.kernelTokenError, message⟩

/-- The state of an authority that never changes: its key id and HMAC-SHA256 under its
secret. -/
structure Authority where
  keyId : String
  hmac : List UInt8 → List UInt8

structure ConsumedRow where
  tokenId : String
  tokenSha256 : String
  eventIdentity : String
  eventHash : String
  consumedAt : String
  deriving DecidableEq

structure IssuedRow where
  tokenId : String
  claimsSha256 : String
  issuerId : String
  issuedAt : Int
  expiresAt : Int
  createdAt : String
  deriving DecidableEq

structure TokenDb where
  consumedKernelTokens : Table ConsumedRow.tokenId
  issuedKernelTokens : Table IssuedRow.tokenId
  deriving DecidableEq

instance : EmptyCollection TokenDb := ⟨⟨∅, ∅⟩⟩

/-! ## Text -/

def utf8 (s : String) : List UInt8 := s.toUTF8.data.toList

/-- `bytes.decode("utf-8")`. -/
def decodeUtf8 (bs : List UInt8) : Option String := String.fromUTF8? ⟨bs.toArray⟩

def b64encode (bs : List UInt8) : String := String.ofList (Base64.encode bs)

def b64decode (s : String) : Except PyError (List UInt8) :=
  match Base64.decode s.toList with
  | some bs => .ok bs
  | none => .error (tokenError "execution token contains invalid base64")

def isAscii (s : String) : Bool := s.toList.all (fun c => c.toNat < 128)

def tokenIdentifier (value label : String) : Except PyError String :=
  identifier .kernelTokenError value label

section
variable (py : Python) (authority : Authority)

def sign (segment : String) : String := b64encode (authority.hmac (utf8 segment))

def payloadSegment (payload : Json) : String := b64encode (utf8 (canonicalJson payload))

def tokenText (payload : Json) : String :=
  payloadSegment payload ++ "." ++ sign authority (payloadSegment payload)

/-! ## Issuing -/

/-- What the caller of `issue_world_event` passes. -/
structure IssueRequest where
  tenantId : String
  worldId : String
  actorId : String
  authorityVersion : String
  expectedWorldVersion : Int
  eventId : String
  eventType : String
  mutations : List Json
  ttlSeconds : Int
  issuerId : String

/-- The claims of a token, after the checks. -/
structure Claims where
  tokenId : String
  nonce : String
  tenantId : String
  worldId : String
  actorId : String
  issuerId : String
  authorityVersion : String
  expectedWorldVersion : Int
  eventId : String
  eventType : String
  mutations : List Mutation
  issuedAt : Int
  expiresAt : Int
  deriving DecidableEq

def Claims.fields (c : Claims) : Fields :=
  [("schema_version", .str "edon-kernel-execution-token.v1"),
   ("purpose", .str "WORLD_EVENT_COMMIT"),
   ("key_id", .str authority.keyId),
   ("token_id", .str c.tokenId),
   ("nonce", .str c.nonce),
   ("tenant_id", .str c.tenantId),
   ("world_id", .str c.worldId),
   ("actor_id", .str c.actorId),
   ("issuer_id", .str c.issuerId),
   ("authority_version", .str c.authorityVersion),
   ("expected_world_version", .int c.expectedWorldVersion),
   ("event_id", .str c.eventId),
   ("event_type", .str c.eventType),
   ("mutations_sha256", .str (sha256Json py.sha256 (mutationsJson c.mutations))),
   ("issued_at", .int c.issuedAt),
   ("expires_at", .int c.expiresAt),
   ("binding_authority", .bool true)]

def Claims.payload (c : Claims) : Json := .obj (c.fields py authority)

def Claims.token (c : Claims) : String := tokenText authority (c.payload py authority)

def claims (r : IssueRequest) (tokenId nonce : String) (now : Int) : Except PyError Claims := do
  require (1 ≤ r.ttlSeconds ∧ r.ttlSeconds ≤ 3600)
    (tokenError "token TTL must be between 1 and 3600 seconds")
  let mutations ← normalizeMutations py r.mutations
  let tenantId ← tokenIdentifier r.tenantId "tenant_id"
  let worldId ← tokenIdentifier r.worldId "world_id"
  let actorId ← tokenIdentifier r.actorId "actor_id"
  let issuerId ← tokenIdentifier r.issuerId "issuer_id"
  let authorityVersion ← tokenIdentifier r.authorityVersion "authority_version"
  let eventId ← tokenIdentifier r.eventId "event_id"
  let eventType ← tokenIdentifier r.eventType "event_type"
  return {
    tokenId, nonce, tenantId, worldId, actorId, issuerId, authorityVersion
    expectedWorldVersion := r.expectedWorldVersion
    eventId, eventType, mutations
    issuedAt := now
    expiresAt := now + r.ttlSeconds }

/-- The claims the token carries, and the database with the token recorded. The token
is returned only when the record was committed. -/
def issueWorldEvent (r : IssueRequest) (tokenId nonce : String) (now : Int) (db : TokenDb) :
    Except PyError (Claims × TokenDb) := do
  let c ← claims py r tokenId nonce now
  let row : IssuedRow :=
    { tokenId
      claimsSha256 := sha256Json py.sha256 (c.payload py authority)
      issuerId := c.issuerId
      issuedAt := c.issuedAt
      expiresAt := c.expiresAt
      createdAt := py.isoformat (c.issuedAt * 1000000) }
  require (db.issuedKernelTokens.rows.all (fun r => r.claimsSha256 ≠ row.claimsSha256))
    ⟨.integrityError, "UNIQUE constraint failed: issued_kernel_tokens.claims_sha256"⟩
  let issuedKernelTokens ← orIntegrity "issued_kernel_tokens.token_id"
    (db.issuedKernelTokens.insert row)
  return (c, { db with issuedKernelTokens })

/-! ## Verification -/

def decodeAndVerifySignature (token : String) : Except PyError Fields :=
  match token.toList.splitOn '.' with
  | [payload, supplied] => do
    let payload := String.ofList payload
    let supplied := String.ofList supplied
    require (isAscii payload) ⟨.valueError, "ordinal not in range(128)"⟩
    require (isAscii supplied)
      ⟨.typeError, "comparing strings with non-ASCII characters is not supported"⟩
    require (supplied = sign authority payload)
      (tokenError "execution token signature is invalid")
    let bs ← b64decode payload
    match (decodeUtf8 bs).bind loads with
    | none => .error (tokenError "execution token payload is invalid")
    | some (.obj fields) => return fields
    | some _ => .error (tokenError "execution token payload must be an object")
  | _ => .error (tokenError "execution token must contain payload and signature")

/-- What the caller of `verify_world_event` says it will commit. -/
structure VerifyRequest where
  tenantId : String
  worldId : String
  actorId : String
  expectedWorldVersion : Int
  eventId : String
  eventType : String
  mutations : List Json
  authorityVersion : Option String
  allowConsumed : Bool
  expectedEventHash : Option String

def expectedFields (r : VerifyRequest) : Except PyError Fields := do
  let tenantId ← tokenIdentifier r.tenantId "tenant_id"
  let worldId ← tokenIdentifier r.worldId "world_id"
  let actorId ← tokenIdentifier r.actorId "actor_id"
  let eventId ← tokenIdentifier r.eventId "event_id"
  let eventType ← tokenIdentifier r.eventType "event_type"
  let normalized ← normalizeMutations py r.mutations
  return [
    ("schema_version", .str "edon-kernel-execution-token.v1"),
    ("purpose", .str "WORLD_EVENT_COMMIT"),
    ("key_id", .str authority.keyId),
    ("tenant_id", .str tenantId),
    ("world_id", .str worldId),
    ("actor_id", .str actorId),
    ("expected_world_version", .int r.expectedWorldVersion),
    ("event_id", .str eventId),
    ("event_type", .str eventType),
    ("mutations_sha256", .str (sha256Json py.sha256 (mutationsJson normalized)))]

/-- `payload.get(field)`. -/
def field (payload : Fields) (name : String) : Json := (Assoc.find payload name).getD .null

/-- `isinstance(v, int)`, which a bool is. -/
def asInt : Json → Option Int
  | .int n => some n
  | .bool b => some (if b then 1 else 0)
  | _ => none

def tokenIdOf (payload : Fields) : Except PyError String :=
  tokenIdentifier (pyStr py ((Assoc.find payload "token_id").getD (.str ""))) "token_id"

def eventIdentity (tenantId worldId eventId : String) : String :=
  tenantId ++ ":" ++ worldId ++ ":" ++ eventId

/-- The loop over the expected fields. -/
def matchFields (payload expected : Fields) : Except PyError Unit :=
  match expected.find? (fun e => !pyEq (field payload e.1) e.2) with
  | some (name, _) => .error (tokenError ("execution token does not match " ++ name))
  | none => .ok ()

def matchAuthorityVersion (payload : Fields) (version : Option String) : Except PyError Unit :=
  match version with
  | some version => require (pyEq (field payload "authority_version") (.str version))
      (tokenError "execution token authority version is stale")
  | none => .ok ()

def checkTimes (payload : Fields) (now : Int) : Except PyError Unit :=
  match asInt (field payload "issued_at"), asInt (field payload "expires_at") with
  | some issuedAt, some expiresAt => do
    require (issuedAt - 60 ≤ now) (tokenError "execution token is not yet valid")
    require (now ≤ expiresAt) (tokenError "execution token has expired")
  | _, _ => .error (tokenError "execution token timestamps are invalid")

/-- A consumed token is accepted only for a replay of the event it was consumed by. -/
def checkConsumed (r : VerifyRequest) (tokenId : String) (db : TokenDb) : Except PyError Unit :=
  match db.consumedKernelTokens.get tokenId with
  | some consumed =>
    require (r.allowConsumed ∧
        consumed.eventIdentity = eventIdentity r.tenantId r.worldId r.eventId ∧
        r.expectedEventHash = some consumed.eventHash)
      (tokenError "execution token replay detected")
  | none => .ok ()

def verifyWorldEvent (token : String) (r : VerifyRequest) (now : Int) (db : TokenDb) :
    Except PyError Fields := do
  let payload ← decodeAndVerifySignature authority token
  let expected ← expectedFields py authority r
  matchFields payload expected
  matchAuthorityVersion payload r.authorityVersion
  require (field payload "binding_authority" = .bool true)
    (tokenError "execution token does not carry Kernel authority")
  checkTimes payload now
  let tokenId ← tokenIdOf py payload
  checkConsumed r tokenId db
  return payload

/-! ## Consumption -/

def consume (token eventIdentity eventHash consumedAt : String) (db : TokenDb) :
    Except PyError TokenDb := do
  let payload ← decodeAndVerifySignature authority token
  let tokenId ← tokenIdOf py payload
  let row : ConsumedRow :=
    { tokenId, tokenSha256 := "sha256:" ++ py.sha256 token, eventIdentity, eventHash, consumedAt }
  match db.consumedKernelTokens.get tokenId with
  | some existing =>
    if existing.eventIdentity = eventIdentity ∧ existing.eventHash = eventHash then return db
    else .error (tokenError "execution token replay detected")
  | none =>
    require (db.consumedKernelTokens.rows.all (fun r => r.tokenSha256 ≠ row.tokenSha256))
      ⟨.integrityError, "UNIQUE constraint failed: consumed_kernel_tokens.token_sha256"⟩
    let consumedKernelTokens ← orIntegrity "consumed_kernel_tokens.token_id"
      (db.consumedKernelTokens.insert row)
    return { db with consumedKernelTokens }

end

/-! ## What a token says

A token of the authority decodes to the claims it was made of, so a verification that
accepts it compares the caller's request with those claims. -/

theorem decodeUtf8_utf8 (s : String) : decodeUtf8 (utf8 s) = some s := by
  unfold decodeUtf8 utf8 String.fromUTF8?
  have h : (⟨s.toUTF8.data.toList.toArray⟩ : ByteArray) = s.toByteArray := by
    simp
  rw [h, dif_pos s.isValidUTF8]
  rfl

/-- The signature check alone. -/
def signatureValid (authority : Authority) (token : String) : Bool :=
  match token.toList.splitOn '.' with
  | [payload, supplied] => String.ofList supplied = sign authority (String.ofList payload)
  | _ => false

theorem letter_cases : ∀ n < 64, Base64.letter n ≠ '.' ∧ (Base64.letter n).toNat < 128 ∧
    isSpace (Base64.letter n) = false := by decide

theorem b64_cases {bs : List UInt8} {c : Char} (h : c ∈ Base64.encode bs) :
    c ≠ '.' ∧ c.toNat < 128 ∧ isSpace c = false := by
  obtain ⟨n, hn, rfl⟩ := Base64.letters h
  exact letter_cases n hn

section
variable {py : Python} {authority : Authority}

theorem splitOn_token (bs bs' : List UInt8) :
    (b64encode bs ++ "." ++ b64encode bs').toList.splitOn '.' =
      [Base64.encode bs, Base64.encode bs'] := by
  have hdot : ∀ (bs : List UInt8), ∀ c ∈ Base64.encode bs, (c == '.') = false := by
    intro bs c hc
    simp [(b64_cases hc).1]
  have htext : (b64encode bs ++ "." ++ b64encode bs').toList =
      Base64.encode bs ++ '.' :: Base64.encode bs' := by
    simp [b64encode]
  rw [htext, List.splitOn_eq_splitOnP, List.splitOnP_append_cons_of_forall_mem (hdot bs) '.' rfl,
    List.splitOnP_eq_singleton (hdot bs')]

theorem isAscii_b64encode (bs : List UInt8) : isAscii (b64encode bs) = true := by
  unfold isAscii b64encode
  rw [String.toList_ofList, List.all_eq_true]
  intro c hc
  exact decide_eq_true (b64_cases hc).2.1

theorem decode_tokenText (authority : Authority) (fields : Fields) :
    decodeAndVerifySignature authority (tokenText authority (.obj fields)) =
      .ok (Assoc.sortKeys (canonFields fields)) := by
  have hsplit := splitOn_token (utf8 (canonicalJson (.obj fields)))
    (authority.hmac (utf8 (payloadSegment (.obj fields))))
  have hback : ∀ bs, String.ofList (Base64.encode bs) = b64encode bs := fun _ => rfl
  have hdec : b64decode (b64encode (utf8 (canonicalJson (.obj fields)))) =
      .ok (utf8 (canonicalJson (.obj fields))) := by
    unfold b64decode b64encode
    rw [String.toList_ofList, Base64.decode_encode]
  have hread : (decodeUtf8 (utf8 (canonicalJson (.obj fields)))).bind loads =
      some (.obj (Assoc.sortKeys (canonFields fields))) := by
    rw [decodeUtf8_utf8]
    exact loads_canonicalJson (.obj fields)
  have hsign : b64encode (authority.hmac (utf8 (payloadSegment (.obj fields)))) =
      sign authority (b64encode (utf8 (canonicalJson (.obj fields)))) := rfl
  have hascii : isAscii (sign authority (b64encode (utf8 (canonicalJson (.obj fields))))) = true :=
    isAscii_b64encode _
  unfold decodeAndVerifySignature
  have htoken : tokenText authority (.obj fields) =
      b64encode (utf8 (canonicalJson (.obj fields))) ++ "." ++
        b64encode (authority.hmac (utf8 (payloadSegment (.obj fields)))) := rfl
  rw [htoken, hsplit]
  simp [require, hback, isAscii_b64encode, hascii, hsign, hdec, hread, bind, Except.bind, pure, Except.pure]

theorem signatureValid_of_decode {token : String} {payload : Fields}
    (h : decodeAndVerifySignature authority token = .ok payload) :
    signatureValid authority token = true := by
  unfold decodeAndVerifySignature at h
  unfold signatureValid
  split at h
  · obtain ⟨_, _, h⟩ := bind_ok.mp h
    obtain ⟨_, _, h⟩ := bind_ok.mp h
    obtain ⟨_, hsign, _⟩ := bind_ok.mp h
    exact require_ok.mp hsign
  · cases h

/-- A token the authority made is a clean text. -/
theorem strip_token (c : Claims) : strip (c.token py authority) = c.token py authority := by
  apply strip_of_not_space
  intro ch hch
  have htext : (c.token py authority).toList =
      Base64.encode (utf8 (canonicalJson (c.payload py authority))) ++ '.' ::
        Base64.encode (authority.hmac (utf8 (payloadSegment (c.payload py authority)))) := by
    simp [Claims.token, tokenText, payloadSegment, sign, b64encode]
  rw [htext] at hch
  rcases List.mem_append.mp hch with h | h
  · exact (b64_cases h).2.2
  · rcases List.mem_cons.mp h with rfl | h
    · decide
    · exact (b64_cases h).2.2

theorem utf8_length (text : List Char) : (utf8 (String.ofList text)).length ≤ 4 * text.length := by
  have hbytes : utf8 (String.ofList text) = text.flatMap String.utf8EncodeChar := by
    simp [utf8, List.utf8Encode]
  rw [hbytes, List.length_flatMap]
  clear hbytes
  induction text with
  | nil => simp
  | cons c text ih =>
    have hc := c.utf8Size_le_four
    rw [List.map_cons, List.sum_cons, List.length_cons, String.length_utf8EncodeChar]
    omega

/-- The length of a token, from that of its payload and its signature. -/
theorem tokenText_length (authority : Authority) (payload : Json) :
    3 * (tokenText authority payload).length ≤
      16 * (render (canon payload)).length +
        3 * (sign authority (payloadSegment payload)).length + 5 := by
  have hbytes := utf8_length (render (canon payload))
  have hcode := Base64.encode_length (utf8 (canonicalJson payload))
  have hsegment : (payloadSegment payload).length =
      (Base64.encode (utf8 (canonicalJson payload))).length := by
    rw [payloadSegment, b64encode, String.length_ofList]
  have hdot : ".".length = 1 := rfl
  rw [tokenText, String.length_append, String.length_append, hsegment, hdot]
  rw [canonicalJson] at hcode ⊢
  omega

theorem tokenText_ne (authority : Authority) (payload : Json) : tokenText authority payload ≠ "" := by
  intro he
  have hlength := congrArg String.length he
  have hdot : ".".length = 1 := rfl
  have hnil : "".length = 0 := rfl
  rw [tokenText, String.length_append, String.length_append] at hlength
  omega

theorem worldAuthorizationRef_token {py : Python} {authority : Authority} {c : Claims}
    (h : (c.token py authority).length ≤ 8192) :
    worldAuthorizationRef (c.token py authority) = .ok (c.token py authority) := by
  unfold worldAuthorizationRef bounded
  rw [strip_token]
  exact if_neg (not_or.mpr ⟨tokenText_ne _ _, not_lt.mpr h⟩)

/-- An accepted token decodes to a payload that has every expected field. -/
theorem verify_ok {token : String} {r : VerifyRequest} {now : Int} {db : TokenDb}
    {payload : Fields} (h : verifyWorldEvent py authority token r now db = .ok payload) :
    decodeAndVerifySignature authority token = .ok payload ∧
    ∃ expected, expectedFields py authority r = .ok expected ∧
      ∀ e ∈ expected, pyEq (field payload e.1) e.2 = true := by
  obtain ⟨payload', hdecode, h⟩ := bind_ok.mp h
  obtain ⟨expected, hexpected, h⟩ := bind_ok.mp h
  obtain ⟨_, hmatch, h⟩ := bind_ok.mp h
  obtain ⟨_, _, h⟩ := bind_ok.mp h
  obtain ⟨_, _, h⟩ := bind_ok.mp h
  obtain ⟨_, _, h⟩ := bind_ok.mp h
  obtain ⟨_, _, h⟩ := bind_ok.mp h
  obtain ⟨_, _, h⟩ := bind_ok.mp h
  cases h
  refine ⟨hdecode, expected, hexpected, ?_⟩
  intro e he
  unfold matchFields at hmatch
  split at hmatch
  · cases hmatch
  · next hnone => simpa using List.find?_eq_none.mp hnone e he

theorem field_sorted (fields : Fields) (name : String) :
    field (Assoc.sortKeys (canonFields fields)) name =
      ((Assoc.find fields name).map canon).getD .null := by
  unfold field
  rw [Assoc.find_sortKeys, find_canonFields]

/-- The request a verification accepts is the one the claims are about. -/
structure Authorizes (py : Python) (c : Claims) (r : VerifyRequest) : Prop where
  tenant : tokenIdentifier r.tenantId "tenant_id" = .ok c.tenantId
  world : tokenIdentifier r.worldId "world_id" = .ok c.worldId
  actor : tokenIdentifier r.actorId "actor_id" = .ok c.actorId
  event : tokenIdentifier r.eventId "event_id" = .ok c.eventId
  type : tokenIdentifier r.eventType "event_type" = .ok c.eventType
  version : r.expectedWorldVersion = c.expectedWorldVersion
  mutations : ∃ ms, normalizeMutations py r.mutations = .ok ms ∧
    sha256Json py.sha256 (mutationsJson c.mutations) = sha256Json py.sha256 (mutationsJson ms)

/-- The field of a payload that claims were written to. -/
theorem field_claims (c : Claims) {name : String} {v : Json}
    (h : Assoc.find (c.fields py authority) name = some v) :
    field (Assoc.sortKeys (canonFields (c.fields py authority))) name = v.canon := by
  rw [field_sorted, h]
  rfl

theorem verify_claims {c : Claims} {r : VerifyRequest} {now : Int} {db : TokenDb}
    {payload : Fields}
    (h : verifyWorldEvent py authority (c.token py authority) r now db = .ok payload) :
    Authorizes py c r := by
  obtain ⟨hdecode, expected, hexpected, hmatch⟩ := verify_ok h
  have hpayload : payload = Assoc.sortKeys (canonFields (c.fields py authority)) :=
    Except.ok.inj (hdecode.symm.trans (decode_tokenText authority (c.fields py authority)))
  -- a field of the claims is the value the caller expects there
  have hfield : ∀ n {v w}, Assoc.find (c.fields py authority) n = some v →
      (n, w) ∈ expected → pyEq v.canon w = true := by
    intro n v w hv hw
    rw [← field_claims c hv, ← hpayload]
    exact hmatch (n, w) hw
  have htext : ∀ n {s t}, Assoc.find (c.fields py authority) n = some (.str s) →
      (n, .str t) ∈ expected → s = t :=
    fun n _ _ hs ht => Json.str.inj (pyEq_str.mp (hfield n hs ht))
  obtain ⟨t, ht, hexpected⟩ := bind_ok.mp hexpected
  obtain ⟨w, hw, hexpected⟩ := bind_ok.mp hexpected
  obtain ⟨a, ha, hexpected⟩ := bind_ok.mp hexpected
  obtain ⟨e, he, hexpected⟩ := bind_ok.mp hexpected
  obtain ⟨ty, hty, hexpected⟩ := bind_ok.mp hexpected
  obtain ⟨ms, hms, hexpected⟩ := bind_ok.mp hexpected
  replace hexpected := Except.ok.inj hexpected
  have htenant : c.tenantId = t := htext "tenant_id" rfl (by rw [← hexpected]; simp)
  have hworld : c.worldId = w := htext "world_id" rfl (by rw [← hexpected]; simp)
  have hactor : c.actorId = a := htext "actor_id" rfl (by rw [← hexpected]; simp)
  have hevent : c.eventId = e := htext "event_id" rfl (by rw [← hexpected]; simp)
  have htype : c.eventType = ty := htext "event_type" rfl (by rw [← hexpected]; simp)
  have hversion : c.expectedWorldVersion = r.expectedWorldVersion :=
    pyEq_int.mp (hfield "expected_world_version" rfl (by rw [← hexpected]; simp))
  have hsha : sha256Json py.sha256 (mutationsJson c.mutations) =
      sha256Json py.sha256 (mutationsJson ms) :=
    htext "mutations_sha256" rfl (by rw [← hexpected]; simp)
  exact ⟨htenant ▸ ht, hworld ▸ hw, hactor ▸ ha, hevent ▸ he, htype ▸ hty, hversion.symm, ms, hms,
    hsha⟩

/-- Claims with the same token are about the same event. -/
theorem token_inj {c c' : Claims} (h : c.token py authority = c'.token py authority) :
    c.tenantId = c'.tenantId ∧ c.worldId = c'.worldId ∧ c.eventId = c'.eventId := by
  have hfields : Assoc.sortKeys (canonFields (c.fields py authority)) =
      Assoc.sortKeys (canonFields (c'.fields py authority)) := by
    have hc := decode_tokenText authority (c.fields py authority)
    rw [show tokenText authority (.obj (c.fields py authority)) =
      tokenText authority (.obj (c'.fields py authority)) from h] at hc
    exact Except.ok.inj (hc.symm.trans (decode_tokenText authority _))
  have htext : ∀ n {s t}, Assoc.find (c.fields py authority) n = some (.str s) →
      Assoc.find (c'.fields py authority) n = some (.str t) → s = t := by
    intro n s t hs ht
    have := field_claims c hs
    rw [hfields, field_claims c' ht] at this
    exact (Json.str.inj this).symm
  exact ⟨htext "tenant_id" rfl rfl, htext "world_id" rfl rfl,
    htext "event_id" rfl rfl⟩

end
end Edon.Kernel
