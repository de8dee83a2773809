import EdonPlatform.Kernel.Tokens
import EdonPlatform.World.Verification
import Mathlib.Data.Bool.AllAny

/- What an execution token is accepted for (edon/kernel/tokens.py,
   `KernelTokenAuthority`).

   What is proved:
     1. `verify_iff` — a token made of claims is accepted for a request exactly when the
        claims authorize it, its authority version is the claims' own text, the time is in
        their window and the token is free or was consumed by the same event.
     2. `issue_ok`, `claims_ok` — the claims of an issued token are the normalized arguments.
     3. `round_trip_iff` — so a free token is accepted exactly for the requests that
        normalize to the issued one, as long as the authority version presented has no
        whitespace around it: the other texts are normalized before they are compared.

   Correspondence: the operations are the definitions of `Kernel.Tokens`;
   `secrets.token_urlsafe(18)`, which draws a token id, is `UrlSafe`.

   Assumed: SHA-256 is injective on texts. -/
namespace Edon.Kernel
open Json World Fallible

/-- What `secrets.token_urlsafe(18)` draws: 24 characters of the URL-safe base64 alphabet. -/
structure UrlSafe (s : String) : Prop where
  length : s.length = 24
  alphabet : ∀ c ∈ s.toList, c.isAlphanum = true ∨ c = '-' ∨ c = '_'

section
variable (py : Python)

/-- The fields of the presented request are the issued ones, after the normalization of
both. A request that names no authority version leaves it open. -/
structure SameRequest (issued : IssueRequest) (r : VerifyRequest) : Prop where
  tenant : tokenIdentifier r.tenantId "tenant_id" = tokenIdentifier issued.tenantId "tenant_id"
  world : tokenIdentifier r.worldId "world_id" = tokenIdentifier issued.worldId "world_id"
  actor : tokenIdentifier r.actorId "actor_id" = tokenIdentifier issued.actorId "actor_id"
  event : tokenIdentifier r.eventId "event_id" = tokenIdentifier issued.eventId "event_id"
  type : tokenIdentifier r.eventType "event_type" = tokenIdentifier issued.eventType "event_type"
  version : r.expectedWorldVersion = issued.expectedWorldVersion
  mutations : ∃ ms ms', normalizeMutations py r.mutations = .ok ms ∧
    normalizeMutations py issued.mutations = .ok ms' ∧ Same (mutationsJson ms) (mutationsJson ms')
  authority : ∀ v, r.authorityVersion = some v →
    tokenIdentifier v "authority_version" =
      tokenIdentifier issued.authorityVersion "authority_version"

/-- The authority version presented has whitespace around it. -/
def PaddedVersion (r : VerifyRequest) : Prop :=
  ∃ v, r.authorityVersion = some v ∧ strip v ≠ v

end

section
variable {py : Python} {authority : Authority}

/-! ## The checks one by one -/

theorem matchFields_ok {payload expected : Fields} {u : Unit} :
    matchFields payload expected = .ok u ↔
      ∀ e ∈ expected, pyEq (field payload e.1) e.2 = true := by
  unfold matchFields
  split
  · next name v h =>
    constructor
    · intro hok
      cases hok
    · intro hall
      have hfound := List.find?_some h
      rw [hall _ (List.mem_of_find?_eq_some h)] at hfound
      cases hfound
  · next h =>
    refine ⟨fun _ e he => ?_, fun _ => rfl⟩
    simpa using List.find?_eq_none.mp h e he

/-- The payload a token of these claims decodes to. -/
def Claims.decoded (py : Python) (authority : Authority) (c : Claims) : Fields :=
  Assoc.sortKeys (canonFields (c.fields py authority))

theorem field_decoded (c : Claims) (name : String) {v : Json}
    (h : Assoc.find (c.fields py authority) name = some v) :
    field (c.decoded py authority) name = v.canon := field_claims c h

theorem decode_token (c : Claims) :
    decodeAndVerifySignature authority (c.token py authority) = .ok (c.decoded py authority) :=
  decode_tokenText authority (c.fields py authority)

/-- The fields the claims carry are those of the request they authorize. -/
theorem expected_iff {c : Claims} {r : VerifyRequest} :
    (∃ expected, expectedFields py authority r = .ok expected ∧
      ∀ e ∈ expected, pyEq (field (c.decoded py authority) e.1) e.2 = true) ↔
    Authorizes py c r := by
  have htext : ∀ (name : String) {s : String} (t : String),
      Assoc.find (c.fields py authority) name = some (.str s) →
      (pyEq (field (c.decoded py authority) name) (.str t) = true ↔ s = t) := by
    intro name s t hs
    rw [field_decoded c name hs, pyEq_str]
    exact ⟨fun h => Json.str.inj h, fun h => congrArg Json.str h⟩
  have hversion : ∀ n : Int, pyEq (field (c.decoded py authority) "expected_world_version")
      (.int n) = true ↔ c.expectedWorldVersion = n := by
    intro n
    rw [field_decoded c "expected_world_version" rfl]
    exact pyEq_int
  constructor
  · rintro ⟨expected, hexpected, hmatch⟩
    obtain ⟨t, ht, hexpected⟩ := bind_ok.mp hexpected
    obtain ⟨w, hw, hexpected⟩ := bind_ok.mp hexpected
    obtain ⟨a, ha, hexpected⟩ := bind_ok.mp hexpected
    obtain ⟨e, he, hexpected⟩ := bind_ok.mp hexpected
    obtain ⟨ty, hty, hexpected⟩ := bind_ok.mp hexpected
    obtain ⟨ms, hms, hexpected⟩ := bind_ok.mp hexpected
    cases hexpected
    simp only [List.forall_mem_cons] at hmatch
    obtain ⟨-, -, -, htenant, hworld, hactor, hver, hevent, htype, hhash, -⟩ := hmatch
    exact
      { tenant := (htext "tenant_id" t rfl).mp htenant ▸ ht
        world := (htext "world_id" w rfl).mp hworld ▸ hw
        actor := (htext "actor_id" a rfl).mp hactor ▸ ha
        event := (htext "event_id" e rfl).mp hevent ▸ he
        type := (htext "event_type" ty rfl).mp htype ▸ hty
        version := ((hversion _).mp hver).symm
        mutations := ⟨ms, hms, (htext "mutations_sha256" _ rfl).mp hhash⟩ }
  · intro h
    obtain ⟨ms, hms, hhash⟩ := h.mutations
    refine ⟨_, bind_ok.mpr ⟨_, h.tenant, bind_ok.mpr ⟨_, h.world, bind_ok.mpr ⟨_, h.actor,
      bind_ok.mpr ⟨_, h.event, bind_ok.mpr ⟨_, h.type, bind_ok.mpr ⟨_, hms, rfl⟩⟩⟩⟩⟩⟩, ?_⟩
    simp only [List.forall_mem_cons]
    exact ⟨(htext "schema_version" _ rfl).mpr rfl, (htext "purpose" _ rfl).mpr rfl,
      (htext "key_id" _ rfl).mpr rfl, (htext "tenant_id" _ rfl).mpr rfl,
      (htext "world_id" _ rfl).mpr rfl, (htext "actor_id" _ rfl).mpr rfl,
      (hversion _).mpr h.version.symm, (htext "event_id" _ rfl).mpr rfl,
      (htext "event_type" _ rfl).mpr rfl, (htext "mutations_sha256" _ rfl).mpr hhash,
      fun _ he => by cases he⟩

theorem matchAuthorityVersion_iff {c : Claims} {version : Option String} {u : Unit} :
    matchAuthorityVersion (c.decoded py authority) version = .ok u ↔
      ∀ v, version = some v → v = c.authorityVersion := by
  cases version with
  | none =>
    refine iff_of_true rfl ?_
    intro v hv
    cases hv
  | some version =>
    have hfield : field (c.decoded py authority) "authority_version" = .str c.authorityVersion :=
      field_decoded c "authority_version" rfl
    unfold matchAuthorityVersion
    rw [require_ok, hfield, pyEq_str]
    constructor
    · intro h v hv
      cases hv
      exact (Json.str.inj h).symm
    · intro h
      rw [h version rfl]

theorem checkTimes_iff {c : Claims} {now : Int} {u : Unit} :
    checkTimes (c.decoded py authority) now = .ok u ↔
      c.issuedAt - 60 ≤ now ∧ now ≤ c.expiresAt := by
  have hissued : asInt (field (c.decoded py authority) "issued_at") = some c.issuedAt := by
    rw [field_decoded c "issued_at" rfl]
    rfl
  have hexpires : asInt (field (c.decoded py authority) "expires_at") = some c.expiresAt := by
    rw [field_decoded c "expires_at" rfl]
    rfl
  unfold checkTimes
  rw [hissued, hexpires]
  dsimp only
  constructor
  · intro h
    obtain ⟨_, hfrom, h⟩ := bind_ok.mp h
    exact ⟨of_decide_eq_true (require_ok.mp hfrom), of_decide_eq_true (require_ok.mp h)⟩
  · rintro ⟨hfrom, huntil⟩
    exact bind_ok.mpr ⟨(), require_ok.mpr (decide_eq_true hfrom),
      require_ok.mpr (decide_eq_true huntil)⟩

theorem tokenIdOf_decoded (c : Claims) :
    tokenIdOf py (c.decoded py authority) = tokenIdentifier c.tokenId "token_id" := by
  have hfind : Assoc.find (c.decoded py authority) "token_id" = some (.str c.tokenId) := by
    rw [Claims.decoded, Assoc.find_sortKeys, find_canonFields]
    rfl
  unfold tokenIdOf
  rw [hfind]
  rfl

/-- **Acceptance.** What a verification of a token made of claims checks. -/
theorem verify_iff {c : Claims} {r : VerifyRequest} {now : Int} {db : TokenDb} :
    (∃ payload, verifyWorldEvent py authority (c.token py authority) r now db = .ok payload) ↔
    Authorizes py c r ∧ (∀ v, r.authorityVersion = some v → v = c.authorityVersion) ∧
      (c.issuedAt - 60 ≤ now ∧ now ≤ c.expiresAt) ∧
      ∃ tokenId, tokenIdentifier c.tokenId "token_id" = .ok tokenId ∧
        checkConsumed r tokenId db = .ok () := by
  have hbinding : field (c.decoded py authority) "binding_authority" = .bool true :=
    field_decoded c "binding_authority" rfl
  constructor
  · rintro ⟨payload, h⟩
    obtain ⟨payload', hdecode, h⟩ := bind_ok.mp h
    have hpayload : payload' = c.decoded py authority :=
      Except.ok.inj (hdecode.symm.trans (decode_token c))
    obtain ⟨expected, hexpected, h⟩ := bind_ok.mp h
    obtain ⟨_, hmatch, h⟩ := bind_ok.mp h
    obtain ⟨_, hversion, h⟩ := bind_ok.mp h
    obtain ⟨_, -, h⟩ := bind_ok.mp h
    obtain ⟨_, htimes, h⟩ := bind_ok.mp h
    obtain ⟨tokenId, hid, h⟩ := bind_ok.mp h
    obtain ⟨_, hconsumed, -⟩ := bind_ok.mp h
    rw [hpayload] at hmatch hversion htimes hid
    rw [tokenIdOf_decoded] at hid
    exact ⟨expected_iff.mp ⟨expected, hexpected, matchFields_ok.mp hmatch⟩,
      matchAuthorityVersion_iff.mp hversion, checkTimes_iff.mp htimes, tokenId, hid, hconsumed⟩
  · rintro ⟨hauth, hversion, htimes, tokenId, hid, hconsumed⟩
    obtain ⟨expected, hexpected, hmatch⟩ := expected_iff.mpr hauth
    have hown : tokenIdOf py (c.decoded py authority) = .ok tokenId :=
      (tokenIdOf_decoded c).trans hid
    refine ⟨c.decoded py authority, bind_ok.mpr ⟨_, decode_token c, ?_⟩⟩
    refine bind_ok.mpr ⟨expected, hexpected, ?_⟩
    refine bind_ok.mpr ⟨(), matchFields_ok.mpr hmatch, ?_⟩
    refine bind_ok.mpr ⟨(), matchAuthorityVersion_iff.mpr hversion, ?_⟩
    refine bind_ok.mpr ⟨(), require_ok.mpr (decide_eq_true hbinding), ?_⟩
    refine bind_ok.mpr ⟨(), checkTimes_iff.mpr htimes, ?_⟩
    refine bind_ok.mpr ⟨tokenId, hown, ?_⟩
    exact bind_ok.mpr ⟨(), hconsumed, rfl⟩

/-! ## Issued tokens -/

theorem UrlSafe.not_space {s : String} (h : UrlSafe s) {c : Char} (hc : c ∈ s.toList) :
    isSpace c = false := by
  rcases h.alphabet c hc with hc | rfl | rfl
  · exact isSpace_of_isAlphanum hc
  · decide
  · decide

/-- A token id that was drawn is its own normal form. -/
theorem UrlSafe.identifier {s : String} (h : UrlSafe s) (label : String) :
    tokenIdentifier s label = .ok s := by
  have hstrip : strip s = s := strip_of_not_space (fun c hc => h.not_space hc)
  have hlength := h.length
  have hne : s ≠ "" := by
    rintro rfl
    cases hlength
  unfold tokenIdentifier Edon.identifier bounded
  dsimp only
  rw [hstrip, if_neg]
  rintro (hempty | hlong)
  · exact hne hempty
  · omega

/-- The arguments of an issue normalize to the claims of the token. -/
structure Issued (py : Python) (issued : IssueRequest) (c : Claims) : Prop where
  tenant : tokenIdentifier issued.tenantId "tenant_id" = .ok c.tenantId
  world : tokenIdentifier issued.worldId "world_id" = .ok c.worldId
  actor : tokenIdentifier issued.actorId "actor_id" = .ok c.actorId
  event : tokenIdentifier issued.eventId "event_id" = .ok c.eventId
  type : tokenIdentifier issued.eventType "event_type" = .ok c.eventType
  version : c.expectedWorldVersion = issued.expectedWorldVersion
  mutations : normalizeMutations py issued.mutations = .ok c.mutations
  authority : tokenIdentifier issued.authorityVersion "authority_version" = .ok c.authorityVersion

theorem claims_ok {issued : IssueRequest} {tokenId nonce : String} {now : Int} {c : Claims}
    (h : claims py issued tokenId nonce now = .ok c) :
    Issued py issued c ∧ c.tokenId = tokenId ∧ c.issuedAt = now ∧
      c.expiresAt = now + issued.ttlSeconds := by
  obtain ⟨_, -, h⟩ := bind_ok.mp h
  obtain ⟨ms, hms, h⟩ := bind_ok.mp h
  obtain ⟨t, ht, h⟩ := bind_ok.mp h
  obtain ⟨w, hw, h⟩ := bind_ok.mp h
  obtain ⟨a, ha, h⟩ := bind_ok.mp h
  obtain ⟨i, _, h⟩ := bind_ok.mp h
  obtain ⟨v, hv, h⟩ := bind_ok.mp h
  obtain ⟨e, he, h⟩ := bind_ok.mp h
  obtain ⟨ty, hty, h⟩ := bind_ok.mp h
  cases h
  exact ⟨⟨ht, hw, ha, he, hty, rfl, hms, hv⟩, rfl, rfl, rfl⟩

/-- A token is issued with its claims, under an id that was free. -/
theorem issue_ok {issued : IssueRequest} {tokenId nonce : String} {now : Int} {db db' : TokenDb}
    {c : Claims} (h : issueWorldEvent py authority issued tokenId nonce now db = .ok (c, db')) :
    claims py issued tokenId nonce now = .ok c ∧ ∃ row t, row.tokenId = tokenId ∧
      db.issuedKernelTokens.insert row = some t ∧ db' = { db with issuedKernelTokens := t } := by
  obtain ⟨c', hclaims, h⟩ := bind_ok.mp h
  obtain ⟨_, _, h⟩ := bind_ok.mp h
  obtain ⟨t, ht, h⟩ := bind_ok.mp h
  cases h
  exact ⟨hclaims, _, t, rfl, orIntegrity_ok.mp ht, rfl⟩

/-- The request has the claims' fields exactly when it is the issued one. -/
theorem sameRequest_iff (hsha : Function.Injective py.sha256) {issued : IssueRequest} {c : Claims}
    {r : VerifyRequest} (hc : Issued py issued c) :
    SameRequest py issued r ↔ Authorizes py c r ∧
      ∀ v, r.authorityVersion = some v →
        tokenIdentifier v "authority_version" = .ok c.authorityVersion := by
  constructor
  · intro h
    obtain ⟨ms, ms', hms, hms', hsame⟩ := h.mutations
    cases hms'.symm.trans hc.mutations
    refine ⟨?_, fun v hv => (h.authority v hv).trans hc.authority⟩
    exact
      { tenant := h.tenant.trans hc.tenant
        world := h.world.trans hc.world
        actor := h.actor.trans hc.actor
        event := h.event.trans hc.event
        type := h.type.trans hc.type
        version := h.version.trans hc.version.symm
        mutations := ⟨ms, hms, sha256Json_congr _ hsame.symm⟩ }
  · rintro ⟨h, hversion⟩
    obtain ⟨ms, hms, hhash⟩ := h.mutations
    exact
      { tenant := h.tenant.trans hc.tenant.symm
        world := h.world.trans hc.world.symm
        actor := h.actor.trans hc.actor.symm
        event := h.event.trans hc.event.symm
        type := h.type.trans hc.type.symm
        version := h.version.trans hc.version
        mutations := ⟨ms, _, hms, hc.mutations, (same_of_sha256Json hsha hhash).symm⟩
        authority := fun v hv => (hversion v hv).trans hc.authority.symm }

/-- A first use needs a token that is free. -/
theorem checkConsumed_first {r : VerifyRequest} (hr : r.allowConsumed = false) {tokenId : String}
    {db : TokenDb} :
    checkConsumed r tokenId db = .ok () ↔ db.consumedKernelTokens.get tokenId = none := by
  unfold checkConsumed
  cases db.consumedKernelTokens.get tokenId with
  | none => exact iff_of_true rfl rfl
  | some consumed =>
    refine iff_of_false ?_ (Option.some_ne_none _)
    intro h
    have hallowed := (of_decide_eq_true (require_ok.mp h)).1
    rw [hr] at hallowed
    cases hallowed

/-- The token names its id. -/
theorem tokenId_of_token {c c' : Claims} (h : c.token py authority = c'.token py authority) :
    c.tokenId = c'.tokenId := by
  have hdecoded : c.decoded py authority = c'.decoded py authority := by
    have hc : decodeAndVerifySignature authority (c.token py authority) =
      .ok (c.decoded py authority) := decode_token c
    rw [h, decode_token] at hc
    exact (Except.ok.inj hc).symm
  have hfield : field (c.decoded py authority) "token_id" = .str c.tokenId :=
    field_decoded c "token_id" rfl
  have hfield' : field (c'.decoded py authority) "token_id" = .str c'.tokenId :=
    field_decoded c' "token_id" rfl
  rw [hdecoded, hfield'] at hfield
  exact (Json.str.inj hfield).symm

/-! ## Consumption -/

section
variable {c : Claims} {identity hash consumedAt : String} {db db' : TokenDb}

/-- A consumption leaves a row for the token with this event: the row that was there, or a new
one. -/
theorem consume_ok (hid : UrlSafe c.tokenId)
    (h : consume py authority (c.token py authority) identity hash consumedAt db = .ok db') :
    (db' = db ∧ ∃ row, db.consumedKernelTokens.get c.tokenId = some row ∧
      row.eventIdentity = identity ∧ row.eventHash = hash) ∨
    ∃ t, db.consumedKernelTokens.insert ⟨c.tokenId, "sha256:" ++ py.sha256 (c.token py authority),
        identity, hash, consumedAt⟩ = some t ∧ db' = { db with consumedKernelTokens := t } := by
  obtain ⟨payload, hdecode, h⟩ := bind_ok.mp h
  obtain ⟨tokenId, hown, h⟩ := bind_ok.mp h
  have hpayload : payload = c.decoded py authority :=
    Except.ok.inj (hdecode.symm.trans (decode_token c))
  rw [hpayload, tokenIdOf_decoded, hid.identifier] at hown
  cases hown
  dsimp only at h
  split at h
  · next row hrow =>
    split at h
    · next hsame =>
      cases h
      exact .inl ⟨rfl, row, hrow, hsame.1, hsame.2⟩
    · cases h
  · obtain ⟨_, _, h⟩ := bind_ok.mp h
    obtain ⟨t, ht, h⟩ := bind_ok.mp h
    cases h
    exact .inr ⟨t, orIntegrity_ok.mp ht, rfl⟩

/-- A token that was consumed by the same event is consumed again, to no effect. -/
theorem consume_again (hid : UrlSafe c.tokenId) {row : ConsumedRow}
    (hrow : db.consumedKernelTokens.get c.tokenId = some row) (hidentity : row.eventIdentity = identity)
    (hhash : row.eventHash = hash) (consumedAt : String) :
    consume py authority (c.token py authority) identity hash consumedAt db = .ok db := by
  refine bind_ok.mpr ⟨_, decode_token c, bind_ok.mpr ⟨c.tokenId, ?_, ?_⟩⟩
  · exact (tokenIdOf_decoded c).trans (hid.identifier _)
  · dsimp only
    rw [hrow]
    exact if_pos ⟨hidentity, hhash⟩

/-- A free token is consumed, where no other token has its digest. -/
theorem consume_free (hid : UrlSafe c.tokenId)
    (hnone : db.consumedKernelTokens.get c.tokenId = none)
    (hdigest : ∀ r ∈ db.consumedKernelTokens.rows,
      r.tokenSha256 ≠ "sha256:" ++ py.sha256 (c.token py authority))
    (identity hash consumedAt : String) :
    ∃ db', consume py authority (c.token py authority) identity hash consumedAt db = .ok db' ∧
      ∃ row, db'.consumedKernelTokens.get c.tokenId = some row ∧ row.eventIdentity = identity ∧
        row.eventHash = hash := by
  obtain ⟨t, ht⟩ : ∃ t, db.consumedKernelTokens.insert ⟨c.tokenId,
      "sha256:" ++ py.sha256 (c.token py authority), identity, hash, consumedAt⟩ = some t :=
    Table.insert_of_get hnone
  refine ⟨{ db with consumedKernelTokens := t }, ?_, _, (Table.get_insert ht _).trans (if_pos rfl),
    rfl, rfl⟩
  refine bind_ok.mpr ⟨_, decode_token c, bind_ok.mpr ⟨c.tokenId, ?_, ?_⟩⟩
  · exact (tokenIdOf_decoded c).trans (hid.identifier _)
  · dsimp only
    rw [hnone]
    refine bind_ok.mpr ⟨(), require_ok.mpr ?_, bind_ok.mpr ⟨t, orIntegrity_ok.mpr ht, rfl⟩⟩
    rw [List.all_eq_true]
    exact fun r hr => decide_eq_true (hdigest r hr)

end

end

/-- **Round trip of a token.** A token that was issued and not consumed is accepted exactly
for the requests that normalize to the issued one, within the window of the token, as long
as such a request has no whitespace around its authority version. -/
theorem round_trip_iff (py : Python) (authority : Authority)
    (hsha : Function.Injective py.sha256) (issued : IssueRequest) (tokenId nonce : String)
    (now : Int) (db db' : TokenDb) (c : Claims) (hid : UrlSafe tokenId)
    (h : issueWorldEvent py authority issued tokenId nonce now db = .ok (c, db'))
    (r : VerifyRequest) (hr : r.allowConsumed = false) (t : Int) (later : TokenDb) :
    ((∃ payload, verifyWorldEvent py authority (c.token py authority) r t later = .ok payload) ↔
      SameRequest py issued r ∧ (now - 60 ≤ t ∧ t ≤ now + issued.ttlSeconds) ∧
        later.consumedKernelTokens.get tokenId = none) ↔
    (SameRequest py issued r → (now - 60 ≤ t ∧ t ≤ now + issued.ttlSeconds) →
      later.consumedKernelTokens.get tokenId = none → ¬ PaddedVersion r) := by
  obtain ⟨hc, rfl, rfl, hexpires⟩ := claims_ok (issue_ok h).1
  rw [← hexpires, verify_iff, sameRequest_iff hsha hc]
  have hconsumed : (∃ id, tokenIdentifier c.tokenId "token_id" = .ok id ∧
      checkConsumed r id later = .ok ()) ↔ later.consumedKernelTokens.get c.tokenId = none := by
    rw [← checkConsumed_first hr]
    constructor
    · rintro ⟨id, hown, hconsumed⟩
      cases (hid.identifier "token_id").symm.trans hown
      exact hconsumed
    · intro hconsumed
      exact ⟨_, hid.identifier "token_id", hconsumed⟩
  have hclean : strip c.authorityVersion = c.authorityVersion := by
    rw [identifier_ok hc.authority]
    exact strip_strip _
  rw [hconsumed]
  constructor
  · intro hiff hsame hwindow hfree
    rintro ⟨v, hv, hpadded⟩
    -- an accepted version is the claims' own, which has no whitespace around it
    have hown := (hiff.mpr ⟨hsame, hwindow, hfree⟩).2.1 v hv
    rw [hown] at hpadded
    exact hpadded hclean
  · intro hwhen
    constructor
    · rintro ⟨hauth, hown, hwindow, hfree⟩
      refine ⟨⟨hauth, ?_⟩, hwindow, hfree⟩
      intro v hv
      rw [hown v hv]
      exact identifier_again hc.authority _
    · rintro ⟨⟨hauth, hversion⟩, hwindow, hfree⟩
      refine ⟨hauth, ?_, hwindow, hfree⟩
      intro v hv
      -- the normal form of the version is the claims', and it is its own normal form
      by_contra hne
      refine hwhen ⟨hauth, hversion⟩ hwindow hfree ⟨v, hv, ?_⟩
      intro hstrip
      exact hne (hstrip.symm.trans (identifier_ok (hversion v hv)).symm)

/-! ## A padded version -/

def textAuthority : Authority where
  keyId := "kernel-local-v1"
  hmac := id

/-- The authority issues a token for the creation of a world under a version written with a
space before it. -/
def paddedIssue : IssueRequest where
  tenantId := "tenant"
  worldId := "world"
  actorId := "actor"
  authorityVersion := " v1"
  expectedWorldVersion := -1
  eventId := "WORLD_CREATED"
  eventType := "WORLD_CREATED"
  mutations := [(Mutation.replaceRoot (.obj [])).toJson]
  ttlSeconds := 300
  issuerId := "kernel-authority"

/-- The same arguments, presented. -/
def paddedRequest : VerifyRequest where
  tenantId := "tenant"
  worldId := "world"
  actorId := "actor"
  expectedWorldVersion := -1
  eventId := "WORLD_CREATED"
  eventType := "WORLD_CREATED"
  mutations := [(Mutation.replaceRoot (.obj [])).toJson]
  authorityVersion := some " v1"
  allowConsumed := false
  expectedEventHash := none

def drawnId : String := "AAAAAAAAAAAAAAAAAAAAAAAA"

theorem drawnId_urlSafe : UrlSafe drawnId :=
  ⟨by decide +kernel, List.all_iff_forall_prop.mp (by decide +kernel)⟩

def paddedClaims : Claims where
  tokenId := drawnId
  nonce := "nonce-1"
  tenantId := "tenant"
  worldId := "world"
  actorId := "actor"
  issuerId := "kernel-authority"
  authorityVersion := "v1"
  expectedWorldVersion := -1
  eventId := "WORLD_CREATED"
  eventType := "WORLD_CREATED"
  mutations := [.replaceRoot (.obj [])]
  issuedAt := 0
  expiresAt := 300

theorem padded_issued : ∃ db, issueWorldEvent textPython textAuthority paddedIssue drawnId
    "nonce-1" 0 ∅ = .ok (paddedClaims, db) := by
  have hissue : (issueWorldEvent textPython textAuthority paddedIssue drawnId "nonce-1" 0
      ∅).toOption.map Prod.fst = some paddedClaims := by decide +kernel
  obtain ⟨result, hresult, hfst⟩ := Option.map_eq_some_iff.mp hissue
  exact ⟨result.2, toOption_ok.mp (hresult.trans (congrArg some (Prod.ext hfst rfl)))⟩

/-- The token presented with the version as the claims have it. -/
def cleanRequest : VerifyRequest := { paddedRequest with authorityVersion := some "v1" }

theorem round_trip_clean :
    ((∃ payload, verifyWorldEvent textPython textAuthority
        (paddedClaims.token textPython textAuthority) cleanRequest 10 ∅ = .ok payload) ↔
      SameRequest textPython paddedIssue cleanRequest ∧ ((0 : Int) - 60 ≤ 10 ∧ 10 ≤ (0 : Int) + 300) ∧
        (∅ : TokenDb).consumedKernelTokens.get drawnId = none) ↔
    (SameRequest textPython paddedIssue cleanRequest → ((0 : Int) - 60 ≤ 10 ∧ 10 ≤ (0 : Int) + 300) →
      (∅ : TokenDb).consumedKernelTokens.get drawnId = none → ¬ PaddedVersion cleanRequest) := by
  obtain ⟨db, hissued⟩ := padded_issued
  exact round_trip_iff textPython textAuthority Function.injective_id paddedIssue drawnId "nonce-1" 0
    ∅ db paddedClaims drawnId_urlSafe hissued cleanRequest rfl 10 ∅

/-- The token is refused for the very arguments it was issued for. -/
theorem padded_refused :
    (∃ db, issueWorldEvent textPython textAuthority paddedIssue drawnId "nonce-1" 0 ∅ =
      .ok (paddedClaims, db)) ∧
    ¬ ((∃ payload, verifyWorldEvent textPython textAuthority
        (paddedClaims.token textPython textAuthority) paddedRequest 10 ∅ = .ok payload) ↔
      SameRequest textPython paddedIssue paddedRequest ∧
        ((0 : Int) - 60 ≤ 10 ∧ 10 ≤ (0 : Int) + 300) ∧
        (∅ : TokenDb).consumedKernelTokens.get drawnId = none) := by
  refine ⟨padded_issued, ?_⟩
  intro hiff
  have hnormal : normalizeMutations textPython [(Mutation.replaceRoot (.obj [])).toJson] =
      .ok [.replaceRoot (.obj [])] := by decide +kernel
  have hsame : SameRequest textPython paddedIssue paddedRequest :=
    { tenant := rfl
      world := rfl
      actor := rfl
      event := rfl
      type := rfl
      version := rfl
      mutations := ⟨_, _, hnormal, hnormal, rfl⟩
      authority := by
        intro v hv
        cases hv
        rfl }
  have haccepted := hiff.mpr ⟨hsame, by decide, rfl⟩
  have hown := (verify_iff.mp haccepted).2.1 " v1" rfl
  exact absurd hown (by decide)

end Edon.Kernel
