import EdonPlatform.Common.JsText
import Mathlib.Data.List.Infix

/- The two verifiers of identity tokens (packages/platform-core/src/oidc.ts and auth.ts). The
   claims come from JSON of any shape.

   What is proved:
     1. `verifyToken_some` — what a token that is accepted went through.
     2. `admits_iff` — when the second verifier admits an expiry, a start, an issuer and an
        audience.
     3. `acceptance_iff` — acceptance is what it should be exactly when the claims that pass
        the checks have an expiry and a start that are numbers, and roles that are a list.
     4. `accepted_without_expiry` — a token that never expires.

   Correspondence (TypeScript ↔ Lean):
     `OidcJwksVerifier.verifyToken`  ↔ `OidcJwksVerifier.verifyToken` (`refuses` is its condition)
     `OidcIdentityVerifier.verify`   ↔ `OidcIdentityVerifier.verify` (`admits` is its condition)

   What a runtime does to a text is an argument of the verifiers: the decoding of a part of a
   token (base64url, UTF-8 and `JSON.parse`; none where it throws), the verification of a
   signature, the loading of keys and the text of a date. The clock is read once, and the
   `RangeError` of a date out of range counts as a `TypeError`. -/
namespace Edon.Platform
open Js Fallible

/-! ## Checks on a claim -/

/-- Whether `JSON` made a number of it that compares with others. -/
def isNumber : Option Value → Bool
  | some (.num n) => n ≠ .nan
  | _ => false

/-- `Array.isArray(aud) ? aud.includes(audience) : aud === audience`. -/
def namesAudience (aud : Option Value) (audience : String) : Bool :=
  match aud with
  | some (.arr xs) => xs.any fun x => isText (some x) audience
  | v => isText v audience

/-- `Number(value)` of a property that may be missing. -/
def asNumber (js : Runtime) : Option Value → Except Thrown Number
  | none => .ok .nan
  | some v => toNumber js v

/-- `roles?.includes(role)`: a part of a text, an element of a list. -/
def includesRole (roles : Option Value) (role : String) : Except Thrown Bool :=
  match roles with
  | none => .ok false
  | some .null => .ok false
  | some (.str text) => .ok (decide (role.toList <:+: text.toList))
  | some (.arr xs) => .ok (xs.any fun x => isText (some x) role)
  | some _ => .error .typeError

/-- `a || b || ...`, where a later check is made only if those before it are false. -/
def anyOf : List (Except Thrown Bool) → Except Thrown Bool
  | [] => .ok false
  | .ok true :: _ => .ok true
  | .ok false :: checks => anyOf checks
  | .error e :: _ => .error e

/-- `given && !holds`; an empty text counts as not given. -/
def misses (given : Option String) (holds : String → Except Thrown Bool) : Except Thrown Bool :=
  match given with
  | none => .ok false
  | some text => if text = "" then .ok false else (holds text).map not

/-! ## The verifier of tokens -/

structure OidcJwksVerifier where
  js : Runtime
  issuer : String
  audience : String
  verifySignature : Value → String → String → Except Thrown Bool
  now : Rat
  decode : String → Option Value

namespace OidcJwksVerifier
variable (v : OidcJwksVerifier)

/-- The checks on claims, in order; each is true of claims that are refused. -/
def checks (expectedTenant requiredRole : Option String) (claims : Value) :
    List (Except Thrown Bool) :=
  [.ok (!isText (field claims "iss") v.issuer),
    .ok (!namesAudience (field claims "aud") v.audience),
    (asNumber v.js (field claims "exp")).map (·.le v.now),
    (field claims "nbf").elim (.ok false) fun nbf => (toNumber v.js nbf).map (·.gt v.now),
    .ok (isText (field claims "actor_status") "DISABLED"),
    misses expectedTenant fun tenant => .ok (isText (field claims "tenant_id") tenant),
    misses requiredRole (includesRole (field claims "roles"))]

/-- Whether claims are refused; a property of `null` throws. -/
def refuses (expectedTenant requiredRole : Option String) (claims : Value) :
    Except Thrown Bool := do
  require (!(claims matches .null)) .typeError
  anyOf (v.checks expectedTenant requiredRole claims)

/-- The claims of a token of three parts whose signature is verified over the first two. -/
def signedClaims (token : String) : Option Value :=
  match token.toList.splitOn '.' with
  | [first, second, third] => do
    let header ← v.decode (String.ofList first)
    let claims ← v.decode (String.ofList second)
    let signed ← (v.verifySignature header
      (String.ofList first ++ "." ++ String.ofList second) (String.ofList third)).toOption
    if signed then some claims else none
  | _ => none

/-- What is thrown inside is caught. -/
def verifyToken (token : String) (expectedTenant requiredRole : Option String) : Option Value := do
  let claims ← v.signedClaims token
  let refused ← (v.refuses expectedTenant requiredRole claims).toOption
  if refused then none else some claims

end OidcJwksVerifier

/-! ## The verifier of requests -/

structure OidcPrincipal where
  tenantId : String
  actorId : String
  actorType : Value
  roles : List String
  expiresAt : String
  active : Bool

/-- `κ` are the imported keys. A key that is not among those loaded is looked for once more;
`toISOString` is none for a date out of range. -/
structure OidcIdentityVerifier (κ : Type) where
  js : Runtime
  issuer : String
  audience : String
  now : Rat
  decode : String → Option Value
  decodeBytes : String → Except Thrown (List UInt8)
  loadedKey : String → Except Thrown (Option κ)
  reloadedKey : String → Except Thrown (Option κ)
  verifySignature : κ → List UInt8 → String → Except Thrown Bool
  toISOString : Number → Option String

namespace OidcIdentityVerifier
variable {κ : Type} (v : OidcIdentityVerifier κ)

/-- The condition on issuer, audience, expiry and start. -/
def admits (claims : Value) : Bool :=
  isText (field claims "iss") v.issuer && namesAudience (field claims "aud") v.audience &&
    (match field claims "exp" with
      | some (.num exp) => !exp.le v.now
      | _ => false) &&
    (match field claims "nbf" with
      | some (.num nbf) => !nbf.gt v.now
      | _ => true)

/-- The decoded header and claims, with the signed text and the signature. -/
def parts (raw : String) : Option (Value × Value × String × String) :=
  match raw.toList.splitOn '.' with
  | [first, second, third] => do
    let head ← v.decode (String.ofList first)
    let claims ← v.decode (String.ofList second)
    return (head, claims, String.ofList first ++ "." ++ String.ofList second, String.ofList third)
  | _ => none

/-- `token?.startsWith('Bearer ')` and `token.slice(7)`. -/
def bearer (authorization : Option String) : Option String :=
  authorization.bind fun token =>
    if "Bearer ".toList <+: token.toList then some (String.ofList (token.toList.drop 7)) else none

def key (kid : String) : Except Thrown (Option κ) := do
  match ← v.loadedKey kid with
  | some k => return some k
  | none => v.reloadedKey kid

def roleTexts : Option Value → Except Thrown (List String)
  | some (.arr xs) => xs.mapM (toText v.js)
  | _ => .ok []

/-- The principal of claims whose signature is valid. -/
def principal (claims : Value) : Except Thrown (Option OidcPrincipal) :=
  match field claims "tenant_id", field claims "sub" with
  | some (.str tenantId), some (.str actorId) => do
    if isBool (field claims "revoked") true then return none
    let roles ← v.roleTexts (field claims "roles")
    let exp ← asNumber v.js (field claims "exp")
    let expiresAt ← orRaise .typeError (v.toISOString exp)
    return some
      { tenantId, actorId, actorType := orDefault (field claims "actor_type") (.str "HUMAN")
        roles, expiresAt
        active := !isBool (field claims "active") false &&
          !isText (field claims "actor_status") "DISABLED" }
  | _, _ => .ok none

def verifyParts (head claims : Value) (signingInput signature : String) :
    Except Thrown (Option OidcPrincipal) := do
  require (!(head matches .null)) .typeError
  if !(isText (field head "alg") "RS256" && isText (field head "typ") "JWT") then return none
  require (!(claims matches .null)) .typeError
  if !v.admits claims then return none
  let kid ← (field head "kid").elim (.ok "undefined") (toText v.js)
  match ← v.key kid with
  | none => return none
  | some k =>
    let bytes ← v.decodeBytes signature
    let valid ← v.verifySignature k bytes signingInput
    if !valid then return none
    v.principal claims

/-- The claims of a request, where there are any. -/
def claims (authorization : Option String) : Option Value :=
  ((bearer authorization).bind v.parts).map fun p => p.2.1

def verify (authorization : Option String) : Except Thrown (Option OidcPrincipal) :=
  match (bearer authorization).bind v.parts with
  | none => .ok none
  | some (head, claims, signingInput, signature) => v.verifyParts head claims signingInput signature

end OidcIdentityVerifier

/-! ## Acceptance -/

/-- Claims with the issuer, for the audience, that have begun and will end. -/
structure Admits (issuer audience : String) (now : Rat) (claims : Value) : Prop where
  issuer : field claims "iss" = some (.str issuer)
  audience : field claims "aud" = some (.str audience) ∨
    ∃ xs, field claims "aud" = some (.arr xs) ∧ .str audience ∈ xs
  expires : ∃ exp, field claims "exp" = some (.num exp) ∧ exp.gt now = true
  started : field claims "nbf" = none ∨
    ∃ nbf, field claims "nbf" = some (.num nbf) ∧ nbf.le now = true

/-- What the claims of an accepted token are. -/
structure OidcJwksVerifier.Accepts (v : OidcJwksVerifier) (token : String)
    (expectedTenant requiredRole : Option String) (claims : Value) : Prop where
  signed : v.signedClaims token = some claims
  admitted : Admits v.issuer v.audience v.now claims
  enabled : field claims "actor_status" ≠ some (.str "DISABLED")
  tenant : ∀ tenant, expectedTenant = some tenant → field claims "tenant_id" = some (.str tenant)
  role : ∀ role, requiredRole = some role →
    ∃ roles, field claims "roles" = some (.arr roles) ∧ .str role ∈ roles

/-- An expiry that is a number and a start that is one, where there is one. -/
structure Timed (claims : Value) : Prop where
  expires : isNumber (field claims "exp") = true
  started : field claims "nbf" = none ∨ isNumber (field claims "nbf") = true

/-- Times that are numbers, a list of roles where one is asked for, and no empty text that the
claims do not have. -/
structure Typed (expectedTenant requiredRole : Option String) (claims : Value) : Prop
    extends Timed claims where
  tenant : expectedTenant = some "" → field claims "tenant_id" = some (.str "")
  role : ∀ role, requiredRole = some role →
    ∃ roles, field claims "roles" = some (.arr roles) ∧ (role = "" → .str "" ∈ roles)

theorem namesAudience_iff {aud : Option Value} {audience : String} :
    namesAudience aud audience = true ↔
      aud = some (.str audience) ∨ ∃ xs, aud = some (.arr xs) ∧ .str audience ∈ xs := by
  cases aud with
  | none => simp [namesAudience, isText]
  | some v =>
    cases v with
    | arr xs => simp [namesAudience, isText_iff]
    | _ => simp [namesAudience, isText]

theorem isNumber_iff {value : Option Value} :
    isNumber value = true ↔ ∃ n, value = some (.num n) ∧ n ≠ .nan := by
  cases value with
  | none => simp [isNumber]
  | some v => cases v <;> simp [isNumber]

/-- A number that compares is above or not above. -/
theorem gt_eq_not_le {n : Number} (h : n ≠ .nan) (q : Rat) : n.gt q = !n.le q := by
  cases n with
  | finite x => simp [Number.gt, Number.le, ← not_le]
  | nan => exact absurd rfl h
  | posInf => rfl
  | negInf => rfl

theorem anyOf_false {checks : List (Except Thrown Bool)} :
    anyOf checks = .ok false ↔ ∀ check ∈ checks, check = .ok false := by
  induction checks with
  | nil => simp [anyOf]
  | cons check checks ih =>
    cases check with
    | error e => simp [anyOf]
    | ok b => cases b <;> simp [anyOf, ih]

/-- What verification returns: signed claims that are not refused. -/
theorem verifyToken_some {v : OidcJwksVerifier} {token : String}
    {expectedTenant requiredRole : Option String} {claims : Value} :
    v.verifyToken token expectedTenant requiredRole = some claims ↔
      v.signedClaims token = some claims ∧
        v.refuses expectedTenant requiredRole claims = .ok false := by
  unfold OidcJwksVerifier.verifyToken
  constructor
  · intro h
    obtain ⟨c, hsigned, h⟩ := Option.bind_eq_some_iff.mp h
    obtain ⟨refused, hrefuses, h⟩ := Option.bind_eq_some_iff.mp h
    cases refused with
    | true => cases h
    | false =>
      cases h
      exact ⟨hsigned, toOption_ok.mp hrefuses⟩
  · rintro ⟨hsigned, hrefuses⟩
    refine Option.bind_eq_some_iff.mpr ⟨claims, hsigned, ?_⟩
    exact Option.bind_eq_some_iff.mpr ⟨false, toOption_ok.mpr hrefuses, rfl⟩

theorem not_ok_false {b : Bool} : (.ok (!b) : Except Thrown Bool) = .ok false ↔ b = true := by
  cases b <;> simp

/-- A text that is given and is not empty holds. -/
theorem misses_false {given : Option String} {holds : String → Except Thrown Bool}
    (h : misses given holds = .ok false) {text : String} (hgiven : given = some text)
    (hne : text ≠ "") : holds text = .ok true := by
  subst hgiven
  rw [misses, if_neg hne] at h
  cases hholds : holds text with
  | error e =>
    rw [hholds] at h
    cases h
  | ok b =>
    rw [hholds] at h
    rw [not_ok_false.mp h]

theorem map_ok {α β : Type} {f : α → β} {x : Except Thrown α} {y : β} :
    x.map f = .ok y ↔ ∃ a, x = .ok a ∧ f a = y := by
  cases x <;> simp [Except.map]

theorem timed_of_admits {issuer audience : String} {now : Rat} {claims : Value}
    (h : Admits issuer audience now claims) : Timed claims where
  expires := by
    obtain ⟨exp, hexp, hgt⟩ := h.expires
    refine isNumber_iff.mpr ⟨exp, hexp, ?_⟩
    rintro rfl
    cases hgt
  started := by
    refine h.started.imp_right ?_
    rintro ⟨nbf, hnbf, hle⟩
    refine isNumber_iff.mpr ⟨nbf, hnbf, ?_⟩
    rintro rfl
    cases hle

/-- Signed claims that are not refused are as they should be exactly when they are typed. -/
theorem accepts_typed_iff {v : OidcJwksVerifier} {token : String}
    {expectedTenant requiredRole : Option String} {claims : Value}
    (hsigned : v.signedClaims token = some claims)
    (hpasses : v.refuses expectedTenant requiredRole claims = .ok false) :
    v.Accepts token expectedTenant requiredRole claims ↔
      Typed expectedTenant requiredRole claims := by
  constructor
  · intro h
    refine ⟨timed_of_admits h.admitted, h.tenant "", ?_⟩
    intro role hrole
    obtain ⟨roles, hroles, hmem⟩ := h.role role hrole
    exact ⟨roles, hroles, fun hempty => hempty ▸ hmem⟩
  · intro htyped
    obtain ⟨_, -, hchecks⟩ := bind_ok.mp hpasses
    have hchecks := anyOf_false.mp hchecks
    unfold OidcJwksVerifier.checks at hchecks
    simp only [List.forall_mem_cons] at hchecks
    obtain ⟨hiss, haud, hexp, hnbf, hstatus, htenant, hrole, -⟩ := hchecks
    obtain ⟨exp, hexpField, hexpNan⟩ := isNumber_iff.mp htyped.expires
    refine ⟨hsigned, ⟨isText_iff.mp (not_ok_false.mp hiss),
      namesAudience_iff.mp (not_ok_false.mp haud), ⟨exp, hexpField, ?_⟩, ?_⟩, ?_, ?_, ?_⟩
    · rw [hexpField] at hexp
      obtain ⟨n, hn, hle⟩ := map_ok.mp hexp
      cases hn
      rw [gt_eq_not_le hexpNan, hle]
      rfl
    · refine htyped.started.imp_right fun hnumber => ?_
      obtain ⟨nbf, hnbfField, hnbfNan⟩ := isNumber_iff.mp hnumber
      refine ⟨nbf, hnbfField, ?_⟩
      rw [hnbfField, Option.elim_some] at hnbf
      obtain ⟨n, hn, hgt⟩ := map_ok.mp hnbf
      cases hn
      rw [gt_eq_not_le hnbfNan] at hgt
      simpa using hgt
    · intro hdisabled
      rw [isText_iff.mpr hdisabled] at hstatus
      cases hstatus
    · intro tenant hgiven
      by_cases hempty : tenant = ""
      · subst hempty
        exact htyped.tenant hgiven
      · exact isText_iff.mp (Except.ok.inj (misses_false htenant hgiven hempty))
    · intro role hgiven
      obtain ⟨roles, hroles, hemptyRole⟩ := htyped.role role hgiven
      refine ⟨roles, hroles, ?_⟩
      by_cases hempty : role = ""
      · subst hempty
        exact hemptyRole rfl
      · have hincludes := misses_false hrole hgiven hempty
        rw [hroles] at hincludes
        obtain ⟨x, hx, htext⟩ := List.any_eq_true.mp (Except.ok.inj hincludes)
        have := Option.some.inj (isText_iff.mp htext)
        exact this ▸ hx

/-! ## The second verifier -/

section
variable {κ : Type} {w : OidcIdentityVerifier κ} {claims : Value}

/-- Its condition is the one meant exactly when the times of the claims it lets pass are
numbers. -/
theorem admits_iff : (w.admits claims = true ↔ Admits w.issuer w.audience w.now claims) ↔
    (w.admits claims = true → Timed claims) := by
  constructor
  · intro hiff hadmits
    exact timed_of_admits (hiff.mp hadmits)
  · intro htimed
    unfold OidcIdentityVerifier.admits at htimed ⊢
    simp only [Bool.and_eq_true, isText_iff, namesAudience_iff] at htimed ⊢
    constructor
    · rintro ⟨⟨⟨hiss, haud⟩, hexp⟩, hnbf⟩
      have htimes := htimed ⟨⟨⟨hiss, haud⟩, hexp⟩, hnbf⟩
      obtain ⟨exp, hexpField, hexpNan⟩ := isNumber_iff.mp htimes.expires
      rw [hexpField] at hexp
      refine ⟨hiss, haud, ⟨exp, hexpField, ?_⟩, htimes.started.imp_right fun hnumber => ?_⟩
      · rw [gt_eq_not_le hexpNan]
        exact hexp
      · obtain ⟨nbf, hnbfField, hnbfNan⟩ := isNumber_iff.mp hnumber
        rw [hnbfField] at hnbf
        refine ⟨nbf, hnbfField, ?_⟩
        dsimp only at hnbf
        rw [gt_eq_not_le hnbfNan, Bool.not_not] at hnbf
        exact hnbf
    · intro h
      obtain ⟨exp, hexpField, hgt⟩ := h.expires
      have hexpNan : exp ≠ .nan := by
        rintro rfl
        cases hgt
      rw [gt_eq_not_le hexpNan] at hgt
      refine ⟨⟨⟨h.issuer, h.audience⟩, by rw [hexpField]; exact hgt⟩, ?_⟩
      rcases h.started with hnone | ⟨nbf, hnbfField, hle⟩
      · rw [hnone]
      · have hnbfNan : nbf ≠ .nan := by
          rintro rfl
          cases hle
        rw [hnbfField]
        dsimp only
        rw [gt_eq_not_le hnbfNan, hle]
        rfl

/-- A principal comes from claims that are admitted. -/
theorem verify_admits {authorization : Option String} {principal : OidcPrincipal}
    (h : w.verify authorization = .ok (some principal)) :
    ∃ head claims signingInput signature,
      (OidcIdentityVerifier.bearer authorization).bind w.parts =
        some (head, claims, signingInput, signature) ∧ w.admits claims = true := by
  unfold OidcIdentityVerifier.verify at h
  split at h
  · cases h
  · next head claims signingInput signature hparts =>
    refine ⟨head, claims, signingInput, signature, hparts, ?_⟩
    obtain ⟨_, -, h⟩ := bind_ok.mp h
    split at h
    · cases h
    · obtain ⟨_, -, h⟩ := bind_ok.mp h
      split at h
      · cases h
      · next hadmits => simpa using hadmits

end

/-! ## Both verifiers -/

/-- A token that is accepted is as it should be. -/
def OidcJwksVerifier.Sound (v : OidcJwksVerifier) (token : String)
    (expectedTenant requiredRole : Option String) : Prop :=
  ∀ claims, v.verifyToken token expectedTenant requiredRole = some claims →
    v.Accepts token expectedTenant requiredRole claims

/-- A principal comes from claims that pass the checks of the verifier, which admit just what
they should of the claims of the request. -/
def OidcIdentityVerifier.Sound {κ : Type} (w : OidcIdentityVerifier κ)
    (authorization : Option String) : Prop :=
  (∀ principal, w.verify authorization = .ok (some principal) →
    ∃ claims, w.claims authorization = some claims ∧ w.admits claims = true) ∧
  ∀ claims, w.claims authorization = some claims →
    (w.admits claims = true ↔ Admits w.issuer w.audience w.now claims)

/-- **Acceptance.** For all verifiers, tokens and requests: what the verifier of tokens accepts is
signed, meant for it, current, and of the tenant and role that are asked for, and the verifier of
requests has the same condition on issuer, audience, expiry and start, exactly when the signed
claims that are not refused are typed and those that are admitted are timed. -/
theorem acceptance_iff {κ : Type} (v : OidcJwksVerifier) (w : OidcIdentityVerifier κ)
    (token : String) (expectedTenant requiredRole authorization : Option String) :
    v.Sound token expectedTenant requiredRole ∧ w.Sound authorization ↔
      (∀ claims, v.signedClaims token = some claims →
        v.refuses expectedTenant requiredRole claims = .ok false →
          Typed expectedTenant requiredRole claims) ∧
      ∀ claims, w.claims authorization = some claims → w.admits claims = true → Timed claims := by
  refine and_congr ?_ ?_
  · constructor
    · intro hsound claims hsigned hpasses
      exact (accepts_typed_iff hsigned hpasses).mp
        (hsound claims (verifyToken_some.mpr ⟨hsigned, hpasses⟩))
    · intro htyped claims hverified
      obtain ⟨hsigned, hpasses⟩ := verifyToken_some.mp hverified
      exact (accepts_typed_iff hsigned hpasses).mpr (htyped claims hsigned hpasses)
  · unfold OidcIdentityVerifier.Sound
    refine (and_iff_right ?_).trans (forall_congr' fun claims => imp_congr_right fun _ => admits_iff)
    intro principal hverified
    obtain ⟨head, claims, signingInput, signature, hparts, hadmits⟩ := verify_admits hverified
    exact ⟨claims, by rw [OidcIdentityVerifier.claims, hparts]; rfl, hadmits⟩

/-! ## A token without an expiry -/

/-- A verifier that trusts one signature and decodes one header and one set of claims. -/
def sampleOidc : OidcJwksVerifier where
  js := Runtime.sample
  issuer := "https://id.example"
  audience := "edon"
  verifySignature _ _ signature := .ok (signature = "c2ln")
  now := 1784910600
  decode part :=
    if part = "eyJhbGciOiJSUzI1NiJ9" then some (.obj [("alg", .str "RS256")])
    else if part = "eyJpc3MiOiJodHRwczovL2lkLmV4YW1wbGUiLCJhdWQiOiJlZG9uIn0" then
      some (.obj [("iss", .str "https://id.example"), ("aud", .str "edon")])
    else none

def endlessToken : String :=
  "eyJhbGciOiJSUzI1NiJ9.eyJpc3MiOiJodHRwczovL2lkLmV4YW1wbGUiLCJhdWQiOiJlZG9uIn0.c2ln"

theorem accepted_without_expiry : ¬ sampleOidc.Sound endlessToken none none := by
  intro hsound
  have haccepted : sampleOidc.verifyToken endlessToken none none =
      some (.obj [("iss", .str "https://id.example"), ("aud", .str "edon")]) := by
    rfl
  obtain ⟨exp, hexp, -⟩ := (hsound _ haccepted).admitted.expires
  cases hexp

end Edon.Platform
