import EdonPlatform.Kernel.Tokens
import EdonPlatform.Lib.JsonReader

/- What the parsing of a token comes to, over every text (edon/kernel/tokens.py,
   `decode_and_verify_signature`). Here the payload is any text that is signed, not only one that
   the authority has written: the base64 is read as `binascii.a2b_base64` reads it, and the JSON
   as `json.loads` does.

   What is proved:
     1. `decode_ok_iff` — claims are returned exactly of a token that is signed.
     2. `token_parsing_iff` — nothing but a KernelTokenError is raised exactly when both parts of
        the token are ASCII and its payload, if it is signed, reaches no limit of the interpreter.
     3. `signature_not_ascii` — a signature that is not ASCII.

   Correspondence (Python ↔ Lean):
     `_b64decode`                   ↔ `b64decode`
     `_sign`                        ↔ `sign`
     `hmac.compare_digest`          ↔ `compareDigest`
     `decode_and_verify_signature`  ↔ `decodeAndVerifySignature` -/
namespace Edon.Kernel.Parsing
open JsonReader

/-- An exception; the last three are not caught. -/
inductive Raised where
  | kernelTokenError (message : String)
  | unicodeEncodeError
  | typeError
  | recursionError
  | valueError
  deriving DecidableEq, Repr

/-! ## Base64 -/

/-- The six-bit number of a letter; `urlsafe_b64decode` has put `+` and `/` for `-` and `_`. -/
def sextet (c : Char) : Option Nat :=
  if c = '+' ∨ c = '-' then some 62
  else if c = '/' ∨ c = '_' then some 63
  else Base64.value c

/-- `binascii.a2b_base64`, which passes over what is not a letter and stops where a group is
padded: `quad` letters of a group are read, `left` is what the last of them leaves. -/
def a2bBase64 (quad left pads : Nat) : List Char → Option (List UInt8)
  | [] => if quad = 0 then some [] else none
  | c :: r =>
    if c = '=' then
      if 2 ≤ quad then
        if 4 ≤ quad + pads + 1 then some [] else a2bBase64 quad left (pads + 1) r
      else a2bBase64 quad left pads r
    else match sextet c with
      | none => a2bBase64 quad left pads r
      | some n =>
        match quad with
        | 0 => a2bBase64 1 n 0 r
        | 1 => (a2bBase64 2 (n % 16) 0 r).map (UInt8.ofNat (left * 4 + n / 16) :: ·)
        | 2 => (a2bBase64 3 (n % 4) 0 r).map (UInt8.ofNat (left * 16 + n / 4) :: ·)
        | _ => (a2bBase64 0 0 0 r).map (UInt8.ofNat (left * 64 + n) :: ·)

def b64decode (value : List Char) : Except Raised (List UInt8) :=
  let padding := List.replicate ((4 - value.length % 4) % 4) '='
  match isAscii (String.ofList value), a2bBase64 0 0 0 (value ++ padding) with
  | true, some bs => .ok bs
  | _, _ => .error (.kernelTokenError "execution token contains invalid base64")

/-! ## Tokens -/

section
variable (authority : Authority) (l : Limits)

def sign (segment : List Char) : Except Raised (List Char) :=
  if isAscii (String.ofList segment) then .ok (Kernel.sign authority (String.ofList segment)).toList
  else .error .unicodeEncodeError

def compareDigest (a b : List Char) : Except Raised Bool :=
  if isAscii (String.ofList a) ∧ isAscii (String.ofList b) then .ok (a = b) else .error .typeError

/-- `json.loads(...)`, of whose exceptions a `JSONDecodeError` is caught. -/
def loadsPayload (text : String) : Except Raised Value :=
  match loads l text.toList with
  | .ok v => .ok v
  | .error .malformed => .error (.kernelTokenError "execution token payload is invalid")
  | .error .tooLong => .error .valueError
  -- a reader with too little fuel, which `loads` is not, would be too deep as well
  | .error .tooDeep | .error .unfinished => .error .recursionError

/-- `json.loads(bytes.decode("utf-8"))`, of whose exceptions a `UnicodeDecodeError` is caught too. -/
def loadsBytes (bytes : List UInt8) : Except Raised Value :=
  match decodeUtf8 bytes with
  | some text => loadsPayload l text
  | none => .error (.kernelTokenError "execution token payload is invalid")

def readPayload (segment : List Char) : Except Raised Value := do
  let bytes ← b64decode segment
  loadsBytes l bytes

/-- `if not isinstance(payload, dict)`. -/
def claimsOf : Value → Except Raised (List (List Nat × Value))
  | .obj claims => .ok claims
  | _ => .error (.kernelTokenError "execution token payload must be an object")

def decodeAndVerifySignature (token : String) : Except Raised (List (List Nat × Value)) :=
  match token.toList.splitOn '.' with
  | [payloadSegment, suppliedSignature] => do
    let expectedSignature ← sign authority payloadSegment
    let same ← compareDigest suppliedSignature expectedSignature
    require same (.kernelTokenError "execution token signature is invalid")
    let payload ← readPayload l payloadSegment
    claimsOf payload
  | _ => .error (.kernelTokenError "execution token must contain payload and signature")

/-- The token is signed, and its payload reads as the claims. -/
def Signed (token : String) (claims : List (List Nat × Value)) : Prop :=
  ∃ payload signature, token.toList.splitOn '.' = [payload, signature] ∧
    String.ofList signature = Kernel.sign authority (String.ofList payload) ∧
    readPayload l payload = .ok (.obj claims)

/-- A call returns the claims of a signed token and raises a KernelTokenError for any other. -/
structure Handled (token : String) (result : Except Raised (List (List Nat × Value))) : Prop where
  returned : ∀ claims, result = .ok claims ↔ Signed authority l token claims
  raised : ∀ e, result = .error e → ∃ message, e = .kernelTokenError message

/-- No limit of the interpreter is reached in the text of the payload. -/
def Unlimited (payload : List Char) : Prop :=
  ∀ bytes text, b64decode payload = .ok bytes → decodeUtf8 bytes = some text →
    loads l text.toList ≠ .error .tooDeep ∧ loads l text.toList ≠ .error .tooLong

/-- Both parts of the token are ASCII, and the payload reaches no limit if it is signed. -/
def Plain (token : String) : Prop :=
  ∀ payload signature, token.toList.splitOn '.' = [payload, signature] →
    isAscii (String.ofList payload) = true ∧ isAscii (String.ofList signature) = true ∧
      (String.ofList signature = Kernel.sign authority (String.ofList payload) →
        Unlimited l payload)

end

/-! ## The payload -/

section
variable {authority : Authority} {l : Limits} {token : String} {payload signature : List Char}

theorem b64decode_ok {bytes : List UInt8} (h : b64decode payload = .ok bytes) :
    isAscii (String.ofList payload) = true := by
  unfold b64decode at h
  dsimp only at h
  split at h
  · next hascii _ => exact hascii
  · cases h

theorem b64decode_error {e : Raised} (h : b64decode payload = .error e) :
    ∃ message, e = .kernelTokenError message := by
  unfold b64decode at h
  dsimp only at h
  split at h
  · cases h
  · cases h
    exact ⟨_, rfl⟩

theorem loadsPayload_caught_iff (text : String) :
    (∀ e, loadsPayload l text = .error e → ∃ message, e = .kernelTokenError message) ↔
      loads l text.toList ≠ .error .tooDeep ∧ loads l text.toList ≠ .error .tooLong := by
  unfold loadsPayload
  cases hloads : loads l text.toList with
  | ok v => simp
  | error e =>
    cases e with
    | malformed => simp
    | tooDeep => simp
    | tooLong => simp
    | unfinished =>
      rcases loads_failure hloads with h | ⟨h, _⟩ | ⟨h, _⟩ <;> cases h

theorem loadsBytes_caught_iff (bytes : List UInt8) :
    (∀ e, loadsBytes l bytes = .error e → ∃ message, e = .kernelTokenError message) ↔
      ∀ text, decodeUtf8 bytes = some text →
        loads l text.toList ≠ .error .tooDeep ∧ loads l text.toList ≠ .error .tooLong := by
  unfold loadsBytes
  cases decodeUtf8 bytes with
  | none => simp
  | some text => simp [loadsPayload_caught_iff]

/-- Reading a payload raises nothing else where it reaches no limit. -/
theorem readPayload_caught_iff :
    (∀ e, readPayload l payload = .error e → ∃ message, e = .kernelTokenError message) ↔
      Unlimited l payload := by
  unfold readPayload Unlimited
  cases hbytes : b64decode payload with
  | error e =>
    refine iff_of_true ?_ ?_
    · intro e' he'
      cases he'
      exact b64decode_error hbytes
    · intro bytes text h
      cases h
  | ok bytes =>
    refine (loadsBytes_caught_iff bytes).trans ?_
    constructor
    · intro h bytes' text hb
      cases hb
      exact h text
    · intro h text
      exact h bytes text rfl

/-! ## The token -/

theorem isAscii_sign (segment : String) : isAscii (Kernel.sign authority segment) = true :=
  isAscii_b64encode _

/-- Two parts that are ASCII: the signature is compared and the payload read. -/
theorem decode_of_ascii (hsplit : token.toList.splitOn '.' = [payload, signature])
    (hpayload : isAscii (String.ofList payload) = true)
    (hsignature : isAscii (String.ofList signature) = true) :
    decodeAndVerifySignature authority l token = (do
      require (String.ofList signature = Kernel.sign authority (String.ofList payload))
        (.kernelTokenError "execution token signature is invalid")
      claimsOf (← readPayload l payload)) := by
  have hcompared : compareDigest signature (Kernel.sign authority (String.ofList payload)).toList =
      .ok (String.ofList signature = Kernel.sign authority (String.ofList payload)) := by
    have hexpected : isAscii (String.ofList
        (Kernel.sign authority (String.ofList payload)).toList) = true := by
      rw [String.ofList_toList]
      exact isAscii_sign _
    have hsame : signature = (Kernel.sign authority (String.ofList payload)).toList ↔
        String.ofList signature = Kernel.sign authority (String.ofList payload) := by
      constructor
      · intro h
        rw [h, String.ofList_toList]
      · intro h
        rw [← h, String.toList_ofList]
    rw [compareDigest, if_pos ⟨hsignature, hexpected⟩]
    exact congrArg Except.ok (decide_eq_decide.mpr hsame)
  rw [decodeAndVerifySignature, hsplit]
  dsimp only
  rw [sign, if_pos hpayload]
  show (compareDigest signature _ >>= _) = _
  rw [hcompared]
  rfl

theorem decode_of_not_ascii (hsplit : token.toList.splitOn '.' = [payload, signature])
    (hpayload : isAscii (String.ofList payload) = false) :
    decodeAndVerifySignature authority l token = .error .unicodeEncodeError := by
  rw [decodeAndVerifySignature, hsplit]
  dsimp only
  rw [sign, if_neg (Bool.eq_false_iff.mp hpayload)]
  rfl

theorem decode_of_signature (hsplit : token.toList.splitOn '.' = [payload, signature])
    (hpayload : isAscii (String.ofList payload) = true)
    (hsignature : isAscii (String.ofList signature) = false) :
    decodeAndVerifySignature authority l token = .error .typeError := by
  have hnot : ¬ (isAscii (String.ofList signature) = true ∧ isAscii (String.ofList
      (Kernel.sign authority (String.ofList payload)).toList) = true) :=
    fun h => Bool.eq_false_iff.mp hsignature h.1
  rw [decodeAndVerifySignature, hsplit]
  dsimp only
  rw [sign, if_pos hpayload]
  show (compareDigest signature _ >>= _) = _
  rw [compareDigest, if_neg hnot]
  rfl

theorem claimsOf_ok {v : Value} {claims : List (List Nat × Value)} :
    claimsOf v = .ok claims ↔ v = .obj claims := by
  cases v <;> simp [claimsOf]

theorem claimsOf_error {v : Value} {e : Raised} (h : claimsOf v = .error e) :
    ∃ message, e = .kernelTokenError message := by
  cases v <;> cases h <;> exact ⟨_, rfl⟩

/-- Two parts, or an error that is caught. -/
theorem parts_cases (authority : Authority) (l : Limits) (token : String) :
    (∃ payload signature, token.toList.splitOn '.' = [payload, signature]) ∨
      (∀ payload signature, token.toList.splitOn '.' ≠ [payload, signature]) ∧
        decodeAndVerifySignature authority l token =
          .error (.kernelTokenError "execution token must contain payload and signature") := by
  unfold decodeAndVerifySignature
  split
  · next payload signature hsplit => exact .inl ⟨payload, signature, hsplit⟩
  · next hnot => exact .inr ⟨hnot, rfl⟩

/-- **What is returned.** The claims of a signed token, and nothing else. -/
theorem decode_ok_iff {claims : List (List Nat × Value)} :
    decodeAndVerifySignature authority l token = .ok claims ↔ Signed authority l token claims := by
  rcases parts_cases authority l token with ⟨payload, signature, hsplit⟩ | ⟨hnot, herror⟩
  · have hparts : ∀ payload' signature', token.toList.splitOn '.' = [payload', signature'] →
        payload' = payload ∧ signature' = signature := by
      intro payload' signature' h
      rw [hsplit] at h
      cases h
      exact ⟨rfl, rfl⟩
    constructor
    · intro h
      cases hpayload : isAscii (String.ofList payload) with
      | false =>
        rw [decode_of_not_ascii hsplit hpayload] at h
        cases h
      | true =>
        cases hsignature : isAscii (String.ofList signature) with
        | false =>
          rw [decode_of_signature hsplit hpayload hsignature] at h
          cases h
        | true =>
          rw [decode_of_ascii hsplit hpayload hsignature] at h
          obtain ⟨_, hsame, h⟩ := bind_ok.mp h
          obtain ⟨v, hread, h⟩ := bind_ok.mp h
          obtain rfl := claimsOf_ok.mp h
          exact ⟨payload, signature, hsplit, of_decide_eq_true (require_ok.mp hsame), hread⟩
    · rintro ⟨payload', signature', hsplit', hsame, hread⟩
      obtain ⟨rfl, rfl⟩ := hparts _ _ hsplit'
      have hpayload : isAscii (String.ofList payload') = true := by
        obtain ⟨bytes, hbytes, _⟩ := bind_ok.mp hread
        exact b64decode_ok hbytes
      have hsignature : isAscii (String.ofList signature') = true := by
        rw [hsame]
        exact isAscii_sign _
      rw [decode_of_ascii hsplit hpayload hsignature]
      refine bind_ok.mpr ⟨(), require_ok.mpr (decide_eq_true hsame), ?_⟩
      exact bind_ok.mpr ⟨_, hread, rfl⟩
  · rw [herror]
    refine iff_of_false (fun h => by cases h) ?_
    rintro ⟨payload, signature, hsplit, _⟩
    exact hnot _ _ hsplit

/-- What is raised of a token of two parts. -/
theorem raised_iff (hsplit : token.toList.splitOn '.' = [payload, signature]) :
    (∀ e, decodeAndVerifySignature authority l token = .error e →
        ∃ message, e = .kernelTokenError message) ↔
      isAscii (String.ofList payload) = true ∧ isAscii (String.ofList signature) = true ∧
        (String.ofList signature = Kernel.sign authority (String.ofList payload) →
          Unlimited l payload) := by
  cases hpayload : isAscii (String.ofList payload) with
  | false =>
    rw [decode_of_not_ascii hsplit hpayload]
    simp
  | true =>
    cases hsignature : isAscii (String.ofList signature) with
    | false =>
      rw [decode_of_signature hsplit hpayload hsignature]
      simp
    | true =>
      rw [decode_of_ascii hsplit hpayload hsignature]
      by_cases hsame : String.ofList signature = Kernel.sign authority (String.ofList payload)
      · have hread : (do
            require (String.ofList signature = Kernel.sign authority (String.ofList payload))
              (.kernelTokenError "execution token signature is invalid")
            claimsOf (← readPayload l payload)) = readPayload l payload >>= claimsOf := by
          rw [require, if_pos (decide_eq_true hsame)]
          rfl
        rw [hread]
        have hunlimited : Unlimited l payload ↔ true = true ∧ true = true ∧
            (String.ofList signature = Kernel.sign authority (String.ofList payload) →
              Unlimited l payload) :=
          ⟨fun h => ⟨rfl, rfl, fun _ => h⟩, fun h => h.2.2 hsame⟩
        refine Iff.trans ?_ (readPayload_caught_iff.trans hunlimited)
        constructor
        · intro h e he
          exact h e (Fallible.bind_error.mpr (.inl he))
        · intro h e he
          rcases Fallible.bind_error.mp he with he | ⟨v, _, he⟩
          · exact h e he
          · exact claimsOf_error he
      · have hinvalid : (do
            require (String.ofList signature = Kernel.sign authority (String.ofList payload))
              (Raised.kernelTokenError "execution token signature is invalid")
            claimsOf (← readPayload l payload)) =
              .error (Raised.kernelTokenError "execution token signature is invalid") := by
          rw [require, if_neg (fun h => hsame (of_decide_eq_true h))]
          rfl
        rw [hinvalid]
        refine iff_of_true ?_ ⟨rfl, rfl, fun h => absurd h hsame⟩
        intro e he
        cases he
        exact ⟨_, rfl⟩

end

section
variable {authority : Authority} {l : Limits} {token : String}

/-- A token that is ASCII, with a payload that is no longer than the limits. -/
theorem plain_of_short (hascii : isAscii token = true)
    (hshort : ∀ payload signature bytes text, token.toList.splitOn '.' = [payload, signature] →
      b64decode payload = .ok bytes → decodeUtf8 bytes = some text →
        text.toList.length ≤ l.depth ∧ text.toList.length ≤ l.digits) : Plain authority l token := by
  intro payload signature hsplit
  have htoken : token.toList = payload ++ '.' :: signature := by
    have hjoined : ['.'].intercalate (token.toList.splitOn '.') = token.toList :=
      List.intercalate_splitOn '.'
    rw [← hjoined, hsplit]
    simp [List.intercalate]
  have hall : ∀ c ∈ payload ++ '.' :: signature, c.toNat < 128 := by
    rw [← htoken]
    exact fun c hc => of_decide_eq_true (List.all_eq_true.mp hascii c hc)
  refine ⟨?_, ?_, fun _ bytes text hbytes htext => ?_⟩
  · unfold isAscii
    rw [String.toList_ofList, List.all_eq_true]
    exact fun c hc => decide_eq_true (hall c (List.mem_append_left _ hc))
  · unfold isAscii
    rw [String.toList_ofList, List.all_eq_true]
    exact fun c hc => decide_eq_true (hall c (List.mem_append_right _ (List.mem_cons_of_mem _ hc)))
  · obtain ⟨hdepth, hdigits⟩ := hshort payload signature bytes text hsplit hbytes htext
    refine ⟨fun h => ?_, fun h => ?_⟩
    · rcases loads_failure h with h | ⟨_, hlong⟩ | ⟨h, _⟩
      · cases h
      · omega
      · cases h
    · rcases loads_failure h with h | ⟨h, _⟩ | ⟨_, hlong⟩
      · cases h
      · cases h
      · omega

end

/-- **Parsing a token.** For every text: a call returns the claims of a signed token and raises a
KernelTokenError for any other, exactly when both parts of the token are ASCII and its payload, if
it is signed, reaches no limit of the interpreter. -/
theorem token_parsing_iff (authority : Authority) (l : Limits) (token : String) :
    Handled authority l token (decodeAndVerifySignature authority l token) ↔
      Plain authority l token := by
  have hraised : Handled authority l token (decodeAndVerifySignature authority l token) ↔
      ∀ e, decodeAndVerifySignature authority l token = .error e →
        ∃ message, e = .kernelTokenError message :=
    ⟨fun h => h.raised, fun h => ⟨fun _ => decode_ok_iff, h⟩⟩
  rw [hraised]
  rcases parts_cases authority l token with ⟨payload, signature, hsplit⟩ | ⟨hnot, herror⟩
  · refine (raised_iff hsplit).trans ?_
    constructor
    · intro h payload' signature' hsplit'
      rw [hsplit] at hsplit'
      cases hsplit'
      exact h
    · intro h
      exact h payload signature hsplit
  · rw [herror]
    refine iff_of_true ?_ (fun payload signature hsplit => absurd hsplit (hnot _ _))
    intro e he
    cases he
    exact ⟨_, rfl⟩

/-! ## A signature that is not ASCII -/

/-- A token of the empty claims, whose signature is a letter with an accent. -/
theorem signature_not_ascii : ¬ ∀ (authority : Authority) (l : Limits) (token : String),
    Handled authority l token (decodeAndVerifySignature authority l token) := by
  intro hall
  have hsplit : "e30.é".toList.splitOn '.' = [['e', '3', '0'], ['é']] := by decide
  have hraised : ∀ authority l, decodeAndVerifySignature authority l "e30.é" = .error .typeError :=
    fun _ _ => decode_of_signature hsplit (by decide) (by decide)
  obtain ⟨message, hmessage⟩ :=
    (hall ⟨"kernel-local-v1", fun _ => []⟩ ⟨1000, 4300⟩ "e30.é").raised _ (hraised _ _)
  cases hmessage

end Edon.Kernel.Parsing
