import EdonPlatform.Common.KeyScan

/- What the agent gateway accepts as the payload of a message (edon/gateway/models.py).

   What is proved: an accepted payload has no credential or authority field at any depth
   and in any letter case, and claims no binding authority (`validateUntrustedPayload_clean`).

   Correspondence (Python ↔ Lean):
     `CREDENTIAL_VALUE_FIELDS`, `AUTHORITY_FIELDS` ↔ `credentialValueFields`, `authorityFields`
     `_unsafe_paths`              ↔ `unsafePaths`
     `validate_untrusted_payload` ↔ `validateUntrustedPayload` -/
namespace Edon.Gateway

def gatewayError (message : String) : PyError := ⟨.agentGatewayError, message⟩

def credentialValueFields : List String :=
  ["access_token", "refresh_token", "client_secret", "api_key", "password", "private_key",
   "bearer_token"]

def authorityFields : List String :=
  ["authorization_ref", "execution_token", "kernel_token", "binding_eligible", "commit",
   "committed"]

def maxGatewayPayloadBytes : Nat := 1048576

def unsafeTests : List (String → PyValue → Bool) :=
  [fun key _ => lower key ∈ credentialValueFields || lower key ∈ authorityFields,
   fun key child => lower key = "binding_authority" && !(child matches .bool false)]

/-- `_unsafe_paths`. -/
def unsafePaths (pre : String) (value : PyValue) : List String :=
  scan unsafeTests dottedPath pre value

def validateUntrustedPayload (I : Interpreter) (payload : PyValue) : Except PyError PyValue := do
  require (payload matches .dict _) (gatewayError "gateway payload must be a JSON object")
  let paths := sortedSet (unsafePaths "" payload)
  require paths.isEmpty (gatewayError
    ("gateway payload contains credential or authority fields: " ++ ", ".intercalate paths))
  require ((payload.canonicalJson I).utf8ByteSize ≤ maxGatewayPayloadBytes)
    (gatewayError "gateway payload exceeds the 1 MiB normalized limit")
  return payload

theorem passes_unsafeTests {key : String} {child : PyValue} (h : Passes unsafeTests key child) :
    lower key ∉ credentialValueFields ++ authorityFields ∧
      (lower key = "binding_authority" → child = .bool false) := by
  constructor
  · intro hmem
    have hfield := h _ (List.mem_cons_self ..)
    rw [List.mem_append] at hmem
    rcases hmem with hmem | hmem <;> simp [hmem] at hfield
  · intro hkey
    have hvalue := h _ (List.mem_cons_of_mem _ (List.mem_cons_self ..))
    rw [hkey] at hvalue
    cases child with
    | bool b => cases b with
      | false => rfl
      | true => cases hvalue
    | _ => cases hvalue

/-- **An accepted payload is clean.** -/
theorem validateUntrustedPayload_clean {I : Interpreter} {payload out : PyValue}
    (h : validateUntrustedPayload I payload = .ok out) :
    payload.Clean (credentialValueFields ++ authorityFields) := by
  obtain ⟨_, _, h⟩ := bind_ok.mp h
  obtain ⟨_, hscan, _⟩ := bind_ok.mp h
  exact (scan_checked hscan).imp fun _ _ => passes_unsafeTests

end Edon.Gateway
