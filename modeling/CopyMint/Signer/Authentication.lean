import CopyMint.Library.Fallible
import CopyMint.Library.Interleaving
import CopyMint.Library.Rounding
import CopyMint.Signer.Storage

/-!
# Authentication of signer requests

A request to the signer is signed over its claims and the hash of its body: the
signed text is a line for each claim and one for the hash. A request that passes
the check of its signature claims its identifier, which is stored for good.
Timestamps are in microseconds, except for that of a request, which is in seconds.
-/

namespace CopyMint

open Hexadecimal Relational Fallible Interleaving

/-- `Field(min_length=16, max_length=128)`. -/
abbrev IdempotencyKey := { key : Text // 16 ≤ key.length ∧ key.length ≤ 128 }

/-- `CreateWalletRequest`. -/
structure CreateWalletRequest where
  workspaceId : Uuid
  chainId : ℕ
  idempotencyKey : IdempotencyKey
  correlationId : Uuid
  /-- `Literal[1]`. -/
  mainnet : chainId ∈ [1]
  deriving DecidableEq

/-- `RestoreRequest`. -/
structure RestoreRequest extends CreateWalletRequest where
  signerKeyId : Uuid
  deriving DecidableEq

/-- A body that one of the two endpoints accepts. -/
inductive SignerRequestBody where
  | create (request : CreateWalletRequest)
  | restore (request : RestoreRequest)
  deriving DecidableEq

namespace SignerRequestBody

/-- The action that the endpoint of a body authenticates. -/
def action : SignerRequestBody → Text
  | create _ => "wallet.create".toList
  | restore _ => "wallet.restore".toList

/-- The fields that both bodies have. -/
def fields : SignerRequestBody → CreateWalletRequest
  | create request => request
  | restore request => request.toCreateWalletRequest

/-- `model_dump(mode="json")`. -/
def requestBody : SignerRequestBody → Json
  | create request => .obj
      [("workspace_id".toList, .str (uuidText request.workspaceId)),
        ("chain_id".toList, .int request.chainId),
        ("idempotency_key".toList, .str request.idempotencyKey),
        ("correlation_id".toList, .str (uuidText request.correlationId))]
  | restore request => .obj
      [("signer_key_id".toList, .str (uuidText request.signerKeyId)),
        ("workspace_id".toList, .str (uuidText request.workspaceId)),
        ("chain_id".toList, .int request.chainId),
        ("idempotency_key".toList, .str request.idempotencyKey),
        ("correlation_id".toList, .str (uuidText request.correlationId))]

end SignerRequestBody

/-- `SignerClaims`. -/
structure SignerClaims where
  action : Text
  caller : Text
  workspaceId : ℕ
  chainId : ℕ
  idempotencyKey : Text
  correlationId : ℕ
  requestId : ℕ
  issuedAt : ℤ
  deriving DecidableEq

variable (primitives : Primitives)

/-- `canonical_body`. -/
def canonicalBody (body : Json) : Bytes := Json.utf8 body.dumps

/-- `"\n".join(parts)`. -/
def joinLines : List Text → Text
  | [] => []
  | [part] => part
  | part :: parts => part ++ '\n' :: joinLines parts

/-- `int(instant.timestamp())`. -/
def timestampSeconds (instant : ℤ) : ℤ := Rounding.truncated instant 1000000

/-- The lines that are signed. -/
def claimsText (claims : SignerClaims) (body : Json) : Text :=
  joinLines
    [claims.action, claims.caller, uuidText claims.workspaceId, Json.decimal claims.chainId,
      claims.idempotencyKey, uuidText claims.correlationId, uuidText claims.requestId,
      Json.decimal (timestampSeconds claims.issuedAt),
      hex (primitives.sha256 (canonicalBody body)).val]

/-- `canonical_claims`. -/
def canonicalClaims (claims : SignerClaims) (body : Json) : Bytes :=
  Json.utf8 (claimsText primitives claims body)

/-- What makes a request fail before it reaches the wallets. -/
inductive SignerFailure where
  | httpException (statusCode : ℕ) (code : Text)
  /-- `datetime` accepts the years 1 to 9999 only. -/
  | timestampOutOfRange
  /-- `hmac.compare_digest` does not compare text beyond ASCII. -/
  | notAscii
  deriving DecidableEq

/-- What `verify_claims` raises. -/
inductive VerificationError where
  | signerAuthenticationError (message : String)
  | typeError
  deriving DecidableEq

/-- `hmac.new(key, message, hashlib.sha256).digest()`. -/
abbrev Hmac := Bytes → Bytes → BytesOf 32

variable (hmac : Hmac)

/-- `sign_claims`. -/
def signClaims (secret : Text) (claims : SignerClaims) (body : Json) : Text :=
  hex (hmac (Json.utf8 secret) (canonicalClaims primitives claims body)).val

/-- `timedelta(seconds=seconds)` in microseconds. -/
def timedelta (seconds : ℤ) : ℤ := seconds * 1000000

/-- The age up to which claims are accepted. -/
def authMaxAge : ℤ := timedelta 60

/-- `str.isascii`. -/
def isAscii (text : Text) : Bool := text.all fun character => character.toNat < 128

/-- `verify_claims`. -/
def verifyClaims (secret : Text) (claims : SignerClaims) (body : Json) (signature : Text)
    (now : ℤ) : Except VerificationError Unit :=
  let age := now - claims.issuedAt
  if age < -timedelta 5 ∨ age > timedelta 60 then
    .error (.signerAuthenticationError "signer request is expired")
  else
    let expected := signClaims primitives hmac secret claims body
    if signature.length ≠ 64 then
      .error (.signerAuthenticationError "signer request authentication failed")
    else if !isAscii signature then .error .typeError
    else if signature ≠ expected then
      .error (.signerAuthenticationError "signer request authentication failed")
    else .ok ()

/-- `datetime.fromtimestamp(timestamp, tz=UTC)`. -/
def fromTimestamp (timestamp : ℤ) : Except SignerFailure ℤ :=
  if -62135596800 ≤ timestamp ∧ timestamp ≤ 253402300799 then .ok (timedelta timestamp)
  else .error .timestampOutOfRange

/-- The arguments of a call of `authenticate`. -/
structure SignerCall where
  body : SignerRequestBody
  caller : Text
  requestId : Uuid
  timestamp : ℤ
  signature : Text
  deriving DecidableEq

/-- The claims of a call. -/
def SignerCall.claims (call : SignerCall) (issuedAt : ℤ) : SignerClaims where
  action := call.body.action
  caller := call.caller
  workspaceId := call.body.fields.workspaceId
  chainId := call.body.fields.chainId
  idempotencyKey := call.body.fields.idempotencyKey
  correlationId := call.body.fields.correlationId
  requestId := call.requestId
  issuedAt

/-- The first half of `authenticate`, up to the claim of the request identifier. -/
def verifyCall (secret : Text) (call : SignerCall) (now : ℤ) :
    Except SignerFailure SignerClaims := do
  let issuedAt ← fromTimestamp call.timestamp
  let claims := call.claims issuedAt
  match verifyClaims primitives hmac secret claims call.body.requestBody call.signature now with
  | .ok () => .ok claims
  | .error (.signerAuthenticationError _) =>
      .error (.httpException 401 "signer_authentication_failed".toList)
  | .error .typeError => .error .notAscii

/-- A row of `signer_request_replays`. -/
structure SignerRequestReplay where
  requestId : ℕ
  expiresAt : ℤ
  deriving DecidableEq

/-- The table `signer_request_replays`. -/
abbrev SignerRequestReplays := List SignerRequestReplay

/-- Insert a request identifier unless it is there; the result tells whether it was new. -/
def SignerRequestReplays.claim (requestId : ℕ) (expiresAt : ℤ) (replays : SignerRequestReplays) :
    SignerRequestReplays × Bool :=
  (insertOrIgnore SignerRequestReplay.requestId ⟨requestId, expiresAt⟩ replays,
    (lookup SignerRequestReplay.requestId requestId replays).isNone)

/-- The second half of `authenticate`. -/
def claimCall (claims : SignerClaims) (replays : SignerRequestReplays) :
    SignerRequestReplays × Except SignerFailure Unit :=
  match replays.claim claims.requestId (claims.issuedAt + authMaxAge) with
  | (replays, true) => (replays, .ok ())
  | (replays, false) => (replays, .error (.httpException 409 "signer_request_replayed".toList))

section Body

/-- The text of a body up to the member in which the two kinds of bodies differ. -/
def opening (request : CreateWalletRequest) (rest : Text) : Text :=
  '\x7b' :: Json.member ("chain_id".toList, Json.decimal request.chainId) ++
    ',' :: (Json.member ("correlation_id".toList, Json.quote (uuidText request.correlationId)) ++
      ',' :: (Json.member ("idempotency_key".toList, Json.quote request.idempotencyKey) ++
        ',' :: rest))

/-- The text of a body from the member of its workspace on. -/
def closing (request : CreateWalletRequest) : Text :=
  Json.member ("workspace_id".toList, Json.quote (uuidText request.workspaceId)) ++ ['\x7d']

theorem sorted_create (workspace chain key correlation : Text) :
    List.insertionSort (fun left right : Text × Text => Json.textLe left.1 right.1)
      [("workspace_id".toList, workspace), ("chain_id".toList, chain),
        ("idempotency_key".toList, key), ("correlation_id".toList, correlation)] =
      [("chain_id".toList, chain), ("correlation_id".toList, correlation),
        ("idempotency_key".toList, key), ("workspace_id".toList, workspace)] := by
  rfl

theorem sorted_restore (signer workspace chain key correlation : Text) :
    List.insertionSort (fun left right : Text × Text => Json.textLe left.1 right.1)
      [("signer_key_id".toList, signer), ("workspace_id".toList, workspace),
        ("chain_id".toList, chain), ("idempotency_key".toList, key),
        ("correlation_id".toList, correlation)] =
      [("chain_id".toList, chain), ("correlation_id".toList, correlation),
        ("idempotency_key".toList, key), ("signer_key_id".toList, signer),
        ("workspace_id".toList, workspace)] := by
  rfl

theorem dumps_create (request : CreateWalletRequest) :
    (SignerRequestBody.create request).requestBody.dumps = opening request (closing request) := by
  simp only [SignerRequestBody.requestBody, Json.dumps, Json.dumpsMembers, sorted_create]
  simp [Json.joined, opening, closing]

theorem dumps_restore (request : RestoreRequest) :
    (SignerRequestBody.restore request).requestBody.dumps =
      opening request.toCreateWalletRequest
        (Json.member ("signer_key_id".toList, Json.quote (uuidText request.signerKeyId)) ++
          ',' :: closing request.toCreateWalletRequest) := by
  simp only [SignerRequestBody.requestBody, Json.dumps, Json.dumpsMembers, sorted_restore]
  simp [Json.joined, opening, closing]

theorem opening_inj {request other : CreateWalletRequest} {rest tail : Text}
    (same : opening request rest = opening other tail) :
    request.correlationId = other.correlationId ∧
      request.idempotencyKey = other.idempotencyKey ∧ rest = tail := by
  simp only [opening, List.mem_singleton.mp request.mainnet,
    List.mem_singleton.mp other.mainnet, List.append_cancel_left_eq,
    List.cons.injEq, true_and] at same
  rcases Json.member_quote_append_inj same with ⟨_, correlation, same⟩
  rcases Json.member_quote_append_inj (List.cons.inj same).2 with ⟨_, key, same⟩
  refine ⟨?_, Subtype.ext key, (List.cons.inj same).2⟩
  exact Subtype.ext (uuidText_injective request.correlationId.property
    other.correlationId.property correlation)

theorem closing_inj {request other : CreateWalletRequest}
    (same : closing request = closing other) : request.workspaceId = other.workspaceId := by
  rcases Json.member_quote_append_inj same with ⟨_, workspace, _⟩
  exact Subtype.ext (uuidText_injective request.workspaceId.property
    other.workspaceId.property workspace)

theorem fields_eq {request other : CreateWalletRequest}
    (workspaceId : request.workspaceId = other.workspaceId)
    (idempotencyKey : request.idempotencyKey = other.idempotencyKey)
    (correlationId : request.correlationId = other.correlationId) : request = other := by
  rcases request with ⟨_, _, _, _, mainnet⟩
  rcases other with ⟨_, _, _, _, other_mainnet⟩
  cases List.mem_singleton.mp mainnet
  cases List.mem_singleton.mp other_mainnet
  cases workspaceId
  cases idempotencyKey
  cases correlationId
  rfl

/-- The text of a body determines the body. -/
theorem requestBody_injective {body other : SignerRequestBody}
    (same : body.requestBody.dumps = other.requestBody.dumps) : body = other := by
  cases body with
  | create request =>
      cases other with
      | create other =>
          rw [dumps_create, dumps_create] at same
          rcases opening_inj same with ⟨correlation, key, same⟩
          rw [fields_eq (closing_inj same) key correlation]
      | restore other =>
          rw [dumps_create, dumps_restore] at same
          rcases opening_inj same with ⟨_, _, same⟩
          rcases Json.member_quote_append_inj same with ⟨impossible, _⟩
          exact absurd impossible (by decide)
  | restore request =>
      cases other with
      | create other =>
          rw [dumps_create, dumps_restore] at same
          rcases opening_inj same with ⟨_, _, same⟩
          rcases Json.member_quote_append_inj same with ⟨impossible, _⟩
          exact absurd impossible (by decide)
      | restore other =>
          rw [dumps_restore, dumps_restore] at same
          rcases opening_inj same with ⟨correlation, key, same⟩
          rcases Json.member_quote_append_inj same with ⟨_, signer, same⟩
          have fields := fields_eq (closing_inj (List.cons.inj same).2) key correlation
          have signerKeyId := Subtype.ext (uuidText_injective request.signerKeyId.property
            other.signerKeyId.property signer)
          rcases request with ⟨request, _⟩
          rcases other with ⟨other, _⟩
          simp only at fields signerKeyId
          rw [fields, signerKeyId]

end Body

section Verification

variable {primitives : Primitives} {hmac : Hmac} {secret : Text} {call other : SignerCall}
  {claims otherClaims : SignerClaims} {now later : ℤ}

/-- A verified call carries the signature of its claims. -/
theorem verifyCall_eq_ok (verified : verifyCall primitives hmac secret call now = .ok claims) :
    claims = call.claims (timedelta call.timestamp) ∧
      call.signature = signClaims primitives hmac secret claims call.body.requestBody := by
  rcases bind_eq_ok_iff.mp verified with ⟨issuedAt, stamped, verified⟩
  simp only [fromTimestamp] at stamped
  split_ifs at stamped
  cases stamped
  dsimp only at verified
  split at verified
  · rename_i passed
    cases verified
    refine ⟨rfl, ?_⟩
    simp only [verifyClaims] at passed
    split_ifs at passed with _ _ _ differs
    exact not_not.mp differs
  · cases verified
  · cases verified

theorem timestampSeconds_timedelta (timestamp : ℤ) :
    timestampSeconds (timedelta timestamp) = timestamp :=
  Rounding.truncated_mul timestamp (show 0 < 1000000 by omega)

/-- The lines that the claims of a call make up. -/
theorem claimsText_claims (call : SignerCall) (issuedAt : ℤ) (body : Json) :
    claimsText primitives (call.claims issuedAt) body =
      (((call.body.action ++ '\n' :: (call.caller ++
        '\n' :: (uuidText call.body.fields.workspaceId ++
          '\n' :: (Json.decimal call.body.fields.chainId ++
            '\n' :: (call.body.fields.idempotencyKey.val ++
              '\n' :: uuidText call.body.fields.correlationId))))) ++
        '\n' :: uuidText call.requestId) ++
        '\n' :: Json.decimal (timestampSeconds issuedAt)) ++
        '\n' :: hex (primitives.sha256 (canonicalBody body)).val := by
  simp [claimsText, joinLines, SignerCall.claims]

/--
The signed text determines the call. Its hash stands behind the last line break and
determines the body; the timestamp and the request identifier are the lines before
it; and the caller is what remains between lines that the body determines.
-/
theorem claimsText_injective
    (same : claimsText primitives (call.claims (timedelta call.timestamp)) call.body.requestBody =
      claimsText primitives (other.claims (timedelta other.timestamp)) other.body.requestBody)
    (unambiguous : primitives.sha256 (canonicalBody call.body.requestBody) =
        primitives.sha256 (canonicalBody other.body.requestBody) →
      canonicalBody call.body.requestBody = canonicalBody other.body.requestBody) :
    call.body = other.body ∧ call.caller = other.caller ∧ call.requestId = other.requestId ∧
      call.timestamp = other.timestamp := by
  rw [claimsText_claims, claimsText_claims, timestampSeconds_timedelta,
    timestampSeconds_timedelta] at same
  rcases append_separator_inj (newline_notMem_hex _) (newline_notMem_hex _) same with
    ⟨same, hashes⟩
  rcases append_separator_inj (Json.newline_notMem_decimal _) (Json.newline_notMem_decimal _)
    same with ⟨same, timestamps⟩
  rcases append_separator_inj (newline_notMem_uuidText _) (newline_notMem_uuidText _) same with
    ⟨same, requests⟩
  have body : call.body = other.body := by
    apply requestBody_injective
    exact Json.utf8_injective (unambiguous (Subtype.ext (hex_injective hashes)))
  rw [body, List.append_cancel_left_eq, List.cons.injEq, List.append_cancel_right_eq] at same
  refine ⟨body, same.2, ?_, Json.decimal_injective timestamps⟩
  exact Subtype.ext (uuidText_injective call.requestId.property other.requestId.property requests)

end Verification

end CopyMint
