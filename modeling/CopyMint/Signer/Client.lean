import CopyMint.Library.AbiDecoding
import CopyMint.Signer.Replays

/-!
# The client of the signer

The client writes the body of a request by hand and signs it with its own clock, to the
microsecond. The signer reads the body into a model, writes the model out again, and
checks the signature for the whole seconds of a header. What is in between, the
transport of JSON and pydantic's readers of text, is only assumed to preserve strings,
identifiers and numbers. The signer then signs the same text as the client.
-/

namespace CopyMint

open Hexadecimal AbiEncoding Relational

/-- The microseconds since 1970 that an aware `datetime` can stand for. -/
abbrev Datetime :=
  { instant : ℤ // timedelta (-62135596800) ≤ instant ∧ instant < timedelta 253402300800 }

/-- A request as it is sent to the signer. -/
structure SignerHttpRequest where
  url : Text
  headers : List (Text × Text)
  body : Json

/-- `HttpSignerWalletClient`. -/
structure HttpSignerWalletClient where
  baseUrl : Text
  secret : Text

namespace HttpSignerWalletClient

/-- `__init__`. -/
def new (baseUrl authSecret : Text) : HttpSignerWalletClient :=
  let schemes := ["http://".toList, "https://".toList]
  let baseUrl :=
    if schemes.any fun scheme => scheme.isPrefixOf baseUrl then baseUrl
    else "http://".toList ++ baseUrl
  { baseUrl := (baseUrl.reverse.dropWhile (· = '/')).reverse
    secret := authSecret }

/-- The claims that `create_wallet` signs. -/
def claims (workspaceId : Uuid) (chainId : ℕ) (idempotencyKey : Text)
    (correlationId requestId : Uuid) (issuedAt : Datetime) : SignerClaims where
  action := "wallet.create".toList
  caller := "bot-api".toList
  workspaceId
  chainId
  idempotencyKey
  correlationId
  requestId
  issuedAt

/-- The request that `create_wallet` sends, for an identifier and a time of its own. -/
def createWallet (primitives : Primitives) (hmac : Hmac) (client : HttpSignerWalletClient)
    (workspaceId : Uuid) (chainId : ℕ) (idempotencyKey : Text)
    (correlationId requestId : Uuid) (issuedAt : Datetime) : SignerHttpRequest :=
  let body : Json := .obj
    [("workspace_id".toList, .str (uuidText workspaceId)),
      ("chain_id".toList, .int chainId),
      ("idempotency_key".toList, .str idempotencyKey),
      ("correlation_id".toList, .str (uuidText correlationId))]
  let claims := claims workspaceId chainId idempotencyKey correlationId requestId issuedAt
  { url := client.baseUrl ++ "/v1/wallets".toList
    headers :=
      [("X-CopyMint-Caller".toList, claims.caller),
        ("X-CopyMint-Request-ID".toList, uuidText requestId),
        ("X-CopyMint-Timestamp".toList, Json.decimal (timestampSeconds issuedAt)),
        ("X-CopyMint-Signature".toList, signClaims primitives hmac client.secret claims body)]
    body }

end HttpSignerWalletClient

/-- What stands between the two sides: the transport of JSON and pydantic's readers of text. -/
structure RequestReaders where
  json : Json → Option Json
  uuid : Text → Option Uuid
  int : Text → Option ℤ

namespace RequestReaders

/-- Strings and the integers of a machine word. -/
inductive IsScalar : Json → Prop
  | str (value : Text) : IsScalar (.str value)
  | int {value : ℤ} (small : value.natAbs < 2 ^ 63) : IsScalar (.int value)

/-- Strings, identifiers and numbers arrive as they were sent. -/
structure Preserve (readers : RequestReaders) : Prop where
  json : ∀ members : List (Text × Json), (members.map Prod.fst).Nodup →
    (∀ member ∈ members, IsScalar member.2) → readers.json (.obj members) = some (.obj members)
  uuid : ∀ id : Uuid, readers.uuid (uuidText id) = some id
  int : ∀ value : ℤ, value.natAbs < 2 ^ 63 → readers.int (Json.decimal value) = some value

variable (readers : RequestReaders)

/-- A field of type `UUID`. -/
def readUuid : Json → Option Uuid
  | .str text => readers.uuid text
  | _ => none

theorem one_mem : 1 ∈ [1] := List.mem_singleton_self 1

/-- `Literal[1]`, which is also the default. -/
def readChainId : Option Json → Option { chainId : ℕ // chainId ∈ [1] }
  | none => some ⟨1, one_mem⟩
  | some (.int value) => if value = 1 then some ⟨1, one_mem⟩ else none
  | some _ => none

/-- The field `idempotency_key` with its bounds. -/
def readIdempotencyKey : Json → Option IdempotencyKey
  | .str key => if bounds : 16 ≤ key.length ∧ key.length ≤ 128 then some ⟨key, bounds⟩ else none
  | _ => none

/-- The validation of a `CreateWalletRequest`. -/
def readCreateWalletRequest : Json → Option CreateWalletRequest
  | .obj members => do
      let workspaceId ← (members.lookup "workspace_id".toList).bind readers.readUuid
      let chainId ← readChainId (members.lookup "chain_id".toList)
      let idempotencyKey ← (members.lookup "idempotency_key".toList).bind readIdempotencyKey
      let correlationId ← (members.lookup "correlation_id".toList).bind readers.readUuid
      some ⟨workspaceId, chainId.val, idempotencyKey, correlationId, chainId.property⟩
  | _ => none

end RequestReaders

/-- A header by its name, in which the case of letters does not matter. -/
def SignerHttpRequest.header (request : SignerHttpRequest) (name : String) : Option Text :=
  (request.headers.find? fun header => lower header.1 = name.toList).map Prod.snd

/--
The call of `authenticate` that the endpoint for new wallets makes of a request. There is
none where FastAPI answers 422 itself.
-/
def SignerHttpRequest.createWalletCall (readers : RequestReaders) (request : SignerHttpRequest) :
    Option SignerCall := do
  let document ← readers.json request.body
  let body ← readers.readCreateWalletRequest document
  let caller ← request.header "x-copymint-caller"
  let requestId ← (request.header "x-copymint-request-id").bind readers.uuid
  let timestamp ← (request.header "x-copymint-timestamp").bind readers.int
  let signature ← request.header "x-copymint-signature"
  some { body := .create body, caller, requestId, timestamp, signature }

/-- `authenticate`: the claims are verified and the request identifier is claimed. -/
def authenticate (primitives : Primitives) (hmac : Hmac) (secret : Text) (call : SignerCall)
    (now : ℤ) (replays : SignerRequestReplays) :
    SignerRequestReplays × Except SignerFailure Unit :=
  match verifyCall primitives hmac secret call now with
  | .error failure => (replays, .error failure)
  | .ok claims =>
      -- The sum is a `datetime` as well and raises behind the year 9999.
      if claims.issuedAt + authMaxAge < timedelta 253402300800 then claimCall claims replays
      else (replays, .error .timestampOutOfRange)

section Acceptance

variable {primitives : Primitives} {hmac : Hmac} {secret : Text} {call : SignerCall}
  {claims : SignerClaims} {now : ℤ} {replays : SignerRequestReplays}

theorem isAscii_hex (bytes : Bytes) : isAscii (hex bytes) = true := by
  simp only [isAscii, List.all_eq_true, decide_eq_true_eq]
  intro digit digit_mem
  rcases exists_digitChar_of_mem_hex digit_mem with ⟨value, small, rfl⟩
  interval_cases value <;> decide

/-- The whole seconds of its time are all that a signature depends on. -/
theorem signClaims_seconds (claims : SignerClaims) (body : Json) :
    signClaims primitives hmac secret
        { claims with issuedAt := timedelta (timestampSeconds claims.issuedAt) } body =
      signClaims primitives hmac secret claims body := by
  simp only [signClaims, canonicalClaims, claimsText, timestampSeconds_timedelta]

/-- A fresh request passes with the signature of its claims. -/
theorem verifyClaims_signed {body : Json} (early : -timedelta 5 ≤ now - claims.issuedAt)
    (late : now - claims.issuedAt ≤ timedelta 60) :
    verifyClaims primitives hmac secret claims body
      (signClaims primitives hmac secret claims body) now = .ok () := by
  have fresh : ¬(now - claims.issuedAt < -timedelta 5 ∨ now - claims.issuedAt > timedelta 60) := by
    omega
  have length : (signClaims primitives hmac secret claims body).length = 64 := by
    simp [signClaims, (hmac _ _).property]
  have ascii : isAscii (signClaims primitives hmac secret claims body) = true := isAscii_hex _
  simp [verifyClaims, fresh, length, ascii]

/-- A signed call fails for its timestamp only. -/
theorem verifyCall_signed (signed : call.Signed primitives hmac secret)
    (early : -timedelta 5 ≤ now - timedelta call.timestamp)
    (late : now - timedelta call.timestamp ≤ timedelta 60) :
    verifyCall primitives hmac secret call now =
      (fromTimestamp call.timestamp).map call.claims := by
  simp only [verifyCall]
  cases stamped : fromTimestamp call.timestamp with
  | error failure => rfl
  | ok issuedAt =>
      simp only [fromTimestamp] at stamped
      split_ifs at stamped
      cases stamped
      have passed := @verifyClaims_signed primitives hmac secret
        (call.claims (timedelta call.timestamp)) now call.body.requestBody early late
      rw [← signed] at passed
      simp only [bind, Except.bind, passed, Except.map]

/-- The claim of an unused identifier succeeds. -/
theorem claimCall_unused (unused : ∀ row ∈ replays, row.requestId ≠ claims.requestId) :
    (claimCall claims replays).2 = .ok () := by
  have absent : lookup SignerRequestReplay.requestId claims.requestId replays = none :=
    lookup_eq_none_iff.mpr unused
  simp [claimCall, SignerRequestReplays.claim, absent]

/-- Where a signed, fresh and unused request is not accepted, its time is out of range. -/
theorem authenticate_signed (signed : call.Signed primitives hmac secret)
    (start : -62135596800 ≤ call.timestamp)
    (early : -timedelta 5 ≤ now - timedelta call.timestamp)
    (late : now - timedelta call.timestamp ≤ timedelta 60)
    (unused : ∀ row ∈ replays, row.requestId ≠ call.requestId) :
    (authenticate primitives hmac secret call now replays).2 =
      if call.timestamp + 60 < 253402300800 then .ok () else .error .timestampOutOfRange := by
  simp only [authenticate, verifyCall_signed signed early late, fromTimestamp]
  by_cases representable : call.timestamp ≤ 253402300799
  · have expiry : (call.claims (timedelta call.timestamp)).issuedAt + authMaxAge <
        timedelta 253402300800 ↔ call.timestamp + 60 < 253402300800 := by
      simp only [SignerCall.claims, authMaxAge, timedelta]
      omega
    simp only [start, representable, and_self, if_true, Except.map, expiry]
    split_ifs
    · exact claimCall_unused unused
    · rfl
  · have later : ¬call.timestamp + 60 < 253402300800 := by omega
    simp [representable, later, Except.map]

end Acceptance

variable {primitives : Primitives} {hmac : Hmac} {readers : RequestReaders}

section Agreement

variable (primitives hmac) (secret : Text) (workspaceId : Uuid) (key : IdempotencyKey)
  (correlationId requestId : Uuid) (issuedAt : Datetime)

/-- The body that the signer reads. -/
def sentBody : CreateWalletRequest :=
  ⟨workspaceId, 1, key, correlationId, RequestReaders.one_mem⟩

/-- The call that the signer makes of a request of its client. -/
def sentCall : SignerCall where
  body := .create (sentBody workspaceId key correlationId)
  caller := "bot-api".toList
  requestId
  timestamp := timestampSeconds issuedAt
  signature :=
    signClaims primitives hmac secret
      (HttpSignerWalletClient.claims workspaceId 1 key correlationId requestId issuedAt)
      (SignerRequestBody.create (sentBody workspaceId key correlationId)).requestBody

/-- The time of a request is one that the signer can represent, or the end of the year 9999. -/
theorem timestampSeconds_bounds :
    -62135596800 ≤ timestampSeconds issuedAt ∧ (timestampSeconds issuedAt).natAbs < 2 ^ 63 := by
  have start := issuedAt.property.1
  have finish := issuedAt.property.2
  simp only [timedelta] at start finish
  constructor
  · by_cases negative : issuedAt.val < 0
    · have bounded := @Rounding.natAbs_truncated_le 1000000 issuedAt 62135596800 (by omega)
        (by omega)
      simp only [timestampSeconds]
      omega
    · have bounded := @Rounding.truncated_nonneg issuedAt (by omega) 1000000
      simp only [timestampSeconds]
      omega
  · have bounded := @Rounding.natAbs_truncated_le 1000000 issuedAt 253402300800 (by omega)
      (by omega)
    simp only [timestampSeconds]
    omega

theorem lookup_members (workspace chain key correlation : Json) :
    let members :=
      [("workspace_id".toList, workspace), ("chain_id".toList, chain),
        ("idempotency_key".toList, key), ("correlation_id".toList, correlation)]
    members.lookup "workspace_id".toList = some workspace ∧
      members.lookup "chain_id".toList = some chain ∧
      members.lookup "idempotency_key".toList = some key ∧
      members.lookup "correlation_id".toList = some correlation :=
  ⟨rfl, rfl, rfl, rfl⟩

/-- A body that a request writes out is read as that request. -/
theorem readCreateWalletRequest_requestBody (preserved : readers.Preserve)
    (request : CreateWalletRequest) :
    readers.readCreateWalletRequest (SignerRequestBody.create request).requestBody =
      some request := by
  rcases request with ⟨workspaceId, chainId, key, correlationId, mainnet⟩
  cases List.mem_singleton.mp mainnet
  rcases lookup_members (.str (uuidText workspaceId)) (.int 1) (.str key)
    (.str (uuidText correlationId)) with ⟨workspace, chain, keyed, correlation⟩
  have key_read : RequestReaders.readIdempotencyKey (.str key) = some key := dif_pos key.property
  simp only [RequestReaders.readCreateWalletRequest, SignerRequestBody.requestBody, Nat.cast_one,
    workspace, chain, keyed, correlation, Option.bind_some, RequestReaders.readUuid,
    preserved.uuid, RequestReaders.readChainId, if_true, key_read, Option.bind_eq_bind]

/-- The transport of JSON preserves the body of a request. -/
theorem json_requestBody (preserved : readers.Preserve) (request : CreateWalletRequest) :
    readers.json (SignerRequestBody.create request).requestBody =
      some (SignerRequestBody.create request).requestBody := by
  have mainnet := List.mem_singleton.mp request.mainnet
  apply preserved.json
  · simp only [List.map]
    decide
  · intro member member_mem
    simp only [List.mem_cons, List.not_mem_nil, or_false] at member_mem
    rcases member_mem with rfl | rfl | rfl | rfl
    · exact .str _
    · refine .int ?_
      simp [mainnet]
    · exact .str _
    · exact .str _

/-- The signer makes the call of the request that its client sends. -/
theorem createWalletCall_createWallet (preserved : readers.Preserve) (baseUrl : Text) :
    ((HttpSignerWalletClient.new baseUrl secret).createWallet primitives hmac workspaceId 1 key
      correlationId requestId issuedAt).createWalletCall readers =
      some (sentCall primitives hmac secret workspaceId key correlationId requestId issuedAt) := by
  generalize sent : (HttpSignerWalletClient.new baseUrl secret).createWallet primitives hmac
    workspaceId 1 key correlationId requestId issuedAt = request
  have body : request.body =
      (SignerRequestBody.create (sentBody workspaceId key correlationId)).requestBody := by
    rw [← sent]
    rfl
  have caller : request.header "x-copymint-caller" = some "bot-api".toList := by
    rw [← sent]
    rfl
  have identifier : request.header "x-copymint-request-id" = some (uuidText requestId) := by
    rw [← sent]
    rfl
  have timestamp : request.header "x-copymint-timestamp" =
      some (Json.decimal (timestampSeconds issuedAt)) := by
    rw [← sent]
    rfl
  have signature : request.header "x-copymint-signature" =
      some (sentCall primitives hmac secret workspaceId key correlationId requestId
        issuedAt).signature := by
    rw [← sent]
    rfl
  simp only [SignerHttpRequest.createWalletCall, body, json_requestBody preserved,
    readCreateWalletRequest_requestBody preserved, caller, identifier, timestamp, signature,
    preserved.uuid, preserved.int _ (timestampSeconds_bounds issuedAt).2, Option.bind_eq_bind,
    Option.bind_some]
  rfl

theorem signed_sentCall :
    (sentCall primitives hmac secret workspaceId key correlationId requestId issuedAt).Signed
      primitives hmac secret := by
  rw [SignerCall.Signed, sentCall, ← signClaims_seconds]
  rfl

end Agreement

/--
The signer never answers 401 to a request of its client that is fresh and unused, and it
accepts the request unless that expires after the year 9999.
-/
theorem createWallet_authenticated (preserved : readers.Preserve) (baseUrl secret : Text)
    (workspaceId correlationId requestId : Uuid) (key : IdempotencyKey) (issuedAt : Datetime)
    {now : ℤ} {replays : SignerRequestReplays}
    (early : -timedelta 5 ≤ now - timedelta (timestampSeconds issuedAt))
    (late : now - timedelta (timestampSeconds issuedAt) ≤ timedelta 60)
    (unused : ∀ row ∈ replays, row.requestId ≠ requestId) :
    ∃ call,
      ((HttpSignerWalletClient.new baseUrl secret).createWallet primitives hmac workspaceId 1 key
        correlationId requestId issuedAt).createWalletCall readers = some call ∧
      (∀ code, (authenticate primitives hmac secret call now replays).2 ≠
        .error (.httpException 401 code)) ∧
      (timestampSeconds issuedAt + 60 < 253402300800 →
        (authenticate primitives hmac secret call now replays).2 = .ok ()) := by
  refine ⟨_, createWalletCall_createWallet primitives hmac secret workspaceId key correlationId
    requestId issuedAt preserved baseUrl, ?_, ?_⟩
  all_goals
    rw [authenticate_signed (signed_sentCall primitives hmac secret workspaceId key correlationId
      requestId issuedAt) (timestampSeconds_bounds issuedAt).1 early late unused]
  · intro code
    split_ifs
    all_goals exact fun impossible => by cases impossible
  · intro representable
    exact if_pos representable

section Samples

/-- Read an identifier: its digits without the hyphens between them. -/
def parseUuid (text : Text) : Option Uuid :=
  (fromhex (text.filter (· ≠ '-'))).bind fun bytes =>
    if valid : bytes.length = 16 ∧ fromBigEndian bytes < 2 ^ 128 then
      some ⟨fromBigEndian bytes, valid.2⟩
    else none

/-- Decimals of ASCII. -/
def parseDigits (text : Text) : Option ℕ :=
  if text ≠ [] ∧ text.all Char.isDigit then some (Nat.ofDigitChars 10 text 0) else none

/-- Decimals of ASCII behind an optional sign. -/
def parseInt : Text → Option ℤ
  | '-' :: digits => (parseDigits digits).map fun value : ℕ => -(value : ℤ)
  | digits => (parseDigits digits).map Int.ofNat

theorem hyphen_notMem_hex (bytes : Bytes) : '-' ∉ hex bytes := by
  intro hyphen_mem
  rcases exists_digitChar_of_mem_hex hyphen_mem with ⟨value, small, equal⟩
  revert equal
  interval_cases value <;> decide

/-- An identifier's text without its hyphens consists of its digits. -/
theorem filter_uuidText (id : ℕ) :
    (uuidText id).filter (· ≠ '-') = hex (bigEndian 16 id) := by
  have kept : ∀ group : Text, group ⊆ hex (bigEndian 16 id) →
      group.filter (· ≠ '-') = group := by
    intro group subset
    apply List.filter_eq_self.mpr
    intro digit digit_mem
    have different : digit ≠ '-' := by
      rintro rfl
      exact hyphen_notMem_hex _ (subset digit_mem)
    exact decide_eq_true different
  have dropped := fun start => List.drop_subset start (hex (bigEndian 16 id))
  have taken : ∀ start, ((hex (bigEndian 16 id)).drop start).take 4 ⊆ hex (bigEndian 16 id) :=
    fun start => List.Subset.trans (List.take_subset 4 _) (dropped start)
  have groups := join_groups (hex (bigEndian 16 id))
  simp only [uuidText, List.filter_append, List.filter_cons, ne_eq,
    not_true_eq_false, decide_false, Bool.false_eq_true, if_false, kept _ (List.take_subset 8 _),
    kept _ (dropped 20), kept _ (taken 8), kept _ (taken 12), kept _ (taken 16)]
  exact groups

theorem parseUuid_uuidText (id : Uuid) : parseUuid (uuidText id) = some id := by
  have read : fromBigEndian (bigEndian 16 id.val) = id.val :=
    fromBigEndian_bigEndian 16 id.property
  have valid : (bigEndian 16 id.val).length = 16 ∧
      fromBigEndian (bigEndian 16 id.val) < 2 ^ 128 := by
    rw [read]
    exact ⟨length_bigEndian 16 id.val, id.property⟩
  rw [parseUuid, filter_uuidText, fromhex_hex, Option.bind_some, dif_pos valid]
  simp only [read]

theorem parseDigits_toDigits (value : ℕ) : parseDigits (Nat.toDigits 10 value) = some value := by
  have digits : (Nat.toDigits 10 value).all Char.isDigit = true := by
    apply List.all_eq_true.mpr
    intro digit digit_mem
    exact Nat.isDigit_of_mem_toDigits (by omega) (by omega) digit_mem
  simp [parseDigits, digits, Nat.ofDigitChars_toDigits]

theorem parseInt_decimal (value : ℤ) : parseInt (Json.decimal value) = some value := by
  simp only [Json.decimal]
  split_ifs with negative
  · simp only [parseInt, parseDigits_toDigits, Option.map_some, Option.some.injEq]
    omega
  · simp only [parseInt]
    split
    · rename_i digits equal
      exact absurd (equal ▸ List.mem_cons_self) (Json.minus_notMem_toDigits value.natAbs)
    · simp only [parseDigits_toDigits, Option.map_some, Option.some.injEq, Int.ofNat_eq_natCast]
      omega

/-- Readers of requests that read what the client writes. -/
def sampleReaders : RequestReaders := ⟨some, parseUuid, parseInt⟩

theorem sampleReaders_preserve : sampleReaders.Preserve := by
  constructor
  · intro members _ _
    rfl
  · intro id
    simp only [sampleReaders, parseUuid_uuidText]
  · intro value _
    simp only [sampleReaders, parseInt_decimal]

/-- The code that the client writes for the sample body. -/
def clientHmac : Hmac := fun key message =>
  if key = Json.utf8 signerSecret ∧
      message = canonicalClaims requestHashes
        { sampleCall.claims 1785931200000000 with caller := "bot-api".toList }
        sampleCall.body.requestBody then
    ⟨[0xb0, 0x10, 0xe5, 0x8c, 0xb2, 0x5e, 0x13, 0x36, 0xee, 0x13, 0x58, 0xe9,
      0x31, 0x90, 0xad, 0xd6, 0x03, 0x57, 0x74, 0x6f, 0x3f, 0xe5, 0x90, 0x79,
      0x58, 0x2b, 0xef, 0x9b, 0xf7, 0xa9, 0x67, 0xdc], rfl⟩
  else zeroHash

/-- Half a second past noon. -/
def sampleIssueTime : Datetime := ⟨1785931200500000, by decide⟩

end Samples

/-- The signer accepts the sample request a minute after its second, which is the last time. -/
theorem sampleRequest_authenticated :
    ∃ call,
      ((HttpSignerWalletClient.new "signer:10000".toList signerSecret).createWallet requestHashes
        clientHmac sampleCall.body.fields.workspaceId 1 sampleKey
        sampleCall.body.fields.correlationId sampleCall.requestId
        sampleIssueTime).createWalletCall sampleReaders = some call ∧
      (authenticate requestHashes clientHmac signerSecret call 1785931260000000 []).2 = .ok () := by
  have seconds : timestampSeconds sampleIssueTime = 1785931200 := by
    decide +kernel
  have early : -timedelta 5 ≤ 1785931260000000 - timedelta (timestampSeconds sampleIssueTime) := by
    rw [seconds]
    decide
  have late : 1785931260000000 - timedelta (timestampSeconds sampleIssueTime) ≤ timedelta 60 := by
    rw [seconds]
    decide
  rcases createWallet_authenticated sampleReaders_preserve "signer:10000".toList signerSecret
      sampleCall.body.fields.workspaceId sampleCall.body.fields.correlationId
      sampleCall.requestId sampleKey sampleIssueTime early late (List.forall_mem_nil _) with
    ⟨call, called, _, accepted⟩
  refine ⟨call, called, accepted ?_⟩
  rw [seconds]
  decide

end CopyMint
