import CopyMint.Signer.Client
import CopyMint.Signer.Restore

/-!
# The signer as a service

Three endpoints take requests: one creates a wallet, one verifies that a key can be
restored and one refuses to sign. A request is verified, its identifier is claimed,
and only then does its endpoint look at the envelopes; a creation without an envelope
generates a key and saves it. Each of these is one action, since each has at most one
transaction, and the response goes out in an action of its own.

Every answer of the key-management service and of the key generator is part of an
event. `stop` is what a crash, a failing database or a failing key-management service
does to a request.
-/

namespace CopyMint

open Hexadecimal Relational Fallible Interleaving

/-- The database of the signer. -/
structure SignerStore where
  envelopes : SignerKeyEnvelopes
  replays : SignerRequestReplays

/-- What the signer has been configured with. -/
structure SignerRuntime where
  environment : Text
  authSecret : Text

/-- `WalletResponse`. -/
structure WalletResponse where
  signerKeyId : ℕ
  workspaceId : ℕ
  chainId : ℕ
  address : Text
  created : Bool
  deriving DecidableEq

/-- The response about a wallet. -/
def WalletDescriptor.response (descriptor : WalletDescriptor) : WalletResponse where
  signerKeyId := descriptor.signerKeyId
  workspaceId := descriptor.workspaceId
  chainId := 1
  address := descriptor.address
  created := descriptor.created

/-- Why a request has no answer with a wallet. -/
inductive ServiceFailure where
  | refused (failure : SignerFailure)
  /-- An exception that the endpoint does not handle. -/
  | raised (error : Raised)
  | restore (failure : RestoreFailure)
  | killed
  deriving DecidableEq

/-- How far the service has come with a request. -/
inductive RequestPhase where
  | idle
  | verified (call : SignerCall) (claims : SignerClaims)
  | accepted (call : SignerCall)
  | generating (call : SignerCall) (request : CreateWalletRequest) (keyHash : BytesOf 32)
  /-- The last transaction is over, and the response is not sent yet. -/
  | responding (call : SignerCall) (response : WalletResponse)
  | answered (call : SignerCall) (response : WalletResponse)
  /-- Stopped behind the last transaction, before the response was sent. -/
  | lost (call : SignerCall) (response : WalletResponse)
  | failed (failure : ServiceFailure)

/-- The response that a request has come to, whether or not it was sent. -/
def RequestPhase.outcome : RequestPhase → Option (SignerCall × WalletResponse)
  | responding call response | answered call response | lost call response =>
      some (call, response)
  | idle | verified _ _ | accepted _ | generating _ _ _ | failed _ => none

/-- What a request does next. -/
inductive SignerEvent where
  | post (call : SignerCall) (now : ℤ)
  | sign
  | claim
  | query
  | generate (signerKeyId : ℕ) (material : KeyMaterial)
  | respond
  | stop
  deriving DecidableEq

/-- The endpoint for restoring is there outside production only. -/
def SignerRuntime.serves (runtime : SignerRuntime) : SignerRequestBody → Bool
  | .create _ => true
  | .restore _ => runtime.environment ≠ "production".toList

/-- Restores are not verified in production. -/
def restoreVerificationUnavailable : ServiceFailure :=
  .refused (.httpException 404 "restore_verification_unavailable".toList)

/-- The workspace has no such key. -/
def signerKeyNotFound : ServiceFailure :=
  .refused (.httpException 404 "signer_key_not_found".toList)

/-- Nothing is signed in this release. -/
def releaseLocked : ServiceFailure := .refused (.httpException 423 "release_locked".toList)

variable (primitives : Primitives) (hmac : Hmac) (custody : CustodyPrimitives)
  (runtime : SignerRuntime)

/-- The first query of a creation: the hash of its key and the envelope that has it. -/
def queryCreation (call : SignerCall) (request : CreateWalletRequest)
    (envelopes : SignerKeyEnvelopes) : RequestPhase :=
  match hashIdempotencyKey primitives request.idempotencyKey with
  | .error error => .failed (.raised error)
  | .ok keyHash =>
      match envelopes.findByIdempotency runtime.environment request.workspaceId request.chainId
          keyHash with
      | some existing => .responding call (existing.toKeyEnvelope.descriptor false).response
      | none => .generating call request keyHash

/-- What a restore finds out. -/
def queryRestore (call : SignerCall) (request : RestoreRequest)
    (envelopes : SignerKeyEnvelopes) : RequestPhase :=
  match verifyRestore primitives custody runtime.environment request.signerKeyId
      request.workspaceId request.chainId envelopes with
  | .error (.lookupError _) => .failed signerKeyNotFound
  | .error failure => .failed (.restore failure)
  | .ok address =>
      .responding call
        { signerKeyId := request.signerKeyId
          workspaceId := request.workspaceId
          chainId := request.chainId
          address
          created := false }

/-- An action of the service on a request. -/
def signerStep (store : SignerStore) :
    RequestPhase → SignerEvent → Option (SignerStore × RequestPhase)
  | .idle, .post call now =>
      if runtime.serves call.body then
        match verifyCall primitives hmac runtime.authSecret call now with
        | .error failure => some (store, .failed (.refused failure))
        | .ok claims => some (store, .verified call claims)
      else some (store, .failed restoreVerificationUnavailable)
  | .idle, .sign => some (store, .failed releaseLocked)
  | .verified call claims, .claim =>
      if claims.issuedAt + authMaxAge < timedelta 253402300800 then
        match claimCall claims store.replays with
        | (replays, .ok ()) => some ({ store with replays }, .accepted call)
        | (replays, .error failure) => some ({ store with replays }, .failed (.refused failure))
      else some (store, .failed (.refused .timestampOutOfRange))
  | .accepted call, .query =>
      match call.body with
      | .create request =>
          some (store, queryCreation primitives runtime call request store.envelopes)
      | .restore request =>
          some (store, queryRestore primitives custody runtime call request store.envelopes)
  | .generating call request keyHash, .generate signerKeyId material =>
      match createKeyEnvelope primitives custody.toSignerPrimitives runtime.environment
          request.workspaceId request.chainId signerKeyId material with
      | .error error => some (store, .failed (.raised error))
      | .ok envelope =>
          match store.envelopes.saveOrGet envelope keyHash with
          | .error error => some (store, .failed (.raised error))
          | .ok (envelopes, stored, created) =>
              some ({ store with envelopes },
                .responding call (stored.toKeyEnvelope.descriptor created).response)
  | .responding call response, .respond => some (store, .answered call response)
  | .responding call response, .stop => some (store, .lost call response)
  | .verified _ _, .stop | .accepted _, .stop | .generating _ _ _, .stop =>
      some (store, .failed .killed)
  | _, _ => none

/-- The service as a program of its requests. -/
def signerProgram : Program SignerStore RequestPhase SignerEvent where
  step := signerStep primitives hmac custody runtime

/-- Nothing is stored, and no request has arrived. -/
def newSigner : World SignerStore RequestPhase := World.uniform ⟨[], []⟩ .idle

/-- What an action on a request does, with what it takes for granted. -/
inductive SignerTransition (store : SignerStore) :
    RequestPhase → SignerEvent → SignerStore → RequestPhase → Prop
  | verify {call now} (served : runtime.serves call.body = true)
      (signed : call.Signed primitives hmac runtime.authSecret) :
      SignerTransition store .idle (.post call now) store
        (.verified call (call.claims (timedelta call.timestamp)))
  | fail {phase event failure} (undecided : phase.outcome = none) :
      SignerTransition store phase event store (.failed failure)
  | accept {call claims replays} (claimed : claimCall claims store.replays = (replays, .ok ())) :
      SignerTransition store (.verified call claims) .claim { store with replays }
        (.accepted call)
  | replayed {call claims replays failure} (kept : store.replays ⊆ replays) :
      SignerTransition store (.verified call claims) .claim { store with replays }
        (.failed (.refused failure))
  | find {call request keyHash existing} (body : call.body = .create request)
      (hashed : hashIdempotencyKey primitives request.idempotencyKey = .ok keyHash)
      (found : store.envelopes.findByIdempotency runtime.environment request.workspaceId
        request.chainId keyHash = some existing) :
      SignerTransition store (.accepted call) .query store
        (.responding call (existing.toKeyEnvelope.descriptor false).response)
  | absent {call request keyHash} (body : call.body = .create request)
      (hashed : hashIdempotencyKey primitives request.idempotencyKey = .ok keyHash) :
      SignerTransition store (.accepted call) .query store (.generating call request keyHash)
  | restore {call request address} (body : call.body = .restore request)
      (restored : verifyRestore primitives custody runtime.environment request.signerKeyId
        request.workspaceId request.chainId store.envelopes = .ok address) :
      SignerTransition store (.accepted call) .query store
        (.responding call
          ⟨request.signerKeyId, request.workspaceId, request.chainId, address, false⟩)
  | save {call request keyHash signerKeyId material envelope envelopes stored created}
      (made : createKeyEnvelope primitives custody.toSignerPrimitives runtime.environment
        request.workspaceId request.chainId signerKeyId material = .ok envelope)
      (saved : store.envelopes.saveOrGet envelope keyHash = .ok (envelopes, stored, created)) :
      SignerTransition store (.generating call request keyHash) (.generate signerKeyId material)
        { store with envelopes }
        (.responding call (stored.toKeyEnvelope.descriptor created).response)
  | respond {call response} :
      SignerTransition store (.responding call response) .respond store (.answered call response)
  | lose {call response} :
      SignerTransition store (.responding call response) .stop store (.lost call response)

variable {primitives hmac custody runtime} {store after : SignerStore} {phase next : RequestPhase}
  {event : SignerEvent} {call : SignerCall}

theorem signerTransition_queryCreation {request : CreateWalletRequest}
    (body : call.body = .create request) :
    SignerTransition primitives hmac custody runtime store (.accepted call) .query store
      (queryCreation primitives runtime call request store.envelopes) := by
  simp only [queryCreation]
  split
  · exact .fail rfl
  · rename_i keyHash hashed
    split
    · rename_i existing found
      exact .find body hashed found
    · exact .absent body hashed

theorem signerTransition_queryRestore {request : RestoreRequest}
    (body : call.body = .restore request) :
    SignerTransition primitives hmac custody runtime store (.accepted call) .query store
      (queryRestore primitives custody runtime call request store.envelopes) := by
  simp only [queryRestore]
  split
  · exact .fail rfl
  · exact .fail rfl
  · rename_i address restored
    exact .restore body restored

theorem signerTransition_of_step
    (stepped : signerStep primitives hmac custody runtime store phase event = some (after, next)) :
    SignerTransition primitives hmac custody runtime store phase event after next := by
  cases phase with
  | idle =>
      cases event with
      | post call now =>
          simp only [signerStep] at stepped
          split_ifs at stepped with served
          · split at stepped
            · cases stepped
              exact .fail rfl
            · rename_i claims verified
              cases stepped
              rcases verifyCall_eq_ok verified with ⟨rfl, signed⟩
              exact .verify served signed
          · cases stepped
            exact .fail rfl
      | sign =>
          cases stepped
          exact .fail rfl
      | claim | query | generate | respond | stop => cases stepped
  | verified call claims =>
      cases event with
      | claim =>
          simp only [signerStep] at stepped
          split_ifs at stepped
          · split at stepped
            · rename_i replays claimed
              cases stepped
              exact .accept claimed
            · rename_i replays failure claimed
              cases stepped
              exact .replayed (subset_claimCall claimed)
          · cases stepped
            exact .fail rfl
      | stop =>
          cases stepped
          exact .fail rfl
      | post | sign | query | generate | respond => cases stepped
  | accepted call =>
      cases event with
      | query =>
          simp only [signerStep] at stepped
          split at stepped
          · rename_i request body
            cases stepped
            exact signerTransition_queryCreation body
          · rename_i request body
            cases stepped
            exact signerTransition_queryRestore body
      | stop =>
          cases stepped
          exact .fail rfl
      | post | sign | claim | generate | respond => cases stepped
  | generating call request keyHash =>
      cases event with
      | generate signerKeyId material =>
          simp only [signerStep] at stepped
          split at stepped
          · cases stepped
            exact .fail rfl
          · rename_i envelope made
            split at stepped
            · cases stepped
              exact .fail rfl
            · rename_i envelopes stored created saved
              cases stepped
              exact .save made saved
      | stop =>
          cases stepped
          exact .fail rfl
      | post | sign | claim | query | respond => cases stepped
  | responding call response =>
      cases event with
      | respond =>
          cases stepped
          exact .respond
      | stop =>
          cases stepped
          exact .lose
      | post | sign | claim | query | generate => cases stepped
  | answered | lost | failed => cases stepped

end CopyMint
