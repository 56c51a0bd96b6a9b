import CopyMint.Access.Context
import CopyMint.Access.Database
import CopyMint.Library.Interleaving
import CopyMint.Signer.Storage

/-!
# Wallet creation

A creation reads the wallet of its idempotency key, checks the limit of the
workspace, asks the signer for a key and stores the wallet, each in a transaction
of its own. The signer handles the request concurrently and in transactions of
its own database. A call may stop at any point, by an exception, a timeout or a
kill, while the signer goes on with its request; and so may the signer's handler.

The identifiers that are drawn, the key material that is generated and the time
at which anything happens are chosen by the environment.
-/

namespace CopyMint

open Hexadecimal Relational Interleaving

/-- A row of `execution_wallets`. -/
structure ExecutionWallet where
  id : ℕ
  workspaceId : ℕ
  chainId : ℕ
  address : Text
  signerKeyId : ℕ
  idempotencyKeyHash : BytesOf 32
  status : WalletStatus
  balanceWei : ℕ
  balanceBlockNumber : Option ℕ
  balanceRefreshedAt : Option ℤ
  deriving DecidableEq

/-- The unique constraint that makes a creation idempotent. -/
def ExecutionWallet.key (row : ExecutionWallet) : ℕ × BytesOf 32 :=
  (row.workspaceId, row.idempotencyKeyHash)

/-- Another wallet has the identifier, the signer key or the address of a new one. -/
def ExecutionWallet.clashes (new existing : ExecutionWallet) : Bool :=
  existing.id = new.id || existing.signerKeyId = new.signerKeyId ||
    (existing.chainId = new.chainId && existing.address = new.address)

/-- `WalletRecord`. -/
structure WalletRecord where
  id : ℕ
  workspaceId : ℕ
  chainId : ℕ
  address : Text
  signerKeyId : ℕ
  status : WalletStatus
  balanceWei : ℕ
  balanceBlockNumber : Option ℕ
  balanceRefreshedAt : Option ℤ
  deriving DecidableEq

/-- The record of a row. -/
def ExecutionWallet.record (row : ExecutionWallet) : WalletRecord where
  id := row.id
  workspaceId := row.workspaceId
  chainId := row.chainId
  address := row.address
  signerKeyId := row.signerKeyId
  status := row.status
  balanceWei := row.balanceWei
  balanceBlockNumber := row.balanceBlockNumber
  balanceRefreshedAt := row.balanceRefreshedAt

/-- `SignerWalletResult`. -/
structure SignerWalletResult where
  signerKeyId : ℕ
  workspaceId : ℕ
  chainId : ℕ
  address : Text
  created : Bool
  deriving DecidableEq

/-- The databases of the application and of the signer. -/
structure WalletStore where
  wallets : List ExecutionWallet
  auditLogs : List AuditLog
  envelopes : SignerKeyEnvelopes

namespace WalletStore

/-- `find_by_idempotency`. -/
def findByIdempotency (store : WalletStore) (workspaceId : ℕ) (keyHash : BytesOf 32) :
    Option ExecutionWallet :=
  lookup ExecutionWallet.key (workspaceId, keyHash) store.wallets

/-- `count_active`. -/
def countActive (store : WalletStore) (workspaceId : ℕ) : ℕ :=
  store.wallets.countP fun row => row.workspaceId = workspaceId && row.status = .active

/-- The row of a new wallet. -/
def walletRow (id : ℕ) (result : SignerWalletResult) (keyHash : BytesOf 32) :
    ExecutionWallet where
  id
  workspaceId := result.workspaceId
  chainId := result.chainId
  address := result.address
  signerKeyId := result.signerKeyId
  idempotencyKeyHash := keyHash
  status := .active
  balanceWei := 0
  balanceBlockNumber := none
  balanceRefreshedAt := none

/-- The audit row of a new wallet. -/
def creationAudit (id walletId actorUserId correlationId : ℕ)
    (result : SignerWalletResult) : AuditLog where
  id
  workspaceId := some result.workspaceId
  actorType := .telegramUser
  actorId := uuidText actorUserId
  action := "execution_wallet_created".toList
  resourceType := "execution_wallet".toList
  resourceId := uuidText walletId
  before := none
  after := some (.obj
    [("chain_id".toList, .int result.chainId), ("address".toList, .str result.address),
      ("signer_key_id".toList, .str (uuidText result.signerKeyId))])
  correlationId
  severity := .high

/-- Insert the wallet of an idempotency key with its audit row, or read it. -/
def saveOrGet (walletId auditId : ℕ) (result : SignerWalletResult)
    (keyHash : BytesOf 32) (actorUserId correlationId : ℕ) (store : WalletStore) :
    Except Raised (WalletStore × WalletRecord × Bool) :=
  match insertOrGet ExecutionWallet.key ExecutionWallet.clashes
      (walletRow walletId result keyHash) store.wallets with
  | none => .error (.integrityError "execution_wallets")
  | some (wallets, stored, created) =>
      let audit := creationAudit auditId walletId actorUserId correlationId result
      let auditLogs := if created then store.auditLogs ++ [audit] else store.auditLogs
      .ok ({ store with wallets, auditLogs }, stored.record, created)

end WalletStore

/-- The service, with what its constructor checks. -/
structure WalletService where
  maxWalletsPerWorkspace : ℕ
  chainId : ℕ
  /-- The name under which the signer keeps its envelopes. -/
  environment : Text
  positive : 1 ≤ maxWalletsPerWorkspace
  mainnet : chainId = 1

/-- A creation whose caller and idempotency key have passed their checks. -/
structure CreationRequest (primitives : Primitives) where
  workspaceId : ℕ
  userId : ℕ
  correlationId : ℕ
  idempotencyKey : Text
  keyHash : BytesOf 32
  hashed : hashIdempotencyKey primitives idempotencyKey = .ok keyHash

/-- Why a creation returned no wallet. -/
inductive CreationFailure where
  | access (error : AccessError)
  | raised (error : Raised)
  | killed
  deriving DecidableEq

variable (primitives : Primitives) (signer : SignerPrimitives) (service : WalletService)

/-- The checks before the first transaction. -/
def beginCreation (context : RequestContext) (idempotencyKey : Text) :
    Except CreationFailure (CreationRequest primitives) :=
  match context.requireWorkspace, context.userId with
  | .error error, _ => .error (.access error)
  | .ok _, none => .error (.access (.accessError "An approved user identity is required."))
  | .ok workspaceId, some userId =>
      match hashed : hashIdempotencyKey primitives idempotencyKey with
      | .error error => .error (.raised error)
      | .ok keyHash =>
          .ok
            { workspaceId
              userId
              correlationId := context.correlationId
              idempotencyKey
              keyHash
              hashed }

/-- How far a call of `create_wallet` has come. -/
inductive CallPhase where
  | idle
  | counting (request : CreationRequest primitives)
  | awaiting (request : CreationRequest primitives)
  | saving (request : CreationRequest primitives) (result : SignerWalletResult)
  | returned (request : CreationRequest primitives) (wallet : WalletRecord) (created : Bool)
  | stopped (failure : CreationFailure)

/-- How far the signer has come with the request of a call. -/
inductive HandlerPhase where
  | idle
  | received (request : CreationRequest primitives)
  | generating (request : CreationRequest primitives)
  | answered (request : CreationRequest primitives) (descriptor : WalletDescriptor)
  | stopped

/-- A call together with the handler of its request. -/
structure WalletCreation where
  call : CallPhase primitives
  handler : HandlerPhase primitives

/-- What a call or its handler does next. -/
inductive CreationEvent where
  | call (context : RequestContext) (idempotencyKey : Text)
  | count
  | lookUp
  | generate (signerKeyId : ℕ) (material : KeyMaterial)
  | receive
  | save (walletId auditId : ℕ)
  | stopCall
  | stopHandler
  deriving DecidableEq

/-- What is said where the limit is reached. -/
def limitMessage (limit : ℕ) : String :=
  s!"This workspace has reached its limit of {limit} execution wallet(s)."

variable {primitives}

/-- A transaction or another atomic action of the call. -/
def callStep (store : WalletStore) (handler : HandlerPhase primitives) :
    CallPhase primitives → CreationEvent → Option (WalletStore × WalletCreation primitives)
  | .idle, .call context idempotencyKey =>
      match beginCreation primitives context idempotencyKey with
      | .error failure => some (store, ⟨.stopped failure, handler⟩)
      | .ok request =>
          match store.findByIdempotency request.workspaceId request.keyHash with
          | some existing => some (store, ⟨.returned request existing.record false, handler⟩)
          | none => some (store, ⟨.counting request, handler⟩)
  | .counting request, .count =>
      if service.maxWalletsPerWorkspace ≤ store.countActive request.workspaceId then
        let message := limitMessage service.maxWalletsPerWorkspace
        some (store, ⟨.stopped (.access (.walletLimitReached message)), handler⟩)
      else some (store, ⟨.awaiting request, .received request⟩)
  | .awaiting request, .receive =>
      match handler with
      | .answered _ descriptor =>
          if descriptor.workspaceId ≠ request.workspaceId ∨
              descriptor.chainId ≠ service.chainId then
            let error := Raised.runtimeError "signer returned a mismatched wallet binding"
            some (store, ⟨.stopped (.raised error), handler⟩)
          else
            match primitives.toChecksumAddress descriptor.address with
            | .error error => some (store, ⟨.stopped (.raised error), handler⟩)
            | .ok checksum =>
                let result : SignerWalletResult :=
                  { signerKeyId := descriptor.signerKeyId
                    workspaceId := descriptor.workspaceId
                    chainId := descriptor.chainId
                    address := checksum
                    created := descriptor.created }
                some (store, ⟨.saving request result, handler⟩)
      | _ => none
  | .saving request result, .save walletId auditId =>
      match store.saveOrGet walletId auditId result request.keyHash request.userId
          request.correlationId with
      | .error error => some (store, ⟨.stopped (.raised error), handler⟩)
      | .ok (store, wallet, created) => some (store, ⟨.returned request wallet created, handler⟩)
  | .counting _, .stopCall | .awaiting _, .stopCall | .saving _ _, .stopCall =>
      some (store, ⟨.stopped .killed, handler⟩)
  | _, _ => none

/-- A transaction or another atomic action of the signer's handler. -/
def handlerStep (store : WalletStore) (call : CallPhase primitives) :
    HandlerPhase primitives → CreationEvent → Option (WalletStore × WalletCreation primitives)
  | .received request, .lookUp =>
      match store.envelopes.findByIdempotency service.environment request.workspaceId
          service.chainId request.keyHash with
      | some existing =>
          some (store, ⟨call, .answered request (existing.toKeyEnvelope.descriptor false)⟩)
      | none => some (store, ⟨call, .generating request⟩)
  | .generating request, .generate signerKeyId material =>
      match createKeyEnvelope primitives signer service.environment request.workspaceId
          service.chainId signerKeyId material with
      | .error _ => some (store, ⟨call, .stopped⟩)
      | .ok envelope =>
          match store.envelopes.saveOrGet envelope request.keyHash with
          | .error _ => some (store, ⟨call, .stopped⟩)
          | .ok (envelopes, stored, created) =>
              some ({ store with envelopes },
                ⟨call, .answered request (stored.toKeyEnvelope.descriptor created)⟩)
  | .received _, .stopHandler | .generating _, .stopHandler | .answered _ _, .stopHandler =>
      some (store, ⟨call, .stopped⟩)
  | _, _ => none

/-- An action of a call or of its handler. -/
def creationStep (store : WalletStore) (creation : WalletCreation primitives) :
    CreationEvent → Option (WalletStore × WalletCreation primitives)
  | .lookUp => handlerStep signer service store creation.call creation.handler .lookUp
  | .generate signerKeyId material =>
      handlerStep signer service store creation.call creation.handler
        (.generate signerKeyId material)
  | .stopHandler =>
      handlerStep signer service store creation.call creation.handler .stopHandler
  | event => callStep service store creation.handler creation.call event

/-- Wallet creation as a program of calls over both databases. -/
def creationProgram :
    Program WalletStore (WalletCreation primitives) CreationEvent where
  step := creationStep signer service

end CopyMint
