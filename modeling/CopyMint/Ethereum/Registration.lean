import CopyMint.Access.Context
import CopyMint.Access.Database
import CopyMint.Domain.Ids
import CopyMint.Ethereum.Subscriptions
import CopyMint.Ethereum.Web3
import CopyMint.Library.Interleaving
import CopyMint.Library.UniqueIndex

/-!
# Registration of collections

A workspace adds a collection by its address in any spelling. The address is brought
into its checksummed form and, in one transaction, the collection is inserted or read
and then the subscription of the workspace. An insertion gives way to a committed row
and waits for one that is not committed yet; the query after it reads what has been
committed by then. The audit row is written at the commit, if the subscription is new.

The settings of the transaction name the workspace whose rows it reads and writes, so
that row-level security admits all of them. The transaction may be rolled back and the
call may stop at any point.
-/

namespace CopyMint

open Hexadecimal Relational Interleaving UniqueIndex

/-- The row of a collection, with the columns that its registration fills in. -/
structure RegisteredCollection where
  chainId : ℕ
  normalizedAddress : Text
  tokenStandard : TokenStandard
  row : Collection
  deriving DecidableEq

/-- The unique constraint of the collections. -/
def RegisteredCollection.key (collection : RegisteredCollection) : ℕ × Text :=
  (collection.chainId, collection.normalizedAddress)

/-- `WorkspaceCollectionRecord`. -/
structure WorkspaceCollectionRecord where
  id : ℕ
  collectionId : ℕ
  workspaceId : ℕ
  address : Text
  label : Option Text
  scanStatus : CollectionScanStatus
  active : Bool
  scanStartBlock : Option ℕ := none
  scanEndBlock : Option ℕ := none
  lastScannedBlock : Option ℕ := none
  qualityWarningCodes : List String := []
  deriving DecidableEq

/-- `collection_record` without a job. -/
def collectionRecord (subscription : WorkspaceCollection) (collection : RegisteredCollection) :
    WorkspaceCollectionRecord where
  id := subscription.id
  collectionId := collection.row.id
  workspaceId := subscription.workspaceId
  address := collection.row.checksumAddress
  label := subscription.label
  scanStatus := collection.row.scanStatus
  active := subscription.active

section Input

variable (primitives : Primitives)

/-- The characters at which `str.split` cuts. -/
def isWhitespace (character : Char) : Bool :=
  let code := character.toNat
  (9 ≤ code && code ≤ 13) || (28 ≤ code && code ≤ 32) || code = 133 || code = 160 ||
    code = 5760 || (8192 ≤ code && code ≤ 8202) || code = 8232 || code = 8233 ||
    code = 8239 || code = 8287 || code = 12288

/-- `" ".join(text.split())`. -/
def joinWords (text : Text) : Text :=
  [' '].intercalate ((text.splitOnP isWhitespace).filter (· ≠ []))

/-- Why a collection is not added. -/
inductive RegistrationFailure where
  | access (error : AccessError)
  | invalidCollectionInput (message : String)
  | raised (error : Raised)
  | stopped
  deriving DecidableEq

/-- `normalize_address`. -/
def normalizeAddress (address : Text) : Except RegistrationFailure Text :=
  if primitives.isAddress address then
    match primitives.toChecksumAddress address with
    | .error error => .error (.raised error)
    | .ok checksum => .ok checksum
  else .error (.invalidCollectionInput "Provide a valid Ethereum contract address.")

/-- `normalize_label`. -/
def normalizeLabel (label : Option Text) : Except RegistrationFailure (Option Text) :=
  match label with
  | none => .ok none
  | some label =>
      let normalized := joinWords label
      if normalized = [] then .ok none
      else if 120 < normalized.length then
        .error (.invalidCollectionInput "Collection labels cannot exceed 120 characters.")
      else .ok (some normalized)

end Input

/-- What the repository is asked for, with the identifiers that it has drawn. -/
structure AddRequest where
  workspaceId : ℕ
  actorUserId : ℕ
  correlationId : ℕ
  /-- The address as the caller has written it. -/
  spelling : Text
  address : Text
  label : Option Text
  collectionId : Uuid
  subscriptionId : Uuid
  auditId : Uuid
  deriving DecidableEq

namespace AddRequest

variable (request : AddRequest)

/-- The address in lower case. -/
def normalized : Text := lower request.address

/-- The row of a collection that nobody has saved before. -/
def collectionRow : RegisteredCollection where
  chainId := 1
  normalizedAddress := request.normalized
  tokenStandard := .unknown
  row :=
    { id := request.collectionId
      checksumAddress := request.address
      deploymentBlockNumber := none
      deploymentBlockHash := none
      deploymentConfidence := .unknown
      deploymentConfidenceValue := 0
      scanStatus := .pending }

/-- The row of a subscription. -/
def subscriptionRow (collection : RegisteredCollection) : WorkspaceCollection where
  id := request.subscriptionId
  workspaceId := request.workspaceId
  collectionId := collection.row.id
  label := request.label
  addedByUserId := request.actorUserId
  notificationSettings := {}
  active := true

/-- The audit row of a subscription. -/
def audit (subscription : WorkspaceCollection) : AuditLog where
  id := request.auditId
  workspaceId := some request.workspaceId
  actorType := .telegramUser
  actorId := uuidText request.actorUserId
  action := "workspace_collection_added".toList
  resourceType := "workspace_collection".toList
  resourceId := uuidText subscription.id
  before := none
  after := some (.obj
    [("chain_id".toList, .int 1), ("address".toList, .str request.address),
      ("label".toList, match request.label with | none => .null | some label => .str label)])
  correlationId := request.correlationId
  severity := .info

end AddRequest

/-- What a call has committed. -/
structure AddResult where
  request : AddRequest
  record : WorkspaceCollectionRecord
  created : Bool
  deriving DecidableEq

/-- The tables, and the results of the calls that have committed so far. -/
structure RegistryStore where
  collections : Table RegisteredCollection
  subscriptions : Table WorkspaceCollection
  auditLogs : List AuditLog
  results : List AddResult

/-- How far a call of `add_collection` has come. -/
inductive AddPhase where
  | idle
  | insertingCollection (request : AddRequest)
  | selectingCollection (request : AddRequest)
  | insertingSubscription (request : AddRequest) (newCollection : Option RegisteredCollection)
      (collection : RegisteredCollection)
  | selectingSubscription (request : AddRequest) (newCollection : Option RegisteredCollection)
      (collection : RegisteredCollection)
  | committing (request : AddRequest) (newCollection : Option RegisteredCollection)
      (collection : RegisteredCollection) (newSubscription : Option WorkspaceCollection)
      (subscription : WorkspaceCollection)
  | queueing (result : AddResult)
  | returned (result : AddResult) (scanQueued : Bool)
  | failed (failure : RegistrationFailure)
  deriving DecidableEq

/-- What a call does next. -/
inductive AddEvent where
  | call (context : RequestContext) (address : Text) (label : Option Text)
      (collectionId subscriptionId auditId : Uuid)
  | proceed
  | queue (queued : Bool)
  | stop

variable (primitives : Primitives)

/-- The checks before the transaction. -/
def beginAdd (context : RequestContext) (address : Text) (label : Option Text)
    (collectionId subscriptionId auditId : Uuid) : Except RegistrationFailure AddRequest :=
  match context.requireWorkspace, context.userId with
  | .error error, _ => .error (.access error)
  | .ok _, none => .error (.access (.accessError "An approved user identity is required."))
  | .ok workspaceId, some userId => do
      let checksum ← normalizeAddress primitives address
      let normalized ← normalizeLabel label
      .ok
        { workspaceId
          actorUserId := userId
          correlationId := context.correlationId
          spelling := address
          address := checksum
          label := normalized
          collectionId
          subscriptionId
          auditId }

namespace RegistryStore

variable (store : RegistryStore)

/-- Insert a collection unless its address is taken. -/
def insertCollection (row : RegisteredCollection) : Option (Insertion RegisteredCollection) :=
  store.collections.insertOnConflict RegisteredCollection.key
    (fun new existing => new.row.id = existing.row.id) row

/-- Insert a subscription unless the workspace has one for the collection. -/
def insertSubscription (row : WorkspaceCollection) : Option (Insertion WorkspaceCollection) :=
  store.subscriptions.insertOnConflict WorkspaceCollection.key
    (fun new existing => new.id = existing.id) row

/-- What a transaction has inserted is gone. -/
def rollback (newCollection : Option RegisteredCollection)
    (newSubscription : Option WorkspaceCollection) : RegistryStore :=
  { store with
    collections := store.collections.rollback newCollection
    subscriptions := store.subscriptions.rollback newSubscription }

end RegistryStore

/-- The result of a call that is about to commit. -/
def AddRequest.result (request : AddRequest) (collection : RegisteredCollection)
    (newSubscription : Option WorkspaceCollection) (subscription : WorkspaceCollection) :
    AddResult where
  request
  record := collectionRecord subscription collection
  created := newSubscription.isSome

/-- Commit what a transaction has inserted, with the audit row of a new subscription. -/
def RegistryStore.commit (store : RegistryStore) (newCollection : Option RegisteredCollection)
    (newSubscription : Option WorkspaceCollection) (result : AddResult) : RegistryStore where
  collections := store.collections.commit newCollection
  subscriptions := store.subscriptions.commit newSubscription
  auditLogs := store.auditLogs ++ (newSubscription.map result.request.audit).toList
  results := store.results ++ [result]

/-- The transaction of a phase ends without a commit. -/
def AddPhase.abandon (store : RegistryStore) (failure : RegistrationFailure) :
    AddPhase → RegistryStore × AddPhase
  | .insertingSubscription _ newCollection _ | .selectingSubscription _ newCollection _ =>
      (store.rollback newCollection none, .failed failure)
  | .committing _ newCollection _ newSubscription _ =>
      (store.rollback newCollection newSubscription, .failed failure)
  | _ => (store, .failed failure)

/-- The collection in the way cannot be found. -/
def collectionConflict : RegistrationFailure :=
  .raised (.runtimeError "collection idempotency conflict was not recoverable")

/-- The subscription in the way cannot be found. -/
def subscriptionConflict : RegistrationFailure :=
  .raised (.runtimeError "collection subscription conflict was not recoverable")

/-- The next statement of a transaction, or its commit. -/
def addProceed (store : RegistryStore) (phase : AddPhase) : Option (RegistryStore × AddPhase) :=
  match phase with
  | .insertingCollection request =>
      match store.insertCollection request.collectionRow with
      | none => none
      | some .conflict => some (store, .selectingCollection request)
      | some .violation => some (phase.abandon store (.raised (.integrityError "collections")))
      | some (.inserted collections) =>
          some ({ store with collections },
            .insertingSubscription request (some request.collectionRow) request.collectionRow)
  | .selectingCollection request =>
      match lookup RegisteredCollection.key (1, request.normalized) store.collections.rows with
      | none => some (phase.abandon store collectionConflict)
      | some collection => some (store, .insertingSubscription request none collection)
  | .insertingSubscription request newCollection collection =>
      let row := request.subscriptionRow collection
      match store.insertSubscription row with
      | none => none
      | some .conflict => some (store, .selectingSubscription request newCollection collection)
      | some .violation =>
          some (phase.abandon store (.raised (.integrityError "workspace_collections")))
      | some (.inserted subscriptions) =>
          some ({ store with subscriptions },
            .committing request newCollection collection (some row) row)
  | .selectingSubscription request newCollection collection =>
      match lookup WorkspaceCollection.key (request.workspaceId, collection.row.id)
          store.subscriptions.rows with
      | none => some (phase.abandon store subscriptionConflict)
      | some subscription =>
          some (store, .committing request newCollection collection none subscription)
  | .committing request newCollection collection newSubscription subscription =>
      let result := request.result collection newSubscription subscription
      some (store.commit newCollection newSubscription result, .queueing result)
  | _ => none

/-- The call has not come to an end. -/
def AddPhase.isOpen : AddPhase → Bool
  | .insertingCollection _ | .selectingCollection _ | .insertingSubscription _ _ _
  | .selectingSubscription _ _ _ | .committing _ _ _ _ _ | .queueing _ => true
  | _ => false

/-- An action of a call. A call may stop anywhere, and its transaction is then rolled back. -/
def addStep (store : RegistryStore) (phase : AddPhase) (event : AddEvent) :
    Option (RegistryStore × AddPhase) :=
  match phase, event with
  | .idle, .call context address label collectionId subscriptionId auditId =>
      match beginAdd primitives context address label collectionId subscriptionId auditId with
      | .error failure => some (store, .failed failure)
      | .ok request => some (store, .insertingCollection request)
  | _, .proceed => addProceed store phase
  | .queueing result, .queue queued => some (store, .returned result queued)
  | _, .stop => if phase.isOpen then some (phase.abandon store .stopped) else none
  | _, _ => none

/-- Calls that add collections as a program. -/
def addProgram : Program RegistryStore AddPhase AddEvent where
  step := addStep primitives

/-- No collection has been added yet. -/
def emptyRegistry : World RegistryStore AddPhase :=
  World.uniform ⟨.empty, .empty, [], []⟩ .idle

end CopyMint
