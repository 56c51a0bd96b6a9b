import CopyMint.Workspaces.Services

/-!
# The services of one workspace

What a workspace would see if it had the services for itself: a list of its collections
by their addresses, and its own wallets and keys. The operations are those of the
workspace alone. An addition only has to find out whether the workspace has the
collection already, so that its statements on the shared collections are gone.

`ownServices` is the part of the shared services that one workspace sees in this way.
-/

namespace CopyMint

open Hexadecimal Relational Interleaving

/-- What a workspace sees of a collection. -/
structure CollectionFields where
  address : Text
  label : Option Text
  active : Bool
  deriving DecidableEq

/-- What a workspace sees of a collection. -/
def WorkspaceCollectionRecord.fields (record : WorkspaceCollectionRecord) : CollectionFields where
  address := record.address
  label := record.label
  active := record.active

/-- A collection of the workspace. -/
structure OwnCollection extends CollectionFields where
  createdAt : ℤ
  deriving DecidableEq

/-- How far an addition has come, apart from the shared collections. -/
inductive OwnAddPhase where
  | idle
  | adding (request : AddRequest)
  | conflicted (request : AddRequest)
  | committing (request : AddRequest) (created : Bool) (fields : CollectionFields)
  | queueing (fields : CollectionFields) (created : Bool)
  | returned (fields : CollectionFields) (created scanQueued : Bool)
  | failed (failure : RegistrationFailure)

/-- An operation as its workspace sees it. -/
inductive OwnOperation (primitives : Primitives) where
  | adding (startedAt : ℤ) (phase : OwnAddPhase)
  | creating (creation : WalletCreation primitives)
  | refreshing (phase : RefreshPhase)
  | listedCollections (result : Except AccessError (List CollectionFields))
  | listedWallets (result : Except AccessError (List WalletRecord))

/-- A process as a workspace sees it. -/
inductive OwnProcess (primitives : Primitives) where
  | idle
  | running (operation : OwnOperation primitives)

/-- What a workspace sees of the tables. -/
structure OwnStore where
  collections : List OwnCollection
  wallets : WalletStore
  createdAt : ℕ → ℤ

/-- The active collections of a workspace, the oldest first. -/
def listOwnCollections (collections : List OwnCollection) : List CollectionFields :=
  let ordered := (collections.filter fun own => own.active).insertionSort fun first second =>
    first.createdAt ≤ second.createdAt
  ordered.map OwnCollection.toCollectionFields

/-- An action of an addition that has passed its checks. -/
def ownAddStep (startedAt : ℤ) (collections : List OwnCollection) :
    OwnAddPhase → AddEvent → Option (List OwnCollection × OwnAddPhase)
  | .adding request, .proceed =>
      match lookup (fun own : OwnCollection => own.address) request.address collections with
      | some _ => some (collections, .conflicted request)
      | none => some (collections, .committing request true ⟨request.address, request.label, true⟩)
  | .conflicted request, .proceed =>
      match lookup (fun own : OwnCollection => own.address) request.address collections with
      | some own => some (collections, .committing request false own.toCollectionFields)
      | none => some (collections, .failed subscriptionConflict)
  | .committing _ created fields, .proceed =>
      let new := if created then [⟨fields, startedAt⟩] else []
      some (collections ++ new, .queueing fields created)
  | .queueing fields created, .queue queued => some (collections, .returned fields created queued)
  | .adding _, .stop | .conflicted _, .stop | .committing _ _ _, .stop | .queueing _ _, .stop =>
      some (collections, .failed .stopped)
  | _, _ => none

/-- The wallets and the keys of a workspace. -/
def WalletStore.ofWorkspace (store : WalletStore) (workspaceId : ℕ) : WalletStore where
  wallets := store.wallets.filter fun row => row.workspaceId = workspaceId
  auditLogs := []
  envelopes := store.envelopes.filter fun row => row.workspaceId = workspaceId

variable {primitives : Primitives} (signer : SignerPrimitives) (service : WalletService)
  (workspaceId : ℕ)

/-- An action of a process that works for the workspace. -/
def ownStep (store : OwnStore) :
    OwnProcess primitives → ServiceEvent → Option (OwnStore × OwnProcess primitives)
  | .idle, .collections now event =>
      match event with
      | .call context address label collectionId subscriptionId auditId =>
          match beginAdd primitives context address label collectionId subscriptionId auditId with
          | .error failure => some (store, .running (.adding now (.failed failure)))
          | .ok request => some (store, .running (.adding now (.adding request)))
      | _ => none
  | .running (.adding startedAt phase), .collections _ event =>
      (ownAddStep startedAt store.collections phase event).map fun (collections, next) =>
        ({ store with collections }, .running (.adding startedAt next))
  | .idle, .wallets _ event =>
      match event with
      | .call _ _ =>
          (creationStep signer service store.wallets ⟨.idle, .idle⟩ event).map
            fun (wallets, creation) =>
              ({ store with wallets := wallets.ofWorkspace workspaceId },
                .running (.creating creation))
      | _ => none
  | .running (.creating creation), .wallets now event =>
      (creationStep signer service store.wallets creation event).map fun (wallets, next) =>
        ({ store with
            wallets := wallets.ofWorkspace workspaceId
            createdAt := stampWallet now event next store.createdAt },
          .running (.creating next))
  | .idle, .balances event =>
      match event with
      | .refresh _ _ =>
          (refreshStep ⟨store.wallets, []⟩ .idle event).map fun (balances, phase) =>
            ({ store with wallets := balances.db.ofWorkspace workspaceId },
              .running (.refreshing phase))
      | _ => none
  | .running (.refreshing phase), .balances event =>
      (refreshStep ⟨store.wallets, []⟩ phase event).map fun (balances, next) =>
        ({ store with wallets := balances.db.ofWorkspace workspaceId },
          .running (.refreshing next))
  | .idle, .listCollections context =>
      let result := context.requireWorkspace.map fun _ => listOwnCollections store.collections
      some (store, .running (.listedCollections result))
  | .idle, .listWallets context =>
      let result := context.requireWorkspace.map (store.wallets.listWallets store.createdAt)
      some (store, .running (.listedWallets result))
  | _, _ => none

/-- The services of a workspace that is alone. -/
def ownProgram : Program OwnStore (OwnProcess primitives) ServiceEvent where
  step := ownStep signer service workspaceId

/-- What a workspace sees of the phase of an addition. -/
def AddPhase.own : AddPhase → OwnAddPhase
  | .idle => .idle
  | .insertingCollection request | .selectingCollection request
  | .insertingSubscription request _ _ => .adding request
  | .selectingSubscription request _ _ => .conflicted request
  | .committing request _ collection newSubscription subscription =>
      .committing request newSubscription.isSome (collectionRecord subscription collection).fields
  | .queueing result => .queueing result.record.fields result.created
  | .returned result scanQueued => .returned result.record.fields result.created scanQueued
  | .failed failure => .failed failure

/-- What a workspace sees of its operation. -/
def Operation.own : Operation primitives → OwnOperation primitives
  | .adding startedAt phase => .adding startedAt phase.own
  | .creating creation => .creating creation
  | .refreshing phase => .refreshing phase
  | .listedCollections result =>
      .listedCollections (result.map (List.map WorkspaceCollectionRecord.fields))
  | .listedWallets result => .listedWallets result

/-- The processes that work for other workspaces are not seen. -/
def ServiceProcess.own : ServiceProcess primitives → OwnProcess primitives
  | .idle => .idle
  | .running owner operation =>
      if owner = some workspaceId then .running operation.own else .idle

/-- The collections of a workspace, with their shared addresses. -/
def RegistryStore.ownCollections (store : RegistryStore) (subscribedAt : ℕ → ℤ) :
    List OwnCollection :=
  (store.subscriptions.rows.filter fun row => row.workspaceId = workspaceId).filterMap fun row =>
    (lookup (fun collection => collection.row.id) row.collectionId store.collections.rows).map
      fun collection => ⟨(collectionRecord row collection).fields, subscribedAt row.id⟩

/-- The times of the wallets of a database, and of no others. -/
def WalletStore.timesOf (store : WalletStore) (createdAt : ℕ → ℤ) (walletId : ℕ) : ℤ :=
  if store.wallets.any fun row => row.id = walletId then createdAt walletId else 0

/-- The databases as one workspace sees them. -/
def ServiceStore.own (store : ServiceStore) : OwnStore where
  collections := store.registry.ownCollections workspaceId store.subscribedAt
  wallets := store.wallets.ofWorkspace workspaceId
  createdAt := (store.wallets.ofWorkspace workspaceId).timesOf store.createdAt

/-- The services as one workspace sees them. -/
def ownServices (world : World ServiceStore (ServiceProcess primitives)) :
    World OwnStore (OwnProcess primitives) where
  store := world.store.own workspaceId
  process := fun index => (world.process index).own workspaceId

end CopyMint
