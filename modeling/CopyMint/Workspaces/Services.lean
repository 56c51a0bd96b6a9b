import CopyMint.Ethereum.Registration
import CopyMint.Wallets.Balances
import Mathlib.Data.List.Sort

/-!
# The services of all workspaces

Collections are added and listed, wallets are created and listed and their balances are
refreshed, by any number of workspaces at once and over the same tables. An operation
goes on in the steps of its own program; a listing is one transaction. Subscriptions and
wallets are listed in the order of `created_at`, which is the time at which the
transaction that inserted them had begun.

Scans are left out. The outer joins of a listing with the jobs and the checkpoints of
scans therefore find nothing.
-/

namespace CopyMint

open Hexadecimal Relational Interleaving

/-- The databases, with the `created_at` of subscriptions and of wallets. -/
structure ServiceStore where
  registry : RegistryStore
  wallets : WalletStore
  subscribedAt : ℕ → ℤ
  createdAt : ℕ → ℤ

/-- `list_collections` of the repository. -/
def RegistryStore.listCollections (store : RegistryStore) (subscribedAt : ℕ → ℤ)
    (workspaceId : ℕ) : List WorkspaceCollectionRecord :=
  let selected := store.subscriptions.rows.filter fun row =>
    row.workspaceId = workspaceId && row.active
  let joined := selected.filterMap fun row =>
    (lookup (fun collection => collection.row.id) row.collectionId store.collections.rows).map
      fun collection => (row, collection)
  let ordered := joined.insertionSort fun first second =>
    subscribedAt first.1.id ≤ subscribedAt second.1.id
  ordered.map fun (row, collection) => collectionRecord row collection

/-- `list_wallets` of the repository. -/
def WalletStore.listWallets (store : WalletStore) (createdAt : ℕ → ℤ) (workspaceId : ℕ) :
    List WalletRecord :=
  let selected := store.wallets.filter fun row => row.workspaceId = workspaceId
  let ordered := selected.insertionSort fun first second =>
    createdAt first.id ≤ createdAt second.id
  ordered.map ExecutionWallet.record

/-- How far an operation has come. -/
inductive Operation (primitives : Primitives) where
  | adding (startedAt : ℤ) (phase : AddPhase)
  | creating (creation : WalletCreation primitives)
  | refreshing (phase : RefreshPhase)
  | listedCollections (result : Except AccessError (List WorkspaceCollectionRecord))
  | listedWallets (result : Except AccessError (List WalletRecord))

/-- A process, with the workspace that its operation is for. -/
inductive ServiceProcess (primitives : Primitives) where
  | idle
  | running (workspaceId : Option ℕ) (operation : Operation primitives)

deriving instance DecidableEq for AddEvent, RefreshEvent

/-- An action of an operation, with the time at which it begins. -/
inductive ServiceEvent where
  | collections (now : ℤ) (event : AddEvent)
  | wallets (now : ℤ) (event : CreationEvent)
  | balances (event : RefreshEvent)
  | listCollections (context : RequestContext)
  | listWallets (context : RequestContext)
  deriving DecidableEq

/-- The time of a subscription is set when it is committed. -/
def stampSubscription (startedAt : ℤ) (phase next : AddPhase) (subscribedAt : ℕ → ℤ) : ℕ → ℤ :=
  match phase, next with
  | .committing _ _ _ (some row) _, .queueing _ => Function.update subscribedAt row.id startedAt
  | _, _ => subscribedAt

variable {primitives : Primitives} (signer : SignerPrimitives) (service : WalletService)

/-- The time of a wallet is set when it is saved. -/
def stampWallet (now : ℤ) (event : CreationEvent) (next : WalletCreation primitives)
    (createdAt : ℕ → ℤ) : ℕ → ℤ :=
  match event, next.call with
  | .save _ _, .returned _ wallet true => Function.update createdAt wallet.id now
  | _, _ => createdAt

/-- An action of a process. An idle process may begin an operation of any workspace. -/
def serviceStep (store : ServiceStore) :
    ServiceProcess primitives → ServiceEvent → Option (ServiceStore × ServiceProcess primitives)
  | .idle, .collections now event =>
      match event with
      | .call context _ _ _ _ _ =>
          (addStep primitives store.registry .idle event).map fun (registry, phase) =>
            ({ store with registry }, .running context.workspaceId (.adding now phase))
      | _ => none
  | .running workspaceId (.adding startedAt phase), .collections _ event =>
      (addStep primitives store.registry phase event).map fun (registry, next) =>
        ({ store with
            registry
            subscribedAt := stampSubscription startedAt phase next store.subscribedAt },
          .running workspaceId (.adding startedAt next))
  | .idle, .wallets _ event =>
      match event with
      | .call context _ =>
          (creationStep signer service store.wallets ⟨.idle, .idle⟩ event).map
            fun (wallets, creation) =>
              ({ store with wallets }, .running context.workspaceId (.creating creation))
      | _ => none
  | .running workspaceId (.creating creation), .wallets now event =>
      (creationStep signer service store.wallets creation event).map fun (wallets, next) =>
        ({ store with wallets, createdAt := stampWallet now event next store.createdAt },
          .running workspaceId (.creating next))
  | .idle, .balances event =>
      match event with
      | .refresh workspaceId _ =>
          (refreshStep ⟨store.wallets, []⟩ .idle event).map fun (balances, phase) =>
            ({ store with wallets := balances.db }, .running workspaceId (.refreshing phase))
      | _ => none
  | .running workspaceId (.refreshing phase), .balances event =>
      (refreshStep ⟨store.wallets, []⟩ phase event).map fun (balances, next) =>
        ({ store with wallets := balances.db }, .running workspaceId (.refreshing next))
  | .idle, .listCollections context =>
      let result := context.requireWorkspace.map
        (store.registry.listCollections store.subscribedAt)
      some (store, .running context.workspaceId (.listedCollections result))
  | .idle, .listWallets context =>
      let result := context.requireWorkspace.map (store.wallets.listWallets store.createdAt)
      some (store, .running context.workspaceId (.listedWallets result))
  | _, _ => none

/-- The services for all workspaces as a program. -/
def serviceProgram : Program ServiceStore (ServiceProcess primitives) ServiceEvent where
  step := serviceStep signer service

variable (primitives) in
/-- No workspace has done anything yet. -/
def emptyServices : World ServiceStore (ServiceProcess primitives) :=
  World.uniform ⟨⟨.empty, .empty, [], []⟩, ⟨[], [], []⟩, fun _ => 0, fun _ => 0⟩ .idle

/-- The workspace that an operation is begun for. -/
def ServiceEvent.workspaceId : ServiceEvent → Option ℕ
  | .collections _ (.call context _ _ _ _ _) => context.workspaceId
  | .wallets _ (.call context _) => context.workspaceId
  | .balances (.refresh workspaceId _) => some workspaceId
  | .listCollections context | .listWallets context => context.workspaceId
  | _ => none

/-- The statements of an addition on the collections, which all workspaces share. -/
def ServiceProcess.isShared : ServiceProcess primitives → ServiceEvent → Bool
  | .running _ (.adding _ (.insertingCollection _)), .collections _ .proceed
  | .running _ (.adding _ (.selectingCollection _)), .collections _ .proceed => true
  | _, _ => false

/--
An action of a workspace. Whether an addition inserts the collection or reads it depends
on the other workspaces, and these statements are not counted.
-/
def ServiceProcess.performs (workspaceId : ℕ) (process : ServiceProcess primitives)
    (event : ServiceEvent) : Bool :=
  match process with
  | .idle => event.workspaceId = some workspaceId
  | .running owner _ => owner = some workspaceId && !process.isShared event

/-- The action is one of the workspace. -/
def performs (workspaceId : ℕ) (world : World ServiceStore (ServiceProcess primitives))
    (index : ℕ) (event : ServiceEvent) : Bool :=
  (world.process index).performs workspaceId event

/-- An addition draws no identifier that a row of another unique key has. -/
def AddPhase.insertsFresh (registry : RegistryStore) : AddPhase → Bool
  | .insertingCollection request =>
      registry.collections.rows.all fun row =>
        row.key = request.collectionRow.key || row.row.id ≠ request.collectionId
  | .insertingSubscription request _ collection =>
      registry.subscriptions.rows.all fun row =>
        row.key = (request.subscriptionRow collection).key || row.id ≠ request.subscriptionId
  | _ => true

/-- A creation draws no identifier and gets no address that a row of another key has. -/
def WalletCreation.insertsFresh (store : WalletStore) (creation : WalletCreation primitives)
    (event : CreationEvent) : Bool :=
  match event, creation.call, creation.handler with
  | .save walletId _, .saving request result, _ =>
      store.wallets.all fun row =>
        row.key = (result.workspaceId, request.keyHash) ||
          !(WalletStore.walletRow walletId result request.keyHash).clashes row
  | .generate signerKeyId _, _, .generating request =>
      store.envelopes.all fun row =>
        row.key = (service.environment, request.workspaceId, service.chainId, request.keyHash) ||
          row.signerKeyId ≠ signerKeyId
  | _, _, _ => true

/-- An insertion of the process does not use an identifier that is taken. -/
def ServiceProcess.insertsFresh (store : ServiceStore) (process : ServiceProcess primitives)
    (event : ServiceEvent) : Bool :=
  match process, event with
  | .running _ (.adding _ phase), .collections _ _ => phase.insertsFresh store.registry
  | .running _ (.creating creation), .wallets _ event =>
      creation.insertsFresh service store.wallets event
  | _, _ => true

/-- The identifiers that are drawn are fresh, and no two wallets have one address. -/
def InsertsFresh : Condition ServiceStore (ServiceProcess primitives) ServiceEvent :=
  fun world index event => (world.process index).insertsFresh service world.store event = true

instance (world : World ServiceStore (ServiceProcess primitives)) (index : ℕ)
    (event : ServiceEvent) : Decidable (InsertsFresh service world index event) :=
  inferInstanceAs (Decidable (_ = true))

end CopyMint
