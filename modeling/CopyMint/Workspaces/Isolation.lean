import CopyMint.Library.Observation
import CopyMint.Workspaces.CollectionParts
import CopyMint.Workspaces.WalletParts

/-!
# Workspaces do not interfere with each other

What a workspace sees of the shared services is the state of services of its own, which
take its actions and no others. Runs with the same actions of the workspace therefore end
in the same collections, wallets and results of the workspace, whatever the others do.
-/

namespace CopyMint

open Hexadecimal Relational Interleaving UniqueIndex

variable {primitives : Primitives} {signer : SignerPrimitives} {service : WalletService}
  {workspaceId : ℕ}

section Listings

/-- A workspace lists the collections that it has. -/
theorem listCollections_fields (store : RegistryStore) (subscribedAt : ℕ → ℤ) (workspaceId : ℕ) :
    (store.listCollections subscribedAt workspaceId).map WorkspaceCollectionRecord.fields =
      listOwnCollections (store.ownCollections workspaceId subscribedAt) := by
  let entry : WorkspaceCollection × RegisteredCollection → OwnCollection := fun pair =>
    ⟨(collectionRecord pair.1 pair.2).fields, subscribedAt pair.1.id⟩
  let joined := (store.subscriptions.rows.filter fun row =>
    row.workspaceId = workspaceId && row.active).filterMap fun row =>
      (lookup (fun collection => collection.row.id) row.collectionId store.collections.rows).map
        fun collection => (row, collection)
  have active : (store.ownCollections workspaceId subscribedAt).filter (fun own => own.active) =
      joined.map entry := by
    simp only [joined, RegistryStore.ownCollections, List.filter_filterMap, List.filterMap_filter,
      List.map_filterMap]
    congr 1
    funext row
    by_cases own : row.workspaceId = workspaceId
    · cases lookup (fun collection => collection.row.id) row.collectionId
          store.collections.rows with
      | none => simp
      | some collection =>
          cases chosen : row.active <;>
            simp [own, chosen, entry, collectionRecord, WorkspaceCollectionRecord.fields]
    · simp [own]
  calc (store.listCollections subscribedAt workspaceId).map WorkspaceCollectionRecord.fields
      = ((joined.insertionSort fun first second =>
          subscribedAt first.1.id ≤ subscribedAt second.1.id).map entry).map
            OwnCollection.toCollectionFields := by
        simp only [RegistryStore.listCollections, List.map_map]
        rfl
    _ = listOwnCollections (store.ownCollections workspaceId subscribedAt) := by
        rw [listOwnCollections, active]
        congr 1
        exact List.map_insertionSort _ _ entry joined fun _ _ _ _ => Iff.rfl

/-- A workspace lists the wallets of its part of the database. -/
theorem listWallets_ofWorkspace (store : WalletStore) (createdAt : ℕ → ℤ) (workspaceId : ℕ) :
    (store.ofWorkspace workspaceId).listWallets
        ((store.ofWorkspace workspaceId).timesOf createdAt) workspaceId =
      store.listWallets createdAt workspaceId := by
  have times : ∀ row ∈ store.wallets.filter fun row => row.workspaceId = workspaceId,
      (store.ofWorkspace workspaceId).timesOf createdAt row.id = createdAt row.id := by
    intro row row_mem
    refine if_pos (List.any_eq_true.mpr ⟨row, row_mem, ?_⟩)
    exact decide_eq_true rfl
  have selected : (store.ofWorkspace workspaceId).wallets.filter
      (fun row => row.workspaceId = workspaceId) =
        store.wallets.filter fun row => row.workspaceId = workspaceId := by
    simp [WalletStore.ofWorkspace]
  simp only [WalletStore.listWallets, selected]
  congr 1
  have sorted := List.map_insertionSort
    (fun first second : ExecutionWallet =>
      (store.ofWorkspace workspaceId).timesOf createdAt first.id ≤
        (store.ofWorkspace workspaceId).timesOf createdAt second.id)
    (fun first second : ExecutionWallet => createdAt first.id ≤ createdAt second.id) id
    (store.wallets.filter fun row => row.workspaceId = workspaceId)
    fun first first_mem second second_mem => by
      rw [times first first_mem, times second second_mem, id, id]
  simpa using sorted

end Listings

/-- What an action does to the databases and to its process. -/
inductive ServiceTransition (signer : SignerPrimitives) (service : WalletService)
    (store : ServiceStore) :
    ServiceProcess primitives → ServiceEvent → ServiceStore → ServiceProcess primitives → Prop
  | beginsAddition {now : ℤ} {context : RequestContext} {address : Text} {label : Option Text}
      {collectionId subscriptionId auditId : Uuid} {registry : RegistryStore} {phase : AddPhase}
      (stepped : addStep primitives store.registry .idle
        (.call context address label collectionId subscriptionId auditId) =
          some (registry, phase)) :
      ServiceTransition signer service store .idle
        (.collections now (.call context address label collectionId subscriptionId auditId))
        { store with registry } (.running context.workspaceId (.adding now phase))
  | adds {owner : Option ℕ} {startedAt now : ℤ} {phase next : AddPhase} {event : AddEvent}
      {registry : RegistryStore}
      (stepped : addStep primitives store.registry phase event = some (registry, next)) :
      ServiceTransition signer service store (.running owner (.adding startedAt phase))
        (.collections now event)
        { store with
          registry
          subscribedAt := stampSubscription startedAt phase next store.subscribedAt }
        (.running owner (.adding startedAt next))
  | beginsCreation {now : ℤ} {context : RequestContext} {idempotencyKey : Text}
      {wallets : WalletStore} {creation : WalletCreation primitives}
      (stepped : creationStep signer service store.wallets ⟨.idle, .idle⟩
        (.call context idempotencyKey) = some (wallets, creation)) :
      ServiceTransition signer service store .idle (.wallets now (.call context idempotencyKey))
        { store with wallets } (.running context.workspaceId (.creating creation))
  | creates {owner : Option ℕ} {now : ℤ} {creation next : WalletCreation primitives}
      {event : CreationEvent} {wallets : WalletStore}
      (stepped : creationStep signer service store.wallets creation event =
        some (wallets, next)) :
      ServiceTransition signer service store (.running owner (.creating creation))
        (.wallets now event)
        { store with wallets, createdAt := stampWallet now event next store.createdAt }
        (.running owner (.creating next))
  | beginsRefresh {workspaceId walletId : ℕ} {balances : BalanceStore} {phase : RefreshPhase}
      (stepped : refreshStep ⟨store.wallets, []⟩ .idle (.refresh workspaceId walletId) =
        some (balances, phase)) :
      ServiceTransition signer service store .idle (.balances (.refresh workspaceId walletId))
        { store with wallets := balances.db } (.running workspaceId (.refreshing phase))
  | refreshes {owner : Option ℕ} {phase next : RefreshPhase} {event : RefreshEvent}
      {balances : BalanceStore}
      (stepped : refreshStep ⟨store.wallets, []⟩ phase event = some (balances, next)) :
      ServiceTransition signer service store (.running owner (.refreshing phase))
        (.balances event) { store with wallets := balances.db } (.running owner (.refreshing next))
  | listsCollections {context : RequestContext} :
      ServiceTransition signer service store .idle (.listCollections context) store
        (.running context.workspaceId (.listedCollections (context.requireWorkspace.map
          (store.registry.listCollections store.subscribedAt))))
  | listsWallets {context : RequestContext} :
      ServiceTransition signer service store .idle (.listWallets context) store
        (.running context.workspaceId (.listedWallets (context.requireWorkspace.map
          (store.wallets.listWallets store.createdAt))))

theorem serviceTransition_of_step {store after : ServiceStore}
    {process next : ServiceProcess primitives} {event : ServiceEvent}
    (stepped : serviceStep signer service store process event = some (after, next)) :
    ServiceTransition signer service store process event after next := by
  unfold serviceStep at stepped
  split at stepped
  · split at stepped
    · rcases Option.map_eq_some_iff.mp stepped with ⟨⟨registry, phase⟩, acted, same⟩
      cases same
      exact .beginsAddition acted
    · cases stepped
  · rcases Option.map_eq_some_iff.mp stepped with ⟨⟨registry, phase⟩, acted, same⟩
    cases same
    exact .adds acted
  · split at stepped
    · rcases Option.map_eq_some_iff.mp stepped with ⟨⟨wallets, creation⟩, acted, same⟩
      cases same
      exact .beginsCreation acted
    · cases stepped
  · rcases Option.map_eq_some_iff.mp stepped with ⟨⟨wallets, creation⟩, acted, same⟩
    cases same
    exact .creates acted
  · split at stepped
    · rcases Option.map_eq_some_iff.mp stepped with ⟨⟨balances, phase⟩, acted, same⟩
      cases same
      exact .beginsRefresh acted
    · cases stepped
  · rcases Option.map_eq_some_iff.mp stepped with ⟨⟨balances, phase⟩, acted, same⟩
    cases same
    exact .refreshes acted
  · cases stepped
    exact .listsCollections
  · cases stepped
    exact .listsWallets
  · cases stepped

/-- An operation works for one workspace. -/
def Operation.IsFor (owner : Option ℕ) : Operation primitives → Prop
  | .adding _ phase => phase.IsFor primitives owner
  | .creating creation => creation.IsFor owner
  | .refreshing phase => phase.IsFor owner
  | .listedCollections _ | .listedWallets _ => True

/-- An operation is for the workspace that has begun it. -/
def ServiceProcess.IsSound : ServiceProcess primitives → Prop
  | .idle => True
  | .running owner operation => operation.IsFor owner

/-- The addition that a process is making, if any. -/
def ServiceProcess.addPhase : ServiceProcess primitives → AddPhase
  | .running _ (.adding _ phase) => phase
  | _ => .idle

/-- The additions among the operations. -/
def registryWorld (world : World ServiceStore (ServiceProcess primitives)) :
    World RegistryStore AddPhase where
  store := world.store.registry
  process := fun index => (world.process index).addPhase

/-- The additions keep their registry, and every operation works for one workspace. -/
structure ServicesSound (world : World ServiceStore (ServiceProcess primitives)) : Prop where
  registry : RegistryWorld (registryWorld world)
  shared : RegistryShared primitives world.store.registry
  processes : ∀ index, (world.process index).IsSound

section Preservation

variable {world next : World ServiceStore (ServiceProcess primitives)} {index : ℕ}
  {event : ServiceEvent} {store : ServiceStore} {process : ServiceProcess primitives}

theorem registryWorld_update (world : World ServiceStore (ServiceProcess primitives)) :
    registryWorld ⟨store, Function.update world.process index process⟩ =
      ⟨store.registry, Function.update (registryWorld world).process index process.addPhase⟩ := by
  refine World.ext rfl ?_
  funext other
  by_cases same : other = index
  · subst same
    simp [registryWorld]
  · simp [registryWorld, Function.update_of_ne same]

/-- An action on the registry is one of the program of additions. -/
theorem ServicesSound.adding (holds : ServicesSound world) {addition : AddEvent}
    {registry : RegistryStore} {phase : AddPhase}
    (stepped : addStep primitives world.store.registry (world.process index).addPhase addition =
      some (registry, phase)) (sameRegistry : store.registry = registry)
    (samePhase : process.addPhase = phase) :
    RegistryWorld (registryWorld ⟨store, Function.update world.process index process⟩) := by
  have acted : (addProgram primitives).act (registryWorld world) index addition =
      some (registryWorld ⟨store, Function.update world.process index process⟩) := by
    rw [registryWorld_update, sameRegistry, samePhase]
    exact Program.act_eq_some_iff.mpr ⟨registry, phase, stepped, rfl⟩
  exact (holds.registry.act acted).1

theorem ServicesSound.isSound_update (holds : ServicesSound world) (isSound : process.IsSound)
    (other : ℕ) : (Function.update world.process index process other).IsSound := by
  by_cases same : other = index
  · rw [same, Function.update_self]
    exact isSound
  · rw [Function.update_of_ne same]
    exact holds.processes other

/-- Other actions leave the additions alone. -/
theorem ServicesSound.leave (holds : ServicesSound world)
    (sameRegistry : store.registry = world.store.registry)
    (before : (world.process index).addPhase = .idle) (after : process.addPhase = .idle)
    (isSound : process.IsSound) :
    ServicesSound ⟨store, Function.update world.process index process⟩ where
  registry := by
    have same : (registryWorld world).process index = process.addPhase := before.trans after.symm
    rw [registryWorld_update, sameRegistry, ← same, Function.update_eq_self]
    exact holds.registry
  shared := sameRegistry ▸ holds.shared
  processes := holds.isSound_update isSound

theorem ServicesSound.act (holds : ServicesSound world)
    (acted : (serviceProgram signer service).act world index event = some next) :
    ServicesSound next := by
  rcases Program.act_eq_some_iff.mp acted with ⟨store, process, stepped, rfl⟩
  have isSound := holds.processes index
  have owned := holds.registry.owned index
  have adding := @ServicesSound.adding _ world index store process holds
  have leave := @ServicesSound.leave _ world index store process holds
  simp only [registryWorld] at owned
  generalize world.process index = before at isSound owned adding leave stepped
  cases serviceTransition_of_step stepped with
  | beginsAddition added =>
      have registry := adding added rfl rfl
      rcases AddPhase.isFor_of_call added with ⟨isFor, rfl⟩
      exact ⟨registry, holds.shared, holds.isSound_update isFor⟩
  | adds added =>
      have registry := adding added rfl rfl
      have kept := AddPhase.IsFor.step isSound holds.shared owned registry.sound added
      exact ⟨registry, kept.2, holds.isSound_update kept.1⟩
  | beginsCreation created => exact leave rfl rfl rfl (isFor_of_call created).1
  | creates created => exact leave rfl rfl rfl (isSound.step created)
  | beginsRefresh refreshed => exact leave rfl rfl rfl (isFor_of_refresh refreshed).1
  | refreshes refreshed => exact leave rfl rfl rfl (isSound.step refreshed).1
  | listsCollections | listsWallets => exact leave rfl rfl rfl trivial

theorem servicesSound_empty : ServicesSound (emptyServices primitives) where
  registry := registryWorld_empty
  shared := ⟨registryWorld_empty.sound, nofun⟩
  processes := fun _ => trivial

end Preservation

section Unwinding

variable {store after : ServiceStore} {process next : ServiceProcess primitives}
  {event : ServiceEvent}

/-- What an action of a process relies on. -/
structure ServiceProcess.Ready (service : WalletService) (store : ServiceStore)
    (process : ServiceProcess primitives) (event : ServiceEvent) : Prop where
  shared : RegistryShared primitives store.registry
  isSound : process.IsSound
  owned : process.addPhase.Owned store.registry
  held : process.addPhase.Holds store.registry
  fresh : process.insertsFresh service store event = true

theorem own_of_ne {owner : Option ℕ} {operation : Operation primitives}
    (other : owner ≠ some workspaceId) :
    (ServiceProcess.running owner operation).own workspaceId = .idle :=
  if_neg other

theorem own_of_eq (operation : Operation primitives) :
    (ServiceProcess.running (some workspaceId) operation).own workspaceId =
      .running operation.own :=
  if_pos rfl

/-- The shared statements are those on the collections. -/
theorem isShared_iff {owner : Option ℕ} {startedAt now : ℤ} {phase : AddPhase}
    {addition : AddEvent} :
    (ServiceProcess.running owner (.adding startedAt phase : Operation primitives)).isShared
        (.collections now addition) = true ↔
      addition = .proceed ∧
        ∃ request, phase = .insertingCollection request ∨ phase = .selectingCollection request := by
  cases phase <;> cases addition <;> simp [ServiceProcess.isShared]

/-- An action that the workspace does not perform changes nothing that it sees. -/
theorem own_unseen (ready : process.Ready service store event)
    (unseen : process.performs workspaceId event = false)
    (stepped : serviceStep signer service store process event = some (after, next)) :
    after.own workspaceId = store.own workspaceId ∧
      next.own workspaceId = process.own workspaceId := by
  rcases ready with ⟨shared, isSound, owned, held, fresh⟩
  cases serviceTransition_of_step stepped with
  | beginsAddition added =>
      have other := of_decide_eq_false unseen
      rcases AddPhase.isFor_of_call added with ⟨_, rfl⟩
      exact ⟨rfl, own_of_ne other⟩
  | @adds owner startedAt now phase next event registry added =>
      by_cases other : owner = some workspaceId
      · subst other
        have isShared := unseen
        simp only [ServiceProcess.performs, decide_true, Bool.true_and, Bool.not_eq_false']
          at isShared
        rcases isShared_iff.mp isShared with ⟨rfl, request, statement⟩
        have proceeded : addProceed store.registry phase = some (registry, next) := by
          rcases statement with rfl | rfl <;> exact added
        rcases ownCollections_shared startedAt statement owned fresh proceeded with ⟨kept, own⟩
        constructor
        · simp only [ServiceStore.own]
          rw [kept]
        · rw [own_of_eq, own_of_eq, Operation.own, Operation.own, own]
      · refine ⟨?_, (own_of_ne other).trans (own_of_ne other).symm⟩
        simp only [ServiceStore.own]
        rw [AddPhase.IsFor.elsewhere isSound other shared owned held startedAt added]
  | beginsCreation created =>
      have other := of_decide_eq_false unseen
      rcases isFor_of_call created with ⟨_, rfl⟩
      exact ⟨rfl, own_of_ne other⟩
  | @creates owner now creation next event wallets created =>
      have other : owner ≠ some workspaceId := by
        simpa [ServiceProcess.performs, ServiceProcess.isShared] using unseen
      refine ⟨?_, (own_of_ne other).trans (own_of_ne other).symm⟩
      simp only [ServiceStore.own]
      rw [timesOf_creationStep_elsewhere now isSound other created,
        isSound.elsewhere other created]
  | beginsRefresh refreshed =>
      have other := of_decide_eq_false unseen
      rcases isFor_of_refresh refreshed with ⟨_, same⟩
      rw [same]
      exact ⟨rfl, own_of_ne other⟩
  | @refreshes owner phase next event balances refreshed =>
      have other : owner ≠ some workspaceId := by
        simpa [ServiceProcess.performs, ServiceProcess.isShared] using unseen
      refine ⟨?_, (own_of_ne other).trans (own_of_ne other).symm⟩
      rcases (isSound.step refreshed).2 with same | ⟨rewritten, selected, change, rfl, rewrites⟩
      · rw [same]
      · have apart : rewritten ≠ workspaceId := fun same => other (congrArg some same)
        simp only [ServiceStore.own]
        rw [rewrites.timesOf, rewrites.elsewhere apart]
  | listsCollections | listsWallets =>
      have other := of_decide_eq_false unseen
      exact ⟨rfl, own_of_ne other⟩

/-- An action that the workspace performs is one of its own services. -/
theorem ownStep_seen (ready : process.Ready service store event)
    (seen : process.performs workspaceId event = true)
    (stepped : serviceStep signer service store process event = some (after, next)) :
    ownStep signer service workspaceId (store.own workspaceId) (process.own workspaceId) event =
      some (after.own workspaceId, next.own workspaceId) := by
  rcases ready with ⟨shared, isSound, owned, held, fresh⟩
  cases serviceTransition_of_step stepped with
  | @beginsAddition now context address label collectionId subscriptionId auditId registry phase
      added =>
      have own : context.workspaceId = some workspaceId := of_decide_eq_true seen
      rw [own, own_of_eq]
      simp only [addStep] at added
      split at added
      · rename_i raised
        cases added
        simp only [ServiceProcess.own, ownStep, raised, Operation.own, AddPhase.own]
      · rename_i ok
        cases added
        simp only [ServiceProcess.own, ownStep, ok, Operation.own, AddPhase.own]
  | @adds owner startedAt now phase next event registry added =>
      simp only [ServiceProcess.performs, Bool.and_eq_true, decide_eq_true_eq,
        Bool.not_eq_true'] at seen
      rcases seen with ⟨rfl, notShared⟩
      have visible : event = .proceed → ∀ request,
          phase ≠ .insertingCollection request ∧ phase ≠ .selectingCollection request := by
        intro proceeds request
        rw [← Bool.not_eq_true, isShared_iff] at notShared
        refine ⟨fun same => notShared ?_, fun same => notShared ?_⟩
        · exact ⟨proceeds, request, .inl same⟩
        · exact ⟨proceeds, request, .inr same⟩
      have goesOn := ownAddStep_eq isSound shared owned held fresh store.subscribedAt startedAt
        visible added
      rw [own_of_eq, own_of_eq]
      simp only [Operation.own, ownStep, ServiceStore.own, goesOn, Option.map_some]
  | @beginsCreation now context idempotencyKey wallets creation created =>
      have own : context.workspaceId = some workspaceId := of_decide_eq_true seen
      have unchanged := (isFor_of_call created).2
      have part := creationStep_idle_ofWorkspace primitives signer service store.wallets
        idempotencyKey own
      rw [created, Option.map_some] at part
      rcases exists_of_partOf_eq part with ⟨restricted, begins, same⟩
      rw [own, own_of_eq]
      simp only [ServiceProcess.own, ownStep, ServiceStore.own, begins, Option.map_some, same,
        Operation.own, unchanged]
  | @creates owner now creation next event wallets created =>
      have own : owner = some workspaceId := by
        simpa [ServiceProcess.performs, ServiceProcess.isShared] using seen
      subst own
      have part := creationStep_ofWorkspace signer isSound fresh
      rw [created, Option.map_some] at part
      rcases exists_of_partOf_eq part with ⟨restricted, goesOn, same⟩
      rw [own_of_eq, own_of_eq]
      simp only [ownStep, ServiceStore.own, Operation.own, goesOn, Option.map_some, same,
        timesOf_creationStep now isSound created]
  | @beginsRefresh owner walletId balances phase refreshed =>
      have own : some owner = some workspaceId := of_decide_eq_true seen
      cases own
      have unchanged := (isFor_of_refresh refreshed).2
      have part := refreshStep_idle_ofWorkspace store.wallets workspaceId walletId
      rw [refreshed, Option.map_some] at part
      rcases exists_of_refreshedPart_eq part with ⟨restricted, begins, same⟩
      rw [own_of_eq]
      simp only [ServiceProcess.own, ownStep, ServiceStore.own, begins, Option.map_some, same,
        Operation.own, unchanged]
  | @refreshes owner phase next event balances refreshed =>
      have own : owner = some workspaceId := by
        simpa [ServiceProcess.performs, ServiceProcess.isShared] using seen
      subst own
      have times : (balances.db.ofWorkspace workspaceId).timesOf store.createdAt =
          (store.wallets.ofWorkspace workspaceId).timesOf store.createdAt := by
        rcases (isSound.step refreshed).2 with same | ⟨_, _, _, _, rewrites⟩
        · rw [same]
        · exact rewrites.timesOf
      have part := refreshStep_ofWorkspace store.wallets event isSound
      rw [refreshed, Option.map_some] at part
      rcases exists_of_refreshedPart_eq part with ⟨restricted, goesOn, same⟩
      rw [own_of_eq, own_of_eq]
      simp only [ownStep, ServiceStore.own, Operation.own, goesOn, Option.map_some, same, times]
  | @listsCollections context =>
      have own : context.workspaceId = some workspaceId := of_decide_eq_true seen
      rw [own, own_of_eq]
      simp only [ServiceProcess.own, ownStep, Operation.own, ServiceStore.own]
      cases passed : context.requireWorkspace with
      | error error => rfl
      | ok listed =>
          cases own.symm.trans (workspaceId_of_requireWorkspace passed)
          simp only [Except.map, listCollections_fields]
  | @listsWallets context =>
      have own : context.workspaceId = some workspaceId := of_decide_eq_true seen
      rw [own, own_of_eq]
      simp only [ServiceProcess.own, ownStep, Operation.own, ServiceStore.own]
      cases passed : context.requireWorkspace with
      | error error => rfl
      | ok listed =>
          cases own.symm.trans (workspaceId_of_requireWorkspace passed)
          simp only [Except.map, listWallets_ofWorkspace]

theorem ServicesSound.ready {world : World ServiceStore (ServiceProcess primitives)}
    (holds : ServicesSound world) {index : ℕ} (fresh : InsertsFresh service world index event) :
    (world.process index).Ready service world.store event where
  shared := holds.shared
  isSound := holds.processes index
  owned := holds.registry.owned index
  held := holds.registry.holds index
  fresh := fresh

theorem ownServices_update (world : World ServiceStore (ServiceProcess primitives)) (index : ℕ) :
    ownServices workspaceId ⟨store, Function.update world.process index process⟩ =
      ⟨store.own workspaceId, Function.update (ownServices workspaceId world).process index
        (process.own workspaceId)⟩ := by
  refine World.ext rfl ?_
  funext other
  by_cases same : other = index
  · subst same
    simp [ownServices]
  · simp [ownServices, Function.update_of_ne same]

end Unwinding

section Runs

variable {world next : World ServiceStore (ServiceProcess primitives)} {index : ℕ}
  {event : ServiceEvent}

theorem ownServices_unseen (holds : ServicesSound world)
    (fresh : InsertsFresh service world index event)
    (unseen : performs workspaceId world index event = false)
    (acted : (serviceProgram signer service).act world index event = some next) :
    ownServices workspaceId next = ownServices workspaceId world := by
  rcases Program.act_eq_some_iff.mp acted with ⟨store, process, stepped, rfl⟩
  rcases own_unseen (holds.ready fresh) unseen stepped with ⟨sameStore, sameProcess⟩
  have kept : process.own workspaceId = (ownServices workspaceId world).process index := sameProcess
  rw [ownServices_update, sameStore, kept, Function.update_eq_self]
  rfl

theorem ownServices_seen (holds : ServicesSound world)
    (fresh : InsertsFresh service world index event)
    (seen : performs workspaceId world index event = true)
    (acted : (serviceProgram signer service).act world index event = some next) :
    (ownProgram signer service workspaceId).act (ownServices workspaceId world) index event =
      some (ownServices workspaceId next) := by
  rcases Program.act_eq_some_iff.mp acted with ⟨store, process, stepped, rfl⟩
  have own := ownStep_seen (holds.ready fresh) seen stepped
  exact Program.act_eq_some_iff.mpr ⟨_, _, own, ownServices_update world index⟩

/-- What a workspace sees of a run is a run of services of its own. -/
theorem ownServices_of_execute {schedule : List (ℕ × ServiceEvent)} (workspaceId : ℕ)
    (fresh : (serviceProgram signer service).Meets (InsertsFresh service)
      (emptyServices primitives) schedule)
    (executed : (serviceProgram signer service).execute (emptyServices primitives) schedule =
      some world) :
    (ownProgram signer service workspaceId).execute
        (ownServices workspaceId (emptyServices primitives))
        ((serviceProgram signer service).observations (performs workspaceId)
          (emptyServices primitives) schedule) =
      some (ownServices workspaceId world) :=
  Program.execute_observations (fun holds _ acted => ServicesSound.act holds acted)
    ownServices_unseen ownServices_seen servicesSound_empty fresh executed

end Runs

/-- The result of an operation of the workspace, with its flag `created` if it has one. -/
def ServiceProcess.created (workspaceId : ℕ) (process : ServiceProcess primitives) : Option Bool :=
  match process with
  | .running owner (.adding _ (.queueing result))
  | .running owner (.adding _ (.returned result _)) =>
      if owner = some workspaceId then some result.created else none
  | .running owner (.creating ⟨.returned _ _ created, _⟩) =>
      if owner = some workspaceId then some created else none
  | _ => none

/-- The flag that the workspace sees. -/
def OwnProcess.created : OwnProcess primitives → Option Bool
  | .running (.adding _ (.queueing _ created))
  | .running (.adding _ (.returned _ created _))
  | .running (.creating ⟨.returned _ _ created, _⟩) => some created
  | _ => none

theorem created_own (process : ServiceProcess primitives) :
    (process.own workspaceId).created = process.created workspaceId := by
  cases process with
  | idle => rfl
  | running owner operation =>
      by_cases own : owner = some workspaceId
      · rw [own, own_of_eq]
        cases operation with
        | adding startedAt phase => cases phase <;> simp [Operation.own, AddPhase.own,
            OwnProcess.created, ServiceProcess.created]
        | creating creation =>
            rcases creation with ⟨call, handler⟩
            cases call <;> simp [Operation.own, OwnProcess.created, ServiceProcess.created]
        | refreshing | listedCollections | listedWallets => rfl
      · rw [own_of_ne own]
        unfold ServiceProcess.created
        split <;> simp_all [OwnProcess.created]

/--
Two runs with the same actions of a workspace end in the same list of its wallets, in the
same addresses, labels and states of its collections and in the same results and flags of
its operations, whatever the other workspaces have done in them.
-/
theorem workspaces_doNotInterfere {first second : List (ℕ × ServiceEvent)}
    {firstWorld secondWorld : World ServiceStore (ServiceProcess primitives)} (workspaceId : ℕ)
    (firstRun : (serviceProgram signer service).execute (emptyServices primitives) first =
      some firstWorld)
    (secondRun : (serviceProgram signer service).execute (emptyServices primitives) second =
      some secondWorld)
    (firstFresh : (serviceProgram signer service).Meets (InsertsFresh service)
      (emptyServices primitives) first)
    (secondFresh : (serviceProgram signer service).Meets (InsertsFresh service)
      (emptyServices primitives) second)
    (sameActions : (serviceProgram signer service).observations (performs workspaceId)
        (emptyServices primitives) first =
      (serviceProgram signer service).observations (performs workspaceId)
        (emptyServices primitives) second) :
    firstWorld.store.wallets.listWallets firstWorld.store.createdAt workspaceId =
        secondWorld.store.wallets.listWallets secondWorld.store.createdAt workspaceId ∧
      (firstWorld.store.registry.listCollections firstWorld.store.subscribedAt workspaceId).map
          WorkspaceCollectionRecord.fields =
        (secondWorld.store.registry.listCollections secondWorld.store.subscribedAt
          workspaceId).map WorkspaceCollectionRecord.fields ∧
      (∀ index, (firstWorld.process index).own workspaceId =
        (secondWorld.process index).own workspaceId) ∧
      ∀ index, (firstWorld.process index).created workspaceId =
        (secondWorld.process index).created workspaceId := by
  have firstOwn := ownServices_of_execute workspaceId firstFresh firstRun
  have secondOwn := ownServices_of_execute workspaceId secondFresh secondRun
  rw [sameActions, secondOwn, Option.some.injEq] at firstOwn
  have stores : firstWorld.store.own workspaceId = secondWorld.store.own workspaceId :=
    (congrArg World.store firstOwn).symm
  have processes : ∀ index, (firstWorld.process index).own workspaceId =
      (secondWorld.process index).own workspaceId :=
    fun index => (congrFun (congrArg World.process firstOwn) index).symm
  refine ⟨?_, ?_, processes, ?_⟩
  · rw [← listWallets_ofWorkspace, ← listWallets_ofWorkspace secondWorld.store.wallets]
    exact congrArg (fun own : OwnStore => own.wallets.listWallets own.createdAt workspaceId) stores
  · rw [listCollections_fields, listCollections_fields]
    exact congrArg (fun own : OwnStore => listOwnCollections own.collections) stores
  · intro index
    rw [← created_own, ← created_own, processes index]

section Samples

/-- A workspace adds a contract, creates a wallet, refreshes its balance and lists both. -/
def quietSchedule : List (ℕ × ServiceEvent) :=
  [(0, .collections 100 (sampleAdd 1 "aa" "first" 60 (by decide))),
    (0, .collections 101 .proceed), (0, .collections 102 .proceed),
    (0, .collections 103 .proceed), (0, .collections 104 (.queue true)),
    (1, .wallets 110 (.call sampleOwner firstKey)), (1, .wallets 111 .count),
    (1, .wallets 112 .lookUp), (1, .wallets 113 (.generate 41 (sampleMaterial 1))),
    (1, .wallets 114 .receive), (1, .wallets 115 (.save 10 20)),
    (2, .balances (.refresh 1 10)), (2, .balances (.observe 500 90)),
    (2, .balances (.update 1000)), (3, .listCollections sampleOwner),
    (4, .listWallets sampleOwner)]

/-- The same while another workspace adds the contract first, in letters of both cases. -/
def busySchedule : List (ℕ × ServiceEvent) :=
  [(5, .collections 90 (sampleAdd 2 "aA" "other" 70 (by decide))), (5, .collections 91 .proceed),
    (0, .collections 100 (sampleAdd 1 "aa" "first" 60 (by decide))),
    (5, .collections 92 .proceed), (5, .collections 93 .proceed),
    (0, .collections 101 .proceed), (0, .collections 101 .proceed),
    (0, .collections 102 .proceed), (0, .collections 103 .proceed),
    (0, .collections 104 (.queue true)),
    (1, .wallets 110 (.call sampleOwner firstKey)),
    (6, .wallets 110 (.call (sampleAdder 2) firstKey)), (6, .wallets 110 .count),
    (1, .wallets 111 .count), (1, .wallets 112 .lookUp), (6, .wallets 110 .lookUp),
    (6, .wallets 110 (.generate 42 (sampleMaterial 2))), (6, .wallets 110 .receive),
    (6, .wallets 110 (.save 11 21)),
    (1, .wallets 113 (.generate 41 (sampleMaterial 1))),
    (1, .wallets 114 .receive), (1, .wallets 115 (.save 10 20)),
    (2, .balances (.refresh 1 10)), (7, .balances (.refresh 2 11)),
    (2, .balances (.observe 500 90)), (7, .balances (.observe 600 90)),
    (7, .balances (.update 1000)), (2, .balances (.update 1000)),
    (3, .listCollections sampleOwner), (4, .listWallets sampleOwner)]

end Samples

/-- The other workspace does not change what the workspace sees. -/
theorem busySchedule_doesNotInterfere :
    ∃ quiet busy : World ServiceStore (ServiceProcess walletHashes),
      (serviceProgram sampleSigner sampleService).execute (emptyServices walletHashes)
        quietSchedule = some quiet ∧
      (serviceProgram sampleSigner sampleService).execute (emptyServices walletHashes)
        busySchedule = some busy ∧
      busy.store.wallets.wallets.map (fun row => (row.workspaceId, row.id)) = [(2, 11), (1, 10)] ∧
      (busy.process 0).created 1 = some true ∧
      quiet.store.wallets.listWallets quiet.store.createdAt 1 =
        busy.store.wallets.listWallets busy.store.createdAt 1 ∧
      (quiet.store.registry.listCollections quiet.store.subscribedAt 1).map
          WorkspaceCollectionRecord.fields =
        (busy.store.registry.listCollections busy.store.subscribedAt 1).map
          WorkspaceCollectionRecord.fields ∧
      ∀ index, (quiet.process index).created 1 = (busy.process index).created 1 := by
  have quietRun : ((serviceProgram sampleSigner sampleService).execute
      (emptyServices walletHashes) quietSchedule).isSome = true := by
    decide +kernel
  have busyRun : ((serviceProgram sampleSigner sampleService).execute
      (emptyServices walletHashes) busySchedule).map (fun world =>
        (world.store.wallets.wallets.map fun row => (row.workspaceId, row.id),
          (world.process 0).created 1)) = some ([(2, 11), (1, 10)], some true) := by
    decide +kernel
  rcases Option.isSome_iff_exists.mp quietRun with ⟨quiet, quietRun⟩
  rcases Option.map_eq_some_iff.mp busyRun with ⟨busy, busyRun, facts⟩
  rw [Prod.mk.injEq] at facts
  have same := workspaces_doNotInterfere 1 quietRun busyRun (by decide +kernel)
    (by decide +kernel) (by decide +kernel)
  exact ⟨quiet, busy, quietRun, busyRun, facts.1, facts.2, same.1, same.2.1, same.2.2.2⟩

end CopyMint
