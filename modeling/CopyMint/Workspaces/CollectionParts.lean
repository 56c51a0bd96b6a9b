import CopyMint.Ethereum.Deduplication
import CopyMint.Workspaces.PrivateServices

/-!
# The collections of one workspace

Every stored address is its own checksummed form, so that a collection has the address
that the workspace has asked for, whoever has inserted it and in whatever spelling. An
addition therefore conflicts with an earlier one of its workspace exactly if the workspace
has a collection with that address. The other statements of an addition and the additions
of other workspaces change nothing that the workspace sees.
-/

namespace CopyMint

open Hexadecimal Relational Interleaving UniqueIndex

variable {primitives : Primitives} {workspaceId : ℕ} {owner : Option ℕ}

variable (primitives) in
/-- The address is its own checksummed form. -/
def IsChecksum (address : Text) : Prop :=
  primitives.toChecksumAddress (lower address) = .ok address

theorem isChecksum_of_toChecksumAddress {address checksum : Text}
    (ok : primitives.toChecksumAddress address = .ok checksum) :
    IsChecksum primitives checksum := by
  rw [IsChecksum, ← ok]
  apply toChecksumAddress_congr
  rw [lower_toChecksumAddress ok]
  simp [lowerAddress, lower_marker_append, lower_removePrefix_lower]

/-- The checksummed form of an address is determined by its lower-case form. -/
theorem IsChecksum.eq_of_lower_eq {first second : Text}
    (firstChecksum : IsChecksum primitives first)
    (secondChecksum : IsChecksum primitives second) (same : lower first = lower second) :
    first = second := by
  rw [IsChecksum, same] at firstChecksum
  exact Except.ok.inj (firstChecksum.symm.trans secondChecksum)

variable (primitives) in
/-- The collection is stored with a checksum and under its address in lower case. -/
structure RegisteredCollection.IsChecksummed (collection : RegisteredCollection) : Prop where
  normalized : collection.normalizedAddress = lower collection.row.checksumAddress
  checksum : IsChecksum primitives collection.row.checksumAddress

variable (primitives) in
/-- The request of a workspace for an address in its checksummed form. -/
structure AddRequest.IsFor (request : AddRequest) (owner : Option ℕ) : Prop where
  workspace : owner = some request.workspaceId
  checksum : IsChecksum primitives request.address

variable (primitives) in
/-- An addition works for one workspace. -/
def AddPhase.IsFor (owner : Option ℕ) : AddPhase → Prop
  | .idle => False
  | .insertingCollection request | .selectingCollection request => request.IsFor primitives owner
  | .insertingSubscription request _ collection | .selectingSubscription request _ collection
  | .committing request _ collection _ _ =>
      request.IsFor primitives owner ∧ collection.IsChecksummed primitives
  | .queueing _ | .returned _ _ | .failed _ => True

theorem beginAdd_isFor {context : RequestContext} {address : Text} {label : Option Text}
    {collectionId subscriptionId auditId : Uuid} {request : AddRequest}
    (ok : beginAdd primitives context address label collectionId subscriptionId auditId =
      .ok request) : request.IsFor primitives context.workspaceId := by
  simp only [beginAdd] at ok
  split at ok
  · cases ok
  · cases ok
  · rename_i passed found
    rcases Fallible.bind_eq_ok_iff.mp ok with ⟨checksum, normalized, ok⟩
    rcases Fallible.bind_eq_ok_iff.mp ok with ⟨_, _, ok⟩
    cases ok
    exact ⟨workspaceId_of_requireWorkspace passed,
      isChecksum_of_toChecksumAddress (normalizeAddress_eq_ok normalized)⟩

/-- An addition begins for the workspace of its context, and leaves the registry alone. -/
theorem AddPhase.isFor_of_call {store after : RegistryStore} {next : AddPhase}
    {context : RequestContext} {address : Text} {label : Option Text}
    {collectionId subscriptionId auditId : Uuid}
    (stepped : addStep primitives store .idle
      (.call context address label collectionId subscriptionId auditId) = some (after, next)) :
    next.IsFor primitives context.workspaceId ∧ after = store := by
  simp only [addStep] at stepped
  split at stepped
  · cases stepped
    exact ⟨trivial, rfl⟩
  · rename_i ok
    cases stepped
    exact ⟨beginAdd_isFor ok, rfl⟩

/-- The collection of a request has the address of the request. -/
theorem AddRequest.IsFor.address_eq {request : AddRequest} (isFor : request.IsFor primitives owner)
    {collection : RegisteredCollection} (checksummed : collection.IsChecksummed primitives)
    (key : collection.key = request.collectionKey) :
    collection.row.checksumAddress = request.address := by
  apply checksummed.checksum.eq_of_lower_eq isFor.checksum
  rw [← checksummed.normalized]
  exact congrArg Prod.snd key

section Store

variable {store after : RegistryStore} {phase next : AddPhase} {event : AddEvent}

variable (primitives) in
/-- What the additions keep of the registry. -/
structure RegistryShared (store : RegistryStore) : Prop where
  sound : RegistrySound store
  checksummed : ∀ collection ∈ store.collections.rows, collection.IsChecksummed primitives

/-- An addition goes on for its workspace, and every collection keeps its checksummed address. -/
theorem AddPhase.IsFor.step (isFor : phase.IsFor primitives owner)
    (shared : RegistryShared primitives store) (owned : phase.Owned store)
    (sound : RegistrySound after)
    (stepped : addStep primitives store phase event = some (after, next)) :
    next.IsFor primitives owner ∧ RegistryShared primitives after := by
  cases addTransition_of_step stepped with
  | begins => exact isFor.elim
  | ends =>
      refine ⟨trivial, sound, fun collection collection_mem => ?_⟩
      exact shared.checksummed collection (by simpa [RegistryStore.rollback] using collection_mem)
  | insertsCollection inserted =>
      refine ⟨⟨isFor, rfl, isFor.checksum⟩, sound, fun collection collection_mem => ?_⟩
      rcases insertOnConflict_eq_inserted inserted with ⟨rfl, _⟩
      exact shared.checksummed collection collection_mem
  | losesCollection => exact ⟨isFor, shared⟩
  | readsCollection found =>
      exact ⟨⟨isFor, shared.checksummed _ (lookup_eq_some_mem found).1⟩, shared⟩
  | missesCollection absent =>
      rcases owned with ⟨_, collection, collection_mem, key⟩
      exact absurd key (lookup_eq_none_iff.mp absent collection collection_mem)
  | insertsSubscription => exact ⟨isFor, sound, shared.checksummed⟩
  | losesSubscription | readsSubscription => exact ⟨isFor, shared⟩
  | missesSubscription absent =>
      rcases owned with ⟨_, _, subscription, subscription_mem, key⟩
      exact absurd key (lookup_eq_none_iff.mp absent subscription subscription_mem)
  | commits =>
      refine ⟨trivial, sound, fun collection collection_mem => ?_⟩
      simp only [RegistryStore.commit, rows_commit, List.mem_append, Option.mem_toList]
        at collection_mem
      rcases collection_mem with old | new
      · exact shared.checksummed collection old
      · rcases owned.2.1.2 with rfl | ⟨rfl, _⟩
        · cases new
          exact isFor.2
        · cases new
  | returns => exact ⟨trivial, shared⟩

/-- A subscription is to a committed collection. -/
theorem RegistrySound.subscribed (sound : RegistrySound store) {row : WorkspaceCollection}
    (row_mem : row ∈ store.subscriptions.rows) :
    ∃ collection ∈ store.collections.rows, collection.row.id = row.collectionId := by
  have registered : row.registration ∈
      (store.results.filter AddResult.created).map AddResult.registration := by
    rw [sound.created]
    exact List.mem_map_of_mem row_mem
  rcases List.mem_map.mp registered with ⟨result, result_mem, registration⟩
  rcases (sound.recorded result (List.mem_filter.mp result_mem).1).collection with
    ⟨collection, collection_mem, _, id⟩
  refine ⟨collection, collection_mem, id.trans ?_⟩
  exact congrArg (·.1.2) registration

variable {subscribedAt : ℕ → ℤ} {request : AddRequest} {newCollection : Option RegisteredCollection}
  {collection : RegisteredCollection}

/-- The entry of a subscription to a committed collection. -/
theorem mem_ownCollections {own : OwnCollection} :
    own ∈ store.ownCollections workspaceId subscribedAt ↔
      ∃ row ∈ store.subscriptions.rows, row.workspaceId = workspaceId ∧
        ∃ collection, lookup (fun collection => collection.row.id) row.collectionId
          store.collections.rows = some collection ∧
            ⟨(collectionRecord row collection).fields, subscribedAt row.id⟩ = own := by
  simp only [RegistryStore.ownCollections, List.mem_filterMap, List.mem_filter, decide_eq_true_eq,
    Option.map_eq_some_iff, and_assoc]

theorem ownCollections_congr (collections : after.collections.rows = store.collections.rows)
    (subscriptions : after.subscriptions.rows = store.subscriptions.rows) :
    after.ownCollections workspaceId subscribedAt =
      store.ownCollections workspaceId subscribedAt := by
  simp only [RegistryStore.ownCollections, collections, subscriptions]

theorem ownCollections_rollback (newCollection : Option RegisteredCollection)
    (newSubscription : Option WorkspaceCollection) :
    (store.rollback newCollection newSubscription).ownCollections workspaceId subscribedAt =
      store.ownCollections workspaceId subscribedAt :=
  ownCollections_congr (rows_rollback newCollection) (rows_rollback newSubscription)

/-- What a request has found is among the rows of all transactions. -/
theorem AddRequest.Finds.mem (finds : request.Finds store newCollection collection)
    (held : ∀ row ∈ newCollection, row ∈ store.collections.pending) :
    collection ∈ store.collections.rows ++ store.collections.pending := by
  rcases finds.2 with rfl | ⟨_, committed⟩
  · exact List.mem_append_right _ (held collection rfl)
  · exact List.mem_append_left _ committed

/-- A committed collection has the address of a request if it is the one that was found. -/
theorem RegistryShared.address_eq_iff (shared : RegistryShared primitives store)
    (isFor : request.IsFor primitives owner) (checksummed : collection.IsChecksummed primitives)
    (finds : request.Finds store newCollection collection)
    (held : ∀ row ∈ newCollection, row ∈ store.collections.pending)
    {other : RegisteredCollection} (other_mem : other ∈ store.collections.rows) :
    other.row.checksumAddress = request.address ↔ other.row.id = collection.row.id := by
  have among := List.mem_append_left store.collections.pending other_mem
  constructor
  · intro same
    have chain : other.chainId = 1 := by
      rcases shared.sound.added other other_mem with ⟨result, _, key⟩
      exact congrArg Prod.fst key
    have key : other.key = collection.key := by
      rw [finds.1]
      refine Prod.ext chain ?_
      exact ((shared.checksummed other other_mem).normalized).trans (congrArg lower same)
    rw [shared.sound.collections.eq_of_key_eq among (finds.mem held) key]
  · intro same
    rw [shared.sound.collectionIds.eq_of_key_eq among (finds.mem held) same]
    exact isFor.address_eq checksummed finds.1

/-- The workspace has a collection with the address of a request if it has subscribed to it. -/
theorem RegistryShared.own_of_address (shared : RegistryShared primitives store)
    (isFor : request.IsFor primitives (some workspaceId))
    (checksummed : collection.IsChecksummed primitives)
    (finds : request.Finds store newCollection collection)
    (held : ∀ row ∈ newCollection, row ∈ store.collections.pending) {own : OwnCollection}
    (found : lookup (fun own : OwnCollection => own.address) request.address
      (store.ownCollections workspaceId subscribedAt) = some own) :
    ∃ row ∈ store.subscriptions.rows, row.key = (workspaceId, collection.row.id) ∧
      own.toCollectionFields = (collectionRecord row collection).fields := by
  rcases lookup_eq_some_mem found with ⟨own_mem, address⟩
  rcases mem_ownCollections.mp own_mem with ⟨row, row_mem, workspace, other, other_eq, rfl⟩
  rcases lookup_eq_some_mem other_eq with ⟨other_mem, id⟩
  have same := (shared.address_eq_iff isFor checksummed finds held other_mem).mp address
  have equal := shared.sound.collectionIds.eq_of_key_eq
    (List.mem_append_left store.collections.pending other_mem) (finds.mem held) same
  exact ⟨row, row_mem, Prod.ext workspace (id.symm.trans same), equal ▸ rfl⟩

theorem RegistryShared.exists_own (shared : RegistryShared primitives store) (subscribedAt : ℕ → ℤ)
    (isFor : request.IsFor primitives (some workspaceId))
    (checksummed : collection.IsChecksummed primitives)
    (finds : request.Finds store newCollection collection)
    (held : ∀ row ∈ newCollection, row ∈ store.collections.pending) {row : WorkspaceCollection}
    (row_mem : row ∈ store.subscriptions.rows)
    (key : row.key = (workspaceId, collection.row.id)) :
    ∃ own, lookup (fun own : OwnCollection => own.address) request.address
      (store.ownCollections workspaceId subscribedAt) = some own ∧
        own.toCollectionFields = (collectionRecord row collection).fields := by
  rcases shared.sound.subscribed row_mem with ⟨other, other_mem, id⟩
  have same : other.row.id = collection.row.id := id.trans (congrArg Prod.snd key)
  have address := (shared.address_eq_iff isFor checksummed finds held other_mem).mpr same
  have other_eq : lookup (fun collection => collection.row.id) row.collectionId
      store.collections.rows = some other := by
    rw [← id]
    exact shared.sound.collectionIds.unique.lookup_of_mem other_mem
  have own_mem : (⟨(collectionRecord row other).fields, subscribedAt row.id⟩ : OwnCollection) ∈
      store.ownCollections workspaceId subscribedAt :=
    mem_ownCollections.mpr ⟨row, row_mem, congrArg Prod.fst key, other, other_eq, rfl⟩
  cases found : lookup (fun own : OwnCollection => own.address) request.address
      (store.ownCollections workspaceId subscribedAt) with
  | none => exact absurd address (lookup_eq_none_iff.mp found _ own_mem)
  | some own =>
      rcases shared.own_of_address isFor checksummed finds held found with
        ⟨existing, existing_mem, existingKey, fields⟩
      have equal := shared.sound.subscriptions.unique.eq_of_key_eq existing_mem row_mem
        (existingKey.trans key.symm)
      exact ⟨own, rfl, equal ▸ fields⟩

/-- A commit adds an entry if it commits a subscription of the workspace. -/
theorem RegistryShared.ownCollections_commit (shared : RegistryShared primitives store)
    (workspaceId : ℕ) (subscribedAt : ℕ → ℤ)
    {newSubscription : Option WorkspaceCollection} {subscription : WorkspaceCollection}
    (owned : (AddPhase.committing request newCollection collection newSubscription
      subscription).Owned store)
    (held : (AddPhase.committing request newCollection collection newSubscription
      subscription).Holds store)
    (startedAt : ℤ) (result : AddResult) :
    (store.commit newCollection newSubscription result).ownCollections workspaceId
        (stampSubscription startedAt (.committing request newCollection collection newSubscription
          subscription) (.queueing result) subscribedAt) =
      store.ownCollections workspaceId subscribedAt ++
        if newSubscription.isSome && request.workspaceId = workspaceId then
          [⟨(collectionRecord subscription collection).fields, startedAt⟩]
        else [] := by
  have kept : ∀ row ∈ store.subscriptions.rows,
      lookup (fun collection => collection.row.id) row.collectionId
          (store.collections.rows ++ newCollection.toList) =
        lookup (fun collection => collection.row.id) row.collectionId store.collections.rows := by
    intro row row_mem
    rcases shared.sound.subscribed row_mem with ⟨other, other_mem, id⟩
    rw [lookup_append, ← id, shared.sound.collectionIds.unique.lookup_of_mem other_mem,
      Option.some_or]
  rcases owned with ⟨_, finds, key, ⟨rfl, inserted⟩ | ⟨rfl, committed⟩⟩
  · have pending := held.subscription subscription rfl
    have times : ∀ row ∈ store.subscriptions.rows,
        Function.update subscribedAt subscription.id startedAt row.id = subscribedAt row.id := by
      intro row row_mem
      have distinct : row.id ≠ subscription.id :=
        shared.sound.subscriptionIds.ne_of_committed row_mem pending
      exact Function.update_of_ne distinct _ _
    have found : lookup (fun collection => collection.row.id) subscription.collectionId
        (store.collections.rows ++ newCollection.toList) = some collection := by
      have unique := (shared.sound.collectionIds.commit held.collection).unique
      rw [rows_commit] at unique
      have collection_mem : collection ∈ store.collections.rows ++ newCollection.toList := by
        rcases finds.2 with rfl | ⟨rfl, present⟩
        · simp
        · simpa using present
      have id : subscription.collectionId = collection.row.id := congrArg Prod.snd key
      rw [id]
      exact unique.lookup_of_mem collection_mem
    simp only [RegistryStore.ownCollections, RegistryStore.commit, rows_commit, stampSubscription,
      Option.toList_some, List.filter_append, List.filterMap_append]
    congr 1
    · refine List.filterMap_congr fun row row_mem => ?_
      have stored := (List.mem_filter.mp row_mem).1
      rw [kept row stored, times row stored]
    · have workspace : subscription.workspaceId = request.workspaceId := congrArg Prod.fst key
      by_cases own : request.workspaceId = workspaceId
      · simp [workspace, own, found]
      · simp [workspace, own]
  · simp only [RegistryStore.ownCollections, RegistryStore.commit, rows_commit, stampSubscription,
      Option.toList_none, List.append_nil, Option.isSome_none, Bool.false_and, if_false,
      Bool.false_eq_true]
    refine List.filterMap_congr fun row row_mem => ?_
    rw [kept row (List.mem_filter.mp row_mem).1]

@[simp]
theorem stampSubscription_failed (startedAt : ℤ) (phase : AddPhase)
    (failure : RegistrationFailure) (subscribedAt : ℕ → ℤ) :
    stampSubscription startedAt phase (.failed failure) subscribedAt = subscribedAt := by
  unfold stampSubscription
  split
  · rename_i impossible
    cases impossible
  · rfl

/-- An addition for another workspace changes nothing that the workspace sees. -/
theorem AddPhase.IsFor.elsewhere (isFor : phase.IsFor primitives owner)
    (other : owner ≠ some workspaceId) (shared : RegistryShared primitives store)
    (owned : phase.Owned store) (held : phase.Holds store) (startedAt : ℤ)
    (stepped : addStep primitives store phase event = some (after, next)) :
    after.ownCollections workspaceId (stampSubscription startedAt phase next subscribedAt) =
      store.ownCollections workspaceId subscribedAt := by
  cases addTransition_of_step stepped with
  | begins => exact isFor.elim
  | ends =>
      rw [stampSubscription_failed, ownCollections_rollback]
  | insertsCollection inserted =>
      rcases insertOnConflict_eq_inserted inserted with ⟨rfl, _⟩
      exact ownCollections_congr rfl rfl
  | losesCollection | readsCollection | losesSubscription | readsSubscription | returns => rfl
  | missesCollection absent =>
      rcases owned with ⟨_, collection, collection_mem, key⟩
      exact absurd key (lookup_eq_none_iff.mp absent collection collection_mem)
  | insertsSubscription inserted =>
      rcases insertOnConflict_eq_inserted inserted with ⟨rfl, _⟩
      exact ownCollections_congr rfl rfl
  | missesSubscription absent =>
      rcases owned with ⟨_, _, subscription, subscription_mem, key⟩
      exact absurd key (lookup_eq_none_iff.mp absent subscription subscription_mem)
  | commits =>
      rw [shared.ownCollections_commit workspaceId subscribedAt owned held, if_neg, List.append_nil]
      simp only [Bool.and_eq_true, decide_eq_true_eq, not_and]
      rintro _ rfl
      exact other isFor.1.workspace

/-- A fresh identifier violates no constraint. -/
theorem not_violation_of_insertsFresh
    (fresh : (AddPhase.insertingCollection request).insertsFresh store = true) :
    store.insertCollection request.collectionRow ≠ some .violation := by
  intro violation
  rcases insertOnConflict_eq_violation violation with ⟨row, row_mem, different, clashes⟩
  have free := List.all_eq_true.mp fresh row row_mem
  have taken : request.collectionRow.row.id = row.row.id := of_decide_eq_true clashes
  simp only [different, decide_false, Bool.false_or, decide_eq_true_eq] at free
  exact free taken.symm

theorem not_violation_of_insertsFresh_subscription
    (fresh : (AddPhase.insertingSubscription request newCollection collection).insertsFresh store =
      true) : store.insertSubscription (request.subscriptionRow collection) ≠ some .violation := by
  intro violation
  rcases insertOnConflict_eq_violation violation with ⟨row, row_mem, different, clashes⟩
  have free := List.all_eq_true.mp fresh row row_mem
  have taken : (request.subscriptionRow collection).id = row.id := of_decide_eq_true clashes
  simp only [different, decide_false, Bool.false_or, decide_eq_true_eq] at free
  exact free taken.symm

/-- The statements on the shared collections change nothing that the workspace sees. -/
theorem ownCollections_shared (startedAt : ℤ)
    (statement : phase = .insertingCollection request ∨ phase = .selectingCollection request)
    (owned : phase.Owned store) (fresh : phase.insertsFresh store = true)
    (proceeded : addProceed store phase = some (after, next)) :
    after.ownCollections workspaceId (stampSubscription startedAt phase next subscribedAt) =
      store.ownCollections workspaceId subscribedAt ∧ next.own = phase.own := by
  rcases statement with rfl | rfl
  · simp only [addProceed] at proceeded
    split at proceeded
    · cases proceeded
    · cases proceeded
      exact ⟨rfl, rfl⟩
    · rename_i violation
      exact absurd violation (not_violation_of_insertsFresh fresh)
    · rename_i inserted
      cases proceeded
      rcases insertOnConflict_eq_inserted inserted with ⟨rfl, _⟩
      exact ⟨ownCollections_congr rfl rfl, rfl⟩
  · simp only [addProceed] at proceeded
    split at proceeded
    · rename_i absent
      rcases owned with ⟨_, collection, collection_mem, key⟩
      exact absurd key (lookup_eq_none_iff.mp absent collection collection_mem)
    · cases proceeded
      exact ⟨rfl, rfl⟩

/-- An addition of the workspace goes on as if the workspace had the service for itself. -/
theorem ownAddStep_eq (isFor : phase.IsFor primitives (some workspaceId))
    (shared : RegistryShared primitives store)
    (owned : phase.Owned store) (held : phase.Holds store)
    (fresh : phase.insertsFresh store = true) (subscribedAt : ℕ → ℤ) (startedAt : ℤ)
    (visible : event = .proceed → ∀ request,
      phase ≠ .insertingCollection request ∧ phase ≠ .selectingCollection request)
    (stepped : addStep primitives store phase event = some (after, next)) :
    ownAddStep startedAt (store.ownCollections workspaceId subscribedAt) phase.own event =
      some (after.ownCollections workspaceId
        (stampSubscription startedAt phase next subscribedAt), next.own) := by
  cases event with
  | call =>
      cases phase with
      | idle => exact isFor.elim
      | _ => cases stepped
  | queue queued =>
      cases phase <;> cases stepped
      rfl
  | stop =>
      simp only [addStep, abandon_eq] at stepped
      split_ifs at stepped with isOpen
      cases stepped
      rw [stampSubscription_failed, ownCollections_rollback]
      cases phase <;> first | rfl | cases isOpen
  | proceed =>
      have proceeded : addProceed store phase = some (after, next) := by
        cases phase <;> exact stepped
      cases phase with
      | insertingCollection request => exact absurd rfl (visible rfl request).1
      | selectingCollection request => exact absurd rfl (visible rfl request).2
      | insertingSubscription request newCollection collection =>
          simp only [addProceed] at proceeded
          split at proceeded
          · cases proceeded
          · rename_i conflict
            cases proceeded
            rcases insertOnConflict_eq_conflict conflict with ⟨row, row_mem, key⟩
            have own : row.key = (workspaceId, collection.row.id) := by
              rw [Option.some.inj isFor.1.workspace]
              exact key
            rcases shared.exists_own subscribedAt isFor.1 isFor.2 owned.2 held.collection row_mem
              own with
              ⟨entry, found, _⟩
            simp only [AddPhase.own, ownAddStep, found, stampSubscription]
          · rename_i violation
            exact absurd violation (not_violation_of_insertsFresh_subscription fresh)
          · rename_i inserted
            cases proceeded
            rcases insertOnConflict_eq_inserted inserted with ⟨rfl, different⟩
            have absent : lookup (fun own : OwnCollection => own.address) request.address
                (store.ownCollections workspaceId subscribedAt) = none := by
              cases found : lookup (fun own : OwnCollection => own.address) request.address
                  (store.ownCollections workspaceId subscribedAt) with
              | none => rfl
              | some own =>
                  rcases shared.own_of_address isFor.1 isFor.2 owned.2 held.collection found with
                    ⟨row, row_mem, key, _⟩
                  refine absurd ?_ (different row (List.mem_append_left _ row_mem)).1
                  rw [key, Option.some.inj isFor.1.workspace]
                  rfl
            have address := isFor.1.address_eq isFor.2 owned.2.1
            have kept : ({ store with subscriptions :=
                { store.subscriptions with pending := store.subscriptions.pending ++
                  [request.subscriptionRow collection] } } : RegistryStore).ownCollections
                    workspaceId subscribedAt = store.ownCollections workspaceId subscribedAt :=
              ownCollections_congr rfl rfl
            simp only [AddPhase.own, ownAddStep, absent, stampSubscription, kept]
            simp [collectionRecord, WorkspaceCollectionRecord.fields, AddRequest.subscriptionRow,
              address]
      | selectingSubscription request newCollection collection =>
          simp only [addProceed] at proceeded
          split at proceeded
          · rename_i absent
            rcases owned with ⟨_, _, subscription, subscription_mem, key⟩
            exact absurd key (lookup_eq_none_iff.mp absent subscription subscription_mem)
          · rename_i subscription found
            cases proceeded
            rcases lookup_eq_some_mem found with ⟨row_mem, key⟩
            have own : subscription.key = (workspaceId, collection.row.id) := by
              rw [Option.some.inj isFor.1.workspace]
              exact key
            rcases shared.exists_own subscribedAt isFor.1 isFor.2 owned.2.1 held.collection row_mem
              own with
              ⟨entry, own_eq, fields⟩
            simp only [AddPhase.own, ownAddStep, own_eq, stampSubscription, fields]
            rfl
      | committing request newCollection collection newSubscription subscription =>
          cases proceeded
          have same : request.workspaceId = workspaceId := (Option.some.inj isFor.1.workspace).symm
          rw [shared.ownCollections_commit workspaceId subscribedAt owned held]
          simp [AddPhase.own, ownAddStep, same, AddRequest.result]
      | idle | queueing | returned | failed => cases proceeded

end Store

end CopyMint
