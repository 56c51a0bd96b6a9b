import CopyMint.Ethereum.Registration
import CopyMint.Library.Fallible

/-!
# One row for each registration

A transaction that inserts a row holds it in the unique index until it ends, so that
the committed rows stay unique and no two transactions hold the same row. Whoever does
not insert a row has seen a committed one, which stays, and reads it in the next
statement. Results, new subscriptions and audit rows are committed together; they are
therefore in step with one another in every reachable state.
-/

namespace CopyMint

open Hexadecimal Relational Interleaving UniqueIndex

variable {primitives : Primitives}

/-- The collection that the transaction of a phase has inserted. -/
def AddPhase.newCollection : AddPhase → Option RegisteredCollection
  | .insertingSubscription _ newCollection _ | .selectingSubscription _ newCollection _
  | .committing _ newCollection _ _ _ => newCollection
  | _ => none

/-- The subscription that the transaction of a phase has inserted. -/
def AddPhase.newSubscription : AddPhase → Option WorkspaceCollection
  | .committing _ _ _ newSubscription _ => newSubscription
  | _ => none

theorem abandon_eq (store : RegistryStore) (phase : AddPhase) (failure : RegistrationFailure) :
    phase.abandon store failure =
      (store.rollback phase.newCollection phase.newSubscription, .failed failure) := by
  cases phase <;> rfl

/-- A query after a lost insertion has not found the row of the winner. -/
def RegistrationFailure.isConflict (failure : RegistrationFailure) : Bool :=
  failure = collectionConflict || failure = subscriptionConflict

/-- The request is about the address that its caller has written. -/
def AddRequest.Spelled (request : AddRequest) : Prop :=
  request.normalized = lowerAddress request.spelling

/-- The key of the collection that a request is about. -/
def AddRequest.collectionKey (request : AddRequest) : ℕ × Text := (1, request.normalized)

/-- What an action does to the tables and to the call. -/
inductive AddTransition (store : RegistryStore) : AddPhase → RegistryStore → AddPhase → Prop
  | begins {request : AddRequest} (spelled : request.Spelled) :
      AddTransition store .idle store (.insertingCollection request)
  | ends {phase : AddPhase} {failure : RegistrationFailure}
      (recoverable : failure.isConflict = false) :
      AddTransition store phase
        (store.rollback phase.newCollection phase.newSubscription) (.failed failure)
  | insertsCollection {request : AddRequest} {collections : Table RegisteredCollection}
      (inserted : store.insertCollection request.collectionRow = some (.inserted collections)) :
      AddTransition store (.insertingCollection request) { store with collections }
        (.insertingSubscription request (some request.collectionRow) request.collectionRow)
  | losesCollection {request : AddRequest}
      (conflict : store.insertCollection request.collectionRow = some .conflict) :
      AddTransition store (.insertingCollection request) store (.selectingCollection request)
  | readsCollection {request : AddRequest} {collection : RegisteredCollection}
      (found : lookup RegisteredCollection.key request.collectionKey store.collections.rows =
        some collection) :
      AddTransition store (.selectingCollection request) store
        (.insertingSubscription request none collection)
  | missesCollection {request : AddRequest} {after : RegistryStore} {next : AddPhase}
      (absent : lookup RegisteredCollection.key request.collectionKey store.collections.rows =
        none) :
      AddTransition store (.selectingCollection request) after next
  | insertsSubscription {request : AddRequest} {newCollection : Option RegisteredCollection}
      {collection : RegisteredCollection} {subscriptions : Table WorkspaceCollection}
      (inserted : store.insertSubscription (request.subscriptionRow collection) =
        some (.inserted subscriptions)) :
      AddTransition store (.insertingSubscription request newCollection collection)
        { store with subscriptions }
        (.committing request newCollection collection
          (some (request.subscriptionRow collection)) (request.subscriptionRow collection))
  | losesSubscription {request : AddRequest} {newCollection : Option RegisteredCollection}
      {collection : RegisteredCollection}
      (conflict : store.insertSubscription (request.subscriptionRow collection) =
        some .conflict) :
      AddTransition store (.insertingSubscription request newCollection collection) store
        (.selectingSubscription request newCollection collection)
  | readsSubscription {request : AddRequest} {newCollection : Option RegisteredCollection}
      {collection : RegisteredCollection} {subscription : WorkspaceCollection}
      (found : lookup WorkspaceCollection.key (request.workspaceId, collection.row.id)
        store.subscriptions.rows = some subscription) :
      AddTransition store (.selectingSubscription request newCollection collection) store
        (.committing request newCollection collection none subscription)
  | missesSubscription {request : AddRequest} {newCollection : Option RegisteredCollection}
      {collection : RegisteredCollection} {after : RegistryStore} {next : AddPhase}
      (absent : lookup WorkspaceCollection.key (request.workspaceId, collection.row.id)
        store.subscriptions.rows = none) :
      AddTransition store (.selectingSubscription request newCollection collection) after next
  | commits {request : AddRequest} {newCollection : Option RegisteredCollection}
      {collection : RegisteredCollection} {newSubscription : Option WorkspaceCollection}
      {subscription : WorkspaceCollection} :
      AddTransition store
        (.committing request newCollection collection newSubscription subscription)
        (store.commit newCollection newSubscription
          (request.result collection newSubscription subscription))
        (.queueing (request.result collection newSubscription subscription))
  | returns {result : AddResult} {queued : Bool} :
      AddTransition store (.queueing result) store (.returned result queued)

/-- Text that is accepted as an address gets its checksum, and other text is refused. -/
theorem normalizeAddress_eq (address : Text) :
    normalizeAddress primitives address =
      if primitives.isAddress address then .ok (eip55 primitives.keccak address)
      else .error (.invalidCollectionInput "Provide a valid Ethereum contract address.") := by
  rw [normalizeAddress]
  split_ifs with accepted
  · rw [primitives.toChecksumAddress_eq_ok address
      (primitives.isAddressText_of_isAddress address accepted)]
  · rfl

theorem normalizeAddress_eq_ok {address checksum : Text}
    (ok : normalizeAddress primitives address = .ok checksum) :
    primitives.toChecksumAddress address = .ok checksum := by
  rw [normalizeAddress_eq] at ok
  split_ifs at ok with accepted
  cases ok
  exact primitives.toChecksumAddress_eq_ok address
    (primitives.isAddressText_of_isAddress address accepted)

theorem normalizeAddress_error {address : Text} {failure : RegistrationFailure}
    (raised : normalizeAddress primitives address = .error failure) :
    failure.isConflict = false := by
  rw [normalizeAddress_eq] at raised
  split_ifs at raised
  cases raised
  decide

theorem normalizeLabel_error {label : Option Text} {failure : RegistrationFailure}
    (raised : normalizeLabel label = .error failure) : failure.isConflict = false := by
  simp only [normalizeLabel] at raised
  split at raised
  · cases raised
  · split_ifs at raised
    cases raised
    decide

section Begin

variable {context : RequestContext} {address : Text} {label : Option Text}
  {collectionId subscriptionId auditId : Uuid}

theorem beginAdd_eq_ok {request : AddRequest}
    (ok : beginAdd primitives context address label collectionId subscriptionId auditId =
      .ok request) : request.Spelled := by
  simp only [beginAdd] at ok
  split at ok
  · cases ok
  · cases ok
  · rcases Fallible.bind_eq_ok_iff.mp ok with ⟨checksum, normalized, ok⟩
    rcases Fallible.bind_eq_ok_iff.mp ok with ⟨_, _, ok⟩
    cases ok
    exact lower_toChecksumAddress (normalizeAddress_eq_ok normalized)

theorem beginAdd_error {failure : RegistrationFailure}
    (raised : beginAdd primitives context address label collectionId subscriptionId auditId =
      .error failure) : failure.isConflict = false := by
  simp only [beginAdd] at raised
  split at raised
  · cases raised
    rfl
  · cases raised
    decide
  · cases normalized : normalizeAddress primitives address with
    | error cause =>
        rw [normalized] at raised
        cases raised
        exact normalizeAddress_error normalized
    | ok checksum =>
        cases labelled : normalizeLabel label with
        | error cause =>
            rw [normalized, labelled] at raised
            cases raised
            exact normalizeLabel_error labelled
        | ok text =>
            rw [normalized, labelled] at raised
            cases raised

end Begin

section Inversion

variable {store after : RegistryStore} {phase next : AddPhase} {event : AddEvent}

theorem addTransition_of_proceed (proceeded : addProceed store phase = some (after, next)) :
    AddTransition store phase after next := by
  unfold addProceed at proceeded
  split at proceeded
  · split at proceeded
    · cases proceeded
    · rename_i conflict
      cases proceeded
      exact .losesCollection conflict
    · rw [abandon_eq] at proceeded
      cases proceeded
      exact .ends rfl
    · rename_i inserted
      cases proceeded
      exact .insertsCollection inserted
  · split at proceeded
    · rename_i absent
      exact .missesCollection absent
    · rename_i found
      cases proceeded
      exact .readsCollection found
  · dsimp only at proceeded
    split at proceeded
    · cases proceeded
    · rename_i conflict
      cases proceeded
      exact .losesSubscription conflict
    · rw [abandon_eq] at proceeded
      cases proceeded
      exact .ends rfl
    · rename_i inserted
      cases proceeded
      exact .insertsSubscription inserted
  · split at proceeded
    · rename_i absent
      exact .missesSubscription absent
    · rename_i found
      cases proceeded
      exact .readsSubscription found
  · cases proceeded
    exact .commits
  · cases proceeded

theorem addTransition_of_step
    (stepped : addStep primitives store phase event = some (after, next)) :
    AddTransition store phase after next := by
  unfold addStep at stepped
  split at stepped
  · split at stepped
    · rename_i raised
      cases stepped
      exact .ends (beginAdd_error raised)
    · rename_i ok
      cases stepped
      exact .begins (beginAdd_eq_ok ok)
  · exact addTransition_of_proceed stepped
  · cases stepped
    exact .returns
  · split_ifs at stepped
    rw [abandon_eq] at stepped
    cases stepped
    exact .ends rfl
  · cases stepped

end Inversion

/-- The collection of a request, which its transaction has inserted or found committed. -/
def AddRequest.Finds (request : AddRequest) (store : RegistryStore)
    (newCollection : Option RegisteredCollection) (collection : RegisteredCollection) : Prop :=
  collection.key = request.collectionKey ∧
    (newCollection = some collection ∨
      newCollection = none ∧ collection ∈ store.collections.rows)

/-- What a call knows about the committed rows by the time it is in a phase. -/
def AddPhase.Owned (store : RegistryStore) : AddPhase → Prop
  | .insertingCollection request => request.Spelled
  | .selectingCollection request => request.Spelled ∧
      ∃ collection ∈ store.collections.rows, collection.key = request.collectionKey
  | .insertingSubscription request newCollection collection =>
      request.Spelled ∧ request.Finds store newCollection collection
  | .selectingSubscription request newCollection collection =>
      request.Spelled ∧ request.Finds store newCollection collection ∧
        ∃ subscription ∈ store.subscriptions.rows,
          subscription.key = (request.workspaceId, collection.row.id)
  | .committing request newCollection collection newSubscription subscription =>
      request.Spelled ∧ request.Finds store newCollection collection ∧
        subscription.key = (request.workspaceId, collection.row.id) ∧
        (newSubscription = some subscription ∧
            subscription = request.subscriptionRow collection ∨
          newSubscription = none ∧ subscription ∈ store.subscriptions.rows)
  | .queueing result | .returned result _ => result ∈ store.results
  | .failed failure => failure.isConflict = false
  | .idle => True

/-- What the transaction of a phase has inserted is pending. -/
structure AddPhase.Holds (store : RegistryStore) (phase : AddPhase) : Prop where
  collection : ∀ row ∈ phase.newCollection, row ∈ store.collections.pending
  subscription : ∀ row ∈ phase.newSubscription, row ∈ store.subscriptions.pending

/-- What the results that are created, the subscriptions and the audit rows have in common. -/
def AddResult.registration (result : AddResult) : (ℕ × ℕ) × ℕ × Option Text :=
  ((result.request.workspaceId, result.record.collectionId), result.record.id,
    result.request.label)

/-- What a subscription keeps: its key, its identifier and its label. -/
def WorkspaceCollection.registration (row : WorkspaceCollection) : (ℕ × ℕ) × ℕ × Option Text :=
  (row.key, row.id, row.label)

/-- The key of the collection that a result is about. -/
def AddResult.collectionKey (result : AddResult) : ℕ × Text :=
  (1, lowerAddress result.request.spelling)

/-- The committed rows of a result. -/
structure AddResult.Recorded (store : RegistryStore) (result : AddResult) : Prop where
  collection : ∃ collection ∈ store.collections.rows, collection.key = result.collectionKey ∧
    collection.row.id = result.record.collectionId
  subscription : ∃ subscription ∈ store.subscriptions.rows,
    subscription.key = (result.request.workspaceId, result.record.collectionId) ∧
      subscription.id = result.record.id ∧ subscription.label = result.record.label

/-- The indexes are unique, and what is committed together stays in step. -/
structure RegistrySound (store : RegistryStore) : Prop where
  collections : store.collections.Sound RegisteredCollection.key
  collectionIds : store.collections.Sound fun collection => collection.row.id
  subscriptions : store.subscriptions.Sound WorkspaceCollection.key
  subscriptionIds : store.subscriptions.Sound WorkspaceCollection.id
  bounded : ∀ row ∈ store.subscriptions.rows ++ store.subscriptions.pending, row.id < 2 ^ 128
  recorded : ∀ result ∈ store.results, result.Recorded store
  added : ∀ collection ∈ store.collections.rows, ∃ result ∈ store.results,
    collection.key = result.collectionKey
  created : (store.results.filter AddResult.created).map AddResult.registration =
    store.subscriptions.rows.map WorkspaceCollection.registration
  audited : store.auditLogs.map (fun audit => (audit.action, audit.resourceId)) =
    store.subscriptions.rows.map fun row =>
      ("workspace_collection_added".toList, uuidText row.id)

/-- No two calls hold a row, and each knows what it relies on. -/
structure RegistryWorld (world : World RegistryStore AddPhase) : Prop where
  sound : RegistrySound world.store
  owned : ∀ index, (world.process index).Owned world.store
  holds : ∀ index, (world.process index).Holds world.store
  exclusiveCollection : ∀ first second row, row ∈ (world.process first).newCollection →
    row ∈ (world.process second).newCollection → first = second
  exclusiveSubscription : ∀ first second row, row ∈ (world.process first).newSubscription →
    row ∈ (world.process second).newSubscription → first = second

/-- Committed rows and results stay. -/
structure RegistryStore.Grows (before after : RegistryStore) : Prop where
  collections : before.collections.rows ⊆ after.collections.rows
  subscriptions : before.subscriptions.rows ⊆ after.subscriptions.rows
  results : before.results ⊆ after.results

section Growth

variable {store after : RegistryStore} {phase : AddPhase}

theorem RegistryStore.Grows.finds (grows : store.Grows after) {request : AddRequest}
    {newCollection : Option RegisteredCollection} {collection : RegisteredCollection}
    (finds : request.Finds store newCollection collection) :
    request.Finds after newCollection collection := by
  rcases finds with ⟨key, inserted | ⟨old, committed⟩⟩
  · exact ⟨key, .inl inserted⟩
  · exact ⟨key, .inr ⟨old, grows.collections committed⟩⟩

theorem AddPhase.Owned.mono (grows : store.Grows after) (owned : phase.Owned store) :
    phase.Owned after := by
  cases phase with
  | selectingCollection request =>
      rcases owned with ⟨spelled, collection, collection_mem, key⟩
      exact ⟨spelled, collection, grows.collections collection_mem, key⟩
  | insertingSubscription request newCollection collection =>
      exact ⟨owned.1, grows.finds owned.2⟩
  | selectingSubscription request newCollection collection =>
      rcases owned with ⟨spelled, finds, subscription, subscription_mem, key⟩
      exact ⟨spelled, grows.finds finds, subscription, grows.subscriptions subscription_mem, key⟩
  | committing request newCollection collection newSubscription subscription =>
      rcases owned with ⟨spelled, finds, key, inserted | ⟨old, committed⟩⟩
      · exact ⟨spelled, grows.finds finds, key, .inl inserted⟩
      · exact ⟨spelled, grows.finds finds, key, .inr ⟨old, grows.subscriptions committed⟩⟩
  | queueing result => exact grows.results owned
  | returned result queued => exact grows.results owned
  | _ => exact owned

theorem AddResult.Recorded.mono (grows : store.Grows after) {result : AddResult}
    (recorded : result.Recorded store) : result.Recorded after := by
  rcases recorded with ⟨⟨collection, collection_mem, collectionFacts⟩, subscription,
    subscription_mem, subscriptionFacts⟩
  exact ⟨⟨collection, grows.collections collection_mem, collectionFacts⟩, subscription,
    grows.subscriptions subscription_mem, subscriptionFacts⟩

end Growth

/--
A call goes on: it keeps what the others hold, and what it newly holds itself was not
pending before.
-/
theorem RegistryWorld.replace {world : World RegistryStore AddPhase} (holds : RegistryWorld world)
    {index : ℕ} {after : RegistryStore} {next : AddPhase} (sound : RegistrySound after)
    (grows : world.store.Grows after) (owned : next.Owned after) (nextHolds : next.Holds after)
    (keepsCollection : ∀ row ∈ world.store.collections.pending,
      row ∉ (world.process index).newCollection → row ∈ after.collections.pending)
    (keepsSubscription : ∀ row ∈ world.store.subscriptions.pending,
      row ∉ (world.process index).newSubscription → row ∈ after.subscriptions.pending)
    (freshCollection : ∀ row ∈ next.newCollection,
      row ∈ (world.process index).newCollection ∨ row ∉ world.store.collections.pending)
    (freshSubscription : ∀ row ∈ next.newSubscription,
      row ∈ (world.process index).newSubscription ∨ row ∉ world.store.subscriptions.pending) :
    RegistryWorld ⟨after, Function.update world.process index next⟩ := by
  constructor
  · exact sound
  · intro other
    by_cases same : other = index
    · subst same
      simpa using owned
    · simpa [Function.update_of_ne same] using (holds.owned other).mono grows
  · intro other
    by_cases same : other = index
    · subst same
      simpa using nextHolds
    · simp only [Function.update_of_ne same]
      constructor
      · intro row row_mem
        refine keepsCollection row ((holds.holds other).collection row row_mem) fun mine => ?_
        exact same (holds.exclusiveCollection other index row row_mem mine)
      · intro row row_mem
        refine keepsSubscription row ((holds.holds other).subscription row row_mem) fun mine => ?_
        exact same (holds.exclusiveSubscription other index row row_mem mine)
  · intro first second row firstHolds secondHolds
    refine exclusive_update (fun left right => row ∈ left.newCollection ∧
      row ∈ right.newCollection) And.symm world.process ?_ ?_ ⟨firstHolds, secondHolds⟩
    · rintro other different ⟨mine, others⟩
      rcases freshCollection row mine with before | absent
      · exact different (holds.exclusiveCollection other index row others before)
      · exact absent ((holds.holds other).collection row others)
    · rintro left right ⟨leftHolds, rightHolds⟩
      exact holds.exclusiveCollection left right row leftHolds rightHolds
  · intro first second row firstHolds secondHolds
    refine exclusive_update (fun left right => row ∈ left.newSubscription ∧
      row ∈ right.newSubscription) And.symm world.process ?_ ?_ ⟨firstHolds, secondHolds⟩
    · rintro other different ⟨mine, others⟩
      rcases freshSubscription row mine with before | absent
      · exact different (holds.exclusiveSubscription other index row others before)
      · exact absent ((holds.holds other).subscription row others)
    · rintro left right ⟨leftHolds, rightHolds⟩
      exact holds.exclusiveSubscription left right row leftHolds rightHolds

theorem RegistryStore.Grows.refl (store : RegistryStore) : store.Grows store :=
  ⟨List.Subset.refl _, List.Subset.refl _, List.Subset.refl _⟩

/-- A call goes on without touching the tables, and holds nothing that it has not held. -/
theorem RegistryWorld.proceed {world : World RegistryStore AddPhase} (holds : RegistryWorld world)
    {index : ℕ} {next : AddPhase} (owned : next.Owned world.store)
    (collection : ∀ row ∈ next.newCollection, row ∈ (world.process index).newCollection)
    (subscription : ∀ row ∈ next.newSubscription,
      row ∈ (world.process index).newSubscription) :
    RegistryWorld ⟨world.store, Function.update world.process index next⟩ := by
  have held := holds.holds index
  refine holds.replace holds.sound (.refl _) owned ?_ (fun _ pending _ => pending)
    (fun _ pending _ => pending) (fun row mem => .inl (collection row mem))
    (fun row mem => .inl (subscription row mem))
  constructor
  · exact fun row mem => held.collection row (collection row mem)
  · exact fun row mem => held.subscription row (subscription row mem)

section Tables

variable {store : RegistryStore}

theorem RegistryStore.grows_rollback (store : RegistryStore)
    (newCollection : Option RegisteredCollection)
    (newSubscription : Option WorkspaceCollection) :
    store.Grows (store.rollback newCollection newSubscription) := by
  constructor <;> simp [RegistryStore.rollback]

theorem RegistryStore.grows_commit (store : RegistryStore)
    (newCollection : Option RegisteredCollection)
    (newSubscription : Option WorkspaceCollection) (result : AddResult) :
    store.Grows (store.commit newCollection newSubscription result) := by
  constructor <;> simp [RegistryStore.commit]

theorem RegistrySound.rollback (sound : RegistrySound store)
    (newCollection : Option RegisteredCollection)
    (newSubscription : Option WorkspaceCollection) :
    RegistrySound (store.rollback newCollection newSubscription) where
  collections := sound.collections.rollback newCollection
  collectionIds := sound.collectionIds.rollback newCollection
  subscriptions := sound.subscriptions.rollback newSubscription
  subscriptionIds := sound.subscriptionIds.rollback newSubscription
  bounded := by
    intro row row_mem
    apply sound.bounded row
    rcases List.mem_append.mp row_mem with committed | pending
    · exact List.mem_append_left _ (by simpa [RegistryStore.rollback] using committed)
    · refine List.mem_append_right _ ?_
      cases newSubscription with
      | none => exact pending
      | some new => exact List.mem_of_mem_erase pending
  recorded := fun result result_mem =>
    (sound.recorded result result_mem).mono (store.grows_rollback newCollection newSubscription)
  added := by simpa [RegistryStore.rollback] using sound.added
  created := by simpa [RegistryStore.rollback] using sound.created
  audited := by simpa [RegistryStore.rollback] using sound.audited

theorem RegistrySound.insertCollection (sound : RegistrySound store)
    {row : RegisteredCollection} {collections : Table RegisteredCollection}
    (inserted : store.insertCollection row = some (.inserted collections)) :
    RegistrySound { store with collections } ∧ store.Grows { store with collections } ∧
      collections = { store.collections with pending := store.collections.pending ++ [row] } ∧
      row ∉ store.collections.pending := by
  rcases insertOnConflict_eq_inserted inserted with ⟨rfl, different⟩
  refine ⟨⟨?_, ?_, sound.subscriptions, sound.subscriptionIds, sound.bounded, ?_, sound.added,
    sound.created, sound.audited⟩, ⟨List.Subset.refl _, List.Subset.refl _, List.Subset.refl _⟩,
    rfl, ?_⟩
  · exact sound.collections.append fun existing existing_mem => (different existing existing_mem).1
  · refine sound.collectionIds.append fun existing existing_mem same => ?_
    have clashes := (different existing existing_mem).2
    simp [same] at clashes
  · intro result result_mem
    exact ⟨(sound.recorded result result_mem).collection,
      (sound.recorded result result_mem).subscription⟩
  · intro pending
    exact (different row (List.mem_append_right _ pending)).1 rfl

theorem RegistrySound.insertSubscription (sound : RegistrySound store)
    {request : AddRequest} {collection : RegisteredCollection}
    {subscriptions : Table WorkspaceCollection}
    (inserted : store.insertSubscription (request.subscriptionRow collection) =
      some (.inserted subscriptions)) :
    RegistrySound { store with subscriptions } ∧ store.Grows { store with subscriptions } ∧
      subscriptions = { store.subscriptions with
        pending := store.subscriptions.pending ++ [request.subscriptionRow collection] } ∧
      request.subscriptionRow collection ∉ store.subscriptions.pending := by
  rcases insertOnConflict_eq_inserted inserted with ⟨rfl, different⟩
  refine ⟨⟨sound.collections, sound.collectionIds, ?_, ?_, ?_, ?_, sound.added, sound.created,
    sound.audited⟩, ⟨List.Subset.refl _, List.Subset.refl _, List.Subset.refl _⟩, rfl, ?_⟩
  · exact sound.subscriptions.append fun existing existing_mem =>
      (different existing existing_mem).1
  · refine sound.subscriptionIds.append fun existing existing_mem same => ?_
    have clashes := (different existing existing_mem).2
    simp [same] at clashes
  · intro row row_mem
    rw [← List.append_assoc] at row_mem
    rcases List.mem_append.mp row_mem with old | new
    · exact sound.bounded row old
    · rw [List.mem_singleton] at new
      exact new ▸ request.subscriptionId.property
  · intro result result_mem
    exact ⟨(sound.recorded result result_mem).collection,
      (sound.recorded result result_mem).subscription⟩
  · intro pending
    exact (different _ (List.mem_append_right _ pending)).1 rfl

/-- A commit adds a result together with the rows that it is about. -/
theorem RegistrySound.commit (sound : RegistrySound store) {request : AddRequest}
    {newCollection : Option RegisteredCollection} {collection : RegisteredCollection}
    {newSubscription : Option WorkspaceCollection} {subscription : WorkspaceCollection}
    (owned : (AddPhase.committing request newCollection collection newSubscription
      subscription).Owned store)
    (holds : (AddPhase.committing request newCollection collection newSubscription
      subscription).Holds store) :
    RegistrySound (store.commit newCollection newSubscription
      (request.result collection newSubscription subscription)) := by
  rcases owned with ⟨spelled, ⟨collectionKey, collectionFound⟩, key, subscriptionFound⟩
  have resultKey : collection.key =
      (request.result collection newSubscription subscription).collectionKey := by
    rw [collectionKey, AddRequest.collectionKey, spelled]
    rfl
  have collection_mem : collection ∈ (store.collections.commit newCollection).rows := by
    rcases collectionFound with rfl | ⟨rfl, committed⟩
    · simp
    · exact committed
  have subscription_mem : subscription ∈ (store.subscriptions.commit newSubscription).rows := by
    rcases subscriptionFound with ⟨rfl, _⟩ | ⟨rfl, committed⟩
    · simp
    · exact committed
  constructor
  · exact sound.collections.commit holds.collection
  · exact sound.collectionIds.commit holds.collection
  · exact sound.subscriptions.commit holds.subscription
  · exact sound.subscriptionIds.commit holds.subscription
  · intro row row_mem
    apply sound.bounded row
    simp only [RegistryStore.commit, rows_commit, pending_commit, List.mem_append,
      Option.mem_toList] at row_mem
    rcases row_mem with (committed | new) | pending
    · exact List.mem_append_left _ committed
    · exact List.mem_append_right _ (holds.subscription row new)
    · refine List.mem_append_right _ ?_
      cases newSubscription with
      | none => exact pending
      | some new => exact List.mem_of_mem_erase pending
  · intro result result_mem
    rcases List.mem_append.mp result_mem with old | new
    · exact (sound.recorded result old).mono (store.grows_commit _ _ _)
    · rw [List.mem_singleton] at new
      subst new
      exact ⟨⟨collection, collection_mem, resultKey, rfl⟩, subscription, subscription_mem, key,
        rfl, rfl⟩
  · intro row row_mem
    simp only [RegistryStore.commit, rows_commit, List.mem_append, Option.mem_toList] at row_mem
    rcases row_mem with old | new
    · rcases sound.added row old with ⟨result, result_mem, same⟩
      exact ⟨result, List.mem_append_left _ result_mem, same⟩
    · refine ⟨_, List.mem_append_right _ (List.mem_singleton_self _), ?_⟩
      rcases collectionFound with rfl | ⟨rfl, _⟩
      · cases new
        exact resultKey
      · cases new
  · simp only [RegistryStore.commit, rows_commit, List.filter_append, List.map_append,
      sound.created]
    rcases subscriptionFound with ⟨rfl, rfl⟩ | ⟨rfl, _⟩
    · rfl
    · rfl
  · simp only [RegistryStore.commit, rows_commit, List.map_append, sound.audited]
    rcases subscriptionFound with ⟨rfl, rfl⟩ | ⟨rfl, _⟩
    · rfl
    · rfl

end Tables

theorem RegistryWorld.act {world next : World RegistryStore AddPhase} (holds : RegistryWorld world)
    {index : ℕ} {event : AddEvent}
    (acted : (addProgram primitives).act world index event = some next) :
    RegistryWorld next ∧ world.store.Grows next.store := by
  rcases Program.act_eq_some_iff.mp acted with ⟨after, phase, stepped, rfl⟩
  have moved := addTransition_of_step stepped
  have owned := holds.owned index
  have held := holds.holds index
  have proceed := @RegistryWorld.proceed world holds index
  have replace := @RegistryWorld.replace world holds index
  generalize world.process index = before at moved owned held proceed replace
  cases moved with
  | begins spelled => exact ⟨proceed spelled nofun nofun, .refl _⟩
  | ends recoverable =>
      have grows := world.store.grows_rollback before.newCollection before.newSubscription
      refine ⟨replace (holds.sound.rollback _ _) grows recoverable ⟨nofun, nofun⟩ ?_ ?_ nofun
        nofun, grows⟩
      · exact fun row pending others => mem_pending_rollback pending others
      · exact fun row pending others => mem_pending_rollback pending others
  | @insertsCollection request collections inserted =>
      rcases holds.sound.insertCollection inserted with ⟨sound, grows, rfl, fresh⟩
      refine ⟨replace sound grows ⟨owned, rfl, .inl rfl⟩
        ⟨?_, nofun⟩ (fun row pending _ => List.mem_append_left _ pending)
        (fun _ pending _ => pending) ?_ nofun, grows⟩
      · rintro row ⟨⟩
        exact List.mem_append_right _ (List.mem_singleton_self _)
      · rintro row ⟨⟩
        exact .inr fresh
  | losesCollection conflict =>
      exact ⟨proceed ⟨owned, insertOnConflict_eq_conflict conflict⟩ nofun nofun, .refl _⟩
  | readsCollection found =>
      rcases lookup_eq_some_mem found with ⟨collection_mem, key⟩
      exact ⟨proceed ⟨owned.1, key, .inr ⟨rfl, collection_mem⟩⟩ nofun nofun, .refl _⟩
  | missesCollection absent =>
      rcases owned with ⟨_, collection, collection_mem, key⟩
      exact absurd key (lookup_eq_none_iff.mp absent collection collection_mem)
  | @insertsSubscription request newCollection collection subscriptions inserted =>
      rcases holds.sound.insertSubscription inserted with ⟨sound, grows, rfl, fresh⟩
      refine ⟨replace sound grows
        ⟨owned.1, owned.2, rfl, .inl ⟨rfl, rfl⟩⟩ ⟨held.collection, ?_⟩ (fun _ pending _ => pending)
        (fun row pending _ => List.mem_append_left _ pending) (fun _ mem => .inl mem) ?_, grows⟩
      · rintro row ⟨⟩
        exact List.mem_append_right _ (List.mem_singleton_self _)
      · rintro row ⟨⟩
        exact .inr fresh
  | losesSubscription conflict =>
      exact ⟨proceed ⟨owned.1, owned.2, insertOnConflict_eq_conflict conflict⟩
        (fun _ mem => mem) nofun, .refl _⟩
  | readsSubscription found =>
      rcases lookup_eq_some_mem found with ⟨subscription_mem, key⟩
      exact ⟨proceed ⟨owned.1, owned.2.1, key, .inr ⟨rfl, subscription_mem⟩⟩
        (fun _ mem => mem) nofun, .refl _⟩
  | missesSubscription absent =>
      rcases owned with ⟨_, _, subscription, subscription_mem, key⟩
      exact absurd key (lookup_eq_none_iff.mp absent subscription subscription_mem)
  | commits =>
      refine ⟨replace (holds.sound.commit owned held) (world.store.grows_commit _ _ _)
        (List.mem_append_right _ (List.mem_singleton_self _)) ⟨nofun, nofun⟩ ?_ ?_ nofun nofun,
        world.store.grows_commit _ _ _⟩
      · intro row pending others
        simp only [RegistryStore.commit, pending_commit]
        exact mem_pending_rollback pending others
      · intro row pending others
        simp only [RegistryStore.commit, pending_commit]
        exact mem_pending_rollback pending others
  | returns => exact ⟨proceed owned nofun nofun, .refl _⟩

theorem registryWorld_empty : RegistryWorld emptyRegistry where
  sound := by
    constructor <;> simp [emptyRegistry, Table.empty, Table.Sound]
  owned := fun _ => trivial
  holds := fun _ => ⟨nofun, nofun⟩
  exclusiveCollection := nofun
  exclusiveSubscription := nofun

theorem RegistryWorld.run {world later : World RegistryStore AddPhase}
    (run : (addProgram primitives).Reaches Unrestricted world later)
    (holds : RegistryWorld world) : RegistryWorld later :=
  run.invariant RegistryWorld (fun holds _ acted => (holds.act acted).1) holds

/-- Two calls of a workspace for one address, in whatever spelling. -/
def AddResult.SameRegistration (first second : AddResult) : Prop :=
  first.request.workspaceId = second.request.workspaceId ∧
    lowerAddress first.request.spelling = lowerAddress second.request.spelling

instance (first second : AddResult) : Decidable (first.SameRegistration second) :=
  inferInstanceAs (Decidable (_ ∧ _))

/-- The row subscribes a workspace to the collection of an address. -/
def RegistryStore.isSubscription (store : RegistryStore) (workspaceId : ℕ) (address : Text)
    (row : WorkspaceCollection) : Bool :=
  row.workspaceId = workspaceId && store.collections.rows.any fun collection =>
    collection.row.id = row.collectionId && collection.normalizedAddress = address

section Counts

variable {store : RegistryStore} {result other : AddResult}

/-- The collection of an address is the one that its results are about. -/
theorem RegistrySound.collection_eq (sound : RegistrySound store)
    (result_mem : result ∈ store.results) {collection : RegisteredCollection}
    (collection_mem : collection ∈ store.collections.rows) :
    collection.normalizedAddress = lowerAddress result.request.spelling ↔
      collection.row.id = result.record.collectionId := by
  rcases (sound.recorded result result_mem).collection with ⟨own, own_mem, key, id⟩
  constructor
  · intro address
    rcases sound.added collection collection_mem with ⟨adder, _, adderKey⟩
    have chain : collection.chainId = 1 := congrArg Prod.fst adderKey
    have same : collection.key = own.key := by
      rw [key]
      exact Prod.ext chain address
    rw [sound.collections.unique.eq_of_key_eq collection_mem own_mem same, id]
  · intro same
    have equal := sound.collectionIds.unique.eq_of_key_eq collection_mem own_mem
      (same.trans id.symm)
    rw [equal]
    exact congrArg Prod.snd key

theorem RegistrySound.sameRegistration_iff (sound : RegistrySound store)
    (other_mem : other ∈ store.results) (result_mem : result ∈ store.results) :
    other.SameRegistration result ↔
      (other.request.workspaceId, other.record.collectionId) =
        (result.request.workspaceId, result.record.collectionId) := by
  rcases (sound.recorded other other_mem).collection with ⟨collection, collection_mem, key, id⟩
  have address : collection.normalizedAddress = lowerAddress other.request.spelling :=
    congrArg Prod.snd key
  have iff := sound.collection_eq result_mem collection_mem
  rw [address, id] at iff
  rw [AddResult.SameRegistration, Prod.mk.injEq, iff]

theorem RegistrySound.isSubscription_iff (sound : RegistrySound store)
    (result_mem : result ∈ store.results) (row : WorkspaceCollection) :
    store.isSubscription result.request.workspaceId (lowerAddress result.request.spelling) row =
        true ↔
      row.key = (result.request.workspaceId, result.record.collectionId) := by
  simp only [RegistryStore.isSubscription, Bool.and_eq_true, decide_eq_true_eq, List.any_eq_true,
    WorkspaceCollection.key, Prod.mk.injEq]
  refine and_congr_right fun _ => ⟨?_, fun same => ?_⟩
  · rintro ⟨collection, collection_mem, id, address⟩
    rw [← id]
    exact (sound.collection_eq result_mem collection_mem).mp address
  · rcases (sound.recorded result result_mem).collection with ⟨collection, collection_mem, key, id⟩
    exact ⟨collection, collection_mem, id.trans same.symm, congrArg Prod.snd key⟩

theorem RegistrySound.countP_collections (sound : RegistrySound store)
    (result_mem : result ∈ store.results) :
    (store.collections.rows.countP fun collection =>
      collection.normalizedAddress = lowerAddress result.request.spelling) = 1 := by
  rcases (sound.recorded result result_mem).collection with ⟨own, own_mem, key, id⟩
  rw [← sound.collectionIds.unique.countP_eq_one own_mem]
  apply List.countP_congr
  intro collection collection_mem
  simp [sound.collection_eq result_mem collection_mem, id]

theorem RegistrySound.countP_subscriptions (sound : RegistrySound store)
    (result_mem : result ∈ store.results) :
    store.subscriptions.rows.countP (store.isSubscription result.request.workspaceId
      (lowerAddress result.request.spelling)) = 1 := by
  rcases (sound.recorded result result_mem).subscription with ⟨own, own_mem, key, _⟩
  rw [← sound.subscriptions.unique.countP_eq_one own_mem]
  apply List.countP_congr
  intro row _
  rw [sound.isSubscription_iff result_mem, key, decide_eq_true_iff]

/-- Exactly one call has created the subscription that a result is about. -/
theorem RegistrySound.countP_created (sound : RegistrySound store)
    (result_mem : result ∈ store.results) :
    (store.results.countP fun other =>
      other.created && other.SameRegistration result) = 1 := by
  rcases (sound.recorded result result_mem).subscription with ⟨own, own_mem, key, _⟩
  let selects : (ℕ × ℕ) × ℕ × Option Text → Bool := fun registration => registration.1 = own.key
  calc
    _ = (store.results.filter AddResult.created).countP (selects ∘ AddResult.registration) := by
      rw [List.countP_filter]
      apply List.countP_congr
      intro other other_mem
      rw [Bool.and_eq_true, Bool.and_eq_true, decide_eq_true_iff,
        sound.sameRegistration_iff other_mem result_mem, and_comm]
      simp [selects, AddResult.registration, key]
    _ = (store.subscriptions.rows.map WorkspaceCollection.registration).countP selects := by
      rw [← List.countP_map, sound.created]
    _ = 1 := by
      rw [List.countP_map]
      exact sound.subscriptions.unique.countP_eq_one own_mem

/-- The results of one registration agree with each other and with the call that created it. -/
theorem RegistrySound.agree (sound : RegistrySound store) (other_mem : other ∈ store.results)
    (result_mem : result ∈ store.results) (same : other.SameRegistration result) :
    other.record.id = result.record.id ∧
      other.record.collectionId = result.record.collectionId ∧
      (other.created = true → result.record.label = other.request.label) := by
  have keys := (sound.sameRegistration_iff other_mem result_mem).mp same
  rcases (sound.recorded other other_mem).subscription with ⟨first, first_mem, firstKey, firstId, _⟩
  rcases (sound.recorded result result_mem).subscription with
    ⟨second, second_mem, secondKey, secondId, label⟩
  have equal : first = second := by
    apply sound.subscriptions.unique.eq_of_key_eq first_mem second_mem
    rw [firstKey, secondKey, keys]
  refine ⟨?_, congrArg Prod.snd keys, fun created => ?_⟩
  · rw [← firstId, ← secondId, equal]
  · have registered : other.registration ∈
        store.subscriptions.rows.map WorkspaceCollection.registration := by
      rw [← sound.created]
      exact List.mem_map_of_mem (List.mem_filter.mpr ⟨other_mem, created⟩)
    rcases List.mem_map.mp registered with ⟨row, row_mem, registration⟩
    have rowKey : row.key = second.key := by
      rw [secondKey, ← keys]
      exact congrArg Prod.fst registration
    have rowLabel : row.label = other.request.label := congrArg (·.2.2) registration
    rw [← label, ← rowLabel, sound.subscriptions.unique.eq_of_key_eq row_mem second_mem rowKey]

theorem RegistrySound.countP_audits (sound : RegistrySound store) {row : WorkspaceCollection}
    (row_mem : row ∈ store.subscriptions.rows) :
    (store.auditLogs.countP fun audit => audit.action = "workspace_collection_added".toList &&
      audit.resourceId = uuidText row.id) = 1 := by
  let selects : Text × Text → Bool := fun entry =>
    entry.1 = "workspace_collection_added".toList && entry.2 = uuidText row.id
  calc
    _ = (store.auditLogs.map fun audit => (audit.action, audit.resourceId)).countP selects := by
      rw [List.countP_map]
      rfl
    _ = store.subscriptions.rows.countP fun other => other.id = row.id := by
      rw [sound.audited, List.countP_map]
      apply List.countP_congr
      intro other other_mem
      have bounded := sound.bounded other (List.mem_append_left _ other_mem)
      have rowBounded := sound.bounded row (List.mem_append_left _ row_mem)
      simp only [selects, Function.comp_apply, decide_true, Bool.true_and, decide_eq_true_eq]
      exact ⟨uuidText_injective bounded rowBounded, congrArg uuidText⟩
    _ = 1 := sound.subscriptionIds.unique.countP_eq_one row_mem

end Counts

/--
Whatever the interleaving, every address and every registration of a workspace has one
row, the calls for a registration agree with each other, one of them has created it and
has left one audit row, and no call misses the row of the one that was faster.
-/
theorem registrations_deduplicated {world : World RegistryStore AddPhase}
    (run : (addProgram primitives).Reaches Unrestricted emptyRegistry world) :
    (∀ result ∈ world.store.results,
      (world.store.collections.rows.countP fun collection =>
        collection.normalizedAddress = lowerAddress result.request.spelling) = 1 ∧
      world.store.subscriptions.rows.countP (world.store.isSubscription
        result.request.workspaceId (lowerAddress result.request.spelling)) = 1 ∧
      (world.store.results.countP fun other =>
        other.created && other.SameRegistration result) = 1 ∧
      ∀ other ∈ world.store.results, other.SameRegistration result →
        other.record.id = result.record.id ∧
        other.record.collectionId = result.record.collectionId ∧
        (other.created = true → result.record.label = other.request.label)) ∧
    (∀ collection ∈ world.store.collections.rows, ∃ result ∈ world.store.results,
      collection.normalizedAddress = lowerAddress result.request.spelling) ∧
    (∀ row ∈ world.store.subscriptions.rows,
      (∃ result ∈ world.store.results, world.store.isSubscription
        result.request.workspaceId (lowerAddress result.request.spelling) row = true) ∧
      (world.store.auditLogs.countP fun audit =>
        audit.action = "workspace_collection_added".toList &&
          audit.resourceId = uuidText row.id) = 1) ∧
    world.store.auditLogs.length = world.store.subscriptions.rows.length ∧
    (∀ index result queued, world.process index = .returned result queued →
      result ∈ world.store.results) ∧
    ∀ index, world.process index ≠ .failed collectionConflict ∧
      world.process index ≠ .failed subscriptionConflict := by
  have holds := registryWorld_empty.run run
  have sound := holds.sound
  refine ⟨?_, ?_, ?_, ?_, ?_, ?_⟩
  · intro result result_mem
    exact ⟨sound.countP_collections result_mem, sound.countP_subscriptions result_mem,
      sound.countP_created result_mem, fun other other_mem => sound.agree other_mem result_mem⟩
  · intro collection collection_mem
    rcases sound.added collection collection_mem with ⟨result, result_mem, key⟩
    exact ⟨result, result_mem, congrArg Prod.snd key⟩
  · intro row row_mem
    refine ⟨?_, sound.countP_audits row_mem⟩
    have registered := List.mem_map.mpr ⟨row, row_mem, (rfl : row.registration = row.registration)⟩
    rw [← sound.created] at registered
    rcases List.mem_map.mp registered with ⟨result, result_mem, registration⟩
    have stored := (List.mem_filter.mp result_mem).1
    refine ⟨result, stored, (sound.isSubscription_iff stored row).mpr ?_⟩
    exact (congrArg Prod.fst registration).symm
  · have lengths := congrArg List.length sound.audited
    simpa using lengths
  · intro index result queued returned
    have owned := holds.owned index
    rw [returned] at owned
    exact owned
  · intro index
    have owned := holds.owned index
    constructor
    · intro failed
      rw [failed] at owned
      have recoverable : collectionConflict.isConflict = false := owned
      exact absurd recoverable (by decide)
    · intro failed
      rw [failed] at owned
      have recoverable : subscriptionConflict.isConflict = false := owned
      exact absurd recoverable (by decide)

section Samples

/-- Hashes for addresses alone, whose checksums have no capital letters. -/
def registryHashes : Primitives :=
  .ofHashes (fun _ => ⟨List.replicate 32 0, by decide⟩) (fun _ => ⟨List.replicate 32 0, by decide⟩)
    (fun _ => none) (fun _ => none) fun _ => none

/-- A member of a workspace. -/
def sampleAdder (workspaceId : ℕ) : RequestContext where
  telegramUserId := 99
  chatId := 99
  chatType := privateChat
  correlationId := 5
  userId := some 3
  workspaceId := some workspaceId
  workspaceRole := some .owner

/-- The call adds the contract of twenty equal bytes, whose digits may differ in letter case. -/
def sampleAdd (workspaceId : ℕ) (byte : String) (label : String) (firstId : ℕ)
    (small : firstId + 2 < 2 ^ 128) : AddEvent :=
  .call (sampleAdder workspaceId) (marker ++ (List.replicate 20 byte.toList).flatten)
    (some label.toList) ⟨firstId, by omega⟩ ⟨firstId + 1, by omega⟩ ⟨firstId + 2, small⟩

/--
Two calls of one workspace and one of another for the same contract, in lower case, in upper
case and in letters of both cases that are no checksum. The second call does nothing until the
first one has committed, and then reads its rows.
-/
def racingAdditions : List (ℕ × AddEvent) :=
  [(0, sampleAdd 1 "aa" "first" 10 (by decide)), (1, sampleAdd 1 "AA" "second" 20 (by decide)),
    (2, sampleAdd 2 "aA" "other" 30 (by decide)), (0, .proceed), (0, .proceed), (0, .proceed),
    (1, .proceed), (1, .proceed), (2, .proceed), (1, .proceed), (2, .proceed), (1, .proceed),
    (2, .proceed), (2, .proceed), (1, .proceed), (0, .queue true), (1, .queue false)]

end Samples

theorem racingAdditions_deduplicated :
    ∃ world, (addProgram registryHashes).Reaches Unrestricted emptyRegistry world ∧
      world.store.results.map (fun result => (result.request.workspaceId, result.record.id,
        result.created)) = [(1, 11, true), (2, 31, true), (1, 11, false)] ∧
      ∀ result ∈ world.store.results, (world.store.results.countP fun other =>
        other.created && other.SameRegistration result) = 1 := by
  have finished : ((addProgram registryHashes).execute emptyRegistry racingAdditions).map
      (fun world => world.store.results.map fun result =>
        (result.request.workspaceId, result.record.id, result.created)) =
      some [(1, 11, true), (2, 31, true), (1, 11, false)] := by
    decide +kernel
  rcases Option.map_eq_some_iff.mp finished with ⟨world, executed, results⟩
  have run := Program.reaches_of_execute executed (Program.meets_unrestricted _ _)
  refine ⟨world, run, results, fun result result_mem => ?_⟩
  exact ((registrations_deduplicated run).1 result result_mem).2.2.1

end CopyMint
