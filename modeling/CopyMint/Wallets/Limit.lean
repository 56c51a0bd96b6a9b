import CopyMint.Wallets.Creation

/-!
# The wallet limit of a workspace

The limit is checked against the wallets that are stored, and not against the
creations that have passed the check and are still on their way. Each of these
stores a wallet of its own unless it shares its idempotency key with another one.
The limit therefore holds in the runs in which a call passes the check only while
there is room left for the distinct keys that are on their way.
-/

namespace CopyMint

open Hexadecimal Relational Interleaving

variable {primitives : Primitives} {signer : SignerPrimitives} {service : WalletService}

/-- The request of a call that has passed the limit and has not stored its wallet yet. -/
def CallPhase.admitted : CallPhase primitives → Option (CreationRequest primitives)
  | .awaiting request | .saving request _ => some request
  | _ => none

/-- A creation of the workspace is on its way to store a wallet for an idempotency key. -/
def Pending (workspaceId : ℕ) (world : World WalletStore (WalletCreation primitives))
    (keyHash : BytesOf 32) : Prop :=
  world.store.findByIdempotency workspaceId keyHash = none ∧
    ∃ index request, (world.process index).call.admitted = some request ∧
      request.workspaceId = workspaceId ∧ request.keyHash = keyHash

/-- The limit leaves room for a set of idempotency keys. -/
def HasRoom (service : WalletService) (workspaceId : ℕ) (store : WalletStore)
    (wanted : BytesOf 32 → Prop) : Prop :=
  ∃ keys : List (BytesOf 32), (∀ keyHash, wanted keyHash → keyHash ∈ keys) ∧
    store.countActive workspaceId + keys.length ≤ service.maxWalletsPerWorkspace

/--
A call of the workspace passes the limit only while there is room for its own
idempotency key together with those on their way.
-/
def PassesWithRoom (service : WalletService) (workspaceId : ℕ) :
    Condition WalletStore (WalletCreation primitives) CreationEvent :=
  fun world index event => event = .count →
    ∀ request, (world.process index).call = .counting request →
      request.workspaceId = workspaceId →
      world.store.countActive workspaceId < service.maxWalletsPerWorkspace →
      HasRoom service workspaceId world.store fun keyHash =>
        Pending workspaceId world keyHash ∨
          keyHash = request.keyHash ∧ world.store.findByIdempotency workspaceId keyHash = none

section

variable {workspaceId : ℕ} {store after : WalletStore} {keyHash : BytesOf 32}
  {world : World WalletStore (WalletCreation primitives)} {index : ℕ}
  {creation : WalletCreation primitives} {event : CreationEvent}

theorem HasRoom.mono {wanted fewer : BytesOf 32 → Prop}
    (room : HasRoom service workspaceId store wanted)
    (same : after.countActive workspaceId = store.countActive workspaceId)
    (implies : ∀ keyHash, fewer keyHash → wanted keyHash) :
    HasRoom service workspaceId after fewer := by
  rcases room with ⟨keys, complete, fits⟩
  exact ⟨keys, fun keyHash isFewer => complete keyHash (implies keyHash isFewer), same ▸ fits⟩

/-- A new wallet is active and counts for its own workspace. -/
theorem countActive_append {auditLogs : List AuditLog} (store : WalletStore) (walletId : ℕ)
    (result : SignerWalletResult) (keyHash : BytesOf 32) (workspaceId : ℕ) :
    WalletStore.countActive
      { store with
        wallets := store.wallets ++ [WalletStore.walletRow walletId result keyHash]
        auditLogs } workspaceId =
      store.countActive workspaceId + if result.workspaceId = workspaceId then 1 else 0 := by
  simp [WalletStore.countActive, List.countP_append, List.countP_singleton,
    WalletStore.walletRow]

theorem findByIdempotency_eq_none_of_subset (subset : store.wallets ⊆ after.wallets)
    (absent : after.findByIdempotency workspaceId keyHash = none) :
    store.findByIdempotency workspaceId keyHash = none :=
  lookup_eq_none_iff.mpr fun row row_mem => lookup_eq_none_iff.mp absent row (subset row_mem)

/-- What is on its way after an action was so before, or has passed the limit with it. -/
theorem Pending.of_update (subset : world.store.wallets ⊆ after.wallets)
    (pending : Pending workspaceId ⟨after, Function.update world.process index creation⟩ keyHash) :
    Pending workspaceId world keyHash ∨
      (world.store.findByIdempotency workspaceId keyHash = none ∧
        ∃ request, creation.call.admitted = some request ∧ request.workspaceId = workspaceId ∧
          request.keyHash = keyHash) := by
  rcases pending with ⟨absent, other, request, admitted, facts⟩
  have before := findByIdempotency_eq_none_of_subset subset absent
  by_cases same : other = index
  · subst same
    simp only [Function.update_self] at admitted
    exact .inr ⟨before, request, admitted, facts⟩
  · simp only [Function.update_of_ne same] at admitted
    exact .inl ⟨before, other, request, admitted, facts⟩

/-- An action that admits no other request leaves nothing more on its way. -/
theorem Pending.of_admitted (subset : world.store.wallets ⊆ after.wallets)
    (admitted : ∀ request, creation.call.admitted = some request →
      (world.process index).call.admitted = some request)
    (pending : Pending workspaceId ⟨after, Function.update world.process index creation⟩ keyHash) :
    Pending workspaceId world keyHash := by
  rcases pending.of_update subset with before | ⟨absent, request, now, facts⟩
  · exact before
  · exact ⟨absent, index, request, admitted request now, facts⟩

/-- The wallet that a call stores takes the room that was left for its key. -/
theorem HasRoom.save {request : CreationRequest primitives} {result : SignerWalletResult}
    {walletId : ℕ} {wallets : List ExecutionWallet} {auditLogs : List AuditLog}
    {stored : ExecutionWallet} {created : Bool}
    (room : HasRoom service workspaceId world.store (Pending workspaceId world))
    (own : (world.process index).call = .saving request result)
    (workspace : result.workspaceId = request.workspaceId)
    (inserted : insertOrGet ExecutionWallet.key ExecutionWallet.clashes
      (WalletStore.walletRow walletId result request.keyHash) world.store.wallets =
        some (wallets, stored, created))
    (stops : creation.call.admitted = none) :
    HasRoom service workspaceId { world.store with wallets, auditLogs }
      (Pending workspaceId ⟨{ world.store with wallets, auditLogs },
        Function.update world.process index creation⟩) := by
  have before : ∀ keyHash, Pending workspaceId ⟨{ world.store with wallets, auditLogs },
      Function.update world.process index creation⟩ keyHash →
        Pending workspaceId world keyHash := by
    intro keyHash pending
    exact pending.of_admitted (subset_of_insertOrGet inserted) (by simp [stops])
  cases created with
  | false =>
      rcases insertOrGet_eq_some_false inserted with ⟨rfl, _, _⟩
      exact room.mono rfl before
  | true =>
      rcases insertOrGet_eq_some_true inserted with ⟨rfl, rfl, absent, _⟩
      by_cases same : request.workspaceId = workspaceId
      · subst same
        rcases room with ⟨keys, complete, fits⟩
        have taken : request.keyHash ∈ keys := by
          refine complete _ ⟨lookup_eq_none_iff.mpr fun row row_mem equal =>
            absent row row_mem (equal.trans ?_), index, request, by rw [own]; rfl, rfl, rfl⟩
          rw [← workspace]
          rfl
        refine ⟨keys.erase request.keyHash, fun keyHash pending => ?_, ?_⟩
        · have different : keyHash ≠ request.keyHash := by
            rintro rfl
            refine lookup_eq_none_iff.mp pending.1 (WalletStore.walletRow walletId result
              request.keyHash) (by simp) ?_
            rw [← workspace]
            rfl
          exact (List.mem_erase_of_ne different).mpr (complete keyHash (before keyHash pending))
        · have length := List.length_erase_add_one taken
          rw [countActive_append, if_pos workspace]
          omega
      · refine room.mono ?_ before
        rw [countActive_append, if_neg (workspace ▸ same), Nat.add_zero]

/-- Every action that passes the limit only with room keeps the room. -/
theorem CreationTransition.hasRoom
    (moved : CreationTransition service world.store (world.process index) event after creation)
    (holds : WalletWorld service world)
    (passes : PassesWithRoom service workspaceId world index event)
    (room : HasRoom service workspaceId world.store (Pending workspaceId world)) :
    HasRoom service workspaceId after
      (Pending workspaceId ⟨after, Function.update world.process index creation⟩) := by
  have owned := (holds.owned index).call
  generalize own : world.process index = before at moved
  cases moved with
  | fails | finds | begins =>
      refine room.mono rfl fun keyHash pending => ?_
      exact pending.of_admitted (List.Subset.refl _) (by simp [CallPhase.admitted])
  | @passesLimit _ request below =>
      by_cases same : request.workspaceId = workspaceId
      · subst same
        refine (passes rfl request (by rw [own]) rfl below).mono rfl fun keyHash pending => ?_
        rcases pending.of_update (List.Subset.refl _) with old | ⟨absent, _, now, _, hash⟩
        · exact .inl old
        · cases now
          exact .inr ⟨hash.symm, absent⟩
      · refine room.mono rfl fun keyHash pending => ?_
        rcases pending.of_update (List.Subset.refl _) with old | ⟨_, _, now, workspace, _⟩
        · exact old
        · cases now
          exact absurd workspace same
  | receives =>
      refine room.mono rfl fun keyHash pending => ?_
      exact pending.of_admitted (List.Subset.refl _) (by simp [own, CallPhase.admitted])
  | saves inserted =>
      rw [own] at owned
      rcases owned with ⟨_, _, _, workspace, _⟩
      exact room.save (by rw [own]) workspace inserted rfl
  | looksUp | prepares | handlerStops | generates =>
      refine room.mono rfl fun keyHash pending => ?_
      exact pending.of_admitted (List.Subset.refl _) (by simp [own])

end

theorem hasRoom_empty {workspaceId : ℕ} :
    HasRoom service workspaceId ⟨[], [], []⟩ (Pending workspaceId
      (World.uniform ⟨[], [], []⟩ (⟨.idle, .idle⟩ : WalletCreation primitives))) := by
  refine ⟨[], ?_, Nat.zero_le _⟩
  rintro _ ⟨_, _, _, impossible, _⟩
  cases impossible

/-- In every run that passes the limit only with room, the workspace stays within its limit. -/
theorem wallets_withinLimit {workspaceId : ℕ}
    {world : World WalletStore (WalletCreation primitives)}
    (run : (creationProgram signer service).Reaches (PassesWithRoom service workspaceId)
      (World.uniform ⟨[], [], []⟩ ⟨.idle, .idle⟩) world) :
    world.store.countActive workspaceId ≤ service.maxWalletsPerWorkspace := by
  have holds : WalletWorld service world ∧
      HasRoom service workspaceId world.store (Pending workspaceId world) := by
    refine run.invariant (fun world => WalletWorld service world ∧
      HasRoom service workspaceId world.store (Pending workspaceId world)) ?_
      ⟨walletWorld_empty, hasRoom_empty⟩
    rintro world next index event ⟨holds, room⟩ passes acted
    refine ⟨(holds.act acted).1, ?_⟩
    rcases Program.act_eq_some_iff.mp acted with ⟨store, creation, stepped, rfl⟩
    exact (creationTransition_of_step stepped).hasRoom holds passes room
  rcases holds.2 with ⟨keys, _, fits⟩
  exact le_trans (Nat.le_add_right _ _) fits

section Samples

/-- The first call goes on from the limit to its wallet. -/
def createSchedule : List (ℕ × CreationEvent) :=
  [(0, .lookUp), (0, .generate 41 (sampleMaterial 1)), (0, .receive), (0, .save 10 20)]

/-- Two calls with different idempotency keys that pass the limit before either stores a wallet. -/
def excessSchedule : List (ℕ × CreationEvent) :=
  [(0, .call sampleOwner firstKey), (1, .call sampleOwner secondKey), (0, .count), (1, .count)] ++
    createSchedule ++ [(1, .lookUp), (1, .generate 42 (sampleMaterial 2)), (1, .receive),
      (1, .save 11 21)]

/-- Two calls with one key pass the limit, and one with another key comes after them. -/
def boundedSchedule : List (ℕ × CreationEvent) :=
  raceSchedule ++ [(2, .call sampleOwner secondKey), (2, .count)]

/-- The request of a call that has not been counted yet. -/
def CallPhase.counted : CallPhase primitives → Option (CreationRequest primitives)
  | .counting request => some request
  | _ => none

/-- Among the first calls, those that have passed the limit have the key of one that counts. -/
def SharesKey (bound : ℕ) : Condition WalletStore (WalletCreation primitives) CreationEvent :=
  fun world index event => event = .count →
    ∀ request ∈ (world.process index).call.counted, ∀ other < bound,
      ∀ admitted ∈ (world.process other).call.admitted, admitted.keyHash = request.keyHash

instance (bound : ℕ) (world : World WalletStore (WalletCreation primitives)) (index : ℕ)
    (event : CreationEvent) : Decidable (SharesKey bound world index event) :=
  inferInstanceAs (Decidable (_ → ∀ request ∈ _, ∀ other < bound, ∀ admitted ∈ _, _ = _))

end Samples

section Together

variable {workspaceId bound : ℕ} {world : World WalletStore (WalletCreation primitives)} {index : ℕ}
  {event : CreationEvent}

/-- Where all calls that are on their way share the key, there is room if the limit has any. -/
theorem passesWithRoom_of_sharesKey
    (beyond : ∀ other, bound ≤ other → (world.process other).call.admitted = none)
    (shares : SharesKey bound world index event) :
    PassesWithRoom service workspaceId world index event := by
  intro counts request counting _ below
  have counted : request ∈ (world.process index).call.counted := by
    rw [counting]
    rfl
  refine ⟨[request.keyHash], ?_, Nat.succ_le_of_lt below⟩
  rintro keyHash (⟨_, other, admitted, admits, _, rfl⟩ | ⟨rfl, _⟩)
  · refine List.mem_singleton.mpr ?_
    by_cases named : other < bound
    · exact shares counts request counted other named admitted admits
    · cases (beyond other (Nat.le_of_not_lt named)).symm.trans admits
  · exact List.mem_singleton_self _

/-- Beyond the calls that a schedule names, none has passed the limit. -/
theorem meets_passesWithRoom (bound : ℕ) {schedule : List (ℕ × CreationEvent)}
    (named : ∀ action ∈ schedule, action.1 < bound)
    (beyond : ∀ other, bound ≤ other → (world.process other).call.admitted = none)
    (meets : (creationProgram signer service).Meets (SharesKey bound) world schedule) :
    (creationProgram signer service).Meets (PassesWithRoom service workspaceId) world schedule := by
  induction schedule generalizing world with
  | nil => trivial
  | cons action schedule ih =>
      rcases action with ⟨index, event⟩
      refine ⟨passesWithRoom_of_sharesKey beyond meets.1, fun next acted => ?_⟩
      refine ih (fun action action_mem => named action (List.mem_cons_of_mem _ action_mem))
        (fun other above => ?_) (meets.2 next acted)
      have different : other ≠ index := by
        have index_lt : index < bound := named (index, event) List.mem_cons_self
        omega
      rcases Program.act_eq_some_iff.mp acted with ⟨store, creation, _, rfl⟩
      simpa [Function.update_of_ne different] using beyond other above

end Together

theorem sampleWallet_withinLimit :
    ∃ world, (creationProgram sampleSigner sampleService).Reaches
        (PassesWithRoom sampleService 1) emptyWorld world ∧
      world.store.wallets.map (fun row => (row.id, row.signerKeyId)) = [(11, 41)] ∧
      world.store.countActive 1 ≤ sampleService.maxWalletsPerWorkspace := by
  have stored : ((creationProgram sampleSigner sampleService).execute emptyWorld
      boundedSchedule).map (fun world => world.store.wallets.map fun row =>
        (row.id, row.signerKeyId)) = some [(11, 41)] := by
    decide +kernel
  rcases Option.map_eq_some_iff.mp stored with ⟨world, executed, stored⟩
  have meets : (creationProgram sampleSigner sampleService).Meets (PassesWithRoom sampleService 1)
      emptyWorld boundedSchedule :=
    meets_passesWithRoom 3 (by decide) (fun _ _ => rfl) (by decide +kernel)
  have run := Program.reaches_of_execute executed meets
  exact ⟨world, run, stored, wallets_withinLimit run⟩

/-- A workspace with a limit of one wallet gets two. -/
theorem concurrentWallets_exceedLimit :
    ¬∀ world, (creationProgram sampleSigner sampleService).Reaches Unrestricted emptyWorld world →
      world.store.countActive 1 ≤ sampleService.maxWalletsPerWorkspace := by
  intro claimed
  have counted : ((creationProgram sampleSigner sampleService).execute emptyWorld
      excessSchedule).map (fun world => world.store.countActive 1) = some 2 := by
    decide +kernel
  rcases Option.map_eq_some_iff.mp counted with ⟨world, executed, counted⟩
  have within := claimed world
    (Program.reaches_of_execute executed (Program.meets_unrestricted _ _))
  rw [counted] at within
  exact absurd within (by decide)

end CopyMint
