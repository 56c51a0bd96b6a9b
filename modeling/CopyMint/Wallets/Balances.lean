import CopyMint.Library.Newest
import CopyMint.Wallets.Creation

/-!
# Balance snapshots

A refresh reads its wallet, asks a provider for the balance at the latest block and
stores what it was told unless the wallet has a snapshot of a later block by then.
Refreshes of a wallet overlap in any way, and a provider may be slow, so that the
observations reach the wallet in any order.

The snapshot of a wallet is the register of `Newest`: the update offers the
observation to it and leaves every other wallet alone.
-/

namespace CopyMint

open Hexadecimal Relational Interleaving Newest

/-- The balance and the block that the wallet was last refreshed at. -/
def ExecutionWallet.snapshot (row : ExecutionWallet) : Option (Observation ℕ ℕ) :=
  row.balanceBlockNumber.map fun blockNumber => ⟨row.balanceWei, blockNumber⟩

/-- The columns `numeric(78, 0)` and `bigint` hold a balance and its block. -/
def Storable (balanceWei blockNumber : ℤ) : Prop :=
  0 ≤ balanceWei ∧ balanceWei < 10 ^ 78 ∧ 0 ≤ blockNumber ∧ blockNumber < 2 ^ 63

instance (balanceWei blockNumber : ℤ) : Decidable (Storable balanceWei blockNumber) :=
  inferInstanceAs (Decidable (_ ∧ _))

/-- Why a refresh has come to no end of its own. -/
inductive RefreshFailure where
  | raised (error : Raised)
  | numericValueOutOfRange
  | stopped
  deriving DecidableEq

/-- `update_balance`: the statement gives way to a snapshot of a later block. -/
def WalletStore.updateBalance (store : WalletStore) (workspaceId walletId : ℕ)
    (balanceWei blockNumber refreshedAt : ℤ) : Except RefreshFailure (WalletStore × Bool) :=
  if balanceWei < 0 ∨ blockNumber < 0 then
    .error (.raised (.valueError "balance and block number must be non-negative"))
  else if 10 ^ 78 ≤ balanceWei ∨ 2 ^ 63 ≤ blockNumber then .error .numericValueOutOfRange
  else
    let selected : ExecutionWallet → Bool := fun row =>
      row.workspaceId = workspaceId && row.id = walletId &&
        row.balanceBlockNumber.all fun (stored : ℕ) => (stored : ℤ) ≤ blockNumber
    let change : ExecutionWallet → ExecutionWallet := fun row =>
      { row with
        balanceWei := balanceWei.toNat
        balanceBlockNumber := some blockNumber.toNat
        balanceRefreshedAt := some refreshedAt }
    match updateReturning selected change store.wallets with
    | (wallets, updated) => .ok ({ store with wallets }, updated.isSome)

/-- `find_by_id`, within a workspace. -/
def WalletStore.findById (store : WalletStore) (workspaceId walletId : ℕ) :
    Option ExecutionWallet :=
  lookup (fun row => (row.workspaceId, row.id)) (workspaceId, walletId) store.wallets

/-- An observation that has been applied to a wallet. -/
structure BalanceUpdate where
  walletId : ℕ
  observation : Observation ℕ ℕ
  deriving DecidableEq

/-- The database, and the updates that have committed so far in their order. -/
structure BalanceStore where
  db : WalletStore
  updates : List BalanceUpdate

/-- The observations that have been applied to a wallet. -/
def BalanceStore.observations (store : BalanceStore) (walletId : ℕ) : List (Observation ℕ ℕ) :=
  (store.updates.filter fun update => update.walletId = walletId).map BalanceUpdate.observation

/-- How far a `refresh` has come. -/
inductive RefreshPhase where
  | idle
  | observing (workspaceId walletId : ℕ) (address : Text)
  | updating (workspaceId walletId : ℕ) (balanceWei blockNumber : ℤ)
  | returned (workspaceId walletId : ℕ) (updated : Bool)
  | failed (failure : RefreshFailure)
  deriving DecidableEq

/-- What a task does next. -/
inductive RefreshEvent where
  | create (walletId auditId : ℕ) (result : SignerWalletResult) (keyHash : BytesOf 32)
      (actorUserId correlationId : ℕ)
  | refresh (workspaceId walletId : ℕ)
  | observe (balanceWei blockNumber : ℤ)
  | update (refreshedAt : ℤ)
  | stop

/--
An action of a refresh. A process that is not refreshing may store the wallet of a
creation; a refresh may stop at any point, also by a failed request to the provider.
-/
def refreshStep (store : BalanceStore) :
    RefreshPhase → RefreshEvent → Option (BalanceStore × RefreshPhase)
  | .idle, .create walletId auditId result keyHash actorUserId correlationId =>
      match store.db.saveOrGet walletId auditId result keyHash actorUserId correlationId with
      | .error error => some (store, .failed (.raised error))
      | .ok (db, _, _) => some ({ store with db }, .idle)
  | .idle, .refresh workspaceId walletId =>
      match store.db.findById workspaceId walletId with
      | none => some (store, .returned workspaceId walletId false)
      | some wallet => some (store, .observing workspaceId walletId wallet.address)
  | .observing workspaceId walletId _, .observe balanceWei blockNumber =>
      some (store, .updating workspaceId walletId balanceWei blockNumber)
  | .updating workspaceId walletId balanceWei blockNumber, .update refreshedAt =>
      match store.db.updateBalance workspaceId walletId balanceWei blockNumber refreshedAt with
      | .error failure => some (store, .failed failure)
      | .ok (db, updated) =>
          let update : BalanceUpdate := ⟨walletId, ⟨balanceWei.toNat, blockNumber.toNat⟩⟩
          some ({ db, updates := store.updates ++ [update] },
            .returned workspaceId walletId updated)
  | .observing _ _ _, .stop | .updating _ _ _ _, .stop => some (store, .failed .stopped)
  | _, _ => none

/-- Creations and refreshes as a program. -/
def refreshProgram : Program BalanceStore RefreshPhase RefreshEvent where
  step := refreshStep

/-- No wallet has been created yet and no refresh begun. -/
def emptyBalances : World BalanceStore RefreshPhase :=
  World.uniform ⟨⟨[], [], []⟩, []⟩ .idle

section Update

variable {store after : WalletStore} {row : ExecutionWallet} {observation : Observation ℕ ℕ}
  {refreshedAt : ℤ}

/-- The row after an observation has been offered to it. -/
def ExecutionWallet.offered (row : ExecutionWallet) (observation : Observation ℕ ℕ)
    (refreshedAt : ℤ) : ExecutionWallet :=
  if NotNewer row.snapshot observation.stamp then
    { row with
      balanceWei := observation.value
      balanceBlockNumber := some observation.stamp
      balanceRefreshedAt := some refreshedAt }
  else row

@[simp]
theorem ExecutionWallet.offered_id : (row.offered observation refreshedAt).id = row.id := by
  simp only [offered]
  split_ifs <;> rfl

@[simp]
theorem ExecutionWallet.offered_workspaceId :
    (row.offered observation refreshedAt).workspaceId = row.workspaceId := by
  simp only [offered]
  split_ifs <;> rfl

/-- The snapshot of a wallet is a register of the newest observation. -/
theorem ExecutionWallet.snapshot_offered :
    (row.offered observation refreshedAt).snapshot = offer row.snapshot observation := by
  simp only [offered, offer]
  split_ifs with notNewer
  · rfl
  · rfl

theorem ExecutionWallet.all_balanceBlockNumber (row : ExecutionWallet) (blockNumber : ℕ) :
    (row.balanceBlockNumber.all fun (stored : ℕ) => (stored : ℤ) ≤ blockNumber) = true ↔
      NotNewer row.snapshot blockNumber := by
  cases held : row.balanceBlockNumber with
  | none => simp [snapshot, held]
  | some stored => simp [snapshot, held, NotNewer]

theorem storable_iff {balanceWei blockNumber : ℤ} :
    Storable balanceWei blockNumber ↔
      ¬(balanceWei < 0 ∨ blockNumber < 0) ∧
        ¬(10 ^ 78 ≤ balanceWei ∨ 2 ^ 63 ≤ blockNumber) := by
  simp only [Storable]
  omega

/-- A balance that no column holds is refused. -/
theorem updateBalance_of_not_storable {workspaceId walletId : ℕ} {balanceWei blockNumber : ℤ}
    (refused : ¬Storable balanceWei blockNumber) :
    ∃ failure, store.updateBalance workspaceId walletId balanceWei blockNumber refreshedAt =
      .error failure := by
  simp only [WalletStore.updateBalance]
  split_ifs with negative large
  · exact ⟨_, rfl⟩
  · exact ⟨_, rfl⟩
  · exact absurd (storable_iff.mpr ⟨negative, large⟩) refused

/-- The update offers the observation to the wallet it names and to no other one. -/
theorem updateBalance_of_storable {wallet : ExecutionWallet}
    (unique : Unique ExecutionWallet.id store.wallets) (wallet_mem : wallet ∈ store.wallets)
    {balanceWei blockNumber : ℤ} (storable : Storable balanceWei blockNumber) :
    store.updateBalance wallet.workspaceId wallet.id balanceWei blockNumber refreshedAt =
      .ok ({ store with
        wallets := updateWhere (fun row => row.id = wallet.id) (fun row =>
          row.offered ⟨balanceWei.toNat, blockNumber.toNat⟩ refreshedAt) store.wallets },
        decide (NotNewer wallet.snapshot blockNumber.toNat)) := by
  have inRange := storable_iff.mp storable
  have block : ((blockNumber.toNat : ℕ) : ℤ) = blockNumber := Int.toNat_of_nonneg storable.2.2.1
  have guard : ∀ row : ExecutionWallet,
      (row.balanceBlockNumber.all fun (stored : ℕ) => (stored : ℤ) ≤ blockNumber) = true ↔
        NotNewer row.snapshot blockNumber.toNat := by
    intro row
    rw [← row.all_balanceBlockNumber, block]
  have named : ∀ row ∈ store.wallets, row.id = wallet.id → row = wallet := by
    intro row row_mem same
    exact unique.eq_of_key_eq row_mem wallet_mem same
  simp only [WalletStore.updateBalance, if_neg inRange.1, if_neg inRange.2, updateReturning]
  congr 2
  · congr 1
    simp only [updateWhere]
    apply List.map_congr_left
    intro row row_mem
    by_cases same : row.id = wallet.id
    · rw [named row row_mem same]
      simp [ExecutionWallet.offered, guard]
    · simp [same]
  · rw [Option.isSome_map, Bool.eq_iff_iff, List.find?_isSome, decide_eq_true_iff]
    constructor
    · rintro ⟨row, row_mem, selected⟩
      simp only [Bool.and_eq_true, decide_eq_true_eq, guard] at selected
      exact named row row_mem selected.1.2 ▸ selected.2
    · intro notNewer
      refine ⟨wallet, wallet_mem, ?_⟩
      simp [guard, notNewer]

end Update

/-- What an action of a refresh does. -/
inductive RefreshTransition (store : BalanceStore) :
    RefreshPhase → RefreshEvent → BalanceStore → RefreshPhase → Prop
  | ends {phase : RefreshPhase} {event : RefreshEvent} {next : RefreshPhase}
      (done : ∀ workspaceId walletId, ∀ address balanceWei blockNumber,
        next ≠ .observing workspaceId walletId address ∧
        next ≠ .updating workspaceId walletId balanceWei blockNumber) :
      RefreshTransition store phase event store next
  | creates {walletId : ℕ} {event : RefreshEvent} {result : SignerWalletResult}
      {keyHash : BytesOf 32} {wallets : List ExecutionWallet} {auditLogs : List AuditLog}
      {stored : ExecutionWallet} {created : Bool}
      (inserted : insertOrGet ExecutionWallet.key ExecutionWallet.clashes
        (WalletStore.walletRow walletId result keyHash) store.db.wallets =
          some (wallets, stored, created)) :
      RefreshTransition store .idle event
        { store with db := { store.db with wallets, auditLogs } } .idle
  | begins {event : RefreshEvent} {wallet : ExecutionWallet}
      (wallet_mem : wallet ∈ store.db.wallets) :
      RefreshTransition store .idle event store
        (.observing wallet.workspaceId wallet.id wallet.address)
  | observes {workspaceId walletId : ℕ} {address : Text} {event : RefreshEvent}
      {balanceWei blockNumber : ℤ} :
      RefreshTransition store (.observing workspaceId walletId address) event store
        (.updating workspaceId walletId balanceWei blockNumber)
  | updates {workspaceId walletId : ℕ} {balanceWei blockNumber refreshedAt : ℤ}
      {db : WalletStore} {updated : Bool}
      (ok : store.db.updateBalance workspaceId walletId balanceWei blockNumber refreshedAt =
        .ok (db, updated)) :
      RefreshTransition store (.updating workspaceId walletId balanceWei blockNumber)
        (.update refreshedAt)
        { db
          updates := store.updates ++ [⟨walletId, ⟨balanceWei.toNat, blockNumber.toNat⟩⟩] }
        (.returned workspaceId walletId updated)

theorem refreshTransition_of_step {store after : BalanceStore} {phase next : RefreshPhase}
    {event : RefreshEvent} (stepped : refreshStep store phase event = some (after, next)) :
    RefreshTransition store phase event after next := by
  unfold refreshStep at stepped
  split at stepped
  · split at stepped
    · cases stepped
      exact .ends (by simp)
    · rename_i saved
      cases stepped
      rcases saveOrGet_eq_ok saved with ⟨wallets, stored, auditLogs, rfl, _, inserted⟩
      exact .creates inserted
  · split at stepped
    · cases stepped
      exact .ends (by simp)
    · rename_i wallet found
      cases stepped
      rcases lookup_eq_some_mem found with ⟨wallet_mem, own⟩
      rw [Prod.mk.injEq] at own
      rcases own with ⟨rfl, rfl⟩
      exact .begins wallet_mem
  · cases stepped
    exact .observes
  · split at stepped
    · cases stepped
      exact .ends (by simp)
    · rename_i ok
      cases stepped
      exact .updates ok
  · cases stepped
    exact .ends (by simp)
  · cases stepped
    exact .ends (by simp)
  · cases stepped

/-- A refresh is about to apply an observation to a wallet that exists. -/
def RefreshPhase.Owned (store : BalanceStore) : RefreshPhase → Prop
  | .observing workspaceId walletId _ | .updating workspaceId walletId _ _ =>
      ∃ wallet ∈ store.db.wallets, wallet.workspaceId = workspaceId ∧ wallet.id = walletId
  | _ => True

/-- Every wallet holds the newest of the observations that have been applied to it. -/
structure BalancesSound (store : BalanceStore) : Prop where
  unique : Unique ExecutionWallet.id store.db.wallets
  newest : ∀ wallet ∈ store.db.wallets,
    wallet.snapshot = newest (store.observations wallet.id)
  applied : ∀ update ∈ store.updates, ∃ wallet ∈ store.db.wallets, wallet.id = update.walletId

/-- Wallets stay, with a snapshot that is never of an earlier block than before. -/
def BalanceStore.Progresses (before after : BalanceStore) : Prop :=
  ∀ wallet ∈ before.db.wallets, ∃ later ∈ after.db.wallets,
    later.workspaceId = wallet.workspaceId ∧ later.id = wallet.id ∧
      ∀ held ∈ wallet.snapshot, ∃ kept ∈ later.snapshot, held.stamp ≤ kept.stamp

section Preservation

variable {store after : BalanceStore} {phase next : RefreshPhase} {event : RefreshEvent}

theorem BalanceStore.Progresses.refl (store : BalanceStore) : store.Progresses store :=
  fun wallet wallet_mem =>
    ⟨wallet, wallet_mem, rfl, rfl, fun held heldMem => ⟨held, heldMem, le_rfl⟩⟩

theorem BalanceStore.Progresses.trans {first second third : BalanceStore}
    (earlier : first.Progresses second) (later : second.Progresses third) :
    first.Progresses third := by
  intro wallet wallet_mem
  rcases earlier wallet wallet_mem with ⟨middle, middle_mem, workspace, id, firstKept⟩
  rcases later middle middle_mem with ⟨last, last_mem, workspace', id', secondKept⟩
  refine ⟨last, last_mem, workspace'.trans workspace, id'.trans id, fun held heldMem => ?_⟩
  rcases firstKept held heldMem with ⟨kept, kept_mem, older⟩
  rcases secondKept kept kept_mem with ⟨final, final_mem, newer⟩
  exact ⟨final, final_mem, older.trans newer⟩

theorem RefreshPhase.Owned.mono (progresses : store.Progresses after)
    (owned : phase.Owned store) : phase.Owned after := by
  have exists_later : ∀ {workspaceId walletId : ℕ},
      (∃ wallet ∈ store.db.wallets, wallet.workspaceId = workspaceId ∧ wallet.id = walletId) →
      ∃ wallet ∈ after.db.wallets, wallet.workspaceId = workspaceId ∧ wallet.id = walletId := by
    rintro workspaceId walletId ⟨wallet, wallet_mem, rfl, rfl⟩
    rcases progresses wallet wallet_mem with ⟨later, later_mem, workspace, id, _⟩
    exact ⟨later, later_mem, workspace, id⟩
  cases phase with
  | observing workspaceId walletId address => exact exists_later owned
  | updating workspaceId walletId balanceWei blockNumber => exact exists_later owned
  | _ => trivial

/-- A wallet that has just been created has no snapshot, and nothing was applied to it. -/
theorem BalancesSound.create (sound : BalancesSound store) {walletId : ℕ}
    {result : SignerWalletResult} {keyHash : BytesOf 32} {wallets : List ExecutionWallet}
    {auditLogs : List AuditLog} {stored : ExecutionWallet} {created : Bool}
    (inserted : insertOrGet ExecutionWallet.key ExecutionWallet.clashes
      (WalletStore.walletRow walletId result keyHash) store.db.wallets =
        some (wallets, stored, created)) :
    BalancesSound { store with db := { store.db with wallets, auditLogs } } := by
  cases created with
  | false =>
      rcases insertOrGet_eq_some_false inserted with ⟨rfl, _, _⟩
      exact ⟨sound.unique, sound.newest, sound.applied⟩
  | true =>
      rcases insertOrGet_eq_some_true inserted with ⟨rfl, rfl, _, unclashing⟩
      have otherId : ∀ existing ∈ store.db.wallets, existing.id ≠ walletId := by
        intro existing existing_mem same
        have clashes := unclashing existing existing_mem
        simp [ExecutionWallet.clashes, WalletStore.walletRow, same] at clashes
      refine ⟨?_, ?_, ?_⟩
      · exact sound.unique.append (lookup_eq_none_iff.mpr otherId)
      · intro wallet wallet_mem
        rcases List.mem_append.mp wallet_mem with old | new
        · exact sound.newest wallet old
        · rw [List.mem_singleton] at new
          have unapplied : store.observations walletId = [] := by
            simp only [BalanceStore.observations, List.map_eq_nil_iff, List.filter_eq_nil_iff]
            intro update update_mem same
            rcases sound.applied update update_mem with ⟨existing, existing_mem, id⟩
            exact otherId existing existing_mem (id.trans (of_decide_eq_true same))
          subst new
          exact (congrArg Newest.newest unapplied).symm
      · intro update update_mem
        rcases sound.applied update update_mem with ⟨wallet, wallet_mem, id⟩
        exact ⟨wallet, List.mem_append_left _ wallet_mem, id⟩

/-- The store after an observation has been applied to a wallet. -/
def BalanceStore.applied (store : BalanceStore) (walletId : ℕ) (observation : Observation ℕ ℕ)
    (refreshedAt : ℤ) : BalanceStore where
  db := { store.db with
    wallets := updateWhere (fun row => row.id = walletId)
      (fun row => row.offered observation refreshedAt) store.db.wallets }
  updates := store.updates ++ [⟨walletId, observation⟩]

theorem observations_applied (walletId other : ℕ) (observation : Observation ℕ ℕ)
    (refreshedAt : ℤ) :
    (store.applied walletId observation refreshedAt).observations other =
      store.observations other ++ if walletId = other then [observation] else [] := by
  by_cases same : walletId = other <;>
    simp [BalanceStore.observations, BalanceStore.applied, List.filter_append, same]

theorem BalancesSound.apply (sound : BalancesSound store) {wallet : ExecutionWallet}
    (wallet_mem : wallet ∈ store.db.wallets) (observation : Observation ℕ ℕ)
    (refreshedAt : ℤ) : BalancesSound (store.applied wallet.id observation refreshedAt) := by
  refine ⟨?_, ?_, ?_⟩
  · exact sound.unique.updateWhere fun row => row.offered_id
  · intro updated updated_mem
    rcases mem_updateWhere.mp updated_mem with ⟨row, row_mem, rfl⟩
    have rowNewest := sound.newest row row_mem
    by_cases same : row.id = wallet.id
    · rw [if_pos (decide_eq_true same), ExecutionWallet.snapshot_offered,
        ExecutionWallet.offered_id, observations_applied, if_pos same.symm, newest_concat,
        rowNewest]
    · rw [if_neg (by simpa using same), observations_applied, if_neg (Ne.symm same),
        List.append_nil]
      exact rowNewest
  · intro update update_mem
    have named : ∃ row ∈ store.db.wallets, row.id = update.walletId := by
      rcases List.mem_append.mp update_mem with old | new
      · exact sound.applied update old
      · rw [List.mem_singleton] at new
        exact ⟨wallet, wallet_mem, by rw [new]⟩
    rcases named with ⟨row, row_mem, id⟩
    refine ⟨_, mem_updateWhere.mpr ⟨row, row_mem, rfl⟩, ?_⟩
    split_ifs <;> simp [id]

theorem BalanceStore.progresses_applied (store : BalanceStore) (walletId : ℕ)
    (observation : Observation ℕ ℕ) (refreshedAt : ℤ) :
    store.Progresses (store.applied walletId observation refreshedAt) := by
  intro row row_mem
  refine ⟨_, mem_updateWhere.mpr ⟨row, row_mem, rfl⟩, ?_⟩
  split_ifs with named
  · refine ⟨by simp, by simp, fun held heldMem => ?_⟩
    rw [ExecutionWallet.snapshot_offered]
    exact le_offer heldMem
  · exact ⟨rfl, rfl, fun held heldMem => ⟨held, heldMem, le_rfl⟩⟩

end Preservation

section Runs

variable {store after : BalanceStore} {phase next : RefreshPhase} {event : RefreshEvent}
  {world later other : World BalanceStore RefreshPhase}

/-- An update that commits applies a storable observation and tells whether it was kept. -/
theorem BalancesSound.updateBalance_eq_ok (sound : BalancesSound store)
    {wallet : ExecutionWallet} (wallet_mem : wallet ∈ store.db.wallets)
    {balanceWei blockNumber refreshedAt : ℤ} {db : WalletStore} {updated : Bool}
    (ok : store.db.updateBalance wallet.workspaceId wallet.id balanceWei blockNumber
      refreshedAt = .ok (db, updated)) :
    Storable balanceWei blockNumber ∧
      updated = decide (NotNewer wallet.snapshot blockNumber.toNat) ∧
      (⟨db, store.updates ++ [⟨wallet.id, ⟨balanceWei.toNat, blockNumber.toNat⟩⟩]⟩ :
        BalanceStore) =
        store.applied wallet.id ⟨balanceWei.toNat, blockNumber.toNat⟩ refreshedAt := by
  by_cases storable : Storable balanceWei blockNumber
  · rw [updateBalance_of_storable sound.unique wallet_mem storable] at ok
    cases ok
    exact ⟨storable, rfl, rfl⟩
  · rcases updateBalance_of_not_storable storable with ⟨failure, refused⟩
    rw [refused] at ok
    cases ok

theorem RefreshTransition.sound (moved : RefreshTransition store phase event after next)
    (sound : BalancesSound store) (owned : phase.Owned store) :
    BalancesSound after ∧ next.Owned after ∧ store.Progresses after := by
  cases moved with
  | ends done =>
      refine ⟨sound, ?_, .refl _⟩
      cases next with
      | observing workspaceId walletId address =>
          exact absurd rfl (done workspaceId walletId address 0 0).1
      | updating workspaceId walletId balanceWei blockNumber =>
          exact absurd rfl (done workspaceId walletId [] balanceWei blockNumber).2
      | _ => trivial
  | creates inserted =>
      refine ⟨sound.create inserted, trivial, fun wallet wallet_mem => ?_⟩
      exact ⟨wallet, subset_of_insertOrGet inserted wallet_mem, rfl, rfl,
        fun held heldMem => ⟨held, heldMem, le_rfl⟩⟩
  | begins wallet_mem => exact ⟨sound, ⟨_, wallet_mem, rfl, rfl⟩, .refl _⟩
  | observes => exact ⟨sound, owned, .refl _⟩
  | updates ok =>
      rcases owned with ⟨wallet, wallet_mem, rfl, rfl⟩
      rcases sound.updateBalance_eq_ok wallet_mem ok with ⟨_, _, applies⟩
      rw [applies]
      exact ⟨sound.apply wallet_mem _ _, trivial, store.progresses_applied _ _ _⟩

/-- The stored balances are sound, and every refresh is of a wallet that exists. -/
structure BalanceWorld (world : World BalanceStore RefreshPhase) : Prop where
  sound : BalancesSound world.store
  owned : ∀ index, (world.process index).Owned world.store

theorem balanceWorld_empty : BalanceWorld emptyBalances where
  sound := ⟨unique_nil, by simp [emptyBalances], by simp [emptyBalances]⟩
  owned := fun _ => trivial

theorem BalanceWorld.act (holds : BalanceWorld world) {index : ℕ}
    (acted : refreshProgram.act world index event = some later) :
    BalanceWorld later ∧ world.store.Progresses later.store := by
  rcases Program.act_eq_some_iff.mp acted with ⟨store, phase, stepped, rfl⟩
  have moved := (refreshTransition_of_step stepped).sound holds.sound (holds.owned index)
  refine ⟨⟨moved.1, fun other => ?_⟩, moved.2.2⟩
  by_cases same : other = index
  · subst same
    simpa using moved.2.1
  · simpa [Function.update_of_ne same] using (holds.owned other).mono moved.2.2

theorem BalanceWorld.run (run : refreshProgram.Reaches Unrestricted world later)
    (holds : BalanceWorld world) :
    BalanceWorld later ∧ world.store.Progresses later.store :=
  run.relates BalanceStore.Progresses.refl BalanceStore.Progresses.trans
    (fun holds _ acted => holds.act acted) holds

/-- What a refresh returns after its update, and what the update does to the other wallets. -/
theorem BalanceWorld.act_update (holds : BalanceWorld world) {wallet : ExecutionWallet}
    (wallet_mem : wallet ∈ world.store.db.wallets) {index : ℕ}
    {balanceWei blockNumber refreshedAt : ℤ}
    (updating : world.process index =
      .updating wallet.workspaceId wallet.id balanceWei blockNumber)
    (acted : refreshProgram.act world index (.update refreshedAt) = some later) :
    (∀ updated, later.process index = .returned wallet.workspaceId wallet.id updated ↔
        Storable balanceWei blockNumber ∧
          updated = decide (NotNewer wallet.snapshot blockNumber.toNat)) ∧
      ∀ row, row.id ≠ wallet.id →
        (row ∈ later.store.db.wallets ↔ row ∈ world.store.db.wallets) := by
  rcases Program.act_eq_some_iff.mp acted with ⟨store, phase, stepped, rfl⟩
  simp only [refreshProgram, updating, refreshStep] at stepped
  simp only [Function.update_self]
  by_cases storable : Storable balanceWei blockNumber
  · rw [updateBalance_of_storable holds.sound.unique wallet_mem storable] at stepped
    cases stepped
    refine ⟨fun updated => ?_, fun row otherId => ?_⟩
    · simp only [RefreshPhase.returned.injEq, true_and, storable]
      exact eq_comm
    · simp only [mem_updateWhere]
      constructor
      · rintro ⟨old, old_mem, rfl⟩
        split_ifs at otherId ⊢ with named
        · exact absurd (of_decide_eq_true named) (by simpa using otherId)
        · exact old_mem
      · intro row_mem
        exact ⟨row, row_mem, by simp [otherId]⟩
  · rcases updateBalance_of_not_storable storable with ⟨failure, refused⟩
    rw [refused] at stepped
    cases stepped
    simp [storable]

end Runs

/--
The snapshot of a wallet converges to the newest observation that was applied to it,
in whatever order and however often the refreshes apply them.
-/
theorem balanceSnapshots_converge {world : World BalanceStore RefreshPhase}
    (run : refreshProgram.Reaches Unrestricted emptyBalances world) {wallet : ExecutionWallet}
    (wallet_mem : wallet ∈ world.store.db.wallets) :
    (∀ later, refreshProgram.Reaches Unrestricted world later →
      ∃ after ∈ later.store.db.wallets, after.id = wallet.id ∧
        ∀ held ∈ wallet.snapshot, ∃ kept ∈ after.snapshot, held.stamp ≤ kept.stamp) ∧
    (∀ held ∈ wallet.snapshot, held ∈ world.store.observations wallet.id) ∧
    (∀ observation ∈ world.store.observations wallet.id,
      ∃ held ∈ wallet.snapshot, observation.stamp ≤ held.stamp) ∧
    (Consistent (world.store.observations wallet.id) →
      ∀ other, refreshProgram.Reaches Unrestricted emptyBalances other →
        ∀ twin ∈ other.store.db.wallets, twin.id = wallet.id →
          (∀ observation, observation ∈ other.store.observations wallet.id ↔
            observation ∈ world.store.observations wallet.id) →
          twin.snapshot = wallet.snapshot) ∧
    ∀ index balanceWei blockNumber refreshedAt next,
      world.process index = .updating wallet.workspaceId wallet.id balanceWei blockNumber →
      refreshProgram.act world index (.update refreshedAt) = some next →
        (∀ updated, next.process index = .returned wallet.workspaceId wallet.id updated ↔
          Storable balanceWei blockNumber ∧
            updated = decide (NotNewer wallet.snapshot blockNumber.toNat)) ∧
        ∀ row, row.id ≠ wallet.id →
          (row ∈ next.store.db.wallets ↔ row ∈ world.store.db.wallets) := by
  have holds := (balanceWorld_empty.run run).1
  have newest := holds.sound.newest wallet wallet_mem
  refine ⟨?_, ?_, ?_, ?_, ?_⟩
  · intro later further
    rcases (holds.run further).2 wallet wallet_mem with ⟨after, after_mem, _, id, kept⟩
    exact ⟨after, after_mem, id, kept⟩
  · intro held heldMem
    rw [newest] at heldMem
    exact mem_of_newest_eq_some heldMem
  · intro observation applied
    rw [newest]
    exact exists_newest_of_mem applied
  · intro consistent other otherRun twin twin_mem id same
    have twinNewest := (balanceWorld_empty.run otherRun).1.sound.newest twin twin_mem
    rw [twinNewest, newest, id]
    exact newest_congr consistent same
  · intro index balanceWei blockNumber refreshedAt next updating acted
    exact holds.act_update wallet_mem updating acted

section Samples

/-- What the signer has answered. -/
def sampleResult : SignerWalletResult where
  signerKeyId := 41
  workspaceId := 1
  chainId := 1
  address := "0x00".toList
  created := true

/-- Two refreshes of one wallet, of which the one that observed the later block updates first. -/
def overtakingRefreshes : List (ℕ × RefreshEvent) :=
  [(0, .create 10 20 sampleResult ⟨List.replicate 32 1, rfl⟩ 7 30),
    (1, .refresh 1 10), (2, .refresh 1 10), (1, .observe 500 90), (2, .observe 700 91),
    (2, .update 1000), (1, .update 1001)]

end Samples

theorem overtakingRefreshes_converge :
    ∃ world, ∃ wallet ∈ world.store.db.wallets,
      refreshProgram.Reaches Unrestricted emptyBalances world ∧
      world.store.observations wallet.id = [⟨700, 91⟩, ⟨500, 90⟩] ∧
      wallet.snapshot = some ⟨700, 91⟩ ∧
      ∀ held ∈ wallet.snapshot, held ∈ world.store.observations wallet.id := by
  have finished : (refreshProgram.execute emptyBalances overtakingRefreshes).map
      (fun world => world.store.db.wallets.map fun row =>
        (row.snapshot, world.store.observations row.id)) =
      some [(some ⟨700, 91⟩, [⟨700, 91⟩, ⟨500, 90⟩])] := by
    decide +kernel
  rcases Option.map_eq_some_iff.mp finished with ⟨world, executed, rows⟩
  rcases List.map_eq_singleton_iff.mp rows with ⟨wallet, stored, facts⟩
  rw [Prod.mk.injEq] at facts
  have wallet_mem : wallet ∈ world.store.db.wallets := stored ▸ List.mem_singleton_self wallet
  have run := Program.reaches_of_execute executed (Program.meets_unrestricted _ _)
  exact ⟨world, wallet, wallet_mem, run, facts.2, facts.1,
    (balanceSnapshots_converge run wallet_mem).2.1⟩

end CopyMint
