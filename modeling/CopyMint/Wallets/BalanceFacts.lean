import CopyMint.Wallets.BalanceClient

/-!
# Stored balances are facts

A balance is stored for the address that the wallet had when it was looked up, and for a block
that the chain had by then. Wallets keep their addresses and chains their blocks, so that every
snapshot is the balance of its wallet at its block, whatever has been stored in between. A chain
with another identifier than the configured one is never stored from.
-/

namespace CopyMint

open Hexadecimal Relational Interleaving Newest Contract

section Facts

variable (client : ChainstackEthereumBalanceClient) (chain : EthereumChain) (store : ChainStore)
  (workspaceId walletId : ℕ)

/-- The workspace has a wallet with the number and the address. -/
def ChainStore.HasWallet (address : Text) : Prop :=
  ∃ wallet ∈ store.db.wallets, wallet.workspaceId = workspaceId ∧ wallet.id = walletId ∧
    wallet.address = address

/-- The wallet has a snapshot of the block, or of a later one. -/
def ChainStore.RefreshedAt (block : ℕ) : Prop :=
  ∃ wallet ∈ store.db.wallets, wallet.workspaceId = workspaceId ∧ wallet.id = walletId ∧
    ∃ held ∈ wallet.snapshot, block ≤ held.stamp

/-- Wallets stay as they are but for their snapshots, which are never of an earlier block. -/
structure ChainStore.Later (before after : ChainStore) : Prop where
  head : before.head ≤ after.head
  wallets : ∀ wallet ∈ before.db.wallets, ∃ kept ∈ after.db.wallets,
    kept.workspaceId = wallet.workspaceId ∧ kept.id = wallet.id ∧
      kept.address = wallet.address ∧
      ∀ held ∈ wallet.snapshot, ∃ newer ∈ kept.snapshot, held.stamp ≤ newer.stamp

/-- Every snapshot is of the configured chain, and is its balance at a block that it has. -/
structure SnapshotsFactual : Prop where
  unique : Unique ExecutionWallet.id store.db.wallets
  factual : ∀ wallet ∈ store.db.wallets, ∀ held ∈ wallet.snapshot,
    client.chainId = chain.chainId ∧ held.stamp ≤ store.head ∧
      held.value = chain.balanceAt wallet.address held.stamp

/-- What is stored is the balance of the wallet at a block of the configured chain. -/
def BalanceKnown : BalanceCall → Prop
  | .updateBalance workspaceId walletId balanceWei blockNumber _ =>
      ∃ address, ∃ block : ℕ, store.HasWallet workspaceId walletId address ∧
        client.chainId = chain.chainId ∧ block ≤ store.head ∧ blockNumber = block ∧
          balanceWei = chain.balanceAt address block
  | _ => True

/-- What the answer to a call says of the database or the chain. -/
def BalanceAnswered :
    (call : BalanceCall) → Except BalanceFailure (BalanceAnswer call) → Prop
  | .findById workspaceId walletId, .ok (some wallet) =>
      store.HasWallet workspaceId walletId wallet.address
  | .post request, .ok response => chain.sends client store.head request response = true
  | .updateBalance workspaceId walletId _ blockNumber _, .ok _ =>
      store.RefreshedAt workspaceId walletId blockNumber.toNat
  | _, _ => True

end Facts

section Monotone

variable {client : ChainstackEthereumBalanceClient} {chain : EthereumChain}
  {store after : ChainStore} {workspaceId walletId : ℕ}

theorem ChainStore.Later.refl (store : ChainStore) : store.Later store :=
  ⟨le_rfl, fun wallet wallet_mem =>
    ⟨wallet, wallet_mem, rfl, rfl, rfl, fun held heldMem => ⟨held, heldMem, le_rfl⟩⟩⟩

theorem ChainStore.Later.trans {first second third : ChainStore} (earlier : first.Later second)
    (later : second.Later third) : first.Later third := by
  refine ⟨earlier.head.trans later.head, fun wallet wallet_mem => ?_⟩
  rcases earlier.wallets wallet wallet_mem with ⟨middle, middle_mem, workspace, id, address, kept⟩
  rcases later.wallets middle middle_mem with ⟨last, last_mem, workspace', id', address', kept'⟩
  refine ⟨last, last_mem, workspace'.trans workspace, id'.trans id, address'.trans address, ?_⟩
  intro held heldMem
  rcases kept held heldMem with ⟨newer, newer_mem, older⟩
  rcases kept' newer newer_mem with ⟨newest, newest_mem, older'⟩
  exact ⟨newest, newest_mem, older.trans older'⟩

theorem ChainStore.HasWallet.later {address : Text}
    (has : store.HasWallet workspaceId walletId address) (moved : store.Later after) :
    after.HasWallet workspaceId walletId address := by
  rcases has with ⟨wallet, wallet_mem, rfl, rfl, rfl⟩
  rcases moved.wallets wallet wallet_mem with ⟨kept, kept_mem, workspace, id, address, _⟩
  exact ⟨kept, kept_mem, workspace, id, address⟩

theorem ChainStore.RefreshedAt.later {block : ℕ}
    (refreshed : store.RefreshedAt workspaceId walletId block) (moved : store.Later after) :
    after.RefreshedAt workspaceId walletId block := by
  rcases refreshed with ⟨wallet, wallet_mem, rfl, rfl, held, heldMem, newer⟩
  rcases moved.wallets wallet wallet_mem with ⟨kept, kept_mem, workspace, id, _, snapshots⟩
  rcases snapshots held heldMem with ⟨newest, newest_mem, older⟩
  exact ⟨kept, kept_mem, workspace, id, newest, newest_mem, newer.trans older⟩

/-- What holds of a chain stays true as it grows. -/
theorem EthereumChain.holds_mono {head later : ℕ} (grown : head ≤ later) {method : Text}
    {params : List Json} {number : ℕ} (held : chain.holds head method params number = true) :
    chain.holds later method params number = true := by
  simp only [holds] at held ⊢
  split_ifs at held ⊢ with chainId latest balance
  · exact held
  · exact decide_eq_true ((of_decide_eq_true held).trans grown)
  · split at held
    · rcases (Option.any_eq_true _ _).mp held with ⟨block, means, known⟩
      rw [Bool.and_eq_true, decide_eq_true_eq] at known
      rw [means]
      exact Bool.and_eq_true_iff.mpr ⟨decide_eq_true (known.1.trans grown), known.2⟩
    · cases held

theorem EthereumChain.confirms_mono {head later : ℕ} (grown : head ≤ later) {request : Json}
    {number : ℕ} (confirmed : chain.confirms head request number = true) :
    chain.confirms later request number = true := by
  cases request with
  | obj members =>
      simp only [confirms] at confirmed ⊢
      split at confirmed
      · exact holds_mono grown confirmed
      · cases confirmed
  | _ => cases confirmed

theorem EthereumChain.sends_mono {head later : ℕ} (grown : head ≤ later) {request : Json}
    {response : HttpResponse} (sent : chain.sends client head request response = true) :
    chain.sends client later request response = true := by
  simp only [sends] at sent ⊢
  split at sent
  · trivial
  · rcases (Option.any_eq_true _ _).mp sent with ⟨number, means, confirmed⟩
    exact (Option.any_eq_true _ _).mpr ⟨number, means, confirms_mono grown confirmed⟩

/-- The contract of creations and refreshes. -/
def factual (client : ChainstackEthereumBalanceClient) (chain : EthereumChain) :
    Contract ChainStore BalanceTask BalanceCall BalanceAnswer BalanceFailure where
  later := ChainStore.Later
  allowed _ store _ call := BalanceKnown client chain store call
  answered store call result := BalanceAnswered client chain store call result
  refl := ChainStore.Later.refl
  trans := ChainStore.Later.trans
  allowed_later := by
    intro _ before after _ call moved known
    cases call with
    | updateBalance =>
        rcases known with ⟨address, block, has, configured, mined, facts⟩
        exact ⟨address, block, has.later moved, configured, mined.trans moved.head, facts⟩
    | _ => trivial
  answered_later := by
    intro before after call result moved answered
    cases result with
    | error failure => cases call <;> trivial
    | ok answer =>
        cases call with
        | findById =>
            cases answer with
            | none => trivial
            | some wallet => exact ChainStore.HasWallet.later answered moved
        | post => exact EthereumChain.sends_mono moved.head answered
        | updateBalance => exact ChainStore.RefreshedAt.later answered moved
        | _ => trivial

end Monotone

section Programs

variable {client : ChainstackEthereumBalanceClient} {chain : EthereumChain}
  {task : BalanceTask} {store : ChainStore}
  {history : List (Exchange BalanceCall BalanceAnswer BalanceFailure)}

/-- The node has told a number when it was asked for it. -/
def Told (client : ChainstackEthereumBalanceClient) (method : String) (params : List Json)
    (history : List (Exchange BalanceCall BalanceAnswer BalanceFailure)) (number : ℕ) : Prop :=
  ∃ response, ⟨.post (HttpClient.request 1 method.toList params), .ok response⟩ ∈ history ∧
    ∃ result, client.readResult response = .ok result ∧ quantityOf result = some number

/-- What the client reads of a response is what the node means. -/
theorem number_factual (method : String) (params : List Json) :
    (factual client chain).Ensures task (client.number method params) (Returning
      fun store' longer number => ∃ told : ℕ, number = told ∧
        chain.holds store'.head method.toList params told = true ∧
        Told client method params longer told) store history := by
  refine Ensures.ofCall_andThen trivial fun {store'} response _ sent => ?_
  refine Ensures.ofExcept_andThen fun result accepted => ?_
  have sent : chain.sends client store'.head (HttpClient.request 1 method.toList params)
      response = true := sent
  simp only [EthereumChain.sends, accepted] at sent
  rcases (Option.any_eq_true _ _).mp sent with ⟨told, means, confirmed⟩
  rw [int_of_quantityOf client.unicode means]
  intro later moved number same
  cases same
  refine ⟨told, rfl, EthereumChain.holds_mono moved.head confirmed, response, ?_, result,
    accepted, means⟩
  exact List.mem_append_right _ (List.mem_singleton_self _)

theorem Told.mono {method : String} {params : List Json} {number : ℕ}
    {longer : List (Exchange BalanceCall BalanceAnswer BalanceFailure)}
    (told : Told client method params history number) (grown : history <+: longer) :
    Told client method params longer number := by
  rcases told with ⟨response, asked, result⟩
  exact ⟨response, grown.subset asked, result⟩

/-- The balance is the one at the block, of which the node has told, of the configured chain. -/
theorem balanceAtLatestBlock_factual (address : Text) :
    (factual client chain).Ensures task (client.balanceAtLatestBlock address) (Returning
      fun store' longer observed => ∃ block : ℕ, observed.2 = block ∧
        client.chainId = chain.chainId ∧ block ≤ store'.head ∧
        observed.1 = chain.balanceAt address block ∧
        Told client "eth_blockNumber" [] longer block) store history := by
  refine (number_factual "eth_chainId" []).andThen ?_
  rintro _ _ _ _ _ ⟨chainId, rfl, identified, _⟩
  have identified : chainId = chain.chainId := of_decide_eq_true identified
  split_ifs with other
  · exact fun _ _ _ => nofun
  · have configured : client.chainId = chain.chainId := by
      rw [← identified]
      exact_mod_cast (not_not.mp other).symm
    refine (number_factual "eth_blockNumber" []).andThen ?_
    rintro _ _ _ _ _ ⟨block, rfl, _, told⟩
    refine (number_factual "eth_getBalance" _).andThen ?_
    rintro store' longer _ _ grown ⟨balance, rfl, held, _⟩
    have known : block ≤ store'.head ∧ balance = chain.balanceAt address block := by
      have tag : quantityOf (hexInt block) = some block := quantityOf_toDigits block
      simpa [EthereumChain.holds, tag] using held
    intro later further observed same
    cases same
    exact ⟨block, rfl, configured, known.1.trans further.head, by rw [known.2],
      told.mono grown⟩

/-- What a task comes to: a refresh finds no wallet, or the wallet is as new as the node. -/
def TaskReturns (client : ChainstackEthereumBalanceClient) (store : ChainStore)
    (history : List (Exchange BalanceCall BalanceAnswer BalanceFailure)) : BalanceTask → Prop
  | .create _ _ _ _ => True
  | .refresh workspaceId walletId =>
      ⟨.findById workspaceId walletId, .ok none⟩ ∈ history ∨
        ∃ block, Told client "eth_blockNumber" [] history block ∧
          store.RefreshedAt workspaceId walletId block

theorem perform_factual (client : ChainstackEthereumBalanceClient) (chain : EthereumChain)
    (task : BalanceTask) (store : ChainStore) :
    (factual client chain).Ensures task (client.perform task)
      (Returning fun store' history _ => TaskReturns client store' history task) store [] := by
  cases task with
  | create result keyHash actorUserId correlationId =>
      exact Ensures.ofCall_andThen trivial fun _ _ _ _ _ _ _ => trivial
  | refresh workspaceId walletId =>
      refine Ensures.ofCall_andThen trivial fun found _ has => ?_
      cases found with
      | none => exact fun _ _ _ _ => .inl (List.mem_append_right _ (List.mem_singleton_self _))
      | some wallet =>
          refine (balanceAtLatestBlock_factual wallet.address).andThen ?_
          rintro _ _ ⟨balance, blockNumber⟩ moved _ ⟨block, rfl, configured, mined, rfl, told⟩
          have has := ChainStore.HasWallet.later has moved
          refine Ensures.ofCall_andThen trivial fun refreshedAt moved _ => ?_
          have told := told.mono (List.prefix_append _ [⟨.utcNow, .ok refreshedAt⟩])
          refine Ensures.ofCall ?_ fun store' result _ refreshed updated same => ?_
          · exact ⟨wallet.address, block, has.later moved, configured,
              mined.trans moved.head, rfl, rfl⟩
          · subst same
            exact .inr ⟨block, told.mono (List.prefix_append _ _), refreshed⟩

end Programs

section Serving

variable {client : ChainstackEthereumBalanceClient} {chain : EthereumChain}
  {store after : ChainStore} {row : ExecutionWallet} {observation : Observation ℕ ℕ}
  {refreshedAt : ℤ}

@[simp]
theorem ExecutionWallet.offered_address :
    (row.offered observation refreshedAt).address = row.address := by
  simp only [offered]
  split_ifs <;> rfl

theorem SnapshotsFactual.mine (sound : SnapshotsFactual client chain store) (mined : ℕ) :
    SnapshotsFactual client chain { store with head := store.head + mined } ∧
      store.Later { store with head := store.head + mined } := by
  have later : store.Later { store with head := store.head + mined } :=
    ⟨Nat.le_add_right _ _, (ChainStore.Later.refl store).wallets⟩
  refine ⟨⟨sound.unique, fun wallet wallet_mem held heldMem => ?_⟩, later⟩
  rcases sound.factual wallet wallet_mem held heldMem with ⟨configured, before, facts⟩
  exact ⟨configured, before.trans later.head, facts⟩

theorem SnapshotsFactual.update (sound : SnapshotsFactual client chain store)
    {wallet : ExecutionWallet} (wallet_mem : wallet ∈ store.db.wallets)
    (configured : client.chainId = chain.chainId) {block : ℕ} (mined : block ≤ store.head)
    {updated : Bool} {db : WalletStore}
    (ok : store.db.updateBalance wallet.workspaceId wallet.id
      (chain.balanceAt wallet.address block) block refreshedAt = .ok (db, updated)) :
    SnapshotsFactual client chain { store with db } ∧ store.Later { store with db } ∧
      ChainStore.RefreshedAt { store with db } wallet.workspaceId wallet.id block := by
  by_cases storable : Storable (chain.balanceAt wallet.address block) block
  · rw [updateBalance_of_storable sound.unique wallet_mem storable] at ok
    simp only [Int.toNat_natCast] at ok
    cases ok
    refine ⟨⟨sound.unique.updateWhere fun row => row.offered_id, ?_⟩, ⟨le_rfl, ?_⟩, ?_⟩
    · intro changed changed_mem held heldMem
      rcases mem_updateWhere.mp changed_mem with ⟨row, row_mem, rfl⟩
      split_ifs at heldMem ⊢ with named
      · have same := sound.unique.eq_of_key_eq row_mem wallet_mem (of_decide_eq_true named)
        subst same
        rw [ExecutionWallet.snapshot_offered] at heldMem
        rw [ExecutionWallet.offered_address]
        by_cases notNewer : NotNewer row.snapshot block
        · rw [offer_of_notNewer notNewer] at heldMem
          cases heldMem
          exact ⟨configured, mined, rfl⟩
        · rw [offer_of_newer notNewer] at heldMem
          exact sound.factual row row_mem held heldMem
      · exact sound.factual row row_mem held heldMem
    · intro row row_mem
      refine ⟨_, mem_updateWhere.mpr ⟨row, row_mem, rfl⟩, ?_⟩
      split_ifs with named
      · refine ⟨by simp, by simp, by simp, fun held heldMem => ?_⟩
        rw [ExecutionWallet.snapshot_offered]
        exact le_offer heldMem
      · exact ⟨rfl, rfl, rfl, fun held heldMem => ⟨held, heldMem, le_rfl⟩⟩
    · refine ⟨_, mem_updateWhere.mpr ⟨wallet, wallet_mem, rfl⟩, ?_⟩
      rw [if_pos (decide_eq_true rfl), ExecutionWallet.snapshot_offered]
      exact ⟨by simp, by simp, new_le_offer⟩
  · rcases updateBalance_of_not_storable storable with ⟨failure, refused⟩
    rw [refused] at ok
    cases ok

/-- A wallet that has just been created has no snapshot. -/
theorem SnapshotsFactual.create (sound : SnapshotsFactual client chain store)
    {walletId auditId actorUserId correlationId : ℕ} {result : SignerWalletResult}
    {keyHash : BytesOf 32} {db : WalletStore} {record : WalletRecord} {created : Bool}
    (saved : store.db.saveOrGet walletId auditId result keyHash actorUserId correlationId =
      .ok (db, record, created)) :
    SnapshotsFactual client chain { store with db } ∧ store.Later { store with db } := by
  rcases saveOrGet_eq_ok saved with ⟨wallets, stored, auditLogs, rfl, _, inserted⟩
  have kept : store.Later { store with db := { store.db with wallets, auditLogs } } :=
    ⟨le_rfl, fun wallet wallet_mem => ⟨wallet, subset_of_insertOrGet inserted wallet_mem, rfl, rfl,
      rfl, fun held heldMem => ⟨held, heldMem, le_rfl⟩⟩⟩
  refine ⟨?_, kept⟩
  cases created with
  | false =>
      rcases insertOrGet_eq_some_false inserted with ⟨rfl, _, _⟩
      exact ⟨sound.unique, sound.factual⟩
  | true =>
      rcases insertOrGet_eq_some_true inserted with ⟨rfl, rfl, _, unclashing⟩
      have otherId : ∀ existing ∈ store.db.wallets, existing.id ≠ walletId := by
        intro existing existing_mem same
        have clashes := unclashing existing existing_mem
        simp [ExecutionWallet.clashes, WalletStore.walletRow, same] at clashes
      refine ⟨sound.unique.append (lookup_eq_none_iff.mpr otherId), ?_⟩
      intro wallet wallet_mem held heldMem
      rcases List.mem_append.mp wallet_mem with old | new
      · exact sound.factual wallet old held heldMem
      · rw [List.mem_singleton.mp new] at heldMem
        cases heldMem

theorem factual_servedBy (client : ChainstackEthereumBalanceClient) (chain : EthereumChain) :
    (factual client chain).ServedBy (SnapshotsFactual client chain)
      (balanceService client chain) := by
  refine ServedBy.unreliable ?_ BalanceOutcome.fails fun store call failure => ?_
  · intro task store history call outcome after result sound known served
    cases call with
    | findById workspaceId walletId =>
        cases served
        refine ⟨sound, .refl store, ?_⟩
        cases found : store.db.findById workspaceId walletId with
        | none => trivial
        | some wallet =>
            rcases lookup_eq_some_mem found with ⟨wallet_mem, own⟩
            rw [Prod.mk.injEq] at own
            exact ⟨wallet, wallet_mem, own.1, own.2, rfl⟩
    | post request =>
        simp only [serveBalanceCall] at served
        split_ifs at served with sent
        cases served
        exact ⟨(sound.mine _).1, (sound.mine _).2, sent⟩
    | utcNow =>
        cases served
        exact ⟨sound, .refl store, trivial⟩
    | updateBalance workspaceId walletId balanceWei blockNumber refreshedAt =>
        rcases known with ⟨address, block, has, configured, mined, rfl, rfl⟩
        rcases has with ⟨wallet, wallet_mem, rfl, rfl, rfl⟩
        simp only [serveBalanceCall] at served
        split at served
        · cases served
          exact ⟨sound, .refl store, trivial⟩
        · rename_i ok
          cases served
          exact sound.update wallet_mem configured mined ok
    | saveOrGet result keyHash actorUserId correlationId =>
        simp only [serveBalanceCall] at served
        split at served
        · cases served
          exact ⟨sound, .refl store, trivial⟩
        · rename_i saved
          cases served
          exact ⟨(sound.create saved).1, (sound.create saved).2, trivial⟩
  · cases call <;> trivial

end Serving

section Runs

variable {client : ChainstackEthereumBalanceClient} {chain : EthereumChain}

/--
Whatever creations and refreshes run at once, a stored snapshot is the balance of its wallet at
its block on the configured chain, and a refresh that has found its wallet and returned leaves it
with a snapshot that is at least as new as the block that the node has told it.
-/
theorem balances_factual {head : ℕ}
    {world : World ChainStore
      (Option (Session BalanceTask BalanceCall BalanceAnswer BalanceFailure Bool))}
    (run : (balanceSessions client chain).Reaches Unrestricted (initialBalances head) world) :
    (∀ wallet ∈ world.store.db.wallets, ∀ block, wallet.balanceBlockNumber = some block →
      client.chainId = chain.chainId ∧ block ≤ world.store.head ∧
        wallet.balanceWei = chain.balanceAt wallet.address block) ∧
    ∀ index task history updated, world.process index = some ⟨task, history, .done updated⟩ →
      TaskReturns client world.store history task := by
  have initially : SnapshotsFactual client chain (initialBalances head).store :=
    ⟨unique_nil, fun wallet wallet_mem => absurd wallet_mem List.not_mem_nil⟩
  rcases honours_of_reaches (factual_servedBy client chain)
    (fun task store _ => perform_factual client chain task store) run initially (fun _ => rfl)
    with ⟨sound, honours⟩
  refine ⟨fun wallet wallet_mem block refreshed => ?_, fun index task history updated found => ?_⟩
  · refine sound.factual wallet wallet_mem ⟨wallet.balanceWei, block⟩ ?_
    rw [ExecutionWallet.snapshot, refreshed]
    rfl
  · have honoured := honours index
    rw [found] at honoured
    exact honoured.returned updated rfl

section Samples

/-- A client of a node whose bodies are told apart by one byte. -/
def sampleBalanceClient : ChainstackEthereumBalanceClient where
  chainId := 1
  json
    | [1] => some (.obj [("result".toList, .str "0x1".toList)])
    | [2] => some (.obj [("result".toList, .str "0x10".toList)])
    | [3] => some (.obj [("result".toList, .str "0x64".toList)])
    | _ => none
  unicode := ⟨Hexadecimal.isSpace, Char.isDigit, fun _ => true, fun _ => none⟩

/-- A chain on which balances grow with the blocks. -/
def sampleChain : EthereumChain := ⟨1, fun _ block => 6 * block + 4⟩

/-- A wallet is created, and a refresh of it overtaken by sixteen blocks. -/
def refreshedSchedule : List (ℕ × SessionEvent BalanceTask BalanceOutcome) :=
  [(0, .start (.create sampleResult zeroHash 3 4)),
    (0, .serve { walletId := 9 }), (1, .start (.refresh sampleResult.workspaceId 9)),
    (1, .serve {}), (1, .serve { response := ⟨200, [1]⟩ }),
    (1, .serve { response := ⟨200, [2]⟩, mined := 16 }), (1, .serve { response := ⟨200, [3]⟩ }),
    (1, .serve { now := 5 }), (1, .serve {})]

end Samples

/-- The wallet holds the balance of the block that the node has told. -/
theorem refreshedWallet_factual :
    ∃ world, (balanceSessions sampleBalanceClient sampleChain).Reaches Unrestricted
        (initialBalances 0) world ∧
      ∃ wallet ∈ world.store.db.wallets, wallet.balanceBlockNumber = some 16 ∧
        wallet.balanceWei = sampleChain.balanceAt wallet.address 16 := by
  have reached : ((balanceSessions sampleBalanceClient sampleChain).execute (initialBalances 0)
      refreshedSchedule).any (fun world =>
        world.store.db.wallets.any fun wallet => wallet.balanceBlockNumber = some 16) = true := by
    decide +kernel
  rcases (Option.any_eq_true _ _).mp reached with ⟨world, executed, refreshed⟩
  rcases List.any_eq_true.mp refreshed with ⟨wallet, wallet_mem, refreshed⟩
  have run := Program.reaches_of_execute executed (Program.meets_unrestricted _ _)
  have refreshed := of_decide_eq_true refreshed
  exact ⟨world, run, wallet, wallet_mem, refreshed,
    ((balances_factual run).1 wallet wallet_mem 16 refreshed).2.2⟩

end Runs

end CopyMint
