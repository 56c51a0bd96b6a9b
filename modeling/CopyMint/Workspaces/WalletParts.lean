import CopyMint.Library.Partition
import CopyMint.Workspaces.PrivateServices

/-!
# The wallets of one workspace

A creation or a refresh reads and writes rows of its own workspace only, as long as no
row of another workspace is in the way of an insertion. It therefore does to the part of
its workspace what it would do to a database of that part, and nothing to any other part.
-/

namespace CopyMint

open Hexadecimal Relational Interleaving

variable {primitives : Primitives} {signer : SignerPrimitives} {service : WalletService}
  {store after : WalletStore} {workspaceId : ℕ} {owner : Option ℕ}

@[simp]
theorem WalletStore.ofWorkspace_ofWorkspace (store : WalletStore) (workspaceId : ℕ) :
    (store.ofWorkspace workspaceId).ofWorkspace workspaceId = store.ofWorkspace workspaceId := by
  simp [WalletStore.ofWorkspace]

@[simp]
theorem findByIdempotency_ofWorkspace (store : WalletStore) (keyHash : BytesOf 32) :
    (store.ofWorkspace workspaceId).findByIdempotency workspaceId keyHash =
      store.findByIdempotency workspaceId keyHash := by
  apply lookup_part
  intro row own
  exact decide_eq_true (congrArg Prod.fst own)

@[simp]
theorem countActive_ofWorkspace (store : WalletStore) :
    (store.ofWorkspace workspaceId).countActive workspaceId = store.countActive workspaceId := by
  simp only [WalletStore.countActive, WalletStore.ofWorkspace, List.countP_filter]
  apply List.countP_congr
  intro row _
  simp only [Bool.and_eq_true, decide_eq_true_eq]
  tauto

@[simp]
theorem findById_ofWorkspace (store : WalletStore) (walletId : ℕ) :
    (store.ofWorkspace workspaceId).findById workspaceId walletId =
      store.findById workspaceId walletId := by
  apply lookup_part
  intro row own
  exact decide_eq_true (congrArg Prod.fst own)

@[simp]
theorem envelopes_findByIdempotency_ofWorkspace (store : WalletStore) (environment : Text)
    (chainId : ℕ) (keyHash : BytesOf 32) :
    (store.ofWorkspace workspaceId).envelopes.findByIdempotency environment workspaceId chainId
        keyHash =
      store.envelopes.findByIdempotency environment workspaceId chainId keyHash := by
  apply lookup_part
  intro row own
  exact decide_eq_true (congrArg (·.2.1) own)

/-- A wallet is saved as in a database of its workspace if no other wallet is in the way. -/
theorem saveOrGet_ofWorkspace (auditId userId correlationId : ℕ) {walletId : ℕ}
    {result : SignerWalletResult} {keyHash : BytesOf 32} (own : result.workspaceId = workspaceId)
    (fits : ∀ row ∈ store.wallets, row.key ≠ (result.workspaceId, keyHash) →
      (WalletStore.walletRow walletId result keyHash).clashes row = false) :
    ((store.ofWorkspace workspaceId).saveOrGet walletId auditId result keyHash userId
        correlationId).map (Prod.map (·.ofWorkspace workspaceId) id) =
      (store.saveOrGet walletId auditId result keyHash userId correlationId).map
        (Prod.map (·.ofWorkspace workspaceId) id) := by
  have part : insertOrGet ExecutionWallet.key ExecutionWallet.clashes
      (WalletStore.walletRow walletId result keyHash) (store.ofWorkspace workspaceId).wallets =
        (insertOrGet ExecutionWallet.key ExecutionWallet.clashes
          (WalletStore.walletRow walletId result keyHash) store.wallets).map fun inserted =>
            (inserted.1.filter fun row => row.workspaceId = workspaceId, inserted.2) := by
    refine insertOrGet_part (fun existing same => ?_) fits
    have workspace : existing.workspaceId = result.workspaceId := congrArg Prod.fst same
    simp [workspace, own]
  simp only [WalletStore.saveOrGet, part]
  cases insertOrGet ExecutionWallet.key ExecutionWallet.clashes
      (WalletStore.walletRow walletId result keyHash) store.wallets with
  | none => rfl
  | some inserted => simp [WalletStore.ofWorkspace, Except.map]

/-- An envelope is saved as in a database of its workspace if no other one is in the way. -/
theorem envelopes_saveOrGet_ofWorkspace {envelope : KeyEnvelope} {keyHash : BytesOf 32}
    (own : envelope.workspaceId = workspaceId)
    (fits : ∀ row ∈ store.envelopes,
      row.key ≠ (envelope.environment, envelope.workspaceId, envelope.chainId, keyHash) →
        row.signerKeyId ≠ envelope.signerKeyId) :
    (store.ofWorkspace workspaceId).envelopes.saveOrGet envelope keyHash =
      (store.envelopes.saveOrGet envelope keyHash).map fun saved =>
        (saved.1.filter fun row => row.workspaceId = workspaceId, saved.2) := by
  have part : insertOrGet SignerKeyEnvelope.key SignerKeyEnvelope.clashes
      { envelope with idempotencyKeyHash := keyHash } (store.ofWorkspace workspaceId).envelopes =
        (insertOrGet SignerKeyEnvelope.key SignerKeyEnvelope.clashes
          { envelope with idempotencyKeyHash := keyHash } store.envelopes).map fun inserted =>
            (inserted.1.filter fun row => row.workspaceId = workspaceId, inserted.2) := by
    refine insertOrGet_part (fun existing same => ?_) fun existing existing_mem different => ?_
    · have workspace : existing.workspaceId = envelope.workspaceId := congrArg (·.2.1) same
      simp [workspace, own]
    · simpa [SignerKeyEnvelope.clashes] using fits existing existing_mem different
  simp only [SignerKeyEnvelopes.saveOrGet, part]
  split_ifs
  · cases insertOrGet SignerKeyEnvelope.key SignerKeyEnvelope.clashes
        { envelope with idempotencyKeyHash := keyHash } store.envelopes with
    | none => rfl
    | some inserted => rfl
  · rfl

/-- The call of a creation works for one workspace. -/
def CallPhase.IsFor (owner : Option ℕ) : CallPhase primitives → Prop
  | .idle => False
  | .counting request | .awaiting request => owner = some request.workspaceId
  | .saving request result =>
      owner = some request.workspaceId ∧ owner = some result.workspaceId
  | .returned _ _ _ | .stopped _ => True

/-- A creation and the handler of its request work for one workspace. -/
structure WalletCreation.IsFor (creation : WalletCreation primitives) (owner : Option ℕ) :
    Prop where
  call : creation.call.IsFor owner
  handler : ∀ request, creation.handler.asked = some request → owner = some request.workspaceId

/-- A handler that asks for nothing works for any workspace. -/
theorem asked_of_eq_none {handler : HandlerPhase primitives} (silent : handler.asked = none)
    (request : CreationRequest primitives) (asked : handler.asked = some request) :
    owner = some request.workspaceId := by
  rw [silent] at asked
  cases asked

theorem beginCreation_workspaceId {context : RequestContext} {idempotencyKey : Text}
    {request : CreationRequest primitives}
    (begun : beginCreation primitives context idempotencyKey = .ok request) :
    context.workspaceId = some request.workspaceId := by
  simp only [beginCreation] at begun
  split at begun
  · cases begun
  · cases begun
  · rename_i passed found
    split at begun
    · cases begun
    · cases begun
      exact workspaceId_of_requireWorkspace passed

section Creation

variable {creation next : WalletCreation primitives} {event : CreationEvent}

/-- A creation begins for the workspace of its context. -/
theorem isFor_of_call {context : RequestContext} {idempotencyKey : Text}
    (stepped : creationStep signer service store ⟨.idle, .idle⟩ (.call context idempotencyKey) =
      some (after, next)) :
    next.IsFor context.workspaceId ∧ after = store := by
  simp only [creationStep, callStep] at stepped
  split at stepped
  · cases stepped
    exact ⟨⟨trivial, asked_of_eq_none rfl⟩, rfl⟩
  · rename_i begun
    split at stepped <;> cases stepped
    · exact ⟨⟨trivial, asked_of_eq_none rfl⟩, rfl⟩
    · exact ⟨⟨beginCreation_workspaceId begun, asked_of_eq_none rfl⟩, rfl⟩

/-- A creation goes on for its workspace. -/
theorem WalletCreation.IsFor.step (isFor : creation.IsFor owner)
    (stepped : creationStep signer service store creation event = some (after, next)) :
    next.IsFor owner := by
  rcases isFor with ⟨call, handler⟩
  cases creationTransition_of_step stepped with
  | fails => exact ⟨trivial, handler⟩
  | finds | begins => exact call.elim
  | passesLimit => exact ⟨call, fun request asked => by cases asked; exact call⟩
  | receives sameWorkspace => exact ⟨⟨call, sameWorkspace ▸ call⟩, handler⟩
  | saves => exact ⟨trivial, handler⟩
  | looksUp | generates | prepares => exact ⟨call, handler⟩
  | handlerStops => exact ⟨call, asked_of_eq_none rfl⟩

/-- A creation for another workspace leaves the part alone. -/
theorem WalletCreation.IsFor.elsewhere (isFor : creation.IsFor owner)
    (other : owner ≠ some workspaceId)
    (stepped : creationStep signer service store creation event = some (after, next)) :
    after.ofWorkspace workspaceId = store.ofWorkspace workspaceId := by
  rcases isFor with ⟨call, handler⟩
  cases creationTransition_of_step stepped with
  | saves inserted =>
      simp only [WalletStore.ofWorkspace]
      rw [insertOrGet_elsewhere _ inserted]
      refine decide_eq_false fun same => other ?_
      rw [call.2]
      exact congrArg some same
  | generates own _ inserted =>
      simp only [WalletStore.ofWorkspace]
      rw [insertOrGet_elsewhere _ inserted]
      refine decide_eq_false fun same => other ?_
      rw [handler _ rfl, ← same]
      exact congrArg some (congrArg (·.2.1) own).symm
  | fails | finds | begins | passesLimit | receives | looksUp | prepares | handlerStops => rfl

/-- The part of a workspace in what a step comes to. -/
def partOf (workspaceId : ℕ) :
    WalletStore × WalletCreation primitives → WalletStore × WalletCreation primitives :=
  Prod.map (·.ofWorkspace workspaceId) id

/-- A step that agrees up to the part has a counterpart with the same process. -/
theorem exists_of_partOf_eq {result : Option (WalletStore × WalletCreation primitives)}
    (same : result.map (partOf workspaceId) = some (partOf workspaceId (after, next))) :
    ∃ other, result = some (other, next) ∧
      other.ofWorkspace workspaceId = after.ofWorkspace workspaceId := by
  rcases Option.map_eq_some_iff.mp same with ⟨⟨other, creation⟩, rfl, parts⟩
  simp only [partOf, Prod.map_apply, id_eq, Prod.mk.injEq] at parts
  rcases parts with ⟨part, rfl⟩
  exact ⟨other, rfl, part⟩

theorem callStep_ofWorkspace {call : CallPhase primitives} {handler : HandlerPhase primitives}
    (isFor : call.IsFor (some workspaceId))
    (fresh : WalletCreation.insertsFresh service store ⟨call, handler⟩ event = true) :
    (callStep service (store.ofWorkspace workspaceId) handler call event).map
        (partOf workspaceId) =
      (callStep service store handler call event).map (partOf workspaceId) := by
  cases call with
  | idle => exact isFor.elim
  | counting request =>
      cases isFor
      cases event with
      | count =>
          simp only [callStep, countActive_ofWorkspace]
          split_ifs <;> simp [partOf]
      | stopCall => simp [callStep, partOf]
      | call | lookUp | generate | receive | save | stopHandler => rfl
  | awaiting request =>
      cases event with
      | receive =>
          simp only [callStep]
          split
          · split_ifs
            · simp [partOf]
            · split <;> simp [partOf]
          · rfl
      | stopCall => simp [callStep, partOf]
      | call | count | lookUp | generate | save | stopHandler => rfl
  | saving request result =>
      cases event with
      | save walletId auditId =>
          have fits : ∀ row ∈ store.wallets, row.key ≠ (result.workspaceId, request.keyHash) →
              (WalletStore.walletRow walletId result request.keyHash).clashes row = false := by
            intro row row_mem different
            have free := List.all_eq_true.mp fresh row row_mem
            simpa [different] using free
          have part := saveOrGet_ofWorkspace auditId request.userId request.correlationId
            (Option.some.inj isFor.2).symm fits
          simp only [callStep]
          rcases Fallible.error_or_ok_of_map_eq part with
            ⟨error, restricted, full⟩ | ⟨saved, other, restricted, full, same⟩
          · simp [restricted, full, partOf]
          · simp only [restricted, full]
            simpa [partOf, Prod.ext_iff] using same
      | stopCall => simp [callStep, partOf]
      | call | count | lookUp | generate | receive | stopHandler => rfl
  | returned | stopped => rfl

theorem handlerStep_ofWorkspace {call : CallPhase primitives} {handler : HandlerPhase primitives}
    (isFor : ∀ request, handler.asked = some request → some workspaceId = some request.workspaceId)
    (fresh : WalletCreation.insertsFresh service store ⟨call, handler⟩ event = true) :
    (handlerStep signer service (store.ofWorkspace workspaceId) call handler event).map
        (partOf workspaceId) =
      (handlerStep signer service store call handler event).map (partOf workspaceId) := by
  cases handler with
  | received request =>
      cases isFor request rfl
      cases event with
      | lookUp =>
          simp only [handlerStep, envelopes_findByIdempotency_ofWorkspace]
          split <;> simp [partOf]
      | stopHandler => simp [handlerStep, partOf]
      | call | count | generate | receive | save | stopCall => rfl
  | generating request =>
      cases isFor request rfl
      cases event with
      | generate signerKeyId material =>
          simp only [handlerStep]
          cases made : createKeyEnvelope primitives signer service.environment
              request.workspaceId service.chainId signerKeyId material with
          | error error => simp [partOf]
          | ok envelope =>
              rcases createKeyEnvelope_eq_ok made with ⟨id, environment, workspace, chain, _⟩
              have fits : ∀ row ∈ store.envelopes,
                  row.key ≠ (envelope.environment, envelope.workspaceId, envelope.chainId,
                    request.keyHash) → row.signerKeyId ≠ envelope.signerKeyId := by
                intro row row_mem different
                rw [environment, workspace, chain] at different
                have free := List.all_eq_true.mp fresh row row_mem
                simpa [different, id] using free
              simp only [envelopes_saveOrGet_ofWorkspace workspace fits]
              cases store.envelopes.saveOrGet envelope request.keyHash with
              | error error => simp [partOf, Except.map]
              | ok saved => simp [partOf, Except.map, WalletStore.ofWorkspace]
      | stopHandler => simp [handlerStep, partOf]
      | call | count | lookUp | receive | save | stopCall => rfl
  | answered request descriptor =>
      cases event with
      | stopHandler => simp [handlerStep, partOf]
      | call | count | lookUp | generate | receive | save | stopCall => rfl
  | idle | stopped => rfl

/-- What a creation does to the part of its workspace only depends on this part. -/
theorem creationStep_ofWorkspace (signer : SignerPrimitives)
    (isFor : creation.IsFor (some workspaceId))
    (fresh : creation.insertsFresh service store event = true) :
    (creationStep signer service (store.ofWorkspace workspaceId) creation event).map
        (partOf workspaceId) =
      (creationStep signer service store creation event).map (partOf workspaceId) := by
  cases event with
  | lookUp | generate | stopHandler => exact handlerStep_ofWorkspace isFor.handler fresh
  | call | count | receive | save | stopCall => exact callStep_ofWorkspace isFor.call fresh

variable (primitives) in
/-- A creation begins for a workspace as it would in a database of this part. -/
theorem creationStep_idle_ofWorkspace (signer : SignerPrimitives) (service : WalletService)
    (store : WalletStore) {context : RequestContext} (idempotencyKey : Text)
    (own : context.workspaceId = some workspaceId) :
    (creationStep signer service (store.ofWorkspace workspaceId)
        (⟨.idle, .idle⟩ : WalletCreation primitives) (.call context idempotencyKey)).map
        (partOf workspaceId) =
      (creationStep signer service store ⟨.idle, .idle⟩ (.call context idempotencyKey)).map
        (partOf workspaceId) := by
  simp only [creationStep, callStep]
  split
  · simp [partOf]
  · rename_i begun
    cases own.symm.trans (beginCreation_workspaceId begun)
    simp only [findByIdempotency_ofWorkspace]
    split <;> simp [partOf]

end Creation

/-- A refresh works for one workspace. -/
def RefreshPhase.IsFor (owner : Option ℕ) : RefreshPhase → Prop
  | .idle => False
  | .observing workspaceId _ _ | .updating workspaceId _ _ _ => owner = some workspaceId
  | .returned _ _ _ | .failed _ => True

/-- The part of a workspace in what a refresh comes to. -/
def refreshedPart (workspaceId : ℕ) (result : BalanceStore × RefreshPhase) :
    WalletStore × RefreshPhase :=
  (result.1.db.ofWorkspace workspaceId, result.2)

/-- An update rewrites wallets of its workspace in place. -/
structure RewritesOwn (store after : WalletStore) (workspaceId : ℕ)
    (selected : ExecutionWallet → Bool) (change : ExecutionWallet → ExecutionWallet) : Prop where
  rewritten : after = { store with wallets := updateWhere selected change store.wallets }
  own : ∀ row, selected row = true → row.workspaceId = workspaceId
  workspace : ∀ row, (change row).workspaceId = row.workspaceId
  id : ∀ row, (change row).id = row.id

section Refresh

variable {phase next : RefreshPhase} {event : RefreshEvent} {balances : BalanceStore}
  {balanceWei blockNumber refreshedAt : ℤ} {walletId : ℕ} {updated : Bool}

theorem rewritesOwn_of_updateBalance
    (ok : store.updateBalance workspaceId walletId balanceWei blockNumber refreshedAt =
      .ok (after, updated)) :
    ∃ selected change, RewritesOwn store after workspaceId selected change := by
  simp only [WalletStore.updateBalance] at ok
  split_ifs at ok
  cases ok
  refine ⟨_, _, rfl, fun row chosen => ?_, fun row => rfl, fun row => rfl⟩
  simp only [Bool.and_eq_true, decide_eq_true_eq] at chosen
  exact chosen.1.1

theorem updateBalance_ofWorkspace (store : WalletStore) (workspaceId walletId : ℕ)
    (balanceWei blockNumber refreshedAt : ℤ) :
    ((store.ofWorkspace workspaceId).updateBalance workspaceId walletId balanceWei blockNumber
        refreshedAt).map (Prod.map (·.ofWorkspace workspaceId) id) =
      (store.updateBalance workspaceId walletId balanceWei blockNumber refreshedAt).map
        (Prod.map (·.ofWorkspace workspaceId) id) := by
  simp only [WalletStore.updateBalance]
  split_ifs
  · rfl
  · rfl
  · simp only [Except.map, updateReturning, Prod.map_apply, id_eq, WalletStore.ofWorkspace]
    rw [find?_part, updateWhere_part, updateWhere_part, List.filter_filter]
    · simp
    · exact fun row => rfl
    · exact fun row => rfl
    · intro row chosen
      simp only [Bool.and_eq_true, decide_eq_true_eq] at chosen
      simp [chosen.1.1]

/-- What a refresh does to the part of its workspace only depends on this part. -/
theorem refreshStep_ofWorkspace (store : WalletStore) (event : RefreshEvent)
    (isFor : phase.IsFor (some workspaceId)) :
    (refreshStep ⟨store.ofWorkspace workspaceId, []⟩ phase event).map
        (refreshedPart workspaceId) =
      (refreshStep ⟨store, []⟩ phase event).map (refreshedPart workspaceId) := by
  cases phase with
  | idle => exact isFor.elim
  | observing owner walletId address =>
      cases event <;> simp [refreshStep, refreshedPart]
  | updating workspaceId walletId balanceWei blockNumber =>
      cases isFor
      cases event with
      | update refreshedAt =>
          have part := updateBalance_ofWorkspace store workspaceId walletId balanceWei blockNumber
            refreshedAt
          simp only [refreshStep]
          rcases Fallible.error_or_ok_of_map_eq part with
            ⟨failure, restricted, full⟩ | ⟨⟨db, updated⟩, other, restricted, full, same⟩
          · simp [restricted, full, refreshedPart]
          · simp only [restricted, full]
            simpa [refreshedPart, Prod.ext_iff] using same
      | stop => simp [refreshStep, refreshedPart]
      | create | refresh | observe => rfl
  | returned | failed => rfl

/-- A refresh that agrees up to the part has a counterpart in the same phase. -/
theorem exists_of_refreshedPart_eq {result : Option (BalanceStore × RefreshPhase)}
    (same : result.map (refreshedPart workspaceId) =
      some (refreshedPart workspaceId (balances, next))) :
    ∃ other, result = some (other, next) ∧
      other.db.ofWorkspace workspaceId = balances.db.ofWorkspace workspaceId := by
  rcases Option.map_eq_some_iff.mp same with ⟨⟨other, phase⟩, rfl, parts⟩
  simp only [refreshedPart, Prod.mk.injEq] at parts
  rcases parts with ⟨part, rfl⟩
  exact ⟨other, rfl, part⟩

/-- A refresh begins for a workspace as it would in a database of this part. -/
theorem refreshStep_idle_ofWorkspace (store : WalletStore) (workspaceId walletId : ℕ) :
    (refreshStep ⟨store.ofWorkspace workspaceId, []⟩ .idle (.refresh workspaceId walletId)).map
        (refreshedPart workspaceId) =
      (refreshStep ⟨store, []⟩ .idle (.refresh workspaceId walletId)).map
        (refreshedPart workspaceId) := by
  simp only [refreshStep, findById_ofWorkspace]
  split <;> simp [refreshedPart]

/-- A refresh begins for the workspace that it names. -/
theorem isFor_of_refresh
    (stepped : refreshStep ⟨store, []⟩ .idle (.refresh workspaceId walletId) =
      some (balances, next)) : next.IsFor (some workspaceId) ∧ balances.db = store := by
  simp only [refreshStep] at stepped
  split at stepped <;> cases stepped
  · exact ⟨trivial, rfl⟩
  · exact ⟨rfl, rfl⟩

/-- A refresh goes on for its workspace, and rewrites wallets of it or nothing. -/
theorem RefreshPhase.IsFor.step (isFor : phase.IsFor owner)
    (stepped : refreshStep ⟨store, []⟩ phase event = some (balances, next)) :
    next.IsFor owner ∧ (balances.db = store ∨ ∃ workspaceId selected change,
      owner = some workspaceId ∧ RewritesOwn store balances.db workspaceId selected change) := by
  unfold refreshStep at stepped
  split at stepped
  · exact isFor.elim
  · exact isFor.elim
  · cases stepped
    exact ⟨isFor, .inl rfl⟩
  · split at stepped
    · cases stepped
      exact ⟨trivial, .inl rfl⟩
    · rename_i ok
      cases stepped
      rcases rewritesOwn_of_updateBalance ok with ⟨selected, change, rewrites⟩
      exact ⟨trivial, .inr ⟨_, selected, change, isFor, rewrites⟩⟩
  · cases stepped
    exact ⟨trivial, .inl rfl⟩
  · cases stepped
    exact ⟨trivial, .inl rfl⟩
  · cases stepped

end Refresh

section Times

variable {creation next : WalletCreation primitives} {event : CreationEvent} {createdAt : ℕ → ℤ}

theorem wallets_handlerStep {call : CallPhase primitives} {handler : HandlerPhase primitives}
    (stepped : handlerStep signer service store call handler event = some (after, next)) :
    after.wallets = store.wallets := by
  unfold handlerStep at stepped
  split at stepped
  · split at stepped <;>
      · cases stepped
        rfl
  · split at stepped
    · cases stepped
      rfl
    · split at stepped <;>
        · cases stepped
          rfl
  · cases stepped
    rfl
  · cases stepped
    rfl
  · cases stepped
    rfl
  · cases stepped

/-- A creation either keeps the wallets and their times, or appends a wallet and its time. -/
theorem stampWallet_of_step (now : ℤ)
    (stepped : creationStep signer service store creation event = some (after, next)) :
    (after.wallets = store.wallets ∧
      ∀ createdAt, stampWallet now event next createdAt = createdAt) ∨
    ∃ row, after.wallets = store.wallets ++ [row] ∧ (∀ other ∈ store.wallets, other.id ≠ row.id) ∧
      (∀ owner, creation.IsFor owner → owner = some row.workspaceId) ∧
      ∀ createdAt, stampWallet now event next createdAt = Function.update createdAt row.id now := by
  cases event with
  | save walletId auditId =>
      rcases creation with ⟨call, handler⟩
      cases call with
      | saving request result =>
          simp only [creationStep, callStep] at stepped
          split at stepped
          · cases stepped
            exact .inl ⟨rfl, fun createdAt => rfl⟩
          · rename_i saved
            cases stepped
            rcases saveOrGet_eq_ok saved with ⟨wallets, stored, auditLogs, rfl, rfl, inserted⟩
            rename_i created
            cases created with
            | false => exact .inl ⟨(insertOrGet_eq_some_false inserted).1, fun createdAt => rfl⟩
            | true =>
                rcases insertOrGet_eq_some_true inserted with ⟨rfl, rfl, _, free⟩
                refine .inr ⟨_, rfl, fun other other_mem same => ?_,
                  fun owner isFor => isFor.call.2, fun createdAt => rfl⟩
                have clashes := free other other_mem
                simp [ExecutionWallet.clashes, same] at clashes
      | idle | counting | awaiting | returned | stopped => cases stepped
  | call | count | receive | stopCall =>
      refine .inl ⟨?_, fun createdAt => rfl⟩
      cases creationTransition_of_step stepped with
      | saves => simp [creationStep, callStep] at stepped
      | _ => rfl
  | lookUp | generate | stopHandler =>
      exact .inl ⟨wallets_handlerStep stepped, fun createdAt => rfl⟩

/-- The times depend on the identifiers of the wallets only. -/
theorem timesOf_congr (same : after.wallets.map ExecutionWallet.id =
    store.wallets.map ExecutionWallet.id) : after.timesOf createdAt = store.timesOf createdAt := by
  have any : ∀ (wallets : List ExecutionWallet) (walletId : ℕ),
      (wallets.any fun row => row.id = walletId) =
        (wallets.map ExecutionWallet.id).any fun id => id = walletId := by
    intro wallets walletId
    rw [List.any_map]
    rfl
  funext walletId
  simp only [WalletStore.timesOf, any, same]

/-- A new wallet is given its time. -/
theorem timesOf_append {row : ExecutionWallet} (now : ℤ)
    (appended : after.wallets = store.wallets ++ [row]) :
    after.timesOf (Function.update createdAt row.id now) =
      Function.update (store.timesOf createdAt) row.id now := by
  funext walletId
  by_cases same : walletId = row.id
  · simp [WalletStore.timesOf, appended, same]
  · have different : row.id ≠ walletId := fun equal => same equal.symm
    simp [WalletStore.timesOf, appended, same, different]

/-- A time of an identifier that no wallet has is not among the times. -/
theorem timesOf_update {walletId : ℕ} (now : ℤ)
    (absent : ∀ row ∈ store.wallets, row.id ≠ walletId) :
    store.timesOf (Function.update createdAt walletId now) = store.timesOf createdAt := by
  funext other
  by_cases same : other = walletId
  · have none_has : (store.wallets.any fun row => row.id = walletId) = false := by
      rw [List.any_eq_false]
      intro row row_mem
      simpa using absent row row_mem
    simp [WalletStore.timesOf, same, none_has]
  · simp [WalletStore.timesOf, same]

/-- The times of a workspace after an action of one of its creations. -/
theorem timesOf_creationStep (now : ℤ) (isFor : creation.IsFor (some workspaceId))
    (stepped : creationStep signer service store creation event = some (after, next)) :
    (after.ofWorkspace workspaceId).timesOf (stampWallet now event next createdAt) =
      stampWallet now event next ((store.ofWorkspace workspaceId).timesOf createdAt) := by
  rcases stampWallet_of_step now stepped with ⟨kept, stamps⟩ | ⟨row, appended, _, owned, stamps⟩
  · rw [stamps, stamps]
    exact timesOf_congr (by simp [WalletStore.ofWorkspace, kept])
  · rw [stamps, stamps]
    have own : row.workspaceId = workspaceId := (Option.some.inj (owned _ isFor)).symm
    exact timesOf_append now (by simp [WalletStore.ofWorkspace, appended, own])

/-- The times of a workspace after an action of a creation for another one. -/
theorem timesOf_creationStep_elsewhere (now : ℤ) (isFor : creation.IsFor owner)
    (other : owner ≠ some workspaceId)
    (stepped : creationStep signer service store creation event = some (after, next)) :
    (after.ofWorkspace workspaceId).timesOf (stampWallet now event next createdAt) =
      (store.ofWorkspace workspaceId).timesOf createdAt := by
  rw [isFor.elsewhere other stepped]
  rcases stampWallet_of_step now stepped with ⟨_, stamps⟩ | ⟨row, _, fresh, _, stamps⟩
  · rw [stamps]
  · rw [stamps]
    exact timesOf_update now fun wallet wallet_mem => fresh wallet (List.mem_filter.mp wallet_mem).1

/-- An update in place keeps the times of every workspace. -/
theorem RewritesOwn.timesOf {rewritten : ℕ} {selected : ExecutionWallet → Bool}
    {change : ExecutionWallet → ExecutionWallet}
    (rewrites : RewritesOwn store after rewritten selected change) :
    (after.ofWorkspace workspaceId).timesOf createdAt =
      (store.ofWorkspace workspaceId).timesOf createdAt := by
  apply timesOf_congr
  rw [rewrites.rewritten]
  simp only [WalletStore.ofWorkspace]
  rw [updateWhere_part fun row => by rw [rewrites.workspace row], updateWhere, List.map_map]
  refine List.map_congr_left fun row _ => ?_
  simp only [Function.comp_apply]
  split_ifs
  · exact rewrites.id row
  · rfl

/-- An update of wallets of another workspace leaves the part alone. -/
theorem RewritesOwn.elsewhere {rewritten : ℕ} {selected : ExecutionWallet → Bool}
    {change : ExecutionWallet → ExecutionWallet}
    (rewrites : RewritesOwn store after rewritten selected change)
    (other : rewritten ≠ workspaceId) :
    after.ofWorkspace workspaceId = store.ofWorkspace workspaceId := by
  rw [rewrites.rewritten]
  simp only [WalletStore.ofWorkspace]
  rw [updateWhere_elsewhere]
  · exact fun row => by rw [rewrites.workspace row]
  · exact fun row chosen =>
      decide_eq_false fun same => other ((rewrites.own row chosen).symm.trans same)

end Times

end CopyMint
