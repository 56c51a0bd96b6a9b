import CopyMint.Ethereum.WireFormat
import CopyMint.Wallets.Service

/-!
# Idempotent wallet creation

Both databases only grow, and each keeps at most one row for an idempotency key.
Whatever the signer answers about a key is what its envelope says, so that a
wallet is always stored with the key and the address of the envelope, also when
the signer had generated another key for it and lost the race. A call that
creates a wallet finds none before, while a call that returns one leaves it
there; hence no wallet is created twice.
-/

namespace CopyMint

open Hexadecimal Relational Interleaving

variable {primitives : Primitives} {signer : SignerPrimitives} {service : WalletService}

/-- Why an action ends a call without a wallet. -/
inductive CallFails (service : WalletService) (store : WalletStore) :
    WalletCreation primitives → CreationEvent → Prop
  | refused {handler : HandlerPhase primitives} {context : RequestContext}
      {idempotencyKey : Text} {failure : CreationFailure}
      (rejected : beginCreation primitives context idempotencyKey = .error failure) :
      CallFails service store ⟨.idle, handler⟩ (.call context idempotencyKey)
  | full {handler : HandlerPhase primitives} {request : CreationRequest primitives}
      (reached : service.maxWalletsPerWorkspace ≤ store.countActive request.workspaceId) :
      CallFails service store ⟨.counting request, handler⟩ .count
  | mismatched {request asked : CreationRequest primitives} {descriptor : WalletDescriptor}
      (mismatch : descriptor.workspaceId ≠ request.workspaceId ∨
        descriptor.chainId ≠ service.chainId) :
      CallFails service store ⟨.awaiting request, .answered asked descriptor⟩ .receive
  | malformed {request asked : CreationRequest primitives} {descriptor : WalletDescriptor}
      {error : Raised} (raised : primitives.toChecksumAddress descriptor.address = .error error) :
      CallFails service store ⟨.awaiting request, .answered asked descriptor⟩ .receive
  | clashes {handler : HandlerPhase primitives} {request : CreationRequest primitives}
      {result : SignerWalletResult} {walletId auditId : ℕ}
      (clash : insertOrGet ExecutionWallet.key ExecutionWallet.clashes
        (WalletStore.walletRow walletId result request.keyHash) store.wallets = none) :
      CallFails service store ⟨.saving request result, handler⟩ (.save walletId auditId)
  | stopped {creation : WalletCreation primitives} : CallFails service store creation .stopCall

/-- What an action does to the databases and to the call and its handler. -/
inductive CreationTransition (service : WalletService) (store : WalletStore) :
    WalletCreation primitives → CreationEvent → WalletStore → WalletCreation primitives → Prop
  | fails {creation : WalletCreation primitives} {event : CreationEvent}
      {failure : CreationFailure} (why : CallFails service store creation event) :
      CreationTransition service store creation event store ⟨.stopped failure, creation.handler⟩
  | finds {handler : HandlerPhase primitives} {event : CreationEvent}
      {request : CreationRequest primitives} {existing : ExecutionWallet}
      (existing_mem : existing ∈ store.wallets)
      (own : existing.key = (request.workspaceId, request.keyHash)) :
      CreationTransition service store ⟨.idle, handler⟩ event store
        ⟨.returned request existing.record false, handler⟩
  | begins {handler : HandlerPhase primitives} {event : CreationEvent}
      {request : CreationRequest primitives} :
      CreationTransition service store ⟨.idle, handler⟩ event store ⟨.counting request, handler⟩
  | passesLimit {handler : HandlerPhase primitives} {request : CreationRequest primitives}
      (below : store.countActive request.workspaceId < service.maxWalletsPerWorkspace) :
      CreationTransition service store ⟨.counting request, handler⟩ .count store
        ⟨.awaiting request, .received request⟩
  | receives {request asked : CreationRequest primitives} {descriptor : WalletDescriptor}
      {result : SignerWalletResult} {event : CreationEvent}
      (sameWorkspace : result.workspaceId = request.workspaceId)
      (sameKey : result.signerKeyId = descriptor.signerKeyId)
      (checksum : primitives.toChecksumAddress descriptor.address = .ok result.address) :
      CreationTransition service store ⟨.awaiting request, .answered asked descriptor⟩ event store
        ⟨.saving request result, .answered asked descriptor⟩
  | saves {handler : HandlerPhase primitives} {request : CreationRequest primitives}
      {result : SignerWalletResult} {walletId : ℕ} {event : CreationEvent}
      {wallets : List ExecutionWallet} {auditLogs : List AuditLog} {stored : ExecutionWallet}
      {created : Bool}
      (inserted : insertOrGet ExecutionWallet.key ExecutionWallet.clashes
        (WalletStore.walletRow walletId result request.keyHash) store.wallets =
          some (wallets, stored, created)) :
      CreationTransition service store ⟨.saving request result, handler⟩ event
        { store with wallets, auditLogs } ⟨.returned request stored.record created, handler⟩
  | looksUp {call : CallPhase primitives} {event : CreationEvent}
      {request : CreationRequest primitives} {existing : SignerKeyEnvelope}
      (existing_mem : existing ∈ store.envelopes)
      (own : existing.key =
        (service.environment, request.workspaceId, service.chainId, request.keyHash)) :
      CreationTransition service store ⟨call, .received request⟩ event store
        ⟨call, .answered request (existing.toKeyEnvelope.descriptor false)⟩
  | generates {call : CallPhase primitives} {event : CreationEvent}
      {request : CreationRequest primitives} {row stored : SignerKeyEnvelope}
      {account : BytesOf 20} {envelopes : SignerKeyEnvelopes} {created : Bool}
      (own : row.key =
        (service.environment, request.workspaceId, service.chainId, request.keyHash))
      (address : row.address = accountAddress primitives account)
      (inserted : insertOrGet SignerKeyEnvelope.key SignerKeyEnvelope.clashes row
        store.envelopes = some (envelopes, stored, created)) :
      CreationTransition service store ⟨call, .generating request⟩ event { store with envelopes }
        ⟨call, .answered request (stored.toKeyEnvelope.descriptor created)⟩
  | prepares {call : CallPhase primitives} {event : CreationEvent}
      {request : CreationRequest primitives} :
      CreationTransition service store ⟨call, .received request⟩ event store
        ⟨call, .generating request⟩
  | handlerStops {call : CallPhase primitives} {handler : HandlerPhase primitives}
      {event : CreationEvent} :
      CreationTransition service store ⟨call, handler⟩ event store ⟨call, .stopped⟩

section Inversion

variable {store after : WalletStore} {creation next : WalletCreation primitives}
  {call : CallPhase primitives} {handler : HandlerPhase primitives} {event : CreationEvent}

theorem saveOrGet_eq_ok {walletId auditId : ℕ} {result : SignerWalletResult}
    {keyHash : BytesOf 32} {userId correlationId : ℕ} {wallet : WalletRecord} {created : Bool}
    (saved : store.saveOrGet walletId auditId result keyHash userId correlationId =
      .ok (after, wallet, created)) :
    ∃ wallets stored auditLogs, after = { store with wallets, auditLogs } ∧
      wallet = stored.record ∧
      insertOrGet ExecutionWallet.key ExecutionWallet.clashes
        (WalletStore.walletRow walletId result keyHash) store.wallets =
          some (wallets, stored, created) := by
  simp only [WalletStore.saveOrGet] at saved
  split at saved
  · cases saved
  · rename_i inserted
    cases saved
    exact ⟨_, _, _, rfl, rfl, inserted⟩

theorem saveOrGet_eq_error {walletId auditId : ℕ} {result : SignerWalletResult}
    {keyHash : BytesOf 32} {userId correlationId : ℕ} {error : Raised}
    (raised : store.saveOrGet walletId auditId result keyHash userId correlationId =
      .error error) :
    insertOrGet ExecutionWallet.key ExecutionWallet.clashes
      (WalletStore.walletRow walletId result keyHash) store.wallets = none := by
  simp only [WalletStore.saveOrGet] at raised
  split at raised
  · assumption
  · cases raised

theorem creationTransition_of_call
    (stepped : callStep service store handler call event = some (after, next)) :
    CreationTransition service store ⟨call, handler⟩ event after next := by
  cases call with
  | idle =>
      cases event with
      | call context idempotencyKey =>
          simp only [callStep] at stepped
          split at stepped
          · rename_i rejected
            cases stepped
            exact .fails (.refused rejected)
          · split at stepped
            · rename_i existing found
              cases stepped
              exact .finds (lookup_eq_some_mem found).1 (lookup_eq_some_mem found).2
            · cases stepped
              exact .begins
      | count | lookUp | generate | receive | save | stopCall | stopHandler => cases stepped
  | counting request =>
      cases event with
      | count =>
          simp only [callStep] at stepped
          split_ifs at stepped with full
          · cases stepped
            exact .fails (.full full)
          · cases stepped
            exact .passesLimit (not_le.mp full)
      | stopCall =>
          cases stepped
          exact .fails .stopped
      | call | lookUp | generate | receive | save | stopHandler => cases stepped
  | awaiting request =>
      cases event with
      | receive =>
          simp only [callStep] at stepped
          split at stepped
          · rename_i asked descriptor
            split_ifs at stepped with mismatched
            · cases stepped
              exact .fails (.mismatched mismatched)
            · rw [not_or, not_not] at mismatched
              split at stepped
              · rename_i raised
                cases stepped
                exact .fails (.malformed raised)
              · rename_i checksum
                cases stepped
                exact .receives mismatched.1 rfl checksum
          · cases stepped
      | stopCall =>
          cases stepped
          exact .fails .stopped
      | call | count | lookUp | generate | save | stopHandler => cases stepped
  | saving request result =>
      cases event with
      | save walletId auditId =>
          simp only [callStep] at stepped
          split at stepped
          · rename_i raised
            cases stepped
            exact .fails (.clashes (saveOrGet_eq_error raised))
          · rename_i saved
            cases stepped
            rcases saveOrGet_eq_ok saved with ⟨wallets, stored, auditLogs, rfl, rfl, inserted⟩
            exact .saves inserted
      | stopCall =>
          cases stepped
          exact .fails .stopped
      | call | count | lookUp | generate | receive | stopHandler => cases stepped
  | returned | stopped => cases stepped

theorem creationTransition_of_handler
    (stepped : handlerStep signer service store call handler event =
      some (after, next)) :
    CreationTransition service store ⟨call, handler⟩ event after next := by
  cases handler with
  | received request =>
      cases event with
      | lookUp =>
          simp only [handlerStep] at stepped
          split at stepped
          · rename_i existing found
            cases stepped
            exact .looksUp (lookup_eq_some_mem found).1 (lookup_eq_some_mem found).2
          · cases stepped
            exact .prepares
      | stopHandler =>
          cases stepped
          exact .handlerStops
      | call | count | generate | receive | save | stopCall => cases stepped
  | generating request =>
      cases event with
      | generate signerKeyId material =>
          simp only [handlerStep] at stepped
          split at stepped
          · cases stepped
            exact .handlerStops
          · rename_i envelope made
            split at stepped
            · cases stepped
              exact .handlerStops
            · rename_i saved
              cases stepped
              rcases createKeyEnvelope_eq_ok made with ⟨_, environment, workspace, chain, address⟩
              exact .generates
                (by simp [SignerKeyEnvelope.key, environment, workspace, chain]) address
                (SignerKeyEnvelopes.saveOrGet_eq_ok saved)
      | stopHandler =>
          cases stepped
          exact .handlerStops
      | call | count | lookUp | receive | save | stopCall => cases stepped
  | answered request descriptor =>
      cases event with
      | stopHandler =>
          cases stepped
          exact .handlerStops
      | call | count | lookUp | generate | receive | save | stopCall => cases stepped
  | idle | stopped => cases stepped

theorem creationTransition_of_step
    (stepped : creationStep signer service store creation event = some (after, next)) :
    CreationTransition service store creation event after next := by
  cases event with
  | lookUp | generate | stopHandler => exact creationTransition_of_handler stepped
  | call | count | receive | save | stopCall => exact creationTransition_of_call stepped

end Inversion

/-- What both databases maintain. -/
structure WalletInvariant (primitives : Primitives) (service : WalletService)
    (store : WalletStore) : Prop where
  wallets_unique : Unique ExecutionWallet.key store.wallets
  envelopes_unique : Unique SignerKeyEnvelope.key store.envelopes
  envelopes_own : ∀ envelope ∈ store.envelopes, envelope.environment = service.environment ∧
    envelope.chainId = service.chainId
  envelopes_checksum : ∀ envelope ∈ store.envelopes,
    primitives.toChecksumAddress envelope.address = .ok envelope.address
  /-- Every wallet has the key and the address of the envelope of its idempotency key. -/
  bound : ∀ wallet ∈ store.wallets, ∃ envelope ∈ store.envelopes,
    envelope.workspaceId = wallet.workspaceId ∧
      envelope.idempotencyKeyHash = wallet.idempotencyKeyHash ∧
      wallet.signerKeyId = envelope.signerKeyId ∧ wallet.address = envelope.address

/-- An envelope of the signer that belongs to a request. -/
def Serves (envelope : SignerKeyEnvelope) (request : CreationRequest primitives) : Prop :=
  envelope.workspaceId = request.workspaceId ∧ envelope.idempotencyKeyHash = request.keyHash

/-- What a call knows about the databases. -/
def CallInvariant (store : WalletStore) : CallPhase primitives → Prop
  | .saving request result => ∃ envelope ∈ store.envelopes, Serves envelope request ∧
      result.workspaceId = request.workspaceId ∧ result.signerKeyId = envelope.signerKeyId ∧
      result.address = envelope.address
  | .returned request wallet _ => ∃ row ∈ store.wallets,
      row.key = (request.workspaceId, request.keyHash) ∧ row.record = wallet
  | _ => True

/-- What the handler of a request knows about the signer's database. -/
def HandlerInvariant (service : WalletService) (store : WalletStore) :
    HandlerPhase primitives → Prop
  | .answered request descriptor => ∃ envelope ∈ store.envelopes,
      envelope.key =
        (service.environment, request.workspaceId, service.chainId, request.keyHash) ∧
      ∃ created, descriptor = envelope.toKeyEnvelope.descriptor created
  | _ => True

/-- The request that a handler works on or has answered. -/
def HandlerPhase.asked : HandlerPhase primitives → Option (CreationRequest primitives)
  | .received request | .generating request | .answered request _ => some request
  | .idle | .stopped => none

/-- A call that waits for an answer waits for the one to its own request. -/
def Matches (creation : WalletCreation primitives) : Prop :=
  match creation.call, creation.handler.asked with
  | .awaiting request, some asked => asked = request
  | _, _ => True

theorem matches_stopped (call : CallPhase primitives) : Matches ⟨call, .stopped⟩ := by
  cases call <;> trivial

theorem serves_of_key_eq {envelope : SignerKeyEnvelope} {request : CreationRequest primitives}
    {environment : Text} {chainId : ℕ}
    (own : envelope.key = (environment, request.workspaceId, chainId, request.keyHash)) :
    Serves envelope request := by
  simp only [SignerKeyEnvelope.key, Prod.mk.injEq] at own
  exact ⟨own.2.1, own.2.2.2⟩

/-- The invariant of one creation. -/
structure CreationInvariant (service : WalletService) (store : WalletStore)
    (creation : WalletCreation primitives) : Prop where
  call : CallInvariant store creation.call
  handler : HandlerInvariant service store creation.handler
  same : Matches creation

/-- Both databases only grow. -/
structure Grows (before after : WalletStore) : Prop where
  wallets : before.wallets ⊆ after.wallets
  envelopes : before.envelopes ⊆ after.envelopes

namespace Grows

variable {store before after : WalletStore}

protected theorem refl (store : WalletStore) : Grows store store :=
  ⟨List.Subset.refl _, List.Subset.refl _⟩

theorem callInvariant (grows : Grows before after) {call : CallPhase primitives}
    (holds : CallInvariant before call) : CallInvariant after call := by
  cases call with
  | saving request result =>
      rcases holds with ⟨envelope, envelope_mem, facts⟩
      exact ⟨envelope, grows.envelopes envelope_mem, facts⟩
  | returned request wallet created =>
      rcases holds with ⟨row, row_mem, facts⟩
      exact ⟨row, grows.wallets row_mem, facts⟩
  | idle | counting | awaiting | stopped => trivial

theorem handlerInvariant (grows : Grows before after) {handler : HandlerPhase primitives}
    (holds : HandlerInvariant service before handler) : HandlerInvariant service after handler := by
  cases handler with
  | answered request descriptor =>
      rcases holds with ⟨envelope, envelope_mem, facts⟩
      exact ⟨envelope, grows.envelopes envelope_mem, facts⟩
  | idle | received | generating | stopped => trivial

theorem creationInvariant (grows : Grows before after) {creation : WalletCreation primitives}
    (holds : CreationInvariant service before creation) :
    CreationInvariant service after creation :=
  ⟨grows.callInvariant holds.call, grows.handlerInvariant holds.handler, holds.same⟩

end Grows

namespace WalletInvariant

variable {store : WalletStore} {envelopes : SignerKeyEnvelopes} {row stored : SignerKeyEnvelope}
  {created : Bool}

/-- An envelope for a checksummed address keeps the invariant. -/
theorem insertEnvelope (holds : WalletInvariant primitives service store)
    (own : row.environment = service.environment ∧ row.chainId = service.chainId)
    (checksum : primitives.toChecksumAddress row.address = .ok row.address)
    (inserted : insertOrGet SignerKeyEnvelope.key SignerKeyEnvelope.clashes row store.envelopes =
      some (envelopes, stored, created)) :
    WalletInvariant primitives service { store with envelopes } where
  wallets_unique := holds.wallets_unique
  envelopes_unique := holds.envelopes_unique.insertOrGet inserted
  envelopes_own := by
    intro envelope envelope_mem
    rcases eq_or_mem_of_mem_insertOrGet inserted envelope_mem with old | rfl
    · exact holds.envelopes_own envelope old
    · exact own
  envelopes_checksum := by
    intro envelope envelope_mem
    rcases eq_or_mem_of_mem_insertOrGet inserted envelope_mem with old | rfl
    · exact holds.envelopes_checksum envelope old
    · exact checksum
  bound := by
    intro wallet wallet_mem
    rcases holds.bound wallet wallet_mem with ⟨envelope, envelope_mem, facts⟩
    exact ⟨envelope, subset_of_insertOrGet inserted envelope_mem, facts⟩

/-- A wallet with the key and the address of its envelope keeps the invariant. -/
theorem insertWallet {wallets : List ExecutionWallet} {auditLogs : List AuditLog}
    {wallet saved : ExecutionWallet} (holds : WalletInvariant primitives service store)
    (bound : ∃ envelope ∈ store.envelopes, envelope.workspaceId = wallet.workspaceId ∧
      envelope.idempotencyKeyHash = wallet.idempotencyKeyHash ∧
      wallet.signerKeyId = envelope.signerKeyId ∧ wallet.address = envelope.address)
    (inserted : insertOrGet ExecutionWallet.key ExecutionWallet.clashes wallet store.wallets =
      some (wallets, saved, created)) :
    WalletInvariant primitives service { store with wallets, auditLogs } where
  wallets_unique := holds.wallets_unique.insertOrGet inserted
  envelopes_unique := holds.envelopes_unique
  envelopes_own := holds.envelopes_own
  envelopes_checksum := holds.envelopes_checksum
  bound := by
    intro other other_mem
    rcases eq_or_mem_of_mem_insertOrGet inserted other_mem with old | rfl
    · exact holds.bound other old
    · exact bound

end WalletInvariant

/-- Every action keeps the invariants, and the databases grow. -/
theorem CreationTransition.preserves {store after : WalletStore}
    {creation next : WalletCreation primitives} {event : CreationEvent}
    (moved : CreationTransition service store creation event after next)
    (holds : WalletInvariant primitives service store)
    (owned : CreationInvariant service store creation) :
    WalletInvariant primitives service after ∧ CreationInvariant service after next ∧
      Grows store after := by
  cases moved with
  | fails _ => exact ⟨holds, ⟨trivial, owned.handler, trivial⟩, .refl store⟩
  | finds existing_mem own =>
      exact ⟨holds, ⟨⟨_, existing_mem, own, rfl⟩, owned.handler, trivial⟩, .refl store⟩
  | begins => exact ⟨holds, ⟨trivial, owned.handler, trivial⟩, .refl store⟩
  | passesLimit => exact ⟨holds, ⟨trivial, trivial, rfl⟩, .refl store⟩
  | @receives request asked descriptor result _ sameWorkspace sameKey checksum =>
      have asked_eq : asked = request := owned.same
      subst asked_eq
      rcases owned.handler with ⟨envelope, envelope_mem, own, _, rfl⟩
      have stored := holds.envelopes_checksum envelope envelope_mem
      have address_eq : envelope.address = result.address := by
        simpa [KeyEnvelope.descriptor, stored] using checksum
      exact ⟨holds, ⟨⟨envelope, envelope_mem, serves_of_key_eq own, sameWorkspace, sameKey,
        address_eq.symm⟩, owned.handler, trivial⟩, .refl store⟩
  | @saves _ request result _ _ wallets auditLogs _ _ inserted =>
      rcases owned.call with ⟨envelope, envelope_mem, serves, workspace, key_eq, address_eq⟩
      have grows : Grows store { store with wallets, auditLogs } :=
        ⟨subset_of_insertOrGet inserted, List.Subset.refl _⟩
      refine ⟨holds.insertWallet ⟨envelope, envelope_mem, ?_, serves.2, key_eq, address_eq⟩
        inserted, ⟨⟨_, (mem_of_insertOrGet inserted).1, ?_, rfl⟩,
          grows.handlerInvariant owned.handler, trivial⟩, grows⟩
      · exact serves.1.trans workspace.symm
      · rw [(mem_of_insertOrGet inserted).2, ← workspace]
        rfl
  | looksUp existing_mem own =>
      exact ⟨holds, ⟨owned.call, ⟨_, existing_mem, own, _, rfl⟩, owned.same⟩, .refl store⟩
  | @generates _ _ _ _ _ account envelopes _ own address inserted =>
      have grows : Grows store { store with envelopes } :=
        ⟨List.Subset.refl _, subset_of_insertOrGet inserted⟩
      have stored := mem_of_insertOrGet inserted
      have fields := own
      simp only [SignerKeyEnvelope.key, Prod.mk.injEq] at fields
      refine ⟨holds.insertEnvelope ⟨fields.1, fields.2.2.1⟩ ?_ inserted,
        ⟨grows.callInvariant owned.call, ⟨_, stored.1, stored.2.trans own, _, rfl⟩,
          owned.same⟩, grows⟩
      rw [address, toChecksumAddress_accountAddress]
  | prepares => exact ⟨holds, ⟨owned.call, trivial, owned.same⟩, .refl store⟩
  | handlerStops => exact ⟨holds, ⟨owned.call, trivial, matches_stopped _⟩, .refl store⟩

/-- A call that has just created a wallet found none for its idempotency key. -/
theorem CreationTransition.creates {store after : WalletStore}
    {creation next : WalletCreation primitives} {event : CreationEvent}
    (moved : CreationTransition service store creation event after next)
    (owned : CreationInvariant service store creation) {request : CreationRequest primitives}
    {wallet : WalletRecord} (returned : next.call = .returned request wallet true) :
    creation.call = .returned request wallet true ∨
      ∀ row ∈ store.wallets, row.key ≠ (request.workspaceId, request.keyHash) := by
  cases moved with
  | @saves _ _ result _ _ _ _ _ created inserted =>
      cases returned
      rcases owned.call with ⟨_, _, _, workspace, _⟩
      have absent := (insertOrGet_eq_some_true inserted).2.2.1
      refine .inr fun row row_mem own => absent row row_mem ?_
      rw [own, ← workspace]
      rfl
  | fails | finds | begins | passesLimit | receives => cases returned
  | looksUp | generates | prepares | handlerStops => exact .inl returned

/-- A call has returned the wallet of an idempotency key. -/
def Returns (world : World WalletStore (WalletCreation primitives)) (index workspaceId : ℕ)
    (keyHash : BytesOf 32) (wallet : WalletRecord) (created : Bool) : Prop :=
  ∃ request, (world.process index).call = .returned request wallet created ∧
    request.workspaceId = workspaceId ∧ request.keyHash = keyHash

/-- The invariants of the databases and of all calls. -/
structure WalletWorld (service : WalletService)
    (world : World WalletStore (WalletCreation primitives)) : Prop where
  shared : WalletInvariant primitives service world.store
  owned : ∀ index, CreationInvariant service world.store (world.process index)
  once : ∀ {first second workspaceId keyHash wallet other},
    Returns world first workspaceId keyHash wallet true →
      Returns world second workspaceId keyHash other true → first = second

theorem walletWorld_empty :
    WalletWorld service (World.uniform ⟨[], [], []⟩
      (⟨.idle, .idle⟩ : WalletCreation primitives)) where
  shared := ⟨unique_nil, unique_nil, by simp, by simp, by simp⟩
  owned := fun _ => ⟨trivial, trivial, trivial⟩
  once := by
    rintro _ _ _ _ _ _ ⟨_, impossible, _⟩
    cases impossible

section Runs

variable {world next : World WalletStore (WalletCreation primitives)} {index workspaceId : ℕ}
  {keyHash : BytesOf 32} {wallet : WalletRecord} {created : Bool} {event : CreationEvent}

/-- What a call has returned is the wallet of its idempotency key. -/
theorem WalletWorld.stored (holds : WalletWorld service world)
    (returns : Returns world index workspaceId keyHash wallet created) :
    ∃ row ∈ world.store.wallets, row.key = (workspaceId, keyHash) ∧ row.record = wallet := by
  rcases returns with ⟨request, returned, rfl, rfl⟩
  have knows := (holds.owned index).call
  rw [returned] at knows
  exact knows

/-- A call that has created a wallet had done so before, or there was no such wallet. -/
theorem Returns.created_before {after : WalletStore} {creation : WalletCreation primitives}
    {other : ℕ} (holds : WalletWorld service world)
    (moved : CreationTransition service world.store (world.process index) event after creation)
    (returns : Returns ⟨after, Function.update world.process index creation⟩ other workspaceId
      keyHash wallet true) :
    Returns world other workspaceId keyHash wallet true ∨
      other = index ∧ ∀ row ∈ world.store.wallets, row.key ≠ (workspaceId, keyHash) := by
  rcases returns with ⟨request, returned, rfl, rfl⟩
  by_cases same : other = index
  · subst same
    simp only [Function.update_self] at returned
    rcases moved.creates (holds.owned other) returned with before | absent
    · exact .inl ⟨request, before, rfl, rfl⟩
    · exact .inr ⟨rfl, absent⟩
  · simp only [Function.update_of_ne same] at returned
    exact .inl ⟨request, returned, rfl, rfl⟩

theorem WalletWorld.act (holds : WalletWorld service world)
    (acted : (creationProgram signer service).act world index event = some next) :
    WalletWorld service next ∧ Grows world.store next.store := by
  rcases Program.act_eq_some_iff.mp acted with ⟨store, creation, stepped, rfl⟩
  have moved := creationTransition_of_step stepped
  rcases moved.preserves holds.shared (holds.owned index) with ⟨shared, owned, grows⟩
  refine ⟨⟨shared, fun other => ?_, ?_⟩, grows⟩
  · by_cases same : other = index
    · subst same
      simpa using owned
    · simpa [Function.update_of_ne same] using grows.creationInvariant (holds.owned other)
  · intro first second workspaceId keyHash wallet other firstReturns secondReturns
    have taken : ∀ {old record}, Returns world old workspaceId keyHash record true →
        ¬∀ row ∈ world.store.wallets, row.key ≠ (workspaceId, keyHash) := by
      intro old record returns absent
      rcases holds.stored returns with ⟨row, row_mem, own, _⟩
      exact absent row row_mem own
    rcases firstReturns.created_before holds moved with firstOld | ⟨firstNew, firstAbsent⟩
    · rcases secondReturns.created_before holds moved with secondOld | ⟨_, absent⟩
      · exact holds.once firstOld secondOld
      · exact absurd absent (taken firstOld)
    · rcases secondReturns.created_before holds moved with secondOld | ⟨secondNew, _⟩
      · exact absurd firstAbsent (taken secondOld)
      · exact firstNew.trans secondNew.symm

theorem WalletWorld.run {allowed : Condition WalletStore (WalletCreation primitives) CreationEvent}
    (holds : WalletWorld service world)
    (run : (creationProgram signer service).Reaches allowed world next) :
    WalletWorld service next :=
  run.invariant (WalletWorld service) (fun holds _ acted => (holds.act acted).1) holds

end Runs

/-- What the creations of one workspace and idempotency key have led to. -/
structure CreatedIdempotently (world : World WalletStore (WalletCreation primitives))
    (workspaceId : ℕ) (keyHash : BytesOf 32) : Prop where
  /-- There is at most one envelope. -/
  envelope : ∀ first ∈ world.store.envelopes, ∀ second ∈ world.store.envelopes,
    first.workspaceId = workspaceId → first.idempotencyKeyHash = keyHash →
    second.workspaceId = workspaceId → second.idempotencyKeyHash = keyHash → first = second
  /-- There is at most one wallet. -/
  wallet : ∀ first ∈ world.store.wallets, ∀ second ∈ world.store.wallets,
    first.key = (workspaceId, keyHash) → second.key = (workspaceId, keyHash) → first = second
  /-- The wallet has the key and the address of the envelope. -/
  bound : ∀ wallet ∈ world.store.wallets, wallet.key = (workspaceId, keyHash) →
    ∃ envelope ∈ world.store.envelopes, envelope.workspaceId = workspaceId ∧
      envelope.idempotencyKeyHash = keyHash ∧ wallet.signerKeyId = envelope.signerKeyId ∧
      wallet.address = envelope.address
  /-- Every wallet that is returned is the stored one. -/
  returned : ∀ {index wallet created}, Returns world index workspaceId keyHash wallet created →
    ∃ row ∈ world.store.wallets, row.key = (workspaceId, keyHash) ∧ row.record = wallet
  /-- All calls return the same wallet. -/
  agree : ∀ {first second wallet other firstCreated secondCreated},
    Returns world first workspaceId keyHash wallet firstCreated →
    Returns world second workspaceId keyHash other secondCreated → wallet = other
  /-- At most one of them has created it. -/
  once : ∀ {first second wallet other}, Returns world first workspaceId keyHash wallet true →
    Returns world second workspaceId keyHash other true → first = second

/-- In every run of creations, each workspace and idempotency key has one wallet at most. -/
theorem wallets_createdIdempotently {world : World WalletStore (WalletCreation primitives)}
    (run : (creationProgram signer service).Reaches Unrestricted
      (World.uniform ⟨[], [], []⟩ ⟨.idle, .idle⟩) world)
    (workspaceId : ℕ) (keyHash : BytesOf 32) : CreatedIdempotently world workspaceId keyHash := by
  have holds := walletWorld_empty.run run
  have wallet : ∀ first ∈ world.store.wallets, ∀ second ∈ world.store.wallets,
      first.key = (workspaceId, keyHash) → second.key = (workspaceId, keyHash) →
        first = second := by
    intro first first_mem second second_mem firstKey secondKey
    exact holds.shared.wallets_unique.eq_of_key_eq first_mem second_mem
      (firstKey.trans secondKey.symm)
  refine ⟨?_, wallet, ?_, holds.stored, ?_, holds.once⟩
  · intro first first_mem second second_mem firstWorkspace firstHash secondWorkspace secondHash
    rcases holds.shared.envelopes_own first first_mem with ⟨firstEnvironment, firstChain⟩
    rcases holds.shared.envelopes_own second second_mem with ⟨secondEnvironment, secondChain⟩
    refine holds.shared.envelopes_unique.eq_of_key_eq first_mem second_mem ?_
    simp only [SignerKeyEnvelope.key, firstEnvironment, firstChain, firstWorkspace, firstHash,
      secondEnvironment, secondChain, secondWorkspace, secondHash]
  · intro row row_mem own
    rcases holds.shared.bound row row_mem with ⟨envelope, envelope_mem, workspace, hash, facts⟩
    simp only [ExecutionWallet.key, Prod.mk.injEq] at own
    exact ⟨envelope, envelope_mem, workspace.trans own.1, hash.trans own.2, facts⟩
  · intro first second record other _ _ firstReturns secondReturns
    rcases holds.stored firstReturns with ⟨row, row_mem, own, rfl⟩
    rcases holds.stored secondReturns with ⟨otherRow, other_mem, otherOwn, rfl⟩
    rw [wallet row row_mem otherRow other_mem own otherOwn]

section Samples

/-- An idempotency key. -/
def firstKey : Text := "wallet-request-001".toList

/-- Another idempotency key. -/
def secondKey : Text := "wallet-request-002".toList

/-- The addresses of the sample keys. -/
def sampleAccount (value : ℕ) : BytesOf 20 :=
  if value = 1 then
    ⟨[0x7e, 0x5f, 0x45, 0x52, 0x09, 0x1a, 0x69, 0x12, 0x5d, 0x5d, 0xfc, 0xb7,
      0xb8, 0xc2, 0x65, 0x90, 0x29, 0x39, 0x5b, 0xdf], rfl⟩
  else
    ⟨[0x2b, 0x5a, 0xd5, 0xc4, 0x79, 0x5c, 0x02, 0x65, 0x14, 0xf8, 0x31, 0x7c,
      0x7a, 0x21, 0x5e, 0x21, 0x8d, 0xcc, 0xd6, 0xcf], rfl⟩

/-- The sample hashes with the digests of two idempotency keys and two accounts. -/
def walletHashes : Primitives :=
  { sampleHashes.withKeccak fun text =>
      if text = hex (sampleAccount 1).val then
        ⟨[0xa8, 0xaa, 0xec, 0x6a, 0xce, 0xaf, 0xa4, 0x50, 0x81, 0x6b, 0x29, 0x57,
          0x70, 0xad, 0xcd, 0x14, 0x4c, 0xe1, 0x8d, 0x63, 0x0d, 0x6c, 0xe7, 0x42,
          0x88, 0xaa, 0x4f, 0x15, 0x69, 0xed, 0xa4, 0xca], rfl⟩
      else if text = hex (sampleAccount 2).val then
        ⟨[0x4e, 0x49, 0xa0, 0x72, 0xe7, 0x34, 0x33, 0x84, 0x50, 0x00, 0xbe, 0xb4,
          0x44, 0xee, 0xe9, 0xa3, 0x3b, 0x2b, 0xf0, 0x2c, 0x03, 0x77, 0x35, 0x62,
          0xe1, 0x01, 0x0b, 0xa7, 0x43, 0x02, 0xfb, 0x1d], rfl⟩
      else knownHash text with
    sha256 := fun data =>
      if data = Json.utf8 firstKey then
        ⟨[0x3e, 0x6e, 0x6d, 0xf5, 0xbd, 0x25, 0x4b, 0x21, 0x42, 0x6c, 0xcd, 0xcf,
          0x11, 0x55, 0x04, 0xab, 0xc1, 0x58, 0x88, 0x58, 0xa6, 0xaf, 0x4b, 0x59,
          0xf4, 0x55, 0x80, 0x23, 0xae, 0x07, 0x6d, 0xbb], rfl⟩
      else if data = Json.utf8 secondKey then
        ⟨[0xb6, 0xfa, 0xe1, 0x60, 0xd4, 0x4c, 0xe4, 0xec, 0x9e, 0xdb, 0x30, 0x73,
          0x2a, 0x99, 0x2f, 0x56, 0x28, 0xac, 0xb7, 0x35, 0x28, 0x8b, 0x62, 0x9a,
          0xf4, 0x78, 0x0d, 0x90, 0x45, 0x51, 0x09, 0x1b], rfl⟩
      else sampleHashes.sha256 data }

/-- The accounts of the private keys 1 and 2, and their encryption in the sample envelopes. -/
def sampleSigner : SignerPrimitives where
  account := fun privateKey => sampleAccount (intFromBytes privateKey.val)
  encrypt := fun _ _ data _ =>
    if intFromBytes data = 1 then
      [0x27, 0x85, 0x84, 0x94, 0xbe, 0xf0, 0xc1, 0x61, 0xa0, 0x62, 0xcb, 0x38,
        0xe6, 0xea, 0xa3, 0xdf, 0xd4, 0xb0, 0x63, 0xf3, 0x34, 0xee, 0xf7, 0xc0,
        0x6f, 0xae, 0x46, 0xa6, 0xd5, 0x74, 0x01, 0x7b, 0xc2, 0x64, 0x0a, 0xe0,
        0x3c, 0xdc, 0x00, 0xc0, 0xc8, 0x5b, 0x73, 0x0c, 0xc9, 0x1a, 0x79, 0x1b]
    else
      [0x27, 0x85, 0x84, 0x94, 0xbe, 0xf0, 0xc1, 0x61, 0xa0, 0x62, 0xcb, 0x38,
        0xe6, 0xea, 0xa3, 0xdf, 0xd4, 0xb0, 0x63, 0xf3, 0x34, 0xee, 0xf7, 0xc0,
        0x6f, 0xae, 0x46, 0xa6, 0xd5, 0x74, 0x01, 0x78, 0x94, 0xb7, 0x2e, 0xb1,
        0x7b, 0x6a, 0xb4, 0xcd, 0x9a, 0xd8, 0x8e, 0x24, 0x69, 0xb2, 0x94, 0x43]

/-- What is drawn for a key. -/
def sampleMaterial (privateKey : ℕ) : KeyMaterial where
  privateKey := ⟨AbiEncoding.word privateKey, AbiEncoding.length_word privateKey⟩
  dataKey := ⟨List.replicate 32 7, List.replicate 64 8, "arn:aws:kms:eu-west-1:0:key/0".toList⟩
  nonce := ⟨List.replicate 12 9, rfl⟩

/-- A service that allows one wallet for each workspace. -/
def sampleService : WalletService where
  maxWalletsPerWorkspace := 1
  chainId := 1
  environment := "development".toList
  positive := le_refl 1
  mainnet := rfl

/-- The owner of the first workspace. -/
def sampleOwner : RequestContext where
  telegramUserId := 99
  chatId := 99
  chatType := privateChat
  correlationId := 5
  userId := some 3
  workspaceId := some 1
  workspaceRole := some .owner

/-- Two calls with one idempotency key, for both of which the signer generates a key. -/
def raceSchedule : List (ℕ × CreationEvent) :=
  [(0, .call sampleOwner firstKey), (1, .call sampleOwner firstKey), (0, .count), (1, .count),
    (0, .lookUp), (1, .lookUp), (0, .generate 41 (sampleMaterial 1)),
    (1, .generate 42 (sampleMaterial 2)), (1, .receive), (0, .receive), (1, .save 11 21),
    (0, .save 10 20)]

/-- No wallet has been asked for. -/
def emptyWorld : World WalletStore (WalletCreation walletHashes) :=
  World.uniform ⟨[], [], []⟩ ⟨.idle, .idle⟩

end Samples

/-- The call whose key was generated second stores the wallet, with the first key. -/
theorem racedWallet_createdIdempotently :
    ∃ world, (creationProgram sampleSigner sampleService).Reaches Unrestricted emptyWorld world ∧
      world.store.wallets.map (fun row => (row.id, row.signerKeyId)) = [(11, 41)] ∧
      CreatedIdempotently world 1 (walletHashes.sha256 (Json.utf8 firstKey)) := by
  have stored : ((creationProgram sampleSigner sampleService).execute emptyWorld
      raceSchedule).map (fun world => world.store.wallets.map fun row =>
        (row.id, row.signerKeyId)) = some [(11, 41)] := by
    decide +kernel
  rcases Option.map_eq_some_iff.mp stored with ⟨world, executed, stored⟩
  have run := Program.reaches_of_execute executed (Program.meets_unrestricted _ _)
  exact ⟨world, run, stored, wallets_createdIdempotently run 1 _⟩

end CopyMint
