import CopyMint.Signer.Custody
import CopyMint.Wallets.Creation

/-!
# The key of a stored wallet is never lost

A wallet is stored by the application, its key by the signer. As long as the
key-management service decrypts each data key under the context that it was generated
for, every envelope that is stored can be restored, and since a wallet always has the
signer key and the address of an envelope of its workspace, so can the key of every
wallet, at any time of any run of creations.
-/

namespace CopyMint

open Hexadecimal Relational Interleaving

variable {primitives : Primitives} {custody : CustodyPrimitives} {service : WalletService}

/-- The service that encrypts keys generates each data key for the context of its envelope. -/
def KeysGenerated (custody : CustodyPrimitives) (service : WalletService) :
    Condition WalletStore (WalletCreation primitives) CreationEvent :=
  fun world index event => ∀ signerKeyId material request,
    event = .generate signerKeyId material →
    (world.process index).handler = .generating request →
    GeneratedUnder custody
      (encryptionContext service.environment request.workspaceId service.chainId signerKeyId)
      material.dataKey

/-- No two envelopes have one signer key, and each of them can be restored. -/
structure EnvelopesRestorable (primitives : Primitives) (custody : CustodyPrimitives)
    (envelopes : SignerKeyEnvelopes) : Prop where
  unique : Unique (fun row : SignerKeyEnvelope => row.signerKeyId) envelopes
  restored : ∀ row ∈ envelopes,
    restoreAndVerifyAddress primitives custody row.toKeyEnvelope = .ok row.address

section Step

variable {signer : SignerPrimitives} {store after : WalletStore}
  {creation next : WalletCreation primitives} {call : CallPhase primitives}
  {handler : HandlerPhase primitives} {event : CreationEvent}

/-- The application never touches an envelope. -/
theorem envelopes_callStep
    (stepped : callStep service store handler call event = some (after, next)) :
    after.envelopes = store.envelopes := by
  cases call with
  | idle =>
      cases event with
      | call context idempotencyKey =>
          simp only [callStep] at stepped
          split at stepped
          · cases stepped
            rfl
          · split at stepped <;> cases stepped <;> rfl
      | count | lookUp | generate | receive | save | stopCall | stopHandler => cases stepped
  | counting request =>
      cases event with
      | count =>
          simp only [callStep] at stepped
          split_ifs at stepped <;> cases stepped <;> rfl
      | stopCall =>
          cases stepped
          rfl
      | call | lookUp | generate | receive | save | stopHandler => cases stepped
  | awaiting request =>
      cases event with
      | receive =>
          simp only [callStep] at stepped
          split at stepped
          · split_ifs at stepped
            · cases stepped
              rfl
            · split at stepped <;> cases stepped <;> rfl
          · cases stepped
      | stopCall =>
          cases stepped
          rfl
      | call | count | lookUp | generate | save | stopHandler => cases stepped
  | saving request result =>
      cases event with
      | save walletId auditId =>
          simp only [callStep] at stepped
          split at stepped
          · cases stepped
            rfl
          · rename_i saved
            cases stepped
            rcases saveOrGet_eq_ok saved with ⟨_, _, _, rfl, _, _⟩
            rfl
      | stopCall =>
          cases stepped
          rfl
      | call | count | lookUp | generate | receive | stopHandler => cases stepped
  | returned | stopped => cases stepped

/-- A handler that changes the table of envelopes saves one that it has created. -/
theorem envelopes_handlerStep
    (stepped : handlerStep signer service store call handler event = some (after, next)) :
    after.envelopes = store.envelopes ∨
      ∃ request signerKeyId material envelope stored created,
        event = .generate signerKeyId material ∧ handler = .generating request ∧
        createKeyEnvelope primitives signer service.environment request.workspaceId
          service.chainId signerKeyId material = .ok envelope ∧
        store.envelopes.saveOrGet envelope request.keyHash =
          .ok (after.envelopes, stored, created) := by
  cases handler with
  | received request =>
      cases event with
      | lookUp =>
          simp only [handlerStep] at stepped
          split at stepped <;> cases stepped <;> exact .inl rfl
      | stopHandler =>
          cases stepped
          exact .inl rfl
      | call | count | generate | receive | save | stopCall => cases stepped
  | generating request =>
      cases event with
      | generate signerKeyId material =>
          simp only [handlerStep] at stepped
          split at stepped
          · cases stepped
            exact .inl rfl
          · rename_i envelope made
            split at stepped
            · cases stepped
              exact .inl rfl
            · rename_i envelopes stored created saved
              cases stepped
              exact .inr ⟨request, signerKeyId, material, envelope, stored, created, rfl, rfl,
                made, saved⟩
      | stopHandler =>
          cases stepped
          exact .inl rfl
      | call | count | lookUp | receive | save | stopCall => cases stepped
  | answered request descriptor =>
      cases event with
      | stopHandler =>
          cases stepped
          exact .inl rfl
      | call | count | lookUp | generate | receive | save | stopCall => cases stepped
  | idle | stopped => cases stepped

theorem envelopes_creationStep
    (stepped : creationStep signer service store creation event = some (after, next)) :
    after.envelopes = store.envelopes ∨
      ∃ request signerKeyId material envelope stored created,
        event = .generate signerKeyId material ∧ creation.handler = .generating request ∧
        createKeyEnvelope primitives signer service.environment request.workspaceId
          service.chainId signerKeyId material = .ok envelope ∧
        store.envelopes.saveOrGet envelope request.keyHash =
          .ok (after.envelopes, stored, created) := by
  cases event with
  | lookUp | generate | stopHandler => exact envelopes_handlerStep stepped
  | call | count | receive | save | stopCall => exact .inl (envelopes_callStep stepped)

/-- A saved envelope can be restored, if its data key was generated for its context. -/
theorem EnvelopesRestorable.save {envelopes saved : SignerKeyEnvelopes} {envelope : KeyEnvelope}
    {keyHash : BytesOf 32} {stored : SignerKeyEnvelope} {created : Bool}
    {environment : Text} {workspaceId chainId signerKeyId : ℕ} {material : KeyMaterial}
    (holds : EnvelopesRestorable primitives custody envelopes)
    (inverts : InvertsEncryption custody)
    (made : createKeyEnvelope primitives custody.toSignerPrimitives environment workspaceId
      chainId signerKeyId material = .ok envelope)
    (generated : GeneratedUnder custody
      (encryptionContext environment workspaceId chainId signerKeyId) material.dataKey)
    (kept : envelopes.saveOrGet envelope keyHash = .ok (saved, stored, created)) :
    EnvelopesRestorable primitives custody saved := by
  refine ⟨(Saves.tail (.refl _) kept).unique holds.unique, fun row row_mem => ?_⟩
  rcases eq_or_mem_of_mem_insertOrGet (SignerKeyEnvelopes.saveOrGet_eq_ok kept) row_mem with
    old | rfl
  · exact holds.restored row old
  · have context : envelope.encryptionContext =
        encryptionContext environment workspaceId chainId signerKeyId := by
      rcases createKeyEnvelope_eq_ok made with ⟨key, environment_eq, workspace, chain, _⟩
      rw [KeyEnvelope.encryptionContext, key, environment_eq, workspace, chain]
    exact restores_created inverts made (context ▸ generated)

end Step

section Runs

variable {world finish : World WalletStore (WalletCreation primitives)}

theorem EnvelopesRestorable.act {index : ℕ} {event : CreationEvent}
    (holds : EnvelopesRestorable primitives custody world.store.envelopes)
    (inverts : InvertsEncryption custody) (meets : KeysGenerated custody service world index event)
    (acted : (creationProgram custody.toSignerPrimitives service).act world index event =
      some finish) : EnvelopesRestorable primitives custody finish.store.envelopes := by
  rcases Program.act_eq_some_iff.mp acted with ⟨after, next, stepped, rfl⟩
  rcases envelopes_creationStep stepped with
    same | ⟨request, signerKeyId, material, envelope, stored, created, rfl, handler, made, kept⟩
  · rw [same]
    exact holds
  · exact holds.save inverts made (meets signerKeyId material request rfl handler) kept

/--
At any time of any run of creations, the signer restores the key of every stored wallet
to the address of the wallet, for its own workspace and for no other, and no two wallets
have one signer key.
-/
theorem wallets_restorable (inverts : InvertsEncryption custody)
    (run : (creationProgram custody.toSignerPrimitives service).Reaches
      (KeysGenerated custody service) (World.uniform ⟨[], [], []⟩ ⟨.idle, .idle⟩) world) :
    (∀ wallet ∈ world.store.wallets,
      verifyRestore primitives custody service.environment wallet.signerKeyId wallet.workspaceId
        service.chainId world.store.envelopes = .ok wallet.address) ∧
    (∀ wallet ∈ world.store.wallets, ∀ environment workspaceId chainId,
      (environment, workspaceId, chainId) ≠
        (service.environment, wallet.workspaceId, service.chainId) →
      verifyRestore primitives custody environment wallet.signerKeyId workspaceId chainId
        world.store.envelopes = .error (.lookupError "signer key was not found")) ∧
    Unique ExecutionWallet.signerKeyId world.store.wallets := by
  have holds := walletWorld_empty.run run
  have restorable := run.invariant
    (fun world => EnvelopesRestorable primitives custody world.store.envelopes)
    (fun holds meets acted => holds.act inverts meets acted)
    (show EnvelopesRestorable primitives custody [] from ⟨unique_nil, by simp⟩)
  refine ⟨?_, ?_, ?_⟩
  · intro wallet wallet_mem
    rcases holds.shared.bound wallet wallet_mem with
      ⟨envelope, envelope_mem, workspace, _, key, address⟩
    rcases holds.shared.envelopes_own envelope envelope_mem with ⟨environment, chain⟩
    rw [verifyRestore, key, findForWorkspace_of_mem restorable.unique envelope_mem,
      if_pos ⟨environment, workspace, chain⟩, address]
    exact restorable.restored envelope envelope_mem
  · intro wallet wallet_mem environment workspaceId chainId different
    rcases holds.shared.bound wallet wallet_mem with
      ⟨envelope, envelope_mem, workspace, _, key, _⟩
    rcases holds.shared.envelopes_own envelope envelope_mem with ⟨own, chain⟩
    rw [verifyRestore, key, findForWorkspace_of_mem restorable.unique envelope_mem, if_neg]
    rintro ⟨rfl, rfl, rfl⟩
    exact different (by rw [own, workspace, chain])
  · refine List.Nodup.map_on ?_ (List.Nodup.of_map _ holds.shared.wallets_unique)
    intro wallet wallet_mem other other_mem same
    rcases holds.shared.bound wallet wallet_mem with
      ⟨envelope, envelope_mem, workspace, keyHash, key, _⟩
    rcases holds.shared.bound other other_mem with
      ⟨second, second_mem, otherWorkspace, otherHash, otherKey, _⟩
    have equal : envelope = second :=
      restorable.unique.eq_of_key_eq envelope_mem second_mem (key.symm.trans (same.trans otherKey))
    subst equal
    refine holds.shared.wallets_unique.eq_of_key_eq wallet_mem other_mem ?_
    rw [ExecutionWallet.key, ExecutionWallet.key, ← workspace, ← keyHash, otherWorkspace, otherHash]

end Runs

section Samples

/-- One creation, for which the signer generates the sample key. -/
def restorableSchedule : List (ℕ × CreationEvent) :=
  [(0, .call sampleOwner firstKey), (0, .count), (0, .lookUp),
    (0, .generate 41 (sampleMaterial 1)), (0, .receive), (0, .save 10 20)]

/-- A key that is generated is that of the sample envelope. -/
def generatesSample (creation : WalletCreation walletHashes) : CreationEvent → Bool
  | .generate signerKeyId material =>
      match creation.handler with
      | .generating request =>
          signerKeyId = 41 && material = sampleMaterial 1 && request.workspaceId = 1
      | _ => true
  | _ => true

theorem keysGenerated_of_generatesSample
    {world : World WalletStore (WalletCreation walletHashes)} {index : ℕ} {event : CreationEvent}
    (sample : generatesSample (world.process index) event = true) :
    KeysGenerated invertibleCustody sampleService world index event := by
  rintro signerKeyId material request rfl handler
  simp only [generatesSample, handler, Bool.and_eq_true, decide_eq_true_eq] at sample
  rcases sample with ⟨⟨rfl, rfl⟩, workspace⟩
  rw [workspace]
  exact sampleDataKey_generated

end Samples

/-- The wallet that the schedule stores can be restored. -/
theorem sampleWallet_restorable :
    ∃ world, (creationProgram invertibleCustody.toSignerPrimitives sampleService).Reaches
        (KeysGenerated invertibleCustody sampleService) emptyWorld world ∧
      world.store.wallets ≠ [] ∧ ∀ wallet ∈ world.store.wallets,
        verifyRestore walletHashes invertibleCustody "development".toList wallet.signerKeyId
          wallet.workspaceId 1 world.store.envelopes = .ok wallet.address := by
  have counted : ((creationProgram invertibleCustody.toSignerPrimitives sampleService).execute
      emptyWorld restorableSchedule).map (fun world => world.store.wallets.length) = some 1 := by
    decide +kernel
  rcases Option.map_eq_some_iff.mp counted with ⟨world, executed, length⟩
  have meets : (creationProgram invertibleCustody.toSignerPrimitives sampleService).Meets
      (fun world index event => generatesSample (world.process index) event = true) emptyWorld
      restorableSchedule := by
    decide +kernel
  have run := (Program.reaches_of_execute executed meets).mono keysGenerated_of_generatesSample
  refine ⟨world, run, ?_, (wallets_restorable invertibleCustody_inverts run).1⟩
  rintro none
  rw [none] at length
  cases length

end CopyMint
