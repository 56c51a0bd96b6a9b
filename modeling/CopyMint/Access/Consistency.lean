import CopyMint.Access.Effects
import CopyMint.Access.Service
import CopyMint.Library.Fallible

/-!
# Consistency of access over all interleavings

A commit does what its decision does to the committed state at that moment, so that
every committed state is sound. Identifiers are drawn in ranges that no two decisions
share. Other facts about reachable states need only say what a decision and a new
request do to the committed state.
-/

namespace CopyMint

open Hexadecimal Relational RowSecurity Locking Interleaving

/-- The transactions of an actor, who cannot revoke configured owners. -/
inductive OwnerTransaction (ownerIds : List ℤ) (actor : ℤ) (firstId : ℕ) :
    AccessOperation → AccessScript (Option AccessDecisionResult) → Prop
  | approve {auditLogs requestId correlationId now} :
      OwnerTransaction ownerIds actor firstId (.approve requestId)
        (some <$> approveScript auditLogs requestId actor correlationId now firstId)
  | reject {auditLogs isoformat requestId correlationId reason cooldown now cooldownUntil} :
      OwnerTransaction ownerIds actor firstId (.reject requestId reason cooldown)
        (some <$> rejectScript auditLogs isoformat requestId actor correlationId reason now
          cooldownUntil firstId)
  | revoke {auditLogs target correlationId reason now} (unconfigured : target ∉ ownerIds) :
      OwnerTransaction ownerIds actor firstId (.revoke target reason)
        ((fun _ => none) <$> revokeScript auditLogs target actor correlationId reason now firstId)

namespace OwnerTransaction

variable {ownerIds : List ℤ} {actor : ℤ} {firstId : ℕ} {operation : AccessOperation}
  {script : AccessScript (Option AccessDecisionResult)}

theorem guarded (transaction : OwnerTransaction ownerIds actor firstId operation script) :
    script.Guarded accessFootprint [] fun _ _ => True := by
  cases transaction with
  | approve => exact (guarded_approveScript _ _ _ _ _).bind
  | reject => exact (guarded_rejectScript _ _ _ _ _ _ _ _).bind
  | revoke => exact (guarded_revokeScript _ _ _ _ _ _).bind

theorem effect (transaction : OwnerTransaction ownerIds actor firstId operation script)
    (configured : actor ∈ ownerIds) {before after : AccessState}
    {result : Option AccessDecisionResult} (sound : AccessSound ownerIds before)
    (unused : Unused firstId (firstId + 7) before.db)
    (ran : script.run before = .ok (after, result)) :
    DecisionEffect ownerIds actor operation firstId before after := by
  cases transaction with
  | approve =>
      rcases Script.run_bind_eq_ok.mp ran with ⟨_, _, decided, done⟩
      cases done
      exact approveScript_sound sound configured unused decided
  | reject =>
      rcases Script.run_bind_eq_ok.mp ran with ⟨_, _, decided, done⟩
      cases done
      exact rejectScript_sound sound configured unused decided
  | revoke unconfigured =>
      rcases Script.run_bind_eq_ok.mp ran with ⟨_, _, decided, done⟩
      cases done
      exact revokeScript_sound sound configured unconfigured unused decided

end OwnerTransaction

/-- The transaction of a caller. -/
def AccessProcess.transaction : AccessProcess →
    Option (Running AccessState AccessKey TransactionFailure (Option AccessDecisionResult))
  | .deciding _ _ _ running => some running
  | _ => none

/-- What a caller can do, with the owners that are configured. -/
inductive AccessTransition (ownerIds : List ℤ) (store : Locked AccessState AccessKey) :
    AccessProcess → AccessEvent → Locked AccessState AccessKey → AccessProcess → Prop
  | moved {process event next} (uncommitted : event ≠ .commit)
      (before : process.transaction = none)
      (after : next.transaction = none)
      (resolved : ∀ context, next = .authorized context → ∃ identity correlationId latest,
        resolveContext ownerIds identity correlationId latest store.committed.db = .ok context) :
      AccessTransition ownerIds store process event store next
  | started {context operation now script} (owner : context.isPlatformOwner = true)
      (transaction : OwnerTransaction ownerIds context.telegramUserId store.committed.db.nextId
        operation script)
      (bound : store.committed.db.nextId + decisionIds ≤ 2 ^ 128) :
      AccessTransition ownerIds store (.authorized context) (.decide operation now)
        (drawIds decisionIds store)
        (.deciding context operation store.committed.db.nextId (.start script))
  | stepped {context operation firstId running locked next}
      (stepped : running.step store = some (locked, next)) :
      AccessTransition ownerIds store (.deciding context operation firstId running) .statement
        locked
        (.deciding context operation firstId next)
  | committed {context operation firstId running locked result}
      (committed : running.commit store = some (locked, result)) :
      AccessTransition ownerIds store (.deciding context operation firstId running) .commit locked
        .idle
  | aborted {context operation firstId running} :
      AccessTransition ownerIds store (.deciding context operation firstId running) .abort
        (running.abort store) .idle
  | requested {identity now} (bound : store.committed.db.nextId < 2 ^ 128) :
      AccessTransition ownerIds store (.eligible identity now) .getOrCreatePendingRequest
        (withDatabase (fun db => (getOrCreatePendingRequest identity now db).1) store) .idle

section Transitions

variable {ownerIds : List ℤ} {isoformat : ℤ → Text} {auditLogs : Policy SessionSettings AuditLog}

theorem requirePlatformOwner_eq_ok {context : RequestContext}
    (passed : context.requirePlatformOwner = .ok ()) : context.isPlatformOwner = true := by
  rcases Fallible.bind_eq_ok_iff.mp passed with ⟨_, _, owner⟩
  split_ifs at owner with isOwner
  exact isOwner

/-- What a context that has been resolved says about its identity. -/
theorem resolveContext_eq_ok {identity : TelegramIdentity} {correlationId : ℕ}
    {latest : Option AccessRequest} {db : AccessDatabase} {context : RequestContext}
    (resolved : resolveContext ownerIds identity correlationId latest db = .ok context) :
    identity.isPrivateChat = true ∧ context.telegramUserId = identity.telegramUserId ∧
      (context.platformRole = some .platformOwner → identity.telegramUserId ∈ ownerIds) ∧
      ∀ workspaceId, context.workspaceId = some workspaceId →
        ∃ principal, findPrincipal identity.telegramUserId db = some principal ∧
          principal.userStatus = .active ∧ principal.workspaceId = some workspaceId := by
  rcases Fallible.bind_eq_ok_iff.mp resolved with ⟨_, required, resolved⟩
  have isPrivate : identity.isPrivateChat = true := by
    rw [TelegramIdentity.requirePrivateChat] at required
    split_ifs at required with isPrivate
    exact isPrivate
  refine ⟨isPrivate, ?_⟩
  split at resolved
  · dsimp only at resolved
    split_ifs at resolved with configured
    cases resolved
    refine ⟨rfl, fun _ => configured, fun workspaceId impossible => ?_⟩
    cases impossible
  · rename_i principal found
    dsimp only at resolved
    by_cases active : principal.userStatus = .active
    · by_cases unowned : (principal.workspaceId = none ∨ principal.workspaceRole = none) ∧
          identity.telegramUserId ∉ ownerIds
      · rw [if_neg (not_not.mpr active), if_pos unowned] at resolved
        cases resolved
      · rw [if_neg (not_not.mpr active), if_neg unowned] at resolved
        cases resolved
        refine ⟨rfl, fun owner => ?_, fun workspaceId same => ⟨principal, found, active, same⟩⟩
        by_contra unconfigured
        simp [unconfigured] at owner
    · rw [if_pos active] at resolved
      cases resolved

theorem ownerTransaction_of_transaction {operation : AccessOperation} {context : RequestContext}
    {now : ℤ} {firstId : ℕ} {script : AccessScript (Option AccessDecisionResult)}
    (allowed : operation.transaction ownerIds isoformat auditLogs context now firstId =
      .ok script) :
    context.isPlatformOwner = true ∧
      OwnerTransaction ownerIds context.telegramUserId firstId operation script := by
  cases operation with
  | approve requestId =>
      rcases Fallible.bind_eq_ok_iff.mp allowed with ⟨_, passed, built⟩
      cases built
      exact ⟨requirePlatformOwner_eq_ok passed, .approve⟩
  | reject requestId reason cooldown =>
      rcases Fallible.bind_eq_ok_iff.mp allowed with ⟨_, passed, built⟩
      cases built
      exact ⟨requirePlatformOwner_eq_ok passed, .reject⟩
  | revoke target reason =>
      rcases Fallible.bind_eq_ok_iff.mp allowed with ⟨_, passed, built⟩
      split_ifs at built with configured
      cases built
      exact ⟨requirePlatformOwner_eq_ok passed, .revoke configured⟩

/-- Every action of a caller is one of the transitions. -/
theorem accessTransition {store next : Locked AccessState AccessKey}
    {process state : AccessProcess} {event : AccessEvent}
    (stepped : (accessService ownerIds isoformat auditLogs).step store process event =
      some (next, state)) : AccessTransition ownerIds store process event next state := by
  simp only [accessService] at stepped
  split at stepped
  · split_ifs at stepped
    split at stepped
    · cases stepped
      exact .moved nofun rfl rfl fun _ impossible => by cases impossible
    · rename_i resolved
      cases stepped
      refine .moved nofun rfl rfl fun context same => ?_
      cases same
      exact ⟨_, _, _, resolved⟩
  · split at stepped
    · cases stepped
      exact .moved nofun rfl rfl fun _ impossible => by cases impossible
    · rename_i allowed
      split_ifs at stepped with bound
      cases stepped
      rcases ownerTransaction_of_transaction allowed with ⟨owner, transaction⟩
      exact .started owner transaction bound
  · rcases Option.map_eq_some_iff.mp stepped with ⟨result, ran, same⟩
    cases same
    exact .stepped ran
  · rcases Option.map_eq_some_iff.mp stepped with ⟨result, ran, same⟩
    cases same
    exact .committed ran
  · cases stepped
    exact .aborted
  · split at stepped <;>
      · cases stepped
        exact .moved nofun rfl rfl fun _ impossible => by cases impossible
  · split_ifs at stepped <;>
      · cases stepped
        exact .moved nofun rfl rfl fun _ impossible => by cases impossible
  · split_ifs at stepped <;>
      · cases stepped
        exact .moved nofun rfl rfl fun _ impossible => by cases impossible
  · split_ifs at stepped with bound
    cases stepped
    exact .requested bound
  · cases stepped

end Transitions

end CopyMint
