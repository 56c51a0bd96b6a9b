import CopyMint.Access.Agreement

/-!
# What a context stands for

A context comes from a private chat, the role of a platform owner from the settings, and
a workspace from the account: it is the personal workspace of a user whom an owner has
approved, and whom nobody has revoked since. No other user ever gets it.
-/

namespace CopyMint

open Hexadecimal Relational RowSecurity Locking Interleaving

/-- The workspace belongs to the user with the Telegram account. -/
def IsPersonalWorkspace (telegramUserId : ℤ) (workspaceId : ℕ) (db : AccessDatabase) : Prop :=
  ∃ user workspace, db.user telegramUserId = some user ∧
    db.workspace workspaceId = some workspace ∧ workspace.personalOwnerUserId = user.id

/-- What a context of an identity stands for. -/
structure Authorized (ownerIds : List ℤ) (identity : TelegramIdentity) (context : RequestContext)
    (state : AccessState) : Prop where
  privateChat : identity.chatType = privateChat
  ownChat : identity.chatId = identity.telegramUserId
  owner : context.platformRole = some .platformOwner → identity.telegramUserId ∈ ownerIds
  workspace : ∀ {workspaceId}, context.workspaceId = some workspaceId →
    IsPersonalWorkspace identity.telegramUserId workspaceId state.db
  endorsed : ∀ {workspaceId}, context.workspaceId = some workspaceId →
    Endorsed ownerIds identity.telegramUserId state.history

variable {ownerIds : List ℤ} {isoformat : ℤ → Text} {auditLogs : Policy SessionSettings AuditLog}
  {before after : AccessState} {process : AccessProcess} {event : AccessEvent}
  {world : World (Locked AccessState AccessKey) AccessProcess}

section Principals

variable {db : AccessDatabase} {userId : ℕ} {telegramUserId : ℤ}

/-- A membership that is found is active, in an active workspace. -/
theorem activeMembership_eq_some {row : WorkspaceMembership}
    (found : activeMembership userId db = some row) :
    row ∈ db.memberships ∧ row.userId = userId ∧ row.status = .active ∧
      ∃ workspace ∈ db.workspaces, workspace.id = row.workspaceId ∧ workspace.status = .active := by
  simp only [activeMembership] at found
  have row_mem := mem_of_mem_visible (List.mem_of_find?_eq_some found)
  have chosen := List.find?_some found
  simp only [Bool.and_eq_true, decide_eq_true_eq, List.any_eq_true] at chosen
  rcases chosen with ⟨⟨mine, active⟩, workspace, workspace_mem, same, activeWorkspace⟩
  exact ⟨row_mem, mine, active, workspace, mem_of_mem_visible workspace_mem, same, activeWorkspace⟩

theorem findPrincipal_eq_some {principal : Principal}
    (found : findPrincipal telegramUserId db = some principal) :
    ∃ user, db.user telegramUserId = some user ∧ principal.userStatus = user.status ∧
      principal.workspaceId = (activeMembership user.id db).map WorkspaceMembership.workspaceId ∧
      principal.workspaceRole = (activeMembership user.id db).map WorkspaceMembership.role := by
  rcases Option.map_eq_some_iff.mp found with ⟨user, user_eq, rfl⟩
  exact ⟨user, user_eq, rfl, rfl, rfl⟩

end Principals

/-- An active membership is one in the personal workspace of its user. -/
theorem AccessSound.workspaceOf_activeMembership (sound : AccessSound ownerIds before) {userId : ℕ}
    {row : WorkspaceMembership} (found : activeMembership userId before.db = some row) :
    ∃ workspace, before.db.workspaceOf userId = some workspace ∧
      workspace.id = row.workspaceId := by
  have keyed := sound.accounts.keyed
  rcases activeMembership_eq_some found with ⟨row_mem, mine, _⟩
  have stored : before.db.membership row.workspaceId row.userId = some row :=
    keyed.memberships.lookup_of_mem row_mem
  rcases sound.links.members stored with ⟨workspace, workspace_eq, owner⟩
  have id_eq : workspace.id = row.workspaceId := (lookup_eq_some_mem workspace_eq).2
  refine ⟨workspace, (workspaceOf_eq_some_iff keyed).mpr ⟨?_, owner.trans mine⟩, id_eq⟩
  rw [id_eq]
  exact workspace_eq

/-- The workspace of an active principal is the user's own, and an owner stands behind it. -/
theorem AccessSound.principal (sound : AccessSound ownerIds before) {telegramUserId : ℤ}
    {principal : Principal} {workspaceId : ℕ}
    (found : findPrincipal telegramUserId before.db = some principal)
    (active : principal.userStatus = .active) (has : principal.workspaceId = some workspaceId) :
    IsPersonalWorkspace telegramUserId workspaceId before.db ∧
      Endorsed ownerIds telegramUserId before.history := by
  rcases findPrincipal_eq_some found with ⟨user, user_eq, status, workspaceId_eq, _⟩
  rw [has] at workspaceId_eq
  rcases Option.map_eq_some_iff.mp workspaceId_eq.symm with ⟨row, row_eq, rfl⟩
  rcases sound.workspaceOf_activeMembership row_eq with ⟨workspace, owned, id_eq⟩
  have stored := (workspaceOf_eq_some_iff sound.accounts.keyed).mp owned
  refine ⟨⟨user, workspace, user_eq, id_eq ▸ stored.1, stored.2⟩, ?_⟩
  rcases sound.accounts.accounts _ user workspace user_eq owned with ⟨_, endorsed⟩ | out
  · exact endorsed
  · have impossible := (active.symm.trans status).trans out.revokedUser
    cases impossible

theorem AccessSound.authorized (sound : AccessSound ownerIds before) {identity : TelegramIdentity}
    {correlationId : ℕ} {latest : Option AccessRequest} {context : RequestContext}
    (resolved : resolveContext ownerIds identity correlationId latest before.db = .ok context) :
    Authorized ownerIds identity context before := by
  rcases resolveContext_eq_ok resolved with ⟨isPrivate, _, owner, workspaces⟩
  simp only [TelegramIdentity.isPrivateChat, Bool.and_eq_true, decide_eq_true_eq] at isPrivate
  refine ⟨isPrivate.1, isPrivate.2, owner, fun has => ?_, fun has => ?_⟩
  · rcases workspaces _ has with ⟨principal, found, active, same⟩
    exact (sound.principal found active same).1
  · rcases workspaces _ has with ⟨principal, found, active, same⟩
    exact (sound.principal found active same).2

/-- A workspace keeps its owner. -/
theorem AccessChange.isPersonalWorkspace
    (change : AccessChange ownerIds before process event after) {telegramUserId : ℤ}
    {workspaceId : ℕ} (personal : IsPersonalWorkspace telegramUserId workspaceId before.db) :
    IsPersonalWorkspace telegramUserId workspaceId after.db := by
  rcases personal with ⟨user, workspace, user_eq, workspace_eq, owner⟩
  cases change with
  | kept => exact ⟨user, workspace, user_eq, workspace_eq, owner⟩
  | decided _ effect =>
      rcases effect.extends_.users user_eq with ⟨later, later_eq, sameId⟩
      rcases effect.extends_.workspaces workspace_eq with ⟨laterWorkspace, found, sameOwner⟩
      exact ⟨later, laterWorkspace, later_eq, found, sameOwner.trans (owner.trans sameId.symm)⟩
  | @requested identity now =>
      have same := (CopyMint.requested identity now before).owners
      refine ⟨user, workspace, ?_, ?_, owner⟩
      · rw [AccessDatabase.user, same.users]
        exact user_eq
      · rw [AccessDatabase.workspace, same.workspaces]
        exact workspace_eq

/-- A workspace has one owner. -/
theorem IsPersonalWorkspace.unique {db : AccessDatabase} (keyed : AccessKeyed db)
    {first second : ℤ} {workspaceId : ℕ} (mine : IsPersonalWorkspace first workspaceId db)
    (others : IsPersonalWorkspace second workspaceId db) : second = first := by
  rcases mine with ⟨user, workspace, user_eq, workspace_eq, owner⟩
  rcases others with ⟨other, same, other_eq, same_eq, otherOwner⟩
  cases workspace_eq.symm.trans same_eq
  have user_mem := lookup_eq_some_mem user_eq
  have other_mem := lookup_eq_some_mem other_eq
  have rows := keyed.userIds.eq_of_key_eq user_mem.1 other_mem.1 (owner.symm.trans otherOwner)
  exact other_mem.2.symm.trans (rows ▸ user_mem.2)

/--
In every state that the calls can reach a context stands for what it says, and nobody else
gets the workspace that it carries, then or later.
-/
theorem contexts_authorized
    (run : (accessService ownerIds isoformat auditLogs).Reaches Unrestricted initialAccess world)
    {identity : TelegramIdentity} {correlationId : ℕ} {latest : Option AccessRequest}
    {context : RequestContext}
    (resolved : resolveContext ownerIds identity correlationId latest world.store.committed.db =
      .ok context) :
    Authorized ownerIds identity context world.store.committed ∧
      ∀ {later}, (accessService ownerIds isoformat auditLogs).Reaches Unrestricted world later →
        ∀ {other otherId otherLatest otherContext workspaceId},
          resolveContext ownerIds other otherId otherLatest later.store.committed.db =
            .ok otherContext →
          context.workspaceId = some workspaceId → otherContext.workspaceId = some workspaceId →
            other.telegramUserId = identity.telegramUserId := by
  have holds := accessWorld_of_reaches run
  have authorized := holds.sound.authorized resolved
  refine ⟨authorized, fun continues _ _ _ _ workspaceId otherResolved mine others => ?_⟩
  have kept := continues.invariant (fun reached => AccessWorld ownerIds reached ∧
    IsPersonalWorkspace identity.telegramUserId workspaceId reached.store.committed.db) ?_
    ⟨holds, authorized.workspace mine⟩
  · exact kept.2.unique kept.1.sound.accounts.keyed
      ((kept.1.sound.authorized otherResolved).workspace others)
  · rintro reached next index event ⟨holds, personal⟩ _ acted
    rcases holds.act acted with ⟨after, change⟩
    exact ⟨after, change.isPersonalWorkspace personal⟩

/-- Once the request is approved, the context of the user carries the workspace. -/
theorem sampleApproval_authorized :
    ∃ world, (accessService [1] Json.decimal auditPolicy).Reaches Unrestricted initialAccess world ∧
      ∃ context workspaceId, resolveContext [1] sampleIdentity 9 none world.store.committed.db =
          .ok context ∧ context.workspaceId = some workspaceId ∧
        IsPersonalWorkspace 99 workspaceId world.store.committed.db := by
  have reached : ((accessService [1] Json.decimal auditPolicy).execute initialAccess
      approvalSchedule).any (fun world =>
        (resolveContext [1] sampleIdentity 9 none world.store.committed.db).toOption.any
          fun context => context.workspaceId.isSome) = true := by
    decide +kernel
  rcases (Option.any_eq_true _ _).mp reached with ⟨world, executed, resolves⟩
  have run := Program.reaches_of_execute executed (Program.meets_unrestricted _ _)
  cases resolved : resolveContext [1] sampleIdentity 9 none world.store.committed.db with
  | error error => simp [resolved, Except.toOption] at resolves
  | ok context =>
      rw [resolved] at resolves
      rcases Option.isSome_iff_exists.mp resolves with ⟨workspaceId, carried⟩
      exact ⟨world, run, context, workspaceId, resolved, carried,
        (contexts_authorized run resolved).1.workspace carried⟩

end CopyMint
