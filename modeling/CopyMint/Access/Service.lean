import CopyMint.Access.RowPolicies
import CopyMint.Access.Transactions
import CopyMint.Library.Interleaving

/-!
# The access service

Who a Telegram identity is, and what each operation of the service checks before it
goes to the database. Any number of callers run at once: every query and every
statement of a decision is an action of its own, and a decision can be rolled back at
any time.
-/

namespace CopyMint

open Hexadecimal Relational RowSecurity Locking Interleaving

/-- What a lookup of an account returns. -/
structure Principal where
  userId : ℕ
  telegramUserId : ℤ
  userStatus : UserStatus
  workspaceId : Option ℕ
  workspaceRole : Option WorkspaceRole
  deriving DecidableEq

/-- A membership of the user that can be joined with an active workspace. -/
def activeMembership (userId : ℕ) (db : AccessDatabase) : Option WorkspaceMembership :=
  let settings : SessionSettings := { userId := some userId }
  (visible migratedPolicies.memberships settings db.memberships).find? fun row =>
    row.userId = userId && row.status = .active &&
      (visible migratedPolicies.workspaces settings db.workspaces).any fun workspace =>
        workspace.id = row.workspaceId && workspace.status = .active

/-- `find_principal`, with the active membership of the account if there is one. -/
def findPrincipal (telegramUserId : ℤ) (db : AccessDatabase) : Option Principal :=
  (db.user telegramUserId).map fun user =>
    let membership := activeMembership user.id db
    { userId := user.id
      telegramUserId := user.telegramUserId
      userStatus := user.status
      workspaceId := membership.map WorkspaceMembership.workspaceId
      workspaceRole := membership.map WorkspaceMembership.role }

/-- The query for the latest request may return any of those that were made last. -/
def isLatestRequest (telegramUserId : ℤ) (db : AccessDatabase) : Option AccessRequest → Bool
  | none => db.accessRequests.all fun row => row.telegramUserId ≠ telegramUserId
  | some latest =>
      latest ∈ db.accessRequests && latest.telegramUserId = telegramUserId &&
        db.accessRequests.all fun row =>
          row.telegramUserId ≠ telegramUserId || row.requestedAt ≤ latest.requestedAt

/-- `RequestContext.platform_owner`. -/
def RequestContext.platformOwner (identity : TelegramIdentity) (correlationId : ℕ) :
    RequestContext where
  telegramUserId := identity.telegramUserId
  chatId := identity.chatId
  chatType := identity.chatType
  correlationId
  platformRole := some .platformOwner

section Service

variable (ownerIds : List ℤ)

/-- `AccessService.resolve_context`, with the latest request of the account. -/
def resolveContext (identity : TelegramIdentity) (correlationId : ℕ)
    (latest : Option AccessRequest) (db : AccessDatabase) : Except AccessError RequestContext := do
  identity.requirePrivateChat
  let isOwner := identity.telegramUserId ∈ ownerIds
  match findPrincipal identity.telegramUserId db with
  | none =>
      if isOwner then .ok (.platformOwner identity correlationId)
      else if latest.any fun request => request.status = .pending then
        .error (.accessPending "Access request is awaiting owner approval.")
      else .error (.accessDenied "This Telegram account is not approved for CopyMint.")
  | some principal =>
      if principal.userStatus ≠ .active then
        .error (.accessDenied "CopyMint access has been revoked.")
      else if (principal.workspaceId = none ∨ principal.workspaceRole = none) ∧ ¬isOwner then
        .error (.accessDenied "The approved account has no active workspace.")
      else
        .ok {
          telegramUserId := identity.telegramUserId
          chatId := identity.chatId
          chatType := identity.chatType
          correlationId
          userId := some principal.userId
          workspaceId := principal.workspaceId
          workspaceRole := principal.workspaceRole
          platformRole := if isOwner then some .platformOwner else none }

/-- A cooldown of no time counts as none. -/
def cooldownEnd (now : ℤ) (cooldown : Option ℤ) : Option ℤ :=
  (cooldown.filter (· ≠ 0)).map (now + ·)

variable (isoformat : ℤ → Text) (auditLogs : Policy SessionSettings AuditLog)

/-- `approve`, `reject` and `revoke`: what is checked, and the transaction that follows. -/
def AccessOperation.transaction (actor : RequestContext) (now : ℤ) (firstId : ℕ) :
    AccessOperation → Except AccessError (AccessScript (Option AccessDecisionResult))
  | approve requestId => do
      actor.requirePlatformOwner
      .ok (some <$> approveScript auditLogs requestId actor.telegramUserId actor.correlationId now
        firstId)
  | reject requestId reason cooldown => do
      actor.requirePlatformOwner
      .ok (some <$> rejectScript auditLogs isoformat requestId actor.telegramUserId
        actor.correlationId reason now (cooldownEnd now cooldown) firstId)
  | revoke targetTelegramUserId reason => do
      actor.requirePlatformOwner
      if targetTelegramUserId ∈ ownerIds then
        .error (.accessDenied "A configured platform owner cannot be revoked through the bot.")
      else
        .ok ((fun _ => none) <$> revokeScript auditLogs targetTelegramUserId actor.telegramUserId
          actor.correlationId reason now firstId)

end Service

/-- Where a caller of the service is. -/
inductive AccessProcess where
  | idle
  /-- `resolve_context` has returned. -/
  | authorized (context : RequestContext)
  /-- `request_access` in a private chat, after each of its queries. -/
  | requesting (identity : TelegramIdentity)
  | inactive (identity : TelegramIdentity)
  | eligible (identity : TelegramIdentity) (now : ℤ)
  /-- A decision under way, with its caller and the identifiers that were drawn for it. -/
  | deciding (actor : RequestContext) (operation : AccessOperation) (firstId : ℕ)
      (running : Running AccessState AccessKey TransactionFailure (Option AccessDecisionResult))

/-- What a caller of the service does next. -/
inductive AccessEvent where
  | resolveContext (identity : TelegramIdentity) (correlationId : ℕ)
      (latest : Option AccessRequest)
  | decide (operation : AccessOperation) (now : ℤ)
  | statement
  | commit
  | abort
  | requestAccess (identity : TelegramIdentity)
  | findPrincipal
  | findLatestRequest (latest : Option AccessRequest) (now : ℤ)
  | getOrCreatePendingRequest

/-- As many identifiers as a decision can need. -/
def decisionIds : ℕ := 7

/-- The committed database is replaced, or its next identifier moves on. -/
def withDatabase (change : AccessDatabase → AccessDatabase)
    (store : Locked AccessState AccessKey) : Locked AccessState AccessKey :=
  { store with committed := { store.committed with db := change store.committed.db } }

/-- Identifiers are drawn whether or not the transaction commits. -/
def drawIds (count : ℕ) : Locked AccessState AccessKey → Locked AccessState AccessKey :=
  withDatabase fun db => { db with nextId := db.nextId + count }

variable (ownerIds : List ℤ) (isoformat : ℤ → Text) (auditLogs : Policy SessionSettings AuditLog)

/-- The actions of a caller. Identifiers have 128 bits. -/
def accessService : Program (Locked AccessState AccessKey) AccessProcess AccessEvent where
  step store process event :=
    let db := store.committed.db
    match process, event with
    | .idle, .resolveContext identity correlationId latest =>
        if isLatestRequest identity.telegramUserId db latest then
          match resolveContext ownerIds identity correlationId latest db with
          | .error _ => some (store, .idle)
          | .ok context => some (store, .authorized context)
        else none
    | .authorized context, .decide operation now =>
        match operation.transaction ownerIds isoformat auditLogs context now db.nextId with
        | .error _ => some (store, .idle)
        | .ok script =>
            if db.nextId + decisionIds ≤ 2 ^ 128 then
              some (drawIds decisionIds store,
                .deciding context operation db.nextId (.start script))
            else none
    | .deciding context operation firstId running, .statement =>
        (running.step store).map fun result =>
          (result.1, .deciding context operation firstId result.2)
    | .deciding _ _ _ running, .commit =>
        (running.commit store).map fun result => (result.1, .idle)
    | .deciding _ _ _ running, .abort => some (running.abort store, .idle)
    | .idle, .requestAccess identity =>
        match identity.requirePrivateChat with
        | .error _ => some (store, .idle)
        | .ok () => some (store, .requesting identity)
    | .requesting identity, .findPrincipal =>
        if (findPrincipal identity.telegramUserId db).any fun principal =>
            principal.userStatus = .active then
          some (store, .idle)
        else some (store, .inactive identity)
    | .inactive identity, .findLatestRequest latest now =>
        if isLatestRequest identity.telegramUserId db latest then
          if latest.any fun request =>
              request.status = .pending || request.cooldownUntil.any (now < ·) then
            some (store, .idle)
          else some (store, .eligible identity now)
        else none
    | .eligible identity now, .getOrCreatePendingRequest =>
        if db.nextId < 2 ^ 128 then
          some (withDatabase (fun db => (getOrCreatePendingRequest identity now db).1) store, .idle)
        else none
    | _, _ => none

/-- The database before anybody has asked for access. -/
def emptyAccessState : AccessState where
  db := emptyAccess
  history := []

/-- No caller has begun. -/
def initialAccess : World (Locked AccessState AccessKey) AccessProcess :=
  .uniform ⟨emptyAccessState, []⟩ .idle

end CopyMint
