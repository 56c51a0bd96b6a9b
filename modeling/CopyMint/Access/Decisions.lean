import CopyMint.Access.Context
import CopyMint.Access.Database
import CopyMint.Domain.Ids

/-!
# Access decisions

Approval, rejection and revocation each run in one transaction, which starts
without settings and sets the user and the workspace before it touches the
tables that are protected by them. An operation that raises leaves the database
as it was. How a timestamp is written into an audit row is a parameter.
-/

namespace CopyMint

open Hexadecimal Relational RowSecurity

/-- The value of the enumeration, as audit rows have it. -/
def AccessRequestStatus.value : AccessRequestStatus → Text
  | .pending => "pending".toList
  | .approved => "approved".toList
  | .rejected => "rejected".toList
  | .cancelled => "cancelled".toList

/-- The value of the enumeration, as audit rows have it. -/
def UserStatus.value : UserStatus → Text
  | .active => "active".toList
  | .revoked => "revoked".toList

/-- The result of a decision. -/
structure AccessDecisionResult where
  requestId : ℕ
  telegramUserId : ℤ
  status : AccessRequestStatus
  userId : Option ℕ := none
  workspaceId : Option ℕ := none
  deriving DecidableEq

variable (isoformat : ℤ → Text) (policies : AccessPolicies)

/-- A reason in an audit row, `None` included. -/
def optionalReason (reason : Option Text) : Json :=
  reason.elim .null .str

namespace AccessDatabase

/-- The row of an account. -/
def user (db : AccessDatabase) (telegramUserId : ℤ) : Option PlatformUser :=
  lookup PlatformUser.telegramUserId telegramUserId db.platformUsers

/-- The row of a request. -/
def request (db : AccessDatabase) (requestId : ℕ) : Option AccessRequest :=
  lookup AccessRequest.id requestId db.accessRequests

/-- Change the row of an account. -/
def updateUser (db : AccessDatabase) (telegramUserId : ℤ) (change : PlatformUser → PlatformUser) :
    AccessDatabase :=
  { db with
    platformUsers := updateWhere (fun row => row.telegramUserId = telegramUserId) change
      db.platformUsers }

/-- Add the row of an account. -/
def insertUser (db : AccessDatabase) (user : PlatformUser) : AccessDatabase :=
  { db with
    platformUsers := db.platformUsers ++ [user]
    nextId := db.nextId + 1 }

/-- Change the row of a request. -/
def updateRequest (db : AccessDatabase) (requestId : ℕ) (change : AccessRequest → AccessRequest) :
    AccessDatabase :=
  { db with
    accessRequests := updateWhere (fun row => row.id = requestId) change db.accessRequests }

/-- Add an audit row; the insertion reads back the time that the database fills in. -/
def insertAudit (settings : SessionSettings) (audit : AuditLog) (db : AccessDatabase) :
    Except AccessFailure AccessDatabase := do
  let auditLogs ← secured "audit_logs"
    (insertReturning policies.auditLogs settings audit db.auditLogs)
  .ok { db with auditLogs, nextId := db.nextId + 1 }

end AccessDatabase

open AccessDatabase

/-- An owner whose row had been revoked. -/
def reactivated (actor : PlatformUser) : PlatformUser :=
  { actor with status := .active, revokedAt := none, revokedByUserId := none }

/-- The user row of a platform owner, created or reactivated on the way. -/
def platformActor (telegramUserId now : ℤ) (db : AccessDatabase) :
    AccessDatabase × PlatformUser :=
  match db.user telegramUserId with
  | some actor =>
      if actor.status ≠ .active then
        (db.updateUser telegramUserId reactivated, reactivated actor)
      else (db, actor)
  | none =>
      let actor : PlatformUser :=
        { id := db.nextId
          telegramUserId
          username := none
          displayName := none
          status := .active
          approvedAt := now
          approvedByUserId := none
          revokedAt := none
          revokedByUserId := none }
      (db.insertUser actor, actor)

/-- The request that a decision is about, which has to be pending. -/
def pendingRequest (requestId : ℕ) (db : AccessDatabase) : Except AccessFailure AccessRequest :=
  match db.request requestId with
  | none => .error .accessRequestNotFound
  | some accessRequest =>
      if accessRequest.status ≠ .pending then .error .accessRequestNotPending
      else .ok accessRequest

/-- The row of an account that an approval brings up to date. -/
def approved (accessRequest : AccessRequest) (actorId : ℕ) (decidedAt : ℤ)
    (user : PlatformUser) : PlatformUser :=
  { user with
    username := accessRequest.username
    displayName := accessRequest.displayName
    status := .active
    approvedAt := decidedAt
    approvedByUserId := some actorId
    revokedAt := none
    revokedByUserId := none }

/-- The user row of an approved request, created or brought up to date. -/
def approvedUser (accessRequest : AccessRequest) (actorId : ℕ) (decidedAt : ℤ)
    (db : AccessDatabase) : AccessDatabase × PlatformUser :=
  match db.user accessRequest.telegramUserId with
  | none =>
      let user : PlatformUser :=
        { id := db.nextId
          telegramUserId := accessRequest.telegramUserId
          username := accessRequest.username
          displayName := accessRequest.displayName
          status := .active
          approvedAt := decidedAt
          approvedByUserId := some actorId
          revokedAt := none
          revokedByUserId := none }
      (db.insertUser user, user)
  | some user =>
      (db.updateUser accessRequest.telegramUserId (approved accessRequest actorId decidedAt),
        approved accessRequest actorId decidedAt user)

/-- Text that is missing or empty counts as false. -/
def nonempty (text : Option Text) : Option Text := text.filter fun text => !text.isEmpty

/-- `display_name or username or telegram_user_id`. -/
def workspaceLabel (user : PlatformUser) : Text :=
  ((nonempty user.displayName).or (nonempty user.username)).getD
    (Json.decimal user.telegramUserId)

/-- The name of a personal workspace. -/
def workspaceName (user : PlatformUser) : Text := workspaceLabel user ++ "'s workspace".toList

/-- The workspace that a query for the personal workspace of a user locks. -/
def lockedWorkspace (settings : SessionSettings) (userId : ℕ) (db : AccessDatabase) :
    Option Workspace :=
  (lockable policies.workspaces settings db.workspaces).find? fun row =>
    row.personalOwnerUserId = userId

/-- Set the status of a workspace. -/
def updateWorkspace (settings : SessionSettings) (workspaceId : ℕ) (status : WorkspaceStatus)
    (db : AccessDatabase) : Except AccessFailure AccessDatabase := do
  let workspaces ← secured "workspaces"
    (updateSelected policies.workspaces settings (fun row => row.id = workspaceId)
      (fun row => { row with status }) db.workspaces)
  .ok { db with workspaces }

/-- The personal workspace of a user, created or activated. -/
def personalWorkspace (settings : SessionSettings) (user : PlatformUser) (db : AccessDatabase) :
    Except AccessFailure (AccessDatabase × Workspace) :=
  match lockedWorkspace policies settings user.id db with
  | none => do
      let workspace : Workspace :=
        { id := db.nextId
          name := workspaceName user
          personalOwnerUserId := user.id
          status := .active }
      if workspace.name.length > 120 then .error (.stringTooLong "workspaces.name")
      let workspaces ← secured "workspaces"
        (insertReturning policies.workspaces settings workspace db.workspaces)
      .ok ({ db with workspaces, nextId := db.nextId + 1 }, workspace)
  | some workspace => do
      let db ← updateWorkspace policies settings workspace.id .active db
      .ok (db, { workspace with status := .active })

/-- Insert the membership of the owner of a workspace, or activate the one that there is. -/
def activateMembership (settings : SessionSettings) (workspaceId userId : ℕ)
    (db : AccessDatabase) : Except AccessFailure AccessDatabase :=
  let own := fun row : WorkspaceMembership =>
    row.workspaceId = workspaceId && row.userId = userId
  match (visible policies.memberships settings db.memberships).find? own with
  | none => do
      let membership : WorkspaceMembership :=
        { id := db.nextId
          workspaceId
          userId
          role := .owner
          status := .active
          revokedAt := none }
      let memberships ← secured "workspace_memberships"
        (insertReturning policies.memberships settings membership db.memberships)
      .ok { db with memberships, nextId := db.nextId + 1 }
  | some membership => do
      let memberships ← secured "workspace_memberships"
        (updateSelected policies.memberships settings (fun row => row.id = membership.id)
          (fun row => { row with status := .active, revokedAt := none }) db.memberships)
      .ok { db with memberships }

/-- Insert the destination of a workspace, or enable the one that there is. -/
def enableDestination (settings : SessionSettings) (workspaceId : ℕ) (telegramChatId : ℤ)
    (db : AccessDatabase) : Except AccessFailure AccessDatabase :=
  let own := fun row : NotificationDestination =>
    row.workspaceId = workspaceId && row.telegramChatId = telegramChatId
  match (visible policies.destinations settings db.destinations).find? own with
  | none => do
      let destination : NotificationDestination :=
        { id := db.nextId
          workspaceId
          telegramChatId
          chatType := privateChat
          enabled := true }
      let destinations ← secured "notification_destinations"
        (insertReturning policies.destinations settings destination db.destinations)
      .ok { db with destinations, nextId := db.nextId + 1 }
  | some destination => do
      let destinations ← secured "notification_destinations"
        (updateSelected policies.destinations settings (fun row => row.id = destination.id)
          (fun row => { row with enabled := true }) db.destinations)
      .ok { db with destinations }

/-- The configuration of the first strategy of a workspace. -/
def defaultConfiguration : Json :=
  .obj [("minimum_support".toList, .int 2), ("identity_mode".toList, .str "initiator".toList)]

/-- Insert the first strategy of a workspace unless there is one. -/
def ensureStrategy (settings : SessionSettings) (workspaceId : ℕ) (db : AccessDatabase) :
    Except AccessFailure AccessDatabase :=
  let own := fun row : WorkspaceStrategy => row.workspaceId = workspaceId && row.version = 1
  match (visible policies.strategies settings db.strategies).find? own with
  | none => do
      let strategy : WorkspaceStrategy :=
        { id := db.nextId
          workspaceId
          version := 1
          mode := .alert
          configuration := defaultConfiguration
          active := true }
      let strategies ← secured "workspace_strategies"
        (insertReturning policies.strategies settings strategy db.strategies)
      .ok { db with strategies, nextId := db.nextId + 1 }
  | some _ => .ok db

/-- The row of a request that has been decided. -/
def AccessRequest.decided (status : AccessRequestStatus) (decidedAt : ℤ) (actorId : ℕ)
    (row : AccessRequest) : AccessRequest :=
  { row with status, decidedAt := some decidedAt, decidedByUserId := some actorId }

/-- The audit row of an approval. -/
def approvalAudit (id workspaceId userId requestId : ℕ) (actorTelegramUserId : ℤ)
    (correlationId : ℕ) : AuditLog where
  id
  workspaceId := some workspaceId
  actorType := .telegramUser
  actorId := Json.decimal actorTelegramUserId
  action := "access_request_approved".toList
  resourceType := "access_request".toList
  resourceId := uuidText requestId
  before := some (.obj [("status".toList, .str AccessRequestStatus.pending.value)])
  after := some (.obj
    [("status".toList, .str AccessRequestStatus.approved.value),
      ("user_id".toList, .str (uuidText userId)),
      ("workspace_id".toList, .str (uuidText workspaceId))])
  correlationId
  severity := .info

/-- `approve_request`, one transaction. -/
def approveRequest (requestId : ℕ) (actorTelegramUserId : ℤ) (correlationId : ℕ)
    (decidedAt : ℤ) (db : AccessDatabase) :
    Except AccessFailure (AccessDatabase × AccessDecisionResult) := do
  let (db, actor) := platformActor actorTelegramUserId decidedAt db
  let accessRequest ← pendingRequest requestId db
  let (db, user) := approvedUser accessRequest actor.id decidedAt db
  let settings : SessionSettings := { userId := some user.id }
  let (db, workspace) ← personalWorkspace policies settings user db
  let settings : SessionSettings := { settings with workspaceId := some workspace.id }
  let db ← activateMembership policies settings workspace.id user.id db
  let db ← enableDestination policies settings workspace.id accessRequest.telegramUserId db
  let db ← ensureStrategy policies settings workspace.id db
  let db := db.updateRequest requestId (AccessRequest.decided .approved decidedAt actor.id)
  let db ← insertAudit policies settings
    (approvalAudit db.nextId workspace.id user.id requestId actorTelegramUserId
      correlationId) db
  .ok (db,
    { requestId
      telegramUserId := user.telegramUserId
      status := .approved
      userId := some user.id
      workspaceId := some workspace.id })

/-- The row of a request that has been rejected. -/
def AccessRequest.rejected (decidedAt : ℤ) (actorId : ℕ) (reason : Option Text)
    (cooldownUntil : Option ℤ) (row : AccessRequest) : AccessRequest :=
  { row.decided .rejected decidedAt actorId with decisionReason := reason, cooldownUntil }

/-- The audit row of a rejection. -/
def rejectionAudit (id requestId : ℕ) (actorTelegramUserId : ℤ) (correlationId : ℕ)
    (reason : Option Text) (cooldownUntil : Option ℤ) : AuditLog where
  id
  workspaceId := none
  actorType := .telegramUser
  actorId := Json.decimal actorTelegramUserId
  action := "access_request_rejected".toList
  resourceType := "access_request".toList
  resourceId := uuidText requestId
  before := some (.obj [("status".toList, .str AccessRequestStatus.pending.value)])
  after := some (.obj
    [("status".toList, .str AccessRequestStatus.rejected.value),
      ("reason".toList, optionalReason reason),
      ("cooldown_until".toList,
        cooldownUntil.elim .null fun moment => .str (isoformat moment))])
  correlationId
  severity := .info

/-- `reject_request`, one transaction. -/
def rejectRequest (requestId : ℕ) (actorTelegramUserId : ℤ) (correlationId : ℕ)
    (reason : Option Text) (decidedAt : ℤ) (cooldownUntil : Option ℤ) (db : AccessDatabase) :
    Except AccessFailure (AccessDatabase × AccessDecisionResult) := do
  let (db, actor) := platformActor actorTelegramUserId decidedAt db
  let accessRequest ← pendingRequest requestId db
  let db := db.updateRequest requestId
    (AccessRequest.rejected decidedAt actor.id reason cooldownUntil)
  let db ← insertAudit policies {}
    (rejectionAudit isoformat db.nextId requestId actorTelegramUserId correlationId reason
      cooldownUntil) db
  .ok (db, { requestId, telegramUserId := accessRequest.telegramUserId, status := .rejected })

/-- Suspend the workspace of a revoked user, with its membership and destinations. -/
def suspendWorkspace (settings : SessionSettings) (workspaceId userId : ℕ) (revokedAt : ℤ)
    (db : AccessDatabase) : Except AccessFailure AccessDatabase := do
  let db ← updateWorkspace policies settings workspaceId .suspended db
  let memberships ← secured "workspace_memberships"
    (updateSelected policies.memberships settings
      (fun row => row.workspaceId = workspaceId && row.userId = userId)
      (fun row => { row with status := .revoked, revokedAt := some revokedAt }) db.memberships)
  let destinations ← secured "notification_destinations"
    (updateSelected policies.destinations settings (fun row => row.workspaceId = workspaceId)
      (fun row => { row with enabled := false }) db.destinations)
  .ok { db with memberships, destinations }

/-- The row of an account that has been revoked. -/
def PlatformUser.revoked (revokedAt : ℤ) (actorId : ℕ) (row : PlatformUser) : PlatformUser :=
  { row with status := .revoked, revokedAt := some revokedAt, revokedByUserId := some actorId }

/-- The audit row of a revocation. -/
def revocationAudit (id : ℕ) (workspaceId : Option ℕ) (user : PlatformUser)
    (actorTelegramUserId : ℤ) (correlationId : ℕ) (reason : Option Text) : AuditLog where
  id
  workspaceId
  actorType := .telegramUser
  actorId := Json.decimal actorTelegramUserId
  action := "platform_user_revoked".toList
  resourceType := "platform_user".toList
  resourceId := uuidText user.id
  before := some (.obj [("status".toList, .str user.status.value)])
  after := some (.obj
    [("status".toList, .str UserStatus.revoked.value), ("reason".toList, optionalReason reason)])
  correlationId
  severity := .high

/-- `revoke_user`, one transaction. -/
def revokeUser (targetTelegramUserId actorTelegramUserId : ℤ) (correlationId : ℕ)
    (reason : Option Text) (revokedAt : ℤ) (db : AccessDatabase) :
    Except AccessFailure AccessDatabase := do
  let (db, actor) := platformActor actorTelegramUserId revokedAt db
  match db.user targetTelegramUserId with
  | none => .error .userNotFound
  | some user =>
      let settings : SessionSettings := { userId := some user.id }
      match lockedWorkspace policies settings user.id db with
      | none => do
          let db := db.updateUser targetTelegramUserId (PlatformUser.revoked revokedAt actor.id)
          insertAudit policies settings
            (revocationAudit db.nextId none user actorTelegramUserId correlationId
              reason) db
      | some workspace => do
          let settings : SessionSettings := { settings with workspaceId := some workspace.id }
          let db ← suspendWorkspace policies settings workspace.id user.id revokedAt db
          let db := db.updateUser targetTelegramUserId (PlatformUser.revoked revokedAt actor.id)
          insertAudit policies settings
            (revocationAudit db.nextId (some workspace.id) user actorTelegramUserId
              correlationId reason) db

/-- The audit row of an unauthorized attempt. -/
def attemptAudit (id : ℕ) (identity : TelegramIdentity) (action code : Text)
    (correlationId : ℕ) : AuditLog where
  id
  workspaceId := none
  actorType := .telegramUser
  actorId := Json.decimal identity.telegramUserId
  action := "unauthorized_telegram_attempt".toList
  resourceType := "telegram_action".toList
  resourceId := action
  before := none
  after := some (.obj
    [("code".toList, .str code), ("chat_type".toList, .str identity.chatType),
      ("chat_id".toList, .int identity.chatId)])
  correlationId
  severity := .high

/-- `unauthorized_attempt`, one transaction. -/
def unauthorizedAttempt (identity : TelegramIdentity) (action code : Text) (correlationId : ℕ)
    (db : AccessDatabase) : Except AccessFailure AccessDatabase :=
  insertAudit policies {} (attemptAudit db.nextId identity action code correlationId) db

/-- Request access, unless a request of the account is pending already. -/
def getOrCreatePendingRequest (identity : TelegramIdentity) (requestedAt : ℤ)
    (db : AccessDatabase) : AccessDatabase × AccessRequest × Bool :=
  let pending := db.accessRequests.find? fun row =>
    row.telegramUserId = identity.telegramUserId && row.status = .pending
  match pending with
  | some existing => (db, existing, false)
  | none =>
      let created : AccessRequest :=
        { id := db.nextId
          telegramUserId := identity.telegramUserId
          username := identity.username
          displayName := identity.displayName
          status := .pending
          requestedAt
          decidedAt := none
          decidedByUserId := none
          decisionReason := none
          cooldownUntil := none }
      ({ db with accessRequests := db.accessRequests ++ [created], nextId := db.nextId + 1 },
        created, true)

end CopyMint
