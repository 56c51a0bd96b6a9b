import CopyMint.Access.Decisions
import CopyMint.Library.Locking

/-!
# Access decisions statement by statement

Each decision as a transaction script: which rows it locks, what each of its
queries reads and what it writes. A row is locked by the key that the query finds
it with.

A personal workspace is locked by its owner and by its own id, which are two keys
of one row. Whoever holds it reads and writes the memberships, destinations and
strategies of the workspace, which are not locked themselves. The row policies
admit all of these statements, as they concern the user and the workspace that the
transaction has set, so that only the audit log has a policy here.

The identifiers that a decision needs are drawn before it starts.
-/

namespace CopyMint

open Hexadecimal Relational RowSecurity Locking

/-- A decision that has been committed. -/
inductive AccessDecision where
  | approved (requestId : ℕ) (telegramUserId actorTelegramUserId : ℤ)
  | rejected (requestId : ℕ) (telegramUserId actorTelegramUserId : ℤ)
  | revoked (telegramUserId actorTelegramUserId : ℤ)
  deriving DecidableEq

/-- A decision that is asked for, with its arguments. -/
inductive AccessOperation where
  | approve (requestId : ℕ)
  | reject (requestId : ℕ) (reason : Option Text) (cooldown : Option ℤ)
  | revoke (targetTelegramUserId : ℤ) (reason : Option Text)
  deriving DecidableEq

/-- The request that a decision is about. -/
def AccessOperation.requestId : AccessOperation → Option ℕ
  | approve requestId | reject requestId _ _ => some requestId
  | revoke _ _ => none

/-- The database with the decisions that were committed to it, the last one at the end. -/
structure AccessState where
  db : AccessDatabase
  history : List AccessDecision

/-- What a transaction locks: a user, a request, and a workspace by its owner and by its id. -/
inductive AccessKey where
  | user (telegramUserId : ℤ)
  | request (requestId : ℕ)
  | owner (userId : ℕ)
  | workspace (workspaceId : ℕ)
  deriving DecidableEq

/-- What ends a transaction: an error of the repository or a violated unique constraint. -/
inductive TransactionFailure where
  | raised (failure : AccessFailure)
  | uniqueViolation (table : String)
  deriving DecidableEq

/-- The statements of a decision. -/
abbrev AccessScript (Result : Type) := Script AccessState AccessKey TransactionFailure Result

/-- The unique key of a membership. -/
def WorkspaceMembership.key (row : WorkspaceMembership) : ℕ × ℕ := (row.workspaceId, row.userId)

/-- The unique key of a destination. -/
def NotificationDestination.key (row : NotificationDestination) : ℕ × ℤ :=
  (row.workspaceId, row.telegramChatId)

/-- The unique key of a strategy. -/
def WorkspaceStrategy.key (row : WorkspaceStrategy) : ℕ × ℕ := (row.workspaceId, row.version)

namespace AccessDatabase

variable (db : AccessDatabase)

/-- The row of a workspace. -/
def workspace (workspaceId : ℕ) : Option Workspace :=
  lookup Workspace.id workspaceId db.workspaces

/-- The personal workspace of a user. -/
def ownWorkspace (userId : ℕ) : Option ℕ :=
  (lookup Workspace.personalOwnerUserId userId db.workspaces).map Workspace.id

/-- The membership of an account in a workspace. -/
def membership (workspaceId userId : ℕ) : Option WorkspaceMembership :=
  lookup WorkspaceMembership.key (workspaceId, userId) db.memberships

/-- The destination of a workspace in a chat. -/
def destination (workspaceId : ℕ) (telegramChatId : ℤ) : Option NotificationDestination :=
  lookup NotificationDestination.key (workspaceId, telegramChatId) db.destinations

/-- A version of the strategy of a workspace. -/
def strategy (workspaceId version : ℕ) : Option WorkspaceStrategy :=
  lookup WorkspaceStrategy.key (workspaceId, version) db.strategies

end AccessDatabase

section Writes

/-- The writes of a transaction, each to one table. -/
def writeUsers (change : List PlatformUser → List PlatformUser) (state : AccessState) :
    AccessState :=
  { state with db := { state.db with platformUsers := change state.db.platformUsers } }

/-- Change the table of requests. -/
def writeRequests (change : List AccessRequest → List AccessRequest) (state : AccessState) :
    AccessState :=
  { state with db := { state.db with accessRequests := change state.db.accessRequests } }

/-- Change the table of workspaces. -/
def writeWorkspaces (change : List Workspace → List Workspace) (state : AccessState) :
    AccessState :=
  { state with db := { state.db with workspaces := change state.db.workspaces } }

/-- Change the table of memberships. -/
def writeMemberships (change : List WorkspaceMembership → List WorkspaceMembership)
    (state : AccessState) : AccessState :=
  { state with db := { state.db with memberships := change state.db.memberships } }

/-- Change the table of destinations. -/
def writeDestinations (change : List NotificationDestination → List NotificationDestination)
    (state : AccessState) : AccessState :=
  { state with db := { state.db with destinations := change state.db.destinations } }

/-- Change the table of strategies. -/
def writeStrategies (change : List WorkspaceStrategy → List WorkspaceStrategy)
    (state : AccessState) : AccessState :=
  { state with db := { state.db with strategies := change state.db.strategies } }

/-- Append an audit row. -/
def writeAudit (audit : AuditLog) (state : AccessState) : AccessState :=
  { state with db := { state.db with auditLogs := state.db.auditLogs ++ [audit] } }

/-- Note that the decision of the transaction will have been committed. -/
def record (decision : AccessDecision) (state : AccessState) : AccessState :=
  { state with history := state.history ++ [decision] }

end Writes

/-- The user row of a platform owner who acts for the first time. -/
def newActor (id : ℕ) (telegramUserId now : ℤ) : PlatformUser where
  id
  telegramUserId
  username := none
  displayName := none
  status := .active
  approvedAt := now
  approvedByUserId := none
  revokedAt := none
  revokedByUserId := none

/-- The user row that an approved request creates. -/
def newUser (id actorId : ℕ) (decidedAt : ℤ) (accessRequest : AccessRequest) : PlatformUser where
  id
  telegramUserId := accessRequest.telegramUserId
  username := accessRequest.username
  displayName := accessRequest.displayName
  status := .active
  approvedAt := decidedAt
  approvedByUserId := some actorId
  revokedAt := none
  revokedByUserId := none

/-- The personal workspace of an account. -/
def newWorkspace (id : ℕ) (user : PlatformUser) : Workspace where
  id
  name := workspaceName user
  personalOwnerUserId := user.id
  status := .active

/-- The membership of the owner of a workspace. -/
def newMembership (id workspaceId userId : ℕ) : WorkspaceMembership where
  id
  workspaceId
  userId
  role := .owner
  status := .active
  revokedAt := none

/-- The private chat as a destination. -/
def newDestination (id workspaceId : ℕ) (telegramChatId : ℤ) : NotificationDestination where
  id
  workspaceId
  telegramChatId
  chatType := privateChat
  enabled := true

/-- The first strategy of a workspace. -/
def newStrategy (id workspaceId : ℕ) : WorkspaceStrategy where
  id
  workspaceId
  version := 1
  mode := .alert
  configuration := defaultConfiguration
  active := true

section Statements

/-- `_platform_actor`, with the next identifier. -/
def actorScript (telegramUserId now : ℤ) (nextId : ℕ) : AccessScript (PlatformUser × ℕ) := do
  match ← Script.getOrCreate (.user telegramUserId) (fun state => state.db.user telegramUserId)
    (.uniqueViolation "platform_users") with
  | some actor =>
      if actor.status ≠ .active then
        Script.update (writeUsers
          (updateWhere (fun row => row.telegramUserId = telegramUserId) reactivated))
        return (reactivated actor, nextId)
      else return (actor, nextId)
  | none =>
      let actor := newActor nextId telegramUserId now
      Script.update (writeUsers (· ++ [actor]))
      return (actor, nextId + 1)

/-- Lock the request that a decision is about, which has to be pending. -/
def requestScript (requestId : ℕ) : AccessScript AccessRequest :=
  Script.getExisting (.request requestId) (fun state => state.db.request requestId)
    (.raised .accessRequestNotFound)
    fun state => (pendingRequest requestId state.db).mapError .raised

/-- Lock the account of a request and bring it up to date, or insert it. -/
def userScript (accessRequest : AccessRequest) (actorId : ℕ) (decidedAt : ℤ) (nextId : ℕ) :
    AccessScript (PlatformUser × ℕ) := do
  let telegramUserId := accessRequest.telegramUserId
  match ← Script.getOrCreate (.user telegramUserId) (fun state => state.db.user telegramUserId)
    (.uniqueViolation "platform_users") with
  | none =>
      let user := newUser nextId actorId decidedAt accessRequest
      Script.update (writeUsers (· ++ [user]))
      return (user, nextId + 1)
  | some user =>
      let change := approved accessRequest actorId decidedAt
      Script.update (writeUsers
        (updateWhere (fun row => row.telegramUserId = telegramUserId) change))
      return (change user, nextId)

/-- Set the status of a workspace. -/
def setWorkspaceStatus (workspaceId : ℕ) (status : WorkspaceStatus) : AccessState → AccessState :=
  writeWorkspaces (updateWhere (fun row => row.id = workspaceId) fun row => { row with status })

/-- Lock the workspace of an account and activate it, or insert it. -/
def workspaceScript (user : PlatformUser) (nextId : ℕ) : AccessScript (ℕ × ℕ) := do
  match ← Script.getOrCreate (.owner user.id) (fun state => state.db.ownWorkspace user.id)
    (.uniqueViolation "workspaces") with
  | none =>
      let workspace := newWorkspace nextId user
      if workspace.name.length > 120 then
        Script.fail (.raised (.stringTooLong "workspaces.name"))
      else
        Script.locked (.workspace nextId)
        Script.update (writeWorkspaces (· ++ [workspace]))
        return (nextId, nextId + 1)
  | some workspaceId =>
      Script.locked (.workspace workspaceId)
      Script.update (setWorkspaceStatus workspaceId .active)
      return (workspaceId, nextId)

/-- Activate the membership of an account, or insert it. -/
def membershipScript (workspaceId userId nextId : ℕ) : AccessScript ℕ := do
  match ← Script.select fun state => state.db.membership workspaceId userId with
  | none =>
      Script.update (writeMemberships (· ++ [newMembership nextId workspaceId userId]))
      return nextId + 1
  | some _ =>
      Script.update (writeMemberships
        (updateWhere (fun row => row.key = (workspaceId, userId))
          fun row => { row with status := .active, revokedAt := none }))
      return nextId

/-- Enable the destination of a workspace, or insert it. -/
def destinationScript (workspaceId : ℕ) (telegramChatId : ℤ) (nextId : ℕ) : AccessScript ℕ := do
  match ← Script.select fun state => state.db.destination workspaceId telegramChatId with
  | none =>
      Script.update (writeDestinations (· ++ [newDestination nextId workspaceId telegramChatId]))
      return nextId + 1
  | some _ =>
      Script.update (writeDestinations
        (updateWhere (fun row => row.key = (workspaceId, telegramChatId))
          fun row => { row with enabled := true }))
      return nextId

/-- Insert the first strategy of a workspace unless there is one. -/
def strategyScript (workspaceId nextId : ℕ) : AccessScript ℕ := do
  match ← Script.select fun state => state.db.strategy workspaceId 1 with
  | none =>
      Script.update (writeStrategies (· ++ [newStrategy nextId workspaceId]))
      return nextId + 1
  | some _ => return nextId

/-- The account of an approved user, each part of it created where it is missing. -/
def accountScript (accessRequest : AccessRequest) (actorId : ℕ) (decidedAt : ℤ) (nextId : ℕ) :
    AccessScript (PlatformUser × ℕ × ℕ) := do
  let (user, nextId) ← userScript accessRequest actorId decidedAt nextId
  let (workspaceId, nextId) ← workspaceScript user nextId
  let nextId ← membershipScript workspaceId user.id nextId
  let nextId ← destinationScript workspaceId accessRequest.telegramUserId nextId
  let nextId ← strategyScript workspaceId nextId
  return (user, workspaceId, nextId)

variable (auditLogs : Policy SessionSettings AuditLog)

/-- Insert an audit row, which the policy of the audit log has to admit. -/
def auditScript (settings : SessionSettings) (audit : AuditLog) : AccessScript Unit :=
  if auditLogs.insertable settings audit && auditLogs.readable settings audit then
    Script.update (writeAudit audit)
  else Script.fail (.raised (.rowSecurityViolation "audit_logs"))

/-- The statements of `approve_request`. -/
def approveScript (requestId : ℕ) (actorTelegramUserId : ℤ) (correlationId : ℕ) (decidedAt : ℤ)
    (firstId : ℕ) : AccessScript AccessDecisionResult := do
  let (actor, nextId) ← actorScript actorTelegramUserId decidedAt firstId
  let accessRequest ← requestScript requestId
  let (user, workspaceId, nextId) ← accountScript accessRequest actor.id decidedAt nextId
  Script.update (writeRequests
    (updateWhere (fun row => row.id = requestId)
      (AccessRequest.decided .approved decidedAt actor.id)))
  auditScript auditLogs { userId := some user.id, workspaceId := some workspaceId }
    (approvalAudit nextId workspaceId user.id requestId actorTelegramUserId correlationId)
  Script.update (record (.approved requestId accessRequest.telegramUserId actorTelegramUserId))
  return {
    requestId
    telegramUserId := user.telegramUserId
    status := .approved
    userId := some user.id
    workspaceId := some workspaceId }

/-- The statements of `reject_request`. -/
def rejectScript (isoformat : ℤ → Text) (requestId : ℕ) (actorTelegramUserId : ℤ)
    (correlationId : ℕ) (reason : Option Text) (decidedAt : ℤ) (cooldownUntil : Option ℤ)
    (firstId : ℕ) : AccessScript AccessDecisionResult := do
  let (actor, nextId) ← actorScript actorTelegramUserId decidedAt firstId
  let accessRequest ← requestScript requestId
  Script.update (writeRequests
    (updateWhere (fun row => row.id = requestId)
      (AccessRequest.rejected decidedAt actor.id reason cooldownUntil)))
  auditScript auditLogs {}
    (rejectionAudit isoformat nextId requestId actorTelegramUserId correlationId reason
      cooldownUntil)
  Script.update (record (.rejected requestId accessRequest.telegramUserId actorTelegramUserId))
  return { requestId, telegramUserId := accessRequest.telegramUserId, status := .rejected }

/--
Suspend the personal workspace of a user, with the membership and the destinations.
A workspace that is not there cannot be locked, but nobody creates it without the row
of the user, which is locked.
-/
def suspendScript (userId : ℕ) (revokedAt : ℤ) : AccessScript (Option ℕ) := do
  Script.locked (.owner userId)
  match ← Script.select fun state => state.db.ownWorkspace userId with
  | none => return none
  | some workspaceId =>
      Script.locked (.workspace workspaceId)
      Script.update (setWorkspaceStatus workspaceId .suspended)
      Script.update (writeMemberships
        (updateWhere (fun row => row.key = (workspaceId, userId))
          fun row => { row with status := .revoked, revokedAt := some revokedAt }))
      Script.update (writeDestinations
        (updateWhere (fun row => row.workspaceId = workspaceId)
          fun row => { row with enabled := false }))
      return some workspaceId

/-- The statements of `revoke_user`. -/
def revokeScript (targetTelegramUserId actorTelegramUserId : ℤ) (correlationId : ℕ)
    (reason : Option Text) (revokedAt : ℤ) (firstId : ℕ) : AccessScript Unit := do
  let (actor, nextId) ← actorScript actorTelegramUserId revokedAt firstId
  let user ← Script.getExisting (.user targetTelegramUserId)
    (fun state => state.db.user targetTelegramUserId) (.raised .userNotFound)
    fun state => (state.db.user targetTelegramUserId).elim (.error (.raised .userNotFound)) .ok
  let workspaceId ← suspendScript user.id revokedAt
  Script.update (writeUsers
    (updateWhere (fun row => row.telegramUserId = targetTelegramUserId)
      (PlatformUser.revoked revokedAt actor.id)))
  auditScript auditLogs { userId := some user.id, workspaceId }
    (revocationAudit nextId workspaceId user actorTelegramUserId correlationId reason)
  Script.update (record (.revoked targetTelegramUserId actorTelegramUserId))

end Statements

end CopyMint
