import CopyMint.Domain.Enums
import CopyMint.Library.Json
import CopyMint.Library.Relational
import CopyMint.Library.RowSecurity

/-!
# The access-control tables

Users and access requests are global. Workspaces, their memberships,
destinations and strategies, and the audit log are under row-level security: the
policies compare a row with the user and the workspace that the transaction has
set. Timestamps are given by the caller and are plain integers here; those that
the database fills in are left out.
-/

namespace CopyMint

open Hexadecimal Relational RowSecurity

/-- A row of `platform_users`. -/
structure PlatformUser where
  id : ℕ
  telegramUserId : ℤ
  username : Option Text
  displayName : Option Text
  status : UserStatus
  approvedAt : ℤ
  approvedByUserId : Option ℕ
  revokedAt : Option ℤ
  revokedByUserId : Option ℕ
  deriving DecidableEq

/-- A row of `access_requests`. -/
structure AccessRequest where
  id : ℕ
  telegramUserId : ℤ
  username : Option Text
  displayName : Option Text
  status : AccessRequestStatus
  requestedAt : ℤ
  decidedAt : Option ℤ
  decidedByUserId : Option ℕ
  decisionReason : Option Text
  cooldownUntil : Option ℤ
  deriving DecidableEq

/-- A row of `workspaces`. -/
structure Workspace where
  id : ℕ
  name : Text
  personalOwnerUserId : ℕ
  status : WorkspaceStatus
  deriving DecidableEq

/-- A row of `workspace_memberships`. -/
structure WorkspaceMembership where
  id : ℕ
  workspaceId : ℕ
  userId : ℕ
  role : WorkspaceRole
  status : MembershipStatus
  revokedAt : Option ℤ
  deriving DecidableEq

/-- A row of `notification_destinations`. -/
structure NotificationDestination where
  id : ℕ
  workspaceId : ℕ
  telegramChatId : ℤ
  chatType : Text
  enabled : Bool
  deriving DecidableEq

/-- A row of `workspace_strategies`. -/
structure WorkspaceStrategy where
  id : ℕ
  workspaceId : ℕ
  version : ℕ
  mode : ExecutionMode
  configuration : Json
  active : Bool

/-- A row of `audit_logs`. -/
structure AuditLog where
  id : ℕ
  workspaceId : Option ℕ
  actorType : ActorType
  actorId : Text
  action : Text
  resourceType : Text
  resourceId : Text
  before : Option Json
  after : Option Json
  correlationId : ℕ
  severity : Severity

/-- The tables that access decisions read and write. -/
structure AccessDatabase where
  platformUsers : List PlatformUser
  accessRequests : List AccessRequest
  workspaces : List Workspace
  memberships : List WorkspaceMembership
  destinations : List NotificationDestination
  strategies : List WorkspaceStrategy
  auditLogs : List AuditLog
  /-- The next identifier that `uuid7` draws. -/
  nextId : ℕ

/-- The settings `app.user_id` and `app.workspace_id` of a transaction. -/
structure SessionSettings where
  userId : Option ℕ := none
  workspaceId : Option ℕ := none
  deriving DecidableEq

/-- The policies of the protected tables. -/
structure AccessPolicies where
  workspaces : Policy SessionSettings Workspace
  memberships : Policy SessionSettings WorkspaceMembership
  destinations : Policy SessionSettings NotificationDestination
  strategies : Policy SessionSettings WorkspaceStrategy
  auditLogs : Policy SessionSettings AuditLog

/-- The policy of `workspaces`: the workspace of the session, or that of its user. -/
def workspaceClause (settings : SessionSettings) (row : Workspace) : Bool :=
  sqlEqual (some row.id) settings.workspaceId ||
    sqlEqual (some row.personalOwnerUserId) settings.userId

/-- The policy of `workspace_memberships`. -/
def membershipClause (settings : SessionSettings) (row : WorkspaceMembership) : Bool :=
  sqlEqual (some row.workspaceId) settings.workspaceId ||
    sqlEqual (some row.userId) settings.userId

/-- The policy of `notification_destinations`. -/
def destinationClause (settings : SessionSettings) (row : NotificationDestination) : Bool :=
  sqlEqual (some row.workspaceId) settings.workspaceId

/-- The policy of `workspace_strategies`. -/
def strategyClause (settings : SessionSettings) (row : WorkspaceStrategy) : Bool :=
  sqlEqual (some row.workspaceId) settings.workspaceId

/-- Audit rows can be inserted without a workspace, but only read within one. -/
def auditPolicy : Policy SessionSettings AuditLog where
  readable := fun settings row => sqlEqual row.workspaceId settings.workspaceId
  insertable := fun settings row =>
    row.workspaceId.isNone || sqlEqual row.workspaceId settings.workspaceId
  updatable := fun _ _ => false
  updated := fun _ _ => false

/-- The policies that the first migration creates. -/
def migratedPolicies : AccessPolicies where
  workspaces := .isolation workspaceClause
  memberships := .isolation membershipClause
  destinations := .isolation destinationClause
  strategies := .isolation strategyClause
  auditLogs := auditPolicy

/-- What the decisions and the database under them raise. -/
inductive AccessFailure where
  | accessRequestNotFound
  | accessRequestNotPending
  | userNotFound
  | rowSecurityViolation (table : String)
  | stringTooLong (column : String)
  deriving DecidableEq

/-- The result of a statement that row-level security may refuse. -/
def secured {α : Type} (table : String) : Option α → Except AccessFailure α
  | some result => .ok result
  | none => .error (.rowSecurityViolation table)

end CopyMint
