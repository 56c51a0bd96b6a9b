import CopyMint.Access.Transactions
import Mathlib.Tactic.SplitIfs

/-!
# Isolation of access decisions

What the locks of a decision guard, and that its queries and writes stay within what
its locks guard. So however the statements of decisions are interleaved, a commit has
the effect of the whole decision at that moment.
-/

namespace CopyMint

open Hexadecimal Relational RowSecurity Locking

/--
What the keys guard. A request that is not there yet is guarded by nothing. Users,
requests and workspaces are never deleted.
-/
def accessFootprint : Footprint AccessState AccessKey where
  agrees key before after :=
    match key with
    | .user telegramUserId => before.db.user telegramUserId = after.db.user telegramUserId
    | .request requestId => ∀ row, before.db.request requestId = some row →
        after.db.request requestId = some row
    | .owner userId => before.db.ownWorkspace userId = after.db.ownWorkspace userId
    | .workspace workspaceId =>
        before.db.workspace workspaceId = after.db.workspace workspaceId ∧
        (∀ userId, before.db.membership workspaceId userId =
            after.db.membership workspaceId userId) ∧
        (∀ chatId, before.db.destination workspaceId chatId =
            after.db.destination workspaceId chatId) ∧
        ∀ version, before.db.strategy workspaceId version =
            after.db.strategy workspaceId version
  grows before after :=
    (∀ telegramUserId, (before.db.user telegramUserId).isSome →
        (after.db.user telegramUserId).isSome) ∧
      (∀ requestId, (before.db.request requestId).isSome →
        (after.db.request requestId).isSome) ∧
      ∀ userId, (before.db.ownWorkspace userId).isSome → (after.db.ownWorkspace userId).isSome
  refl := by
    intro key state
    cases key with
    | user | owner => rfl
    | request => exact fun _ => id
    | workspace => exact ⟨rfl, fun _ => rfl, fun _ => rfl, fun _ => rfl⟩
  trans := by
    intro key first second third begins continues
    cases key with
    | user | owner => exact begins.trans continues
    | request => exact fun row found => continues row (begins row found)
    | workspace =>
        exact ⟨begins.1.trans continues.1,
          fun userId => (begins.2.1 userId).trans (continues.2.1 userId),
          fun chatId => (begins.2.2.1 chatId).trans (continues.2.2.1 chatId),
          fun version => (begins.2.2.2 version).trans (continues.2.2.2 version)⟩
  grows_refl := fun _ => ⟨fun _ => id, fun _ => id, fun _ => id⟩
  grows_trans := fun begins continues =>
    ⟨fun _ present => continues.1 _ (begins.1 _ present),
      fun _ present => continues.2.1 _ (begins.2.1 _ present),
      fun _ present => continues.2.2 _ (begins.2.2 _ present)⟩

section Confinement

variable {held : List AccessKey} {change : AccessState → AccessState}

/-- A change that acts on each table only where it is locked is confined. -/
theorem confined_of_actsOn
    (users : ActsOn (fun telegramUserId state => state.db.user telegramUserId)
      (fun telegramUserId => .user telegramUserId ∈ held) change)
    (requests : MapsOn (fun requestId state => state.db.request requestId)
      (fun requestId => .request requestId ∈ held) change)
    (owners : ActsOn (fun userId state => state.db.ownWorkspace userId)
      (fun userId => .owner userId ∈ held) change)
    (workspaces : ActsOn (fun workspaceId state => state.db.workspace workspaceId)
      (fun workspaceId => .workspace workspaceId ∈ held) change)
    (memberships : ActsOn (fun key state => lookup WorkspaceMembership.key key state.db.memberships)
      (fun key => .workspace key.1 ∈ held) change)
    (destinations : ActsOn
      (fun key state => lookup NotificationDestination.key key state.db.destinations)
      (fun key => .workspace key.1 ∈ held) change)
    (strategies : ActsOn (fun key state => lookup WorkspaceStrategy.key key state.db.strategies)
      (fun key => .workspace key.1 ∈ held) change) :
    accessFootprint.Confined held change where
  respects := by
    intro key before after agree
    cases key with
    | user => exact users.pointwise agree
    | request => exact requests.respects agree
    | owner => exact owners.pointwise agree
    | workspace =>
        exact ⟨workspaces.pointwise agree.1, fun _ => memberships.pointwise (agree.2.1 _),
          fun _ => destinations.pointwise (agree.2.2.1 _),
          fun _ => strategies.pointwise (agree.2.2.2 _)⟩
  confined := by
    intro key free state
    cases key with
    | user => exact users.kept free state
    | request => exact fun row found => (requests.actsOn.kept free state).symm.trans found
    | owner => exact owners.kept free state
    | workspace =>
        exact ⟨workspaces.kept free state, fun _ => memberships.kept free state,
          fun _ => destinations.kept free state, fun _ => strategies.kept free state⟩
  monotone := fun grows => ⟨fun _ => users.monotone (grows.1 _),
    fun _ => requests.actsOn.monotone (grows.2.1 _), fun _ => owners.monotone (grows.2.2 _)⟩
  grows := fun state => ⟨fun _ => users.grows _ state, fun _ => requests.actsOn.grows _ state,
    fun _ => owners.grows _ state⟩

/-- A table that is not written stays the same under any key. -/
theorem actsOn_unchanged {Index Row : Type} {view : Index → AccessState → Option Row}
    {selected : Index → Prop} (same : ∀ index state, view index (change state) = view index state) :
    ActsOn view selected change :=
  (mapsOn_unchanged same).actsOn

theorem confined_insertUser {user : PlatformUser} (locked : .user user.telegramUserId ∈ held) :
    accessFootprint.Confined held (writeUsers (· ++ [user])) := by
  apply confined_of_actsOn
  case users => exact actsOn_append (fun _ => rfl) locked
  case requests => exact mapsOn_unchanged fun _ _ => rfl
  all_goals exact actsOn_unchanged fun _ _ => rfl

theorem confined_updateUser {telegramUserId : ℤ} {rewrite : PlatformUser → PlatformUser}
    (kept : ∀ row, (rewrite row).telegramUserId = row.telegramUserId)
    (locked : .user telegramUserId ∈ held) :
    accessFootprint.Confined held
      (writeUsers (updateWhere (fun row => row.telegramUserId = telegramUserId) rewrite)) := by
  apply confined_of_actsOn
  case users =>
    apply MapsOn.actsOn
    refine mapsOn_updateWhere (fun _ => rfl) kept fun row chosen => ?_
    exact of_decide_eq_true chosen ▸ locked
  case requests => exact mapsOn_unchanged fun _ _ => rfl
  all_goals exact actsOn_unchanged fun _ _ => rfl

theorem confined_updateRequest {requestId : ℕ} {rewrite : AccessRequest → AccessRequest}
    (kept : ∀ row, (rewrite row).id = row.id) (locked : .request requestId ∈ held) :
    accessFootprint.Confined held
      (writeRequests (updateWhere (fun row => row.id = requestId) rewrite)) := by
  apply confined_of_actsOn
  case requests =>
    refine mapsOn_updateWhere (fun _ => rfl) kept fun row chosen => ?_
    exact of_decide_eq_true chosen ▸ locked
  all_goals exact actsOn_unchanged fun _ _ => rfl

theorem confined_insertWorkspace {workspace : Workspace}
    (locked_owner : .owner workspace.personalOwnerUserId ∈ held)
    (locked : .workspace workspace.id ∈ held) :
    accessFootprint.Confined held (writeWorkspaces (· ++ [workspace])) := by
  apply confined_of_actsOn
  case requests => exact mapsOn_unchanged fun _ _ => rfl
  case owners =>
    refine ⟨fun userId found => found.or
      ((lookup Workspace.personalOwnerUserId userId [workspace]).map Workspace.id), ?_, ?_,
      fun _ _ => rfl⟩
    · intro userId state
      simp only [AccessDatabase.ownWorkspace, writeWorkspaces, lookup_append, Option.map_or]
    · intro userId free
      have different : workspace.personalOwnerUserId ≠ userId := by
        rintro rfl
        exact free locked_owner
      funext found
      simp [lookup_singleton, different]
  case workspaces => exact actsOn_append (fun _ => rfl) locked
  all_goals exact actsOn_unchanged fun _ _ => rfl

theorem ownWorkspace_setWorkspaceStatus (workspaceId : ℕ) (status : WorkspaceStatus) (userId : ℕ)
    (state : AccessState) :
    (setWorkspaceStatus workspaceId status state).db.ownWorkspace userId =
      state.db.ownWorkspace userId := by
  simp only [setWorkspaceStatus, writeWorkspaces, AccessDatabase.ownWorkspace]
  rw [lookup_updateWhere, Option.map_map]
  · congr 1
    funext row
    simp only [Function.comp_apply]
    split <;> rfl
  · exact fun _ => rfl

theorem confined_setWorkspaceStatus {workspaceId : ℕ} (status : WorkspaceStatus)
    (locked : .workspace workspaceId ∈ held) :
    accessFootprint.Confined held (setWorkspaceStatus workspaceId status) := by
  apply confined_of_actsOn
  case requests => exact mapsOn_unchanged fun _ _ => rfl
  case owners => exact actsOn_unchanged (ownWorkspace_setWorkspaceStatus workspaceId status)
  case workspaces =>
    apply MapsOn.actsOn
    refine mapsOn_updateWhere (fun _ => rfl) (fun _ => rfl) fun row chosen => ?_
    exact of_decide_eq_true chosen ▸ locked
  all_goals exact actsOn_unchanged fun _ _ => rfl

theorem confined_insertMembership {membership : WorkspaceMembership}
    (locked : .workspace membership.workspaceId ∈ held) :
    accessFootprint.Confined held (writeMemberships (· ++ [membership])) := by
  apply confined_of_actsOn
  case requests => exact mapsOn_unchanged fun _ _ => rfl
  case memberships => exact actsOn_append (fun _ => rfl) locked
  all_goals exact actsOn_unchanged fun _ _ => rfl

theorem confined_updateMembership {workspaceId userId : ℕ}
    {rewrite : WorkspaceMembership → WorkspaceMembership}
    (kept : ∀ row, (rewrite row).key = row.key) (locked : .workspace workspaceId ∈ held) :
    accessFootprint.Confined held
      (writeMemberships (updateWhere (fun row => row.key = (workspaceId, userId)) rewrite)) := by
  apply confined_of_actsOn
  case requests => exact mapsOn_unchanged fun _ _ => rfl
  case memberships =>
    apply MapsOn.actsOn
    refine mapsOn_updateWhere (fun _ => rfl) kept fun row chosen => ?_
    rw [of_decide_eq_true chosen]
    exact locked
  all_goals exact actsOn_unchanged fun _ _ => rfl

theorem confined_insertDestination {destination : NotificationDestination}
    (locked : .workspace destination.workspaceId ∈ held) :
    accessFootprint.Confined held (writeDestinations (· ++ [destination])) := by
  apply confined_of_actsOn
  case requests => exact mapsOn_unchanged fun _ _ => rfl
  case destinations => exact actsOn_append (fun _ => rfl) locked
  all_goals exact actsOn_unchanged fun _ _ => rfl

theorem confined_updateDestinations {workspaceId : ℕ} {chosen : NotificationDestination → Bool}
    {rewrite : NotificationDestination → NotificationDestination}
    (kept : ∀ row, (rewrite row).key = row.key)
    (within : ∀ row, chosen row = true → row.workspaceId = workspaceId)
    (locked : .workspace workspaceId ∈ held) :
    accessFootprint.Confined held (writeDestinations (updateWhere chosen rewrite)) := by
  apply confined_of_actsOn
  case requests => exact mapsOn_unchanged fun _ _ => rfl
  case destinations =>
    apply MapsOn.actsOn
    refine mapsOn_updateWhere (fun _ => rfl) kept fun row selected => ?_
    rw [NotificationDestination.key, within row selected]
    exact locked
  all_goals exact actsOn_unchanged fun _ _ => rfl

theorem confined_insertStrategy {strategy : WorkspaceStrategy}
    (locked : .workspace strategy.workspaceId ∈ held) :
    accessFootprint.Confined held (writeStrategies (· ++ [strategy])) := by
  apply confined_of_actsOn
  case requests => exact mapsOn_unchanged fun _ _ => rfl
  case strategies => exact actsOn_append (fun _ => rfl) locked
  all_goals exact actsOn_unchanged fun _ _ => rfl

theorem confined_writeAudit (audit : AuditLog) :
    accessFootprint.Confined held (writeAudit audit) := by
  apply confined_of_actsOn
  case requests => exact mapsOn_unchanged fun _ _ => rfl
  all_goals exact actsOn_unchanged fun _ _ => rfl

theorem confined_record (decision : AccessDecision) :
    accessFootprint.Confined held (record decision) := by
  apply confined_of_actsOn
  case requests => exact mapsOn_unchanged fun _ _ => rfl
  all_goals exact actsOn_unchanged fun _ _ => rfl

end Confinement

section Guards

variable {held : List AccessKey}

theorem user_remains {before after : AccessState} (telegramUserId : ℤ)
    (grows : accessFootprint.grows before after)
    (present : (before.db.user telegramUserId).isSome) : (after.db.user telegramUserId).isSome :=
  grows.1 telegramUserId present

theorem guarded_actorScript {telegramUserId now : ℤ} {nextId : ℕ}
    {atEnd : List AccessKey → PlatformUser × ℕ → Prop}
    (holds : ∀ result, atEnd (.user telegramUserId :: held) result) :
    (actorScript telegramUserId now nextId).Guarded accessFootprint held atEnd := by
  apply Script.Guarded.bind
  apply Script.guarded_getOrCreate (user_remains telegramUserId) id
  intro found
  cases found with
  | none =>
      apply Script.Guarded.bind
      exact Script.guarded_update (confined_insertUser List.mem_cons_self) (holds _)
  | some actor =>
      dsimp only
      split_ifs
      · apply Script.Guarded.bind
        refine Script.guarded_update (confined_updateUser ?_ List.mem_cons_self) (holds _)
        exact fun _ => rfl
      · exact holds _

theorem guarded_requestScript {requestId : ℕ} {atEnd : List AccessKey → AccessRequest → Prop}
    (holds : ∀ accessRequest, atEnd (.request requestId :: held) accessRequest) :
    (requestScript requestId).Guarded accessFootprint held atEnd := by
  apply Script.guarded_getExisting
  · exact fun grows => grows.2.1 requestId
  · intro before after accessRequest agree returned
    cases found : before.db.request requestId with
    | none => simp [pendingRequest, found, Except.mapError] at returned
    | some row => simpa only [pendingRequest, found, agree row found] using returned
  · exact fun _ => holds _

theorem guarded_userScript {accessRequest : AccessRequest} {actorId : ℕ} {decidedAt : ℤ}
    {nextId : ℕ} {atEnd : List AccessKey → PlatformUser × ℕ → Prop}
    (holds : ∀ result, atEnd (.user accessRequest.telegramUserId :: held) result) :
    (userScript accessRequest actorId decidedAt nextId).Guarded accessFootprint held atEnd := by
  apply Script.Guarded.bind
  apply Script.guarded_getOrCreate (user_remains accessRequest.telegramUserId) id
  intro found
  cases found with
  | none =>
      apply Script.Guarded.bind
      exact Script.guarded_update (confined_insertUser List.mem_cons_self) (holds _)
  | some user =>
      apply Script.Guarded.bind
      refine Script.guarded_update (confined_updateUser ?_ List.mem_cons_self) (holds _)
      exact fun _ => rfl

theorem guarded_workspaceScript {user : PlatformUser} {nextId : ℕ}
    {atEnd : List AccessKey → ℕ × ℕ → Prop}
    (holds : ∀ result, atEnd (.workspace result.1 :: .owner user.id :: held) result) :
    (workspaceScript user nextId).Guarded accessFootprint held atEnd := by
  apply Script.Guarded.bind
  refine Script.guarded_getOrCreate (fun {before after} grows => ?_) id ?_
  · exact grows.2.2 user.id
  intro found
  cases found with
  | none =>
      dsimp only
      split_ifs
      · trivial
      · have locked : .owner user.id ∈ AccessKey.workspace nextId :: .owner user.id :: held := by
          simp
        exact ⟨confined_insertWorkspace locked List.mem_cons_self, holds (nextId, nextId + 1)⟩
  | some workspaceId =>
      refine ⟨confined_setWorkspaceStatus .active List.mem_cons_self, ?_⟩
      exact holds (workspaceId, nextId)

theorem guarded_suspendScript {userId : ℕ} {revokedAt : ℤ}
    {atEnd : List AccessKey → Option ℕ → Prop}
    (holds : ∀ found,
      atEnd ((found.map AccessKey.workspace).toList ++ .owner userId :: held) found) :
    (suspendScript userId revokedAt).Guarded accessFootprint held atEnd := by
  apply Script.Guarded.bind
  apply Script.Guarded.bind
  apply Script.guarded_select
  · exact fun agree => agree.agrees _ List.mem_cons_self
  · intro store
    cases store.db.ownWorkspace userId with
    | none => exact holds none
    | some workspaceId =>
        have locked : .workspace workspaceId ∈
            AccessKey.workspace workspaceId :: .owner userId :: held := List.mem_cons_self
        refine ⟨confined_setWorkspaceStatus .suspended locked, ?_, ?_, holds (some workspaceId)⟩
        · exact confined_updateMembership (fun _ => rfl) locked
        · refine confined_updateDestinations (fun _ => rfl) (fun _ chosen => ?_) locked
          exact of_decide_eq_true chosen

variable {workspaceId nextId : ℕ} (locked : .workspace workspaceId ∈ held)
include locked

theorem guarded_membershipScript {userId : ℕ} {atEnd : List AccessKey → ℕ → Prop}
    (holds : ∀ nextId, atEnd held nextId) :
    (membershipScript workspaceId userId nextId).Guarded accessFootprint held atEnd := by
  apply Script.Guarded.bind
  apply Script.guarded_select
  · exact fun agree => (agree.agrees _ locked).2.1 userId
  · intro store
    cases store.db.membership workspaceId userId with
    | none => exact ⟨confined_insertMembership locked, holds _⟩
    | some membership => exact ⟨confined_updateMembership (fun _ => rfl) locked, holds _⟩

theorem guarded_destinationScript {telegramChatId : ℤ} {atEnd : List AccessKey → ℕ → Prop}
    (holds : ∀ nextId, atEnd held nextId) :
    (destinationScript workspaceId telegramChatId nextId).Guarded accessFootprint held atEnd := by
  apply Script.Guarded.bind
  apply Script.guarded_select
  · exact fun agree => (agree.agrees _ locked).2.2.1 telegramChatId
  · intro store
    cases store.db.destination workspaceId telegramChatId with
    | none => exact ⟨confined_insertDestination locked, holds _⟩
    | some destination =>
        refine ⟨confined_updateDestinations (fun _ => rfl) (fun row chosen => ?_) locked, holds _⟩
        exact congrArg Prod.fst (of_decide_eq_true chosen)

theorem guarded_strategyScript {atEnd : List AccessKey → ℕ → Prop}
    (holds : ∀ nextId, atEnd held nextId) :
    (strategyScript workspaceId nextId).Guarded accessFootprint held atEnd := by
  apply Script.Guarded.bind
  apply Script.guarded_select
  · exact fun agree => (agree.agrees _ locked).2.2.2 1
  · intro store
    cases store.db.strategy workspaceId 1 with
    | none => exact ⟨confined_insertStrategy locked, holds _⟩
    | some strategy => exact holds _

omit locked in
theorem guarded_accountScript {accessRequest : AccessRequest} {actorId : ℕ} {decidedAt : ℤ}
    {atEnd : List AccessKey → PlatformUser × ℕ × ℕ → Prop}
    (holds : ∀ result, atEnd (.workspace result.2.1 :: .owner result.1.id ::
      .user accessRequest.telegramUserId :: held) result) :
    (accountScript accessRequest actorId decidedAt nextId).Guarded accessFootprint held atEnd := by
  apply Script.Guarded.bind
  apply guarded_userScript
  intro user
  apply Script.Guarded.bind
  apply guarded_workspaceScript
  intro workspace
  apply Script.Guarded.bind
  apply guarded_membershipScript List.mem_cons_self
  intro nextId
  apply Script.Guarded.bind
  apply guarded_destinationScript List.mem_cons_self
  intro nextId
  apply Script.Guarded.bind
  apply guarded_strategyScript List.mem_cons_self
  intro nextId
  exact holds (user.1, workspace.1, nextId)

end Guards

section Decisions

variable {auditLogs : Policy SessionSettings AuditLog} {held : List AccessKey}

theorem guarded_auditScript {settings : SessionSettings} {audit : AuditLog}
    {atEnd : List AccessKey → Unit → Prop} (holds : atEnd held ()) :
    (auditScript auditLogs settings audit).Guarded accessFootprint held atEnd := by
  rw [auditScript]
  split_ifs
  · exact Script.guarded_update (confined_writeAudit audit) holds
  · trivial

theorem guarded_approveScript (requestId : ℕ) (actorTelegramUserId : ℤ) (correlationId : ℕ)
    (decidedAt : ℤ) (firstId : ℕ) :
    (approveScript auditLogs requestId actorTelegramUserId correlationId decidedAt firstId).Guarded
      accessFootprint [] fun _ _ => True := by
  apply Script.Guarded.bind
  apply guarded_actorScript
  intro actor
  apply Script.Guarded.bind
  apply guarded_requestScript
  intro accessRequest
  apply Script.Guarded.bind
  apply guarded_accountScript
  intro account
  apply Script.Guarded.bind
  refine Script.guarded_update (confined_updateRequest (fun _ => rfl) (by simp)) ?_
  apply Script.Guarded.bind
  apply guarded_auditScript
  exact ⟨confined_record _, trivial⟩

theorem guarded_rejectScript (isoformat : ℤ → Text) (requestId : ℕ) (actorTelegramUserId : ℤ)
    (correlationId : ℕ) (reason : Option Text) (decidedAt : ℤ) (cooldownUntil : Option ℤ)
    (firstId : ℕ) :
    (rejectScript auditLogs isoformat requestId actorTelegramUserId correlationId reason decidedAt
      cooldownUntil firstId).Guarded accessFootprint [] fun _ _ => True := by
  apply Script.Guarded.bind
  apply guarded_actorScript
  intro actor
  apply Script.Guarded.bind
  apply guarded_requestScript
  intro accessRequest
  apply Script.Guarded.bind
  refine Script.guarded_update (confined_updateRequest (fun _ => rfl) List.mem_cons_self) ?_
  apply Script.Guarded.bind
  apply guarded_auditScript
  exact ⟨confined_record _, trivial⟩

theorem guarded_revokeScript (targetTelegramUserId actorTelegramUserId : ℤ) (correlationId : ℕ)
    (reason : Option Text) (revokedAt : ℤ) (firstId : ℕ) :
    (revokeScript auditLogs targetTelegramUserId actorTelegramUserId correlationId reason revokedAt
      firstId).Guarded accessFootprint [] fun _ _ => True := by
  apply Script.Guarded.bind
  apply guarded_actorScript
  intro actor
  apply Script.Guarded.bind
  apply Script.guarded_getExisting (user_remains targetTelegramUserId)
  · intro before after user agree returned
    have same : before.db.user targetTelegramUserId = after.db.user targetTelegramUserId := agree
    rw [← same]
    exact returned
  · intro store user _
    apply Script.Guarded.bind
    apply guarded_suspendScript
    intro workspaceId
    have locked : .user targetTelegramUserId ∈ (workspaceId.map AccessKey.workspace).toList ++
        [.owner user.id, .user targetTelegramUserId, .user actorTelegramUserId] := by simp
    apply Script.Guarded.bind
    refine Script.guarded_update (confined_updateUser (fun _ => rfl) locked) ?_
    apply Script.Guarded.bind
    apply guarded_auditScript
    exact Script.guarded_update (confined_record _) trivial

end Decisions

end CopyMint
