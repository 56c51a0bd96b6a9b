import CopyMint.Access.Extensions

/-!
# The standing of accounts

A user with a personal workspace is either in good standing, by the approval of an
owner that nobody has revoked since, or out of service. The lemmas here say what each
decision does to the account that it is about, and that it leaves every other
account alone.
-/

namespace CopyMint

open Hexadecimal Relational RowSecurity Locking

/-- An active user with an active workspace, whose messages are delivered. -/
structure InGoodStanding (db : AccessDatabase) (user : PlatformUser) (workspace : Workspace) :
    Prop where
  activeUser : user.status = .active
  activeWorkspace : workspace.status = .active
  membership : ∃ row, db.membership workspace.id user.id = some row ∧ row.status = .active
  destination : ∃ row, db.destination workspace.id user.telegramUserId = some row ∧
    row.enabled = true

/-- A revoked user with a suspended workspace, which delivers nothing. -/
structure OutOfService (db : AccessDatabase) (user : PlatformUser) (workspace : Workspace) :
    Prop where
  revokedUser : user.status = .revoked
  suspended : workspace.status = .suspended
  membership : ∃ row, db.membership workspace.id user.id = some row ∧ row.status = .revoked
  destinations : ∀ {telegramChatId row}, db.destination workspace.id telegramChatId = some row →
    row.enabled = false

/-- An owner has approved a request of the user, and nobody has revoked the user since. -/
def Endorsed (ownerIds : List ℤ) (telegramUserId : ℤ) (history : List AccessDecision) : Prop :=
  ∃ earlier requestId actor later, actor ∈ ownerIds ∧
    history = earlier ++ .approved requestId telegramUserId actor :: later ∧
      ∀ another, .revoked telegramUserId another ∉ later

/-- A user with a workspace is in good standing, as the last decision says, or out of service. -/
def AccountSound (ownerIds : List ℤ) (telegramUserId : ℤ) (state : AccessState) : Prop :=
  ∀ user workspace, state.db.user telegramUserId = some user →
    state.db.workspaceOf user.id = some workspace →
      InGoodStanding state.db user workspace ∧ Endorsed ownerIds telegramUserId state.history ∨
        OutOfService state.db user workspace

section Accounts

variable {ownerIds : List ℤ} {telegramUserId other : ℤ} {before after : AccessState}
  {account : PlatformUser}

theorem Endorsed.append {history more : List AccessDecision}
    (endorsed : Endorsed ownerIds telegramUserId history)
    (unrevoked : ∀ another, .revoked telegramUserId another ∉ more) :
    Endorsed ownerIds telegramUserId (history ++ more) := by
  rcases endorsed with ⟨earlier, requestId, actor, later, configured, rfl, none_later⟩
  refine ⟨earlier, requestId, actor, later ++ more, configured, by simp, ?_⟩
  intro another mem
  rcases List.mem_append.mp mem with first | second
  · exact none_later another first
  · exact unrevoked another second

theorem InGoodStanding.agree {workspace : Workspace}
    (good : InGoodStanding before.db account workspace)
    (agree : accessFootprint.agrees (.workspace workspace.id) before after) :
    InGoodStanding after.db account workspace := by
  rcases agree with ⟨_, memberships, destinations, _⟩
  refine ⟨good.activeUser, good.activeWorkspace, ?_, ?_⟩
  · rw [← memberships]
    exact good.membership
  · rw [← destinations]
    exact good.destination

theorem OutOfService.agree {workspace : Workspace}
    (out : OutOfService before.db account workspace)
    (agree : accessFootprint.agrees (.workspace workspace.id) before after) :
    OutOfService after.db account workspace := by
  rcases agree with ⟨_, memberships, destinations, _⟩
  refine ⟨out.revokedUser, out.suspended, ?_, ?_⟩
  · rw [← memberships]
    exact out.membership
  · intro telegramChatId destination stored
    rw [← destinations] at stored
    exact out.destinations stored

/-- Only the workspace of one account is written. -/
structure OnlyAccount (account : PlatformUser) (before after : AccessState) : Prop where
  owners : ∀ {userId}, userId ≠ account.id →
    accessFootprint.agrees (.owner userId) before after
  workspaces : ∀ {workspaceId},
    (∀ {workspace}, after.db.workspaceOf account.id = some workspace → workspace.id ≠ workspaceId) →
      accessFootprint.agrees (.workspace workspaceId) before after
  members : ∀ {workspaceId userId}, userId ≠ account.id →
    after.db.membership workspaceId userId = before.db.membership workspaceId userId

theorem workspaceOf_eq_some_iff {db : AccessDatabase} (keyed : AccessKeyed db) {userId : ℕ}
    {workspace : Workspace} :
    db.workspaceOf userId = some workspace ↔
      db.workspace workspace.id = some workspace ∧ workspace.personalOwnerUserId = userId := by
  constructor
  · intro found
    have mem := lookup_eq_some_mem found
    exact ⟨keyed.workspaceIds.lookup_of_mem mem.1, mem.2⟩
  · rintro ⟨found, rfl⟩
    exact keyed.workspaces.lookup_of_mem (lookup_eq_some_mem found).1

theorem AccountSound.frame (sound : AccountSound ownerIds telegramUserId before)
    (keyed : AccessKeyed before.db) (keyedAfter : AccessKeyed after.db)
    (different : telegramUserId ≠ other)
    (same : after.db.user telegramUserId = before.db.user telegramUserId)
    (found : after.db.user other = some account) (only : OnlyAccount account before after)
    (endorsed : Endorsed ownerIds telegramUserId before.history →
      Endorsed ownerIds telegramUserId after.history) :
    AccountSound ownerIds telegramUserId after := by
  intro user workspace foundUser owns
  have user_mem := lookup_eq_some_mem foundUser
  have account_mem := lookup_eq_some_mem found
  have otherId : user.id ≠ account.id := by
    intro equal
    have rows := keyedAfter.userIds.eq_of_key_eq user_mem.1 account_mem.1 equal
    exact different (user_mem.2.symm.trans (rows ▸ account_mem.2))
  have own : (before.db.workspaceOf user.id).map Workspace.id = some workspace.id := by
    rw [← AccessDatabase.ownWorkspace_eq]
    refine (only.owners otherId).trans ?_
    rw [AccessDatabase.ownWorkspace_eq, owns, Option.map_some]
  have agree : accessFootprint.agrees (.workspace workspace.id) before after := by
    apply only.workspaces
    intro mine owned equal
    have mine_row := (workspaceOf_eq_some_iff keyedAfter).mp owned
    have other_row := (workspaceOf_eq_some_iff keyedAfter).mp owns
    rw [equal, other_row.1, Option.some.injEq] at mine_row
    exact otherId (other_row.2.symm.trans (mine_row.1 ▸ mine_row.2))
  have ownedBefore : before.db.workspaceOf user.id = some workspace := by
    rcases Option.map_eq_some_iff.mp own with ⟨old, old_eq, id_eq⟩
    have old_row := (workspaceOf_eq_some_iff keyed).mp old_eq
    have row_after := (workspaceOf_eq_some_iff keyedAfter).mp owns
    rw [id_eq, agree.1, row_after.1, Option.some.injEq] at old_row
    rw [old_eq, old_row.1]
  rcases sound user workspace (same.symm.trans foundUser) ownedBefore with ⟨good, approval⟩ | out
  · exact .inl ⟨good.agree agree, endorsed approval⟩
  · exact .inr (out.agree agree)

end Accounts

/-- The accounts of a committed state. -/
structure AccountsSound (ownerIds : List ℤ) (state : AccessState) : Prop where
  keyed : AccessKeyed state.db
  owners : ∀ {telegramUserId user}, state.db.user telegramUserId = some user →
    telegramUserId ∈ ownerIds → user.status = .active
  accounts : ∀ telegramUserId, AccountSound ownerIds telegramUserId state

/-- The row of one user, and at most the workspace of this user, are written. -/
structure AccountWritten (telegramUserId : ℤ) (account : PlatformUser)
    (before after : AccessState) : Prop where
  keyed : AccessKeyed after.db
  found : after.db.user telegramUserId = some account
  others : ∀ {other}, other ≠ telegramUserId → after.db.user other = before.db.user other
  only : OnlyAccount account before after

section Assembly

variable {ownerIds : List ℤ} {telegramUserId : ℤ} {account : PlatformUser}
  {before after : AccessState}

theorem AccountWritten.sound (written : AccountWritten telegramUserId account before after)
    (sound : AccountsSound ownerIds before)
    (status : telegramUserId ∈ ownerIds → account.status = .active)
    (mine : AccountSound ownerIds telegramUserId after)
    (endorsed : ∀ {other}, other ≠ telegramUserId → Endorsed ownerIds other before.history →
      Endorsed ownerIds other after.history) : AccountsSound ownerIds after where
  keyed := written.keyed
  owners := by
    intro other user found configured
    by_cases same : other = telegramUserId
    · subst same
      cases written.found.symm.trans found
      exact status configured
    · exact sound.owners ((written.others same).symm.trans found) configured
  accounts := by
    intro other
    by_cases same : other = telegramUserId
    · subst same
      exact mine
    · exact AccountSound.frame (sound.accounts other) sound.keyed written.keyed same
        (written.others same) written.found written.only (endorsed same)

/-- A change of the users alone. -/
theorem UserStored.written {nextId rest : ℕ}
    (stored : UserStored telegramUserId nextId rest account before after)
    (keyed : AccessKeyed before.db) : AccountWritten telegramUserId account before after := by
  rcases stored.onlyUsers with ⟨change, rfl⟩
  refine ⟨?_, stored.found, stored.others, ?_⟩
  · exact ⟨stored.unique, stored.uniqueIds, keyed.workspaces, keyed.workspaceIds,
      keyed.memberships, keyed.destinations⟩
  · exact ⟨fun _ => accessFootprint.refl (.owner _) before,
      fun _ => accessFootprint.refl (.workspace _) before, fun _ => rfl⟩

theorem actorScript_spec {now : ℤ} {nextId rest last : ℕ} {actor : PlatformUser}
    (keyed : AccessKeyed before.db) (unused : Unused nextId last before.db) (bound : nextId < last)
    (ran : (actorScript telegramUserId now nextId).run before = .ok (after, actor, rest)) :
    UserStored telegramUserId nextId rest actor before after ∧ actor.status = .active ∧
      (before.db.user telegramUserId = none ∨
        ∃ old, before.db.user telegramUserId = some old ∧
          (old.status = .active → actor = old)) := by
  simp only [actorScript, Script.run_bind, Script.run_getOrCreate] at ran
  cases present : before.db.user telegramUserId with
  | none =>
      simp only [present, Script.run_bind, Script.run_update, Script.run_pure] at ran
      cases ran
      exact ⟨userStored_insert rfl keyed unused bound present rfl, rfl, .inl rfl⟩
  | some old =>
      simp only [present] at ran
      split_ifs at ran with inactive
      · simp only [Script.run_bind, Script.run_update, Script.run_pure] at ran
        cases ran
        refine ⟨userStored_update (fun _ => rfl) (fun _ => rfl) keyed present, rfl, .inr ?_⟩
        exact ⟨old, rfl, fun active => absurd active inactive⟩
      · simp only [Script.run_pure] at ran
        cases ran
        refine ⟨?_, not_not.mp inactive, .inr ⟨_, rfl, fun _ => rfl⟩⟩
        exact ⟨⟨id, rfl⟩, present, fun _ => rfl, .inl ⟨_, present, rfl, rfl⟩, keyed.users,
          keyed.userIds, fun row row_mem => .inr ⟨row, row_mem, rfl⟩⟩

/-- A configured owner who acts is or becomes an active user, and nothing else changes. -/
theorem AccountsSound.actor {now : ℤ} {nextId rest last : ℕ} {actor : PlatformUser}
    (sound : AccountsSound ownerIds before) (configured : telegramUserId ∈ ownerIds)
    (unused : Unused nextId last before.db) (bound : nextId < last)
    (ran : (actorScript telegramUserId now nextId).run before = .ok (after, actor, rest)) :
    AccountsSound ownerIds after ∧ UserStored telegramUserId nextId rest actor before after := by
  rcases actorScript_spec sound.keyed unused bound ran with ⟨stored, active, unchanged⟩
  refine ⟨(stored.written sound.keyed).sound sound (fun _ => active) ?_ ?_, stored⟩
  · intro user workspace found owns
    cases stored.found.symm.trans found
    rcases stored.onlyUsers with ⟨change, rfl⟩
    rcases unchanged with absent | ⟨old, present, same⟩
    · -- The identifier of a new user is fresh, so that it owns no workspace.
      have new : actor.id = nextId := by
        rcases stored.identifier with ⟨old, present, _⟩ | ⟨_, identifier, _⟩
        · cases absent.symm.trans present
        · exact identifier
      have owner := lookup_eq_some_mem owns
      have free := unused.owners workspace owner.1
      have same : workspace.personalOwnerUserId = actor.id := owner.2
      omega
    · rw [same (sound.owners present configured)] at owns ⊢
      have agree := accessFootprint.refl (.workspace workspace.id) before
      rcases sound.accounts telegramUserId old workspace present owns with ⟨good, approval⟩ | out
      · exact .inl ⟨good.agree agree, approval⟩
      · exact .inr (out.agree agree)
  · rcases stored.onlyUsers with ⟨change, rfl⟩
    exact fun _ => id

theorem unused_writeUsers {nextId rest last : ℕ}
    (stored : UserStored telegramUserId nextId rest account before after)
    (unused : Unused nextId last before.db) :
    Unused rest last after.db ∧ nextId ≤ rest ∧ rest ≤ nextId + 1 := by
  have bounds : nextId ≤ rest ∧ rest ≤ nextId + 1 := by
    rcases stored.identifier with ⟨_, _, _, rfl⟩ | ⟨_, _, rfl⟩ <;> omega
  refine ⟨⟨?_, ?_, ?_⟩, bounds⟩
  · intro row row_mem
    rcases stored.within row row_mem with ⟨new, rfl⟩ | ⟨old, old_mem, same⟩
    · omega
    · have free := unused.users old old_mem
      omega
  · rcases stored.onlyUsers with ⟨change, rfl⟩
    intro row row_mem
    have free := unused.workspaces row row_mem
    omega
  · rcases stored.onlyUsers with ⟨change, rfl⟩
    intro row row_mem
    have free := unused.owners row row_mem
    omega

/-- Requests, the audit log and the history are the same, and no identifier is drawn. -/
structure SameRecords (before after : AccessState) : Prop where
  requests : after.db.accessRequests = before.db.accessRequests
  audits : after.db.auditLogs = before.db.auditLogs
  history : after.history = before.history
  nextId : after.db.nextId = before.db.nextId

/-- What an approval does to the account of the approved user. -/
structure AccountApproved (accessRequest : AccessRequest) (account : PlatformUser)
    (workspaceId nextId : ℕ) (before after : AccessState) : Prop where
  written : AccountWritten accessRequest.telegramUserId account before after
  good : ∃ workspace, after.db.workspaceOf account.id = some workspace ∧
    workspace.id = workspaceId ∧ InGoodStanding after.db account workspace
  same : SameRecords before after
  extends_ : ∀ {first last}, first ≤ nextId → nextId + 1 < last →
    AccessExtends first last before after

theorem accountScript_spec {accessRequest : AccessRequest} {actorId : ℕ} {decidedAt : ℤ}
    {nextId rest last workspaceId : ℕ} (keyed : AccessKeyed before.db)
    (unused : Unused nextId last before.db) (bound : nextId + 1 < last)
    (ran : (accountScript accessRequest actorId decidedAt nextId).run before =
      .ok (after, account, workspaceId, rest)) :
    AccountApproved accessRequest account workspaceId nextId before after := by
  rcases Script.run_bind_eq_ok.mp ran with ⟨second, ⟨_, afterUser⟩, userRan, ran⟩
  rcases Script.run_bind_eq_ok.mp ran with ⟨third, ⟨_, afterWorkspace⟩, workspaceRan, ran⟩
  rcases Script.run_bind_eq_ok.mp ran with ⟨fourth, afterMembership, membershipRan, ran⟩
  rcases Script.run_bind_eq_ok.mp ran with ⟨fifth, afterDestination, destinationRan, ran⟩
  rcases Script.run_bind_eq_ok.mp ran with ⟨sixth, _, strategyRan, ran⟩
  cases ran
  rcases userScript_spec keyed unused (by omega) userRan with ⟨user, active, sameUser⟩
  have keyedUser := (user.written keyed).keyed
  rcases unused_writeUsers user unused with ⟨unusedUser, bounds⟩
  have workspace := workspaceScript_spec keyedUser unusedUser (by omega) workspaceRan
  have workspaceFrame := @frame_workspaceScript _ _ _ _ _ _ workspaceRan
  rcases user.onlyUsers with ⟨writtenUsers, rfl⟩
  rcases workspace.onlyWorkspaces with ⟨writtenWorkspaces, rfl⟩
  have keyedWorkspace : AccessKeyed
      (writeWorkspaces writtenWorkspaces (writeUsers writtenUsers before)).db :=
    ⟨keyedUser.users, keyedUser.userIds, workspace.unique, workspace.uniqueIds,
      keyedUser.memberships, keyedUser.destinations⟩
  have membershipFrame := @frame_membershipScript _ _ _ _ _ _ membershipRan
  have otherMembers := @membershipScript_others _ _ _ _ _ _ membershipRan
  rcases membershipScript_spec keyedWorkspace membershipRan with
    ⟨⟨writtenMemberships, rfl⟩, membership, uniqueMemberships⟩
  have keyedMembership : AccessKeyed (writeMemberships writtenMemberships
      (writeWorkspaces writtenWorkspaces (writeUsers writtenUsers before))).db :=
    ⟨keyedWorkspace.users, keyedWorkspace.userIds, keyedWorkspace.workspaces,
      keyedWorkspace.workspaceIds, uniqueMemberships, keyedWorkspace.destinations⟩
  have destinationFrame := @frame_destinationScript _ _ _ _ _ _ destinationRan
  rcases destinationScript_spec keyedMembership destinationRan with
    ⟨⟨writtenDestinations, rfl⟩, destination, uniqueDestinations⟩
  have strategyFrame := @frame_strategyScript _ _ _ _ _ strategyRan
  rcases workspace.found with ⟨row, owned, rfl, activeRow⟩
  have frame : ∀ {key : AccessKey}, (∀ telegramUserId, key ≠ .user telegramUserId) →
      key ≠ .owner account.id → key ≠ .workspace row.id →
        accessFootprint.agrees key before after := by
    intro key notUser notOwner notWorkspace
    have first : accessFootprint.agrees key before (writeUsers writtenUsers before) := by
      cases key with
      | user telegramUserId => exact absurd rfl (notUser telegramUserId)
      | request => exact accessFootprint.refl (.request _) before
      | owner => exact accessFootprint.refl (.owner _) before
      | workspace => exact accessFootprint.refl (.workspace _) before
    exact accessFootprint.trans first (accessFootprint.trans (workspaceFrame notOwner notWorkspace)
      (accessFootprint.trans (membershipFrame notWorkspace)
        (accessFootprint.trans (destinationFrame notWorkspace) (strategyFrame notWorkspace))))
  rcases strategyScript_spec strategyRan with ⟨writtenStrategies, rfl⟩
  refine ⟨⟨?_, user.found, user.others, ?_, ?_, ?_⟩, ⟨row, owned, rfl, active, activeRow, ?_, ?_⟩,
    ⟨rfl, rfl, rfl, rfl⟩, ?_⟩
  · exact ⟨keyedMembership.users, keyedMembership.userIds, keyedMembership.workspaces,
      keyedMembership.workspaceIds, keyedMembership.memberships, uniqueDestinations⟩
  · intro userId different
    exact frame (by simp) (by simpa using different) (by simp)
  · intro workspaceId free
    exact frame (by simp) (by simp) (by simpa using Ne.symm (free owned))
  · intro workspaceId userId different
    exact otherMembers (by simp [different])
  · exact membership
  · rw [sameUser]
    exact destination
  · intro first last low high
    have users : AccessExtends first last before _ := .storedUser user fun _ => by omega
    have workspaces : AccessExtends first last _ _ :=
      .storedWorkspace workspace (fun _ => ⟨account, (lookup_eq_some_mem user.found).1, rfl⟩)
        fun _ => by omega
    exact (users.trans workspaces).trans (.of_tables rfl rfl rfl rfl)

/-- The workspace of a user has been suspended. -/
structure WorkspaceSuspended (userId : ℕ) (workspace : Workspace) (before after : AccessState) :
    Prop where
  keyed : AccessKeyed after.db
  users : after.db.platformUsers = before.db.platformUsers
  same : SameRecords before after
  found : ∃ row, after.db.workspaceOf userId = some row ∧ row.id = workspace.id ∧
    row.status = .suspended
  membership : ∀ {row}, before.db.membership workspace.id userId = some row →
    ∃ later, after.db.membership workspace.id userId = some later ∧ later.status = .revoked
  members : ∀ {workspaceId other}, other ≠ userId →
    after.db.membership workspaceId other = before.db.membership workspaceId other
  destinations : ∀ {telegramChatId row},
    after.db.destination workspace.id telegramChatId = some row →
    row.enabled = false
  extends_ : ∀ {first last}, AccessExtends first last before after

theorem suspendScript_spec {userId : ℕ} {revokedAt : ℤ} {found : Option ℕ}
    (keyed : AccessKeyed before.db)
    (ran : (suspendScript userId revokedAt).run before = .ok (after, found)) :
    before.db.workspaceOf userId = none ∧ found = none ∧ after = before ∨
      ∃ workspace, before.db.workspaceOf userId = some workspace ∧ found = some workspace.id ∧
        WorkspaceSuspended userId workspace before after := by
  simp only [suspendScript, Script.run_bind, Script.run_locked, Script.run_select,
    AccessDatabase.ownWorkspace_eq] at ran
  cases present : before.db.workspaceOf userId with
  | none =>
      simp only [present, Option.map_none, Script.run_pure] at ran
      cases ran
      exact .inl ⟨rfl, rfl, rfl⟩
  | some workspace =>
      simp only [present, Option.map_some, Script.run_bind, Script.run_locked, Script.run_update,
        Script.run_pure] at ran
      cases ran
      have stored : WorkspaceStored userId 0 0 workspace.id .suspended before _ :=
        workspaceStored_status keyed present .suspended
      refine .inr ⟨workspace, rfl, rfl, ?_, rfl, ⟨rfl, rfl, rfl, rfl⟩, stored.found, ?_, ?_, ?_, ?_⟩
      · exact ⟨keyed.users, keyed.userIds, stored.unique, stored.uniqueIds,
          keyed.memberships.updateWhere fun _ => rfl, keyed.destinations.updateWhere fun _ => rfl⟩
      · intro row found
        have same : row.key = (workspace.id, userId) := (lookup_eq_some_mem found).2
        refine ⟨{ row with status := .revoked, revokedAt := some revokedAt }, ?_, rfl⟩
        refine lookup_updateWhere_selected ?_ found ?_
        · exact fun _ => rfl
        · exact decide_eq_true same
      · intro workspaceId other different
        refine lookup_updateWhere_of_unselected ?_ ?_ _
        · exact fun _ => rfl
        · intro row same
          exact decide_eq_false fun own => different (congrArg Prod.snd (same.symm.trans own))
      · intro telegramChatId row found
        have row_mem := lookup_eq_some_mem found
        rcases mem_updateWhere.mp row_mem.1 with ⟨old, old_mem, rfl⟩
        split_ifs with selected
        · rfl
        · have same := congrArg Prod.fst row_mem.2
          rw [if_neg selected] at same
          exact absurd (decide_eq_true same) selected
      · intro first last
        have status : AccessExtends first last before _ :=
          .storedWorkspace stored (fun drawn => by cases drawn) fun drawn => by cases drawn
        exact status.trans (.of_tables rfl rfl rfl rfl)

/-- What a revocation does to the account of the revoked user. -/
structure AccountRevoked (telegramUserId : ℤ) (account : PlatformUser)
    (before after : AccessState) :
    Prop where
  written : AccountWritten telegramUserId account before after
  out : ∀ {workspace}, after.db.workspaceOf account.id = some workspace →
    OutOfService after.db account workspace
  same : SameRecords before after
  extends_ : ∀ {first last}, AccessExtends first last before after

theorem accountRevoked {user : PlatformUser} {actorId : ℕ} {revokedAt : ℤ} {found : Option ℕ}
    (sound : AccountsSound ownerIds before)
    (present : before.db.user telegramUserId = some user)
    (ran : (suspendScript user.id revokedAt).run before = .ok (after, found)) :
    AccountRevoked telegramUserId (user.revoked revokedAt actorId) before
      (writeUsers (updateWhere (fun row => row.telegramUserId = telegramUserId)
        (PlatformUser.revoked revokedAt actorId)) after) := by
  have frame := @frame_suspendScript _ _ _ _ _ ran
  rcases suspendScript_spec sound.keyed ran with
    ⟨absent, rfl, rfl⟩ | ⟨workspace, owned, rfl, suspended⟩
  · have stored : UserStored telegramUserId 0 0 (user.revoked revokedAt actorId) after _ :=
      userStored_update (fun _ => rfl) (fun _ => rfl) sound.keyed present
    refine ⟨stored.written sound.keyed, ?_, ⟨rfl, rfl, rfl, rfl⟩,
      .storedUser stored fun drawn => by cases drawn⟩
    intro workspace owns
    cases absent.symm.trans owns
  · have presentAfter : after.db.user telegramUserId = some user := by
      rw [AccessDatabase.user, suspended.users]
      exact present
    have stored : UserStored telegramUserId 0 0 (user.revoked revokedAt actorId) after _ :=
      userStored_update (fun _ => rfl) (fun _ => rfl) suspended.keyed presentAfter
    have written := stored.written suspended.keyed
    rcases suspended.found with ⟨row, ownsAfter, sameId, rowSuspended⟩
    have membership : ∃ row, before.db.membership workspace.id user.id = some row := by
      rcases sound.accounts telegramUserId user workspace present owned with ⟨good, _⟩ | out
      · rcases good.membership with ⟨row, stored, _⟩
        exact ⟨row, stored⟩
      · rcases out.membership with ⟨row, stored, _⟩
        exact ⟨row, stored⟩
    refine ⟨⟨written.keyed, written.found, ?_, ?_, ?_, ?_⟩, ?_, ?_, ?_⟩
    · intro other different
      rw [written.others different, AccessDatabase.user, suspended.users, AccessDatabase.user]
    · intro userId different
      have otherUser : userId ≠ user.id := different
      have agree : accessFootprint.agrees (.owner userId) before after :=
        frame (by simpa using otherUser) (by simp)
      exact agree
    · intro workspaceId free
      have notMine : row.id ≠ workspaceId := free ownsAfter
      rw [sameId] at notMine
      have agree : accessFootprint.agrees (.workspace workspaceId) before after :=
        frame (by simp) (by simpa using Ne.symm notMine)
      exact agree
    · intro workspaceId userId different
      have otherUser : userId ≠ user.id := different
      exact suspended.members otherUser
    · intro another owns
      cases ownsAfter.symm.trans owns
      rcases membership with ⟨member, member_eq⟩
      refine ⟨rfl, rowSuspended, ?_, ?_⟩
      · rw [sameId]
        exact suspended.membership member_eq
      · intro telegramChatId destination stored
        rw [sameId] at stored
        exact suspended.destinations stored
    · exact ⟨suspended.same.requests, suspended.same.audits, suspended.same.history,
        suspended.same.nextId⟩
    · intro first last
      have users : AccessExtends first last after _ :=
        .storedUser stored fun drawn => by cases drawn
      exact suspended.extends_.trans users

end Assembly

end CopyMint
