import CopyMint.Access.Links
import CopyMint.Access.Records

/-!
# What whole decisions do

Every decision keeps the accounts and the requests sound, deletes nothing, leaves
decided requests alone and uses no identifiers but those that were drawn for it.
-/

namespace CopyMint

open Hexadecimal Relational RowSecurity Locking

/-- The committed state of the access tables. -/
structure AccessSound (ownerIds : List ℤ) (state : AccessState) : Prop where
  accounts : AccountsSound ownerIds state
  requests : RequestsSound state
  links : AccessLinked ownerIds state

/-- Who is active and what is pending after the decision of an actor. -/
structure Decided (actor : ℤ) (operation : AccessOperation) (before after : AccessState) :
    Prop where
  actives : ∀ {telegramUserId user}, after.db.user telegramUserId = some user →
    user.status = .active → telegramUserId = actor ∨
      (∃ old, before.db.user telegramUserId = some old ∧ old.status = .active) ∨
        ∃ row, operation = .approve row.id ∧ before.db.request row.id = some row ∧
          row.status = .pending ∧ row.telegramUserId = telegramUserId
  pending : ∀ row ∈ after.db.accessRequests, row.status = .pending →
    row ∈ before.db.accessRequests ∧ operation.requestId ≠ some row.id
  remaining : ∀ row ∈ before.db.accessRequests, operation.requestId ≠ some row.id →
    row ∈ after.db.accessRequests
  revoked : ∀ {target reason}, operation = .revoke target reason →
    ∃ user, after.db.user target = some user ∧ user.status = .revoked
  acted : ∃ user, after.db.user actor = some user

/-- What a decision does, with the identifiers that were drawn for it. -/
structure DecisionEffect (ownerIds : List ℤ) (actor : ℤ) (operation : AccessOperation)
    (firstId : ℕ) (before after : AccessState) : Prop where
  sound : AccessSound ownerIds after
  extends_ : AccessExtends firstId (firstId + 7) before after
  decided : Decided actor operation before after

section Steps

variable {before after : AccessState} {ownerIds : List ℤ}

theorem RequestsSound.same (sound : RequestsSound before) (same : SameRecords before after) :
    RequestsSound after where
  unique := same.requests ▸ sound.unique
  bounded := same.requests ▸ sound.bounded
  pending := same.requests ▸ sound.pending
  recorded := by
    intro requestId requestId_lt
    have recorded := sound.recorded requestId_lt
    have request : after.db.request requestId = before.db.request requestId := by
      rw [AccessDatabase.request, same.requests, AccessDatabase.request]
    constructor
    · rw [request, same.history, same.audits]
      exact recorded.decided
    · rw [request, same.history, same.audits]
      exact recorded.undecided

theorem UserStored.sameRecords {telegramUserId : ℤ} {nextId rest : ℕ} {user : PlatformUser}
    (stored : UserStored telegramUserId nextId rest user before after) :
    SameRecords before after := by
  rcases stored.onlyUsers with ⟨change, rfl⟩
  exact ⟨rfl, rfl, rfl, rfl⟩

theorem SameRecords.trans {middle : AccessState} (begins : SameRecords before middle)
    (continues : SameRecords middle after) : SameRecords before after :=
  ⟨continues.requests.trans begins.requests, continues.audits.trans begins.audits,
    continues.history.trans begins.history, continues.nextId.trans begins.nextId⟩

theorem requestScript_spec {requestId : ℕ} {row : AccessRequest}
    (ran : (requestScript requestId).run before = .ok (after, row)) :
    after = before ∧ before.db.request requestId = some row ∧ row.status = .pending := by
  rw [requestScript, Script.run_getExisting] at ran
  · cases found : before.db.request requestId with
    | none => simp [pendingRequest, found, Except.mapError] at ran
    | some stored =>
        by_cases pending : stored.status = .pending
        · simp only [pendingRequest, found, pending, ne_eq, not_true_eq_false, if_false,
            Except.mapError] at ran
          cases ran
          exact ⟨rfl, rfl, pending⟩
        · simp [pendingRequest, found, pending, Except.mapError] at ran
  · intro absent
    simp [pendingRequest, absent, Except.mapError]

theorem auditScript_spec {auditLogs : Policy SessionSettings AuditLog} {settings : SessionSettings}
    {audit : AuditLog}
    (ran : (auditScript auditLogs settings audit).run before = .ok (after, ())) :
    after = writeAudit audit before := by
  simp only [auditScript] at ran
  split_ifs at ran
  · cases ran
    rfl
  · cases ran

variable (audit : AuditLog) (decision : AccessDecision)
  (requests : List AccessRequest → List AccessRequest)

/-- The last statements of a decision. -/
def concluded (state : AccessState) : AccessState :=
  record decision (writeAudit audit (writeRequests requests state))

variable {audit decision requests}

/-- The last statements of a decision leave the accounts alone. -/
theorem AccountWritten.concluded {telegramUserId : ℤ} {account : PlatformUser}
    (written : AccountWritten telegramUserId account before after) :
    AccountWritten telegramUserId account before (concluded audit decision requests after) where
  keyed := ⟨written.keyed.users, written.keyed.userIds, written.keyed.workspaces,
    written.keyed.workspaceIds, written.keyed.memberships, written.keyed.destinations⟩
  found := written.found
  others := written.others
  only := ⟨written.only.owners, written.only.workspaces, written.only.members⟩

/-- A decision about a pending request is recorded. -/
theorem RequestsSound.conclude {row : AccessRequest} {rewrite : AccessRequest → AccessRequest}
    (sound : RequestsSound before) (same : SameRecords before after)
    (pending : before.db.request row.id = some row) (isPending : row.status = .pending)
    (kept : ∀ other, (rewrite other).id = other.id)
    (decided : ∀ other, (rewrite other).status ≠ .pending)
    (decides : decision.Decides (rewrite row)) (records : audit.Records (rewrite row)) :
    RequestsSound
      (CopyMint.concluded audit decision
        (updateWhere (fun other => other.id = row.id) rewrite) after) := by
  refine sound.settle pending isPending ?_ kept decided ?_ ?_ decides records
  · rw [← same.requests]
    rfl
  · rw [← same.history]
    rfl
  · rw [← same.audits]
    rfl

/-- A decision that is about no request leaves the requests alone. -/
theorem RequestsSound.record (sound : RequestsSound before) (same : SameRecords before after)
    (elsewhere : ∀ requestId, decision.concerns requestId = false)
    (auditElsewhere : ∀ requestId, audit.concerns requestId = false) :
    RequestsSound (CopyMint.record decision (writeAudit audit after)) := by
  refine sound.revoke ?_ ?_ ?_ elsewhere auditElsewhere
  · exact same.requests
  · rw [← same.history]
    rfl
  · rw [← same.audits]
    rfl

/-- The account of nobody is touched by a decision that only concerns a request. -/
theorem AccountsSound.conclude (sound : AccountsSound ownerIds before)
    (unrevoked : ∀ telegramUserId another, decision ≠ .revoked telegramUserId another) :
    AccountsSound ownerIds (CopyMint.concluded audit decision requests before) where
  keyed := ⟨sound.keyed.users, sound.keyed.userIds, sound.keyed.workspaces,
    sound.keyed.workspaceIds, sound.keyed.memberships, sound.keyed.destinations⟩
  owners := sound.owners
  accounts := by
    intro telegramUserId user workspace found owns
    have agree := accessFootprint.refl (.workspace workspace.id) before
    rcases sound.accounts telegramUserId user workspace found owns with ⟨good, endorsed⟩ | out
    · refine .inl ⟨good.agree agree, endorsed.append fun another mem => ?_⟩
      exact unrevoked telegramUserId another (List.mem_singleton.mp mem).symm
    · exact .inr (out.agree agree)

/-- Once an owner has acted, nothing more of the account is written by a rejection. -/
theorem AccountsSound.unwritten {actor : ℤ} {nextId rest : ℕ} {account : PlatformUser}
    (sound : AccountsSound ownerIds after)
    (stored : UserStored actor nextId rest account before after) :
    AccountWritten actor account after after where
  keyed := sound.keyed
  found := stored.found
  others := fun _ => rfl
  only := ⟨fun _ => accessFootprint.refl (.owner _) after,
    fun _ => accessFootprint.refl (.workspace _) after, fun _ => rfl⟩

theorem AccessExtends.conclude {first last requestId : ℕ} {row : AccessRequest}
    {rewrite : AccessRequest → AccessRequest} (kept : ∀ other, (rewrite other).id = other.id)
    (found : before.db.request requestId = some row) (pending : row.status = .pending) :
    AccessExtends first last before
      (CopyMint.concluded audit decision (updateWhere (fun other => other.id = requestId) rewrite)
        before) :=
  (AccessExtends.settled kept found pending).trans (.of_tables rfl rfl rfl rfl)

/-- A decided request is not pending afterwards, and the others are as before. -/
theorem pending_of_mem_updateWhere {requestId : ℕ} {rows : List AccessRequest}
    {rewrite : AccessRequest → AccessRequest} (decided : ∀ other, (rewrite other).status ≠ .pending)
    {row : AccessRequest}
    (row_mem : row ∈ updateWhere (fun other => other.id = requestId) rewrite rows)
    (pending : row.status = .pending) : row ∈ rows ∧ some requestId ≠ some row.id := by
  rcases mem_updateWhere.mp row_mem with ⟨old, old_mem, rfl⟩
  split_ifs at pending ⊢ with selected
  · exact absurd pending (decided old)
  · refine ⟨old_mem, fun same => selected (decide_eq_true ?_)⟩
    exact (Option.some.inj same).symm

/-- The requests that a decision is not about are kept. -/
theorem mem_updateWhere_of_ne {requestId : ℕ} {rows : List AccessRequest}
    {rewrite : AccessRequest → AccessRequest} {row : AccessRequest} (row_mem : row ∈ rows)
    (different : some requestId ≠ some row.id) :
    row ∈ updateWhere (fun other => other.id = requestId) rewrite rows := by
  refine mem_updateWhere.mpr ⟨row, row_mem, if_neg fun selected => different ?_⟩
  rw [of_decide_eq_true selected]

/-- Whoever is active once an owner acts is the owner or was active before. -/
theorem UserStored.actives {actor : ℤ} {nextId rest : ℕ} {account : PlatformUser}
    (stored : UserStored actor nextId rest account before after) {telegramUserId : ℤ}
    {user : PlatformUser} (found : after.db.user telegramUserId = some user)
    (active : user.status = .active) :
    telegramUserId = actor ∨
      ∃ old, before.db.user telegramUserId = some old ∧ old.status = .active := by
  by_cases same : telegramUserId = actor
  · exact .inl same
  · exact .inr ⟨user, (stored.others same).symm.trans found, active⟩

end Steps

section Decisions

variable {before after : AccessState} {ownerIds : List ℤ} {actorTelegramUserId : ℤ}
  {requestId correlationId firstId : ℕ} {result : AccessDecisionResult}
  {auditLogs : Policy SessionSettings AuditLog}

theorem approveScript_sound {decidedAt : ℤ} (sound : AccessSound ownerIds before)
    (configured : actorTelegramUserId ∈ ownerIds) (unused : Unused firstId (firstId + 7) before.db)
    (ran : (approveScript auditLogs requestId actorTelegramUserId correlationId decidedAt
      firstId).run before = .ok (after, result)) :
    DecisionEffect ownerIds actorTelegramUserId (.approve requestId) firstId before after := by
  rcases Script.run_bind_eq_ok.mp ran with ⟨_, ⟨actor, nextId⟩, actorRan, ran⟩
  rcases Script.run_bind_eq_ok.mp ran with ⟨acted, row, requestRan, ran⟩
  rcases Script.run_bind_eq_ok.mp ran with ⟨stored, ⟨account, workspaceId, rest⟩, accountRan, ran⟩
  rcases Script.run_bind_eq_ok.mp ran with ⟨_, _, updateRan, ran⟩
  rcases Script.run_bind_eq_ok.mp ran with ⟨_, _, auditRan, ran⟩
  cases updateRan
  cases auditScript_spec auditRan
  cases ran
  rcases requestScript_spec requestRan with ⟨rfl, found, pending⟩
  rcases sound.accounts.actor configured unused (by omega) actorRan with ⟨actorSound, actorStored⟩
  rcases unused_writeUsers actorStored unused with ⟨actorUnused, bounds⟩
  have approved := accountScript_spec actorSound.keyed actorUnused (by omega) accountRan
  have rowId : row.id = requestId := (lookup_eq_some_mem found).2
  subst rowId
  rcases approved.good with ⟨workspace, owned, _, good⟩
  have actorExtends : AccessExtends firstId (firstId + 7) before acted :=
    .storedUser actorStored fun _ => by omega
  have foundStored : stored.db.request row.id = some row := by
    rw [AccessDatabase.request, approved.same.requests]
    exact found
  have accountExtends : AccessExtends firstId (firstId + 7) acted stored :=
    approved.extends_ (by omega) (by omega)
  refine ⟨⟨?_, ?_, ?_⟩, ?_, ?_, ?_, ?_, ?_, ?_⟩
  · refine approved.written.concluded.sound actorSound (fun _ => good.activeUser) ?_ ?_
    · intro user another foundUser owns
      cases approved.written.found.symm.trans foundUser
      cases owned.symm.trans owns
      have agree := accessFootprint.refl (.workspace workspace.id) stored
      exact .inl ⟨good.agree agree, stored.history, row.id, actorTelegramUserId, [], configured,
        rfl, by simp⟩
    · intro other different endorsed
      have appended : Endorsed ownerIds other (stored.history ++
          [.approved row.id row.telegramUserId actorTelegramUserId]) := by
        rw [approved.same.history]
        exact endorsed.append (by simp)
      exact appended
  · apply (sound.requests.same actorStored.sameRecords).conclude approved.same found pending
    · exact fun _ => rfl
    · intro _ impossible
      cases impossible
    · exact ⟨rfl, rfl, rfl⟩
    · exact ⟨rfl, rfl, rfl⟩
  · have linked := sound.links.actor sound.accounts.keyed configured actorStored actorExtends
    refine linked.written actorSound.keyed approved.written.concluded
      (accountExtends.trans (.conclude ?_ foundStored pending)) (fun _ => ⟨workspace, owned⟩)
      fun later later_mem _ => ?_
    · exact fun _ => rfl
    rcases mem_updateWhere.mp later_mem with ⟨old, old_mem, rfl⟩
    rw [approved.same.requests] at old_mem
    split_ifs with selected
    · have same := (sound.requests.same actorStored.sameRecords).unique.eq_of_key_eq old_mem
        (lookup_eq_some_mem found).1 (of_decide_eq_true selected)
      have owner : old.telegramUserId = row.telegramUserId := by rw [same]
      exact .inr owner
    · exact .inl old_mem
  · refine (actorExtends.trans accountExtends).trans (.conclude ?_ foundStored pending)
    exact fun _ => rfl
  · intro telegramUserId user foundUser active
    by_cases mine : telegramUserId = row.telegramUserId
    · refine .inr (.inr ⟨row, rfl, ?_, pending, mine.symm⟩)
      rw [AccessDatabase.request, ← actorStored.sameRecords.requests]
      exact found
    · have unwritten := (approved.written.others mine).symm.trans foundUser
      exact (actorStored.actives unwritten active).imp_right .inl
  · intro later later_mem isPending
    have kept := pending_of_mem_updateWhere (fun _ impossible => by cases impossible) later_mem
      isPending
    rw [approved.same.requests, actorStored.sameRecords.requests] at kept
    exact kept
  · intro later later_mem different
    refine mem_updateWhere_of_ne ?_ different
    rw [approved.same.requests, actorStored.sameRecords.requests]
    exact later_mem
  · intro target reason impossible
    cases impossible
  · rcases accountExtends.users actorStored.found with ⟨later, later_eq, _⟩
    exact ⟨later, later_eq⟩

theorem rejectScript_sound {isoformat : ℤ → Text} {reason : Option Text} {decidedAt : ℤ}
    {cooldownUntil : Option ℤ} (sound : AccessSound ownerIds before)
    (configured : actorTelegramUserId ∈ ownerIds) (unused : Unused firstId (firstId + 7) before.db)
    (ran : (rejectScript auditLogs isoformat requestId actorTelegramUserId correlationId reason
      decidedAt cooldownUntil firstId).run before = .ok (after, result)) {cooldown : Option ℤ} :
    DecisionEffect ownerIds actorTelegramUserId (.reject requestId reason cooldown) firstId before
      after := by
  rcases Script.run_bind_eq_ok.mp ran with ⟨_, ⟨actor, nextId⟩, actorRan, ran⟩
  rcases Script.run_bind_eq_ok.mp ran with ⟨acted, row, requestRan, ran⟩
  rcases Script.run_bind_eq_ok.mp ran with ⟨_, _, updateRan, ran⟩
  rcases Script.run_bind_eq_ok.mp ran with ⟨_, _, auditRan, ran⟩
  cases updateRan
  cases auditScript_spec auditRan
  cases ran
  rcases requestScript_spec requestRan with ⟨rfl, found, pending⟩
  rcases sound.accounts.actor configured unused (by omega) actorRan with ⟨actorSound, actorStored⟩
  have rowId : row.id = requestId := (lookup_eq_some_mem found).2
  subst rowId
  have records : SameRecords acted acted := ⟨rfl, rfl, rfl, rfl⟩
  have actorExtends : AccessExtends firstId (firstId + 7) before acted :=
    .storedUser actorStored fun _ => by omega
  refine ⟨⟨?_, ?_, ?_⟩, ?_, ?_, ?_, ?_, ?_, actor, actorStored.found⟩
  · apply actorSound.conclude
    intro _ _ impossible
    cases impossible
  · apply (sound.requests.same actorStored.sameRecords).conclude records found pending
    · exact fun _ => rfl
    · intro _ impossible
      cases impossible
    · exact ⟨rfl, rfl, rfl⟩
    · exact ⟨rfl, rfl, rfl⟩
  · have linked := sound.links.actor sound.accounts.keyed configured actorStored actorExtends
    refine @AccessLinked.written _ _ _ _ _ firstId (firstId + 7) linked actorSound.keyed
      (actorSound.unwritten actorStored).concluded (.conclude ?_ found pending) (absurd configured)
      fun later later_mem isApproved => ?_
    · exact fun _ => rfl
    rcases mem_updateWhere.mp later_mem with ⟨old, old_mem, rfl⟩
    split_ifs at isApproved ⊢ with selected
    · cases isApproved
    · exact .inl old_mem
  · refine actorExtends.trans (.conclude ?_ found pending)
    exact fun _ => rfl
  · intro telegramUserId user foundUser active
    exact (actorStored.actives foundUser active).imp_right .inl
  · intro later later_mem isPending
    have kept := pending_of_mem_updateWhere (fun _ impossible => by cases impossible) later_mem
      isPending
    rw [actorStored.sameRecords.requests] at kept
    exact kept
  · intro later later_mem different
    refine mem_updateWhere_of_ne ?_ different
    rw [actorStored.sameRecords.requests]
    exact later_mem
  · intro target reason impossible
    cases impossible

theorem revokeScript_sound {targetTelegramUserId : ℤ} {reason : Option Text} {revokedAt : ℤ}
    (sound : AccessSound ownerIds before) (configured : actorTelegramUserId ∈ ownerIds)
    (unconfigured : targetTelegramUserId ∉ ownerIds)
    (unused : Unused firstId (firstId + 7) before.db)
    (ran : (revokeScript auditLogs targetTelegramUserId actorTelegramUserId correlationId reason
      revokedAt firstId).run before = .ok (after, ())) :
    DecisionEffect ownerIds actorTelegramUserId (.revoke targetTelegramUserId reason) firstId before
      after := by
  rcases Script.run_bind_eq_ok.mp ran with ⟨acted, ⟨actor, nextId⟩, actorRan, ran⟩
  rcases Script.run_bind_eq_ok.mp ran with ⟨found, user, userRan, ran⟩
  rcases Script.run_bind_eq_ok.mp ran with ⟨suspended, workspaceId, suspendRan, ran⟩
  rcases Script.run_bind_eq_ok.mp ran with ⟨_, _, updateRan, ran⟩
  rcases Script.run_bind_eq_ok.mp ran with ⟨_, _, auditRan, ran⟩
  cases updateRan
  cases auditScript_spec auditRan
  cases ran
  rcases sound.accounts.actor configured unused (by omega) actorRan with ⟨actorSound, actorStored⟩
  rw [Script.run_getExisting fun absent => by rw [absent, Option.elim_none]] at userRan
  cases present : acted.db.user targetTelegramUserId with
  | none =>
      simp only [present, Option.elim_none] at userRan
      cases userRan
  | some target =>
      simp only [present, Option.elim_some] at userRan
      cases userRan
      have revoked :
          AccountRevoked targetTelegramUserId (user.revoked revokedAt actor.id) acted _ :=
        accountRevoked actorSound present suspendRan
      have actorExtends : AccessExtends firstId (firstId + 7) before acted :=
        .storedUser actorStored fun _ => by omega
      refine ⟨⟨?_, ?_, ?_⟩, ?_, ?_, ?_, ?_, ?_, ?_⟩
      · refine AccountWritten.sound (@AccountWritten.concluded _ _ _ _ id _ _ revoked.written)
          actorSound (fun impossible => absurd impossible unconfigured) ?_ ?_
        · intro another workspace found owns
          cases revoked.written.found.symm.trans found
          have agree := accessFootprint.refl (.workspace workspace.id) (writeUsers
            (updateWhere (fun row => row.telegramUserId = targetTelegramUserId)
              (PlatformUser.revoked revokedAt actor.id)) suspended)
          have out : OutOfService _ (user.revoked revokedAt actor.id) workspace := revoked.out owns
          exact .inr (out.agree agree)
        · intro other different endorsed
          have appended : Endorsed ownerIds other (suspended.history ++
              [.revoked targetTelegramUserId actorTelegramUserId]) := by
            have history : suspended.history = acted.history := revoked.same.history
            rw [history]
            apply endorsed.append
            intro another mem
            cases List.mem_singleton.mp mem
            exact different rfl
          exact appended
      · apply (sound.requests.same actorStored.sameRecords).record revoked.same
        · exact fun _ => rfl
        · exact fun _ => rfl
      · have linked := sound.links.actor sound.accounts.keyed configured actorStored actorExtends
        have accountExtends : AccessExtends firstId (firstId + 7) acted _ := revoked.extends_
        refine linked.written actorSound.keyed
          (@AccountWritten.concluded _ _ _ _ id _ _ revoked.written)
          (accountExtends.trans (.of_tables rfl rfl rfl rfl)) ?_ ?_
        · intro unowned
          rcases linked.users present unowned with ⟨workspace, owned⟩
          exact accountExtends.workspaceOf actorSound.keyed owned
        · intro row row_mem _
          rw [← revoked.same.requests]
          exact .inl row_mem
      · exact (actorExtends.trans revoked.extends_).trans (.of_tables rfl rfl rfl rfl)
      · intro telegramUserId user foundUser active
        by_cases mine : telegramUserId = targetTelegramUserId
        · subst mine
          cases revoked.written.found.symm.trans foundUser
          cases active
        · have unwritten := (revoked.written.others mine).symm.trans foundUser
          exact (actorStored.actives unwritten active).imp_right .inl
      · intro row row_mem _
        rw [← actorStored.sameRecords.requests, ← revoked.same.requests]
        exact ⟨row_mem, nofun⟩
      · intro row row_mem _
        rw [← actorStored.sameRecords.requests, ← revoked.same.requests] at row_mem
        exact row_mem
      · intro target another same
        cases same
        exact ⟨_, revoked.written.found, rfl⟩
      · have accountExtends : AccessExtends firstId (firstId + 7) acted _ := revoked.extends_
        rcases accountExtends.users actorStored.found with ⟨later, later_eq, _⟩
        exact ⟨later, later_eq⟩

end Decisions

end CopyMint
