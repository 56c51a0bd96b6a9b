import CopyMint.Access.Outcomes

/-!
# What decisions raise

Under any policies a decision raises an error of its own exactly if its subject is not
there to be decided; apart from that, only the database refuses what it is asked to do.
-/

namespace CopyMint

open Hexadecimal Relational RowSecurity Fallible AccessDatabase

/-- What the database raises, other than the decision itself. -/
def AccessFailure.isRefusal : AccessFailure → Bool
  | rowSecurityViolation _ | stringTooLong _ => true
  | accessRequestNotFound | accessRequestNotPending | userNotFound => false

/-- The operation raises nothing unless the database refuses it. -/
def OnlyRefused {α : Type} : Except AccessFailure α → Prop :=
  FailsOnly fun failure => failure.isRefusal = true

variable {policies : AccessPolicies} {settings : SessionSettings} {db : AccessDatabase}

namespace OnlyRefused

theorem secured {α : Type} {table : String} {result : Option α} :
    OnlyRefused (secured table result) := by
  cases result with
  | none => exact failsOnly_error_iff.mpr rfl
  | some value => exact failsOnly_ok value

theorem updateWorkspace {workspaceId : ℕ} {status : WorkspaceStatus} :
    OnlyRefused (updateWorkspace policies settings workspaceId status db) :=
  secured.bind fun _ _ => failsOnly_ok _

theorem personalWorkspace {user : PlatformUser} :
    OnlyRefused (personalWorkspace policies settings user db) := by
  simp only [CopyMint.personalWorkspace]
  split
  · split_ifs
    · exact failsOnly_error_iff.mpr rfl
    · exact secured.bind fun _ _ => failsOnly_ok _
  · exact updateWorkspace.bind fun _ _ => failsOnly_ok _

theorem activateMembership {workspaceId userId : ℕ} :
    OnlyRefused (activateMembership policies settings workspaceId userId db) := by
  simp only [CopyMint.activateMembership]
  split <;> exact secured.bind fun _ _ => failsOnly_ok _

theorem enableDestination {workspaceId : ℕ} {telegramChatId : ℤ} :
    OnlyRefused (enableDestination policies settings workspaceId telegramChatId db) := by
  simp only [CopyMint.enableDestination]
  split <;> exact secured.bind fun _ _ => failsOnly_ok _

theorem ensureStrategy {workspaceId : ℕ} :
    OnlyRefused (ensureStrategy policies settings workspaceId db) := by
  simp only [CopyMint.ensureStrategy]
  split
  · exact secured.bind fun _ _ => failsOnly_ok _
  · exact failsOnly_ok db

theorem suspendWorkspace {workspaceId userId : ℕ} {revokedAt : ℤ} :
    OnlyRefused (suspendWorkspace policies settings workspaceId userId revokedAt db) := by
  refine updateWorkspace.bind fun _ _ => ?_
  refine secured.bind fun _ _ => ?_
  exact secured.bind fun _ _ => failsOnly_ok _

theorem insertAudit {audit : AuditLog} :
    OnlyRefused (insertAudit policies settings audit db) :=
  secured.bind fun _ _ => failsOnly_ok _

end OnlyRefused

/-- The request is there, and nobody has decided it. -/
def IsPending (requestId : ℕ) (db : AccessDatabase) : Prop :=
  ∃ request, db.request requestId = some request ∧ request.status = .pending

theorem onlyRefused_pendingRequest_iff {requestId : ℕ} :
    OnlyRefused (pendingRequest requestId db) ↔ IsPending requestId db := by
  rw [IsPending]
  simp only [pendingRequest]
  cases found : db.request requestId with
  | none => simp [OnlyRefused, AccessFailure.isRefusal]
  | some request =>
      dsimp only
      split_ifs with decided
      · simp [OnlyRefused, AccessFailure.isRefusal, decided]
      · simpa [OnlyRefused] using decided

section Decisions

variable {requestId correlationId : ℕ} {actor decidedAt : ℤ}

theorem onlyRefused_approveRequest_iff :
    OnlyRefused (approveRequest policies requestId actor correlationId decidedAt db) ↔
      IsPending requestId db := by
  simp only [approveRequest, pendingRequest_platformActor]
  rw [OnlyRefused, failsOnly_bind_iff, ← OnlyRefused, onlyRefused_pendingRequest_iff]
  refine and_iff_left_of_imp fun _ accessRequest _ => ?_
  refine OnlyRefused.personalWorkspace.bind fun _ _ => ?_
  refine OnlyRefused.activateMembership.bind fun _ _ => ?_
  refine OnlyRefused.enableDestination.bind fun _ _ => ?_
  refine OnlyRefused.ensureStrategy.bind fun _ _ => ?_
  exact OnlyRefused.insertAudit.bind fun _ _ => failsOnly_ok _

theorem onlyRefused_rejectRequest_iff {isoformat : ℤ → Text} {reason : Option Text}
    {cooldownUntil : Option ℤ} :
    OnlyRefused (rejectRequest isoformat policies requestId actor correlationId reason decidedAt
      cooldownUntil db) ↔ IsPending requestId db := by
  simp only [rejectRequest, pendingRequest_platformActor]
  rw [OnlyRefused, failsOnly_bind_iff, ← OnlyRefused, onlyRefused_pendingRequest_iff]
  refine and_iff_left_of_imp fun _ accessRequest _ => ?_
  exact OnlyRefused.insertAudit.bind fun _ _ => failsOnly_ok _

end Decisions

/-- The actor of a revocation becomes a user; nobody else does. -/
theorem revokedUser_eq_none_iff {target actor revokedAt : ℤ} :
    revokedUser target actor revokedAt db = none ↔ target ≠ actor ∧ db.user target = none := by
  constructor
  · intro absent
    have unknown : db.user target = none := by
      cases found : db.user target with
      | none => rfl
      | some user =>
          rcases (accountsGrow_platformActor db actor revokedAt).users found with ⟨_, later, _⟩
          cases absent.symm.trans later
    refine ⟨?_, unknown⟩
    rintro rfl
    have inserted : ∃ user, revokedUser target target revokedAt db = some user := by
      simp only [revokedUser, platformActor, unknown]
      exact ⟨_, lookup_append_new rfl unknown⟩
    rcases inserted with ⟨user, found⟩
    cases absent.symm.trans found
  · rintro ⟨other, unknown⟩
    simp only [revokedUser, platformActor]
    split
    · split_ifs
      · have kept : ∀ row, (reactivated row).telegramUserId = row.telegramUserId := fun _ => rfl
        simp only [AccessDatabase.user, updateUser] at unknown ⊢
        rw [lookup_updateWhere kept, unknown]
        rfl
      · exact unknown
    · simp only [AccessDatabase.user, insertUser] at unknown ⊢
      rw [lookup_append_other (Ne.symm other)]
      exact unknown

theorem onlyRefused_revokeUser_iff {target actor revokedAt : ℤ} {correlationId : ℕ}
    {reason : Option Text} :
    OnlyRefused (revokeUser policies target actor correlationId reason revokedAt db) ↔
      ¬(target ≠ actor ∧ db.user target = none) := by
  rw [← revokedUser_eq_none_iff, revokedUser]
  simp only [revokeUser]
  cases (platformActor actor revokedAt db).1.user target with
  | none => simp [OnlyRefused, AccessFailure.isRefusal]
  | some user =>
      refine iff_of_true ?_ (by simp)
      dsimp only
      split
      · exact OnlyRefused.insertAudit
      · exact OnlyRefused.suspendWorkspace.bind fun _ _ => OnlyRefused.insertAudit

end CopyMint
