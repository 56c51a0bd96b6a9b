import CopyMint.Access.Transactions
import Mathlib.Tactic.SplitIfs

/-!
# Requests and the record of their decisions

A request is decided by one decision, which the audit log and the history both
record. An audit row names its request by the text of an identifier of 128 bits.
-/

namespace CopyMint

open Hexadecimal Relational

namespace AccessDecision

/-- The decision is about a request. -/
def concerns (requestId : ℕ) : AccessDecision → Bool
  | approved decided _ _ | rejected decided _ _ => decided = requestId
  | revoked _ _ => false

/-- The decision says what the row of its request says. -/
def Decides (row : AccessRequest) : AccessDecision → Prop
  | approved requestId telegramUserId _ =>
      requestId = row.id ∧ telegramUserId = row.telegramUserId ∧ row.status = .approved
  | rejected requestId telegramUserId _ =>
      requestId = row.id ∧ telegramUserId = row.telegramUserId ∧ row.status = .rejected
  | revoked _ _ => False

theorem Decides.concerns {row : AccessRequest} {decision : AccessDecision}
    (decides : decision.Decides row) (requestId : ℕ) :
    decision.concerns requestId = decide (row.id = requestId) := by
  cases decision with
  | approved | rejected => rw [AccessDecision.concerns, decides.1]
  | revoked => exact decides.elim

end AccessDecision

/-- The audit row is about the request. -/
def AuditLog.concerns (requestId : ℕ) (audit : AuditLog) : Bool :=
  audit.resourceType = "access_request".toList && audit.resourceId = uuidText requestId

/-- The audit row says what the row of its request says. -/
structure AuditLog.Records (row : AccessRequest) (audit : AuditLog) : Prop where
  resourceType : audit.resourceType = "access_request".toList
  resourceId : audit.resourceId = uuidText row.id
  action : audit.action = "access_request_".toList ++ row.status.value

theorem AuditLog.Records.concerns {row : AccessRequest} {audit : AuditLog}
    (records : audit.Records row) (bounded : row.id < 2 ^ 128) {requestId : ℕ}
    (requestId_lt : requestId < 2 ^ 128) :
    audit.concerns requestId = decide (row.id = requestId) := by
  rw [AuditLog.concerns, records.resourceType, records.resourceId]
  by_cases same : row.id = requestId
  · simp [same]
  · have different := mt (uuidText_injective bounded requestId_lt) same
    simp [same, different]

/-- A decided request has one decision and one audit row, and other requests have none. -/
structure Recorded (requestId : ℕ) (state : AccessState) : Prop where
  decided : ∀ {row}, state.db.request requestId = some row → row.status ≠ .pending →
    (∃ decision, state.history.filter (·.concerns requestId) = [decision] ∧
      decision.Decides row) ∧
    ∃ audit, state.db.auditLogs.filter (·.concerns requestId) = [audit] ∧ audit.Records row
  undecided : (∀ {row}, state.db.request requestId = some row → row.status = .pending) →
    state.history.filter (·.concerns requestId) = [] ∧
      state.db.auditLogs.filter (·.concerns requestId) = []

/-- The requests of a committed state. -/
structure RequestsSound (state : AccessState) : Prop where
  unique : Unique AccessRequest.id state.db.accessRequests
  bounded : ∀ row ∈ state.db.accessRequests, row.id < 2 ^ 128
  pending : ∀ {first second}, first ∈ state.db.accessRequests →
    second ∈ state.db.accessRequests → first.status = .pending → second.status = .pending →
      first.telegramUserId = second.telegramUserId → first.id = second.id
  recorded : ∀ {requestId}, requestId < 2 ^ 128 → Recorded requestId state

section Recording

variable {before after : AccessState} {row : AccessRequest} {decision : AccessDecision}
  {audit : AuditLog}

/-- A decision about something else leaves the record of a request alone. -/
theorem Recorded.other {requestId : ℕ} (recorded : Recorded requestId before)
    (same : after.db.request requestId = before.db.request requestId)
    (history : after.history = before.history ++ [decision])
    (audits : after.db.auditLogs = before.db.auditLogs ++ [audit])
    (elsewhere : decision.concerns requestId = false)
    (auditElsewhere : audit.concerns requestId = false) : Recorded requestId after := by
  have decisions : after.history.filter (·.concerns requestId) =
      before.history.filter (·.concerns requestId) := by
    rw [history, List.filter_append, List.filter_singleton, elsewhere, cond_false, List.append_nil]
  have auditRows : after.db.auditLogs.filter (·.concerns requestId) =
      before.db.auditLogs.filter (·.concerns requestId) := by
    rw [audits, List.filter_append, List.filter_singleton, auditElsewhere, cond_false,
      List.append_nil]
  constructor
  · intro row found
    rw [decisions, auditRows]
    exact recorded.decided (same.symm.trans found)
  · intro pending
    rw [decisions, auditRows]
    exact recorded.undecided fun found => pending (same.trans found)

theorem RequestsSound.settle (sound : RequestsSound before)
    {rewrite : AccessRequest → AccessRequest}
    (pending : before.db.request row.id = some row) (isPending : row.status = .pending)
    (requests : after.db.accessRequests =
      updateWhere (fun other => other.id = row.id) rewrite before.db.accessRequests)
    (kept : ∀ other, (rewrite other).id = other.id)
    (decided : ∀ other, (rewrite other).status ≠ .pending)
    (history : after.history = before.history ++ [decision])
    (audits : after.db.auditLogs = before.db.auditLogs ++ [audit])
    (decides : decision.Decides (rewrite row)) (records : audit.Records (rewrite row)) :
    RequestsSound after where
  unique := by
    rw [requests]
    exact sound.unique.updateWhere kept
  bounded := by
    intro later later_mem
    rw [requests] at later_mem
    rcases mem_updateWhere.mp later_mem with ⟨old, old_mem, rfl⟩
    have bound := sound.bounded old old_mem
    split_ifs
    · rw [kept]
      exact bound
    · exact bound
  pending := by
    intro first second first_mem second_mem first_pending second_pending same
    rw [requests] at first_mem second_mem
    rcases mem_updateWhere.mp first_mem with ⟨old, old_mem, rfl⟩
    rcases mem_updateWhere.mp second_mem with ⟨other, other_mem, rfl⟩
    split_ifs at first_pending second_pending same ⊢ with first_chosen second_chosen
    · exact absurd first_pending (decided old)
    · exact absurd first_pending (decided old)
    · exact absurd second_pending (decided other)
    · exact sound.pending old_mem other_mem first_pending second_pending same
  recorded := by
    intro requestId requestId_lt
    have bound := sound.bounded row (lookup_eq_some_mem pending).1
    have concerns : decision.concerns requestId = decide (row.id = requestId) := by
      rw [decides.concerns, kept]
    have auditConcerns : audit.concerns requestId = decide (row.id = requestId) := by
      rw [records.concerns (by rw [kept]; exact bound) requestId_lt, kept]
    by_cases same : row.id = requestId
    · subst same
      have found : after.db.request row.id = some (rewrite row) := by
        rw [AccessDatabase.request, requests]
        exact lookup_updateWhere_selected kept pending (decide_eq_true rfl)
      have before_empty : _ ∧ _ :=
        (sound.recorded requestId_lt).undecided fun {other} other_eq => by
        cases pending.symm.trans other_eq
        exact isPending
      constructor
      · intro later later_eq _
        cases found.symm.trans later_eq
        refine ⟨⟨decision, ?_, decides⟩, audit, ?_, records⟩
        · rw [history, List.filter_append, before_empty.1, List.filter_singleton, concerns]
          simp
        · rw [audits, List.filter_append, before_empty.2, List.filter_singleton, auditConcerns]
          simp
      · intro undecided
        exact absurd (undecided found) (decided row)
    · refine (sound.recorded requestId_lt).other ?_ history audits ?_ ?_
      · rw [AccessDatabase.request, requests]
        apply lookup_updateWhere_of_unselected kept
        intro other other_eq
        exact decide_eq_false fun equal => same (equal.symm.trans other_eq)
      · rw [concerns]
        exact decide_eq_false same
      · rw [auditConcerns]
        exact decide_eq_false same

/-- A revocation is recorded, but is about no request. -/
theorem RequestsSound.revoke (sound : RequestsSound before)
    (requests : after.db.accessRequests = before.db.accessRequests)
    (history : after.history = before.history ++ [decision])
    (audits : after.db.auditLogs = before.db.auditLogs ++ [audit])
    (elsewhere : ∀ requestId, decision.concerns requestId = false)
    (auditElsewhere : ∀ requestId, audit.concerns requestId = false) : RequestsSound after where
  unique := requests ▸ sound.unique
  bounded := requests ▸ sound.bounded
  pending := requests ▸ sound.pending
  recorded := by
    intro requestId requestId_lt
    refine (sound.recorded requestId_lt).other ?_ history audits (elsewhere _) (auditElsewhere _)
    rw [AccessDatabase.request, requests, AccessDatabase.request]

/-- A request is created pending, where none of the account is. -/
theorem getOrCreatePendingRequest_spec (identity : TelegramIdentity) (requestedAt : ℤ)
    (db : AccessDatabase) :
    (getOrCreatePendingRequest identity requestedAt db).1 = db ∨
      ∃ created : AccessRequest, created.id = db.nextId ∧ created.status = .pending ∧
        (∀ row ∈ db.accessRequests, row.status = .pending →
          row.telegramUserId ≠ created.telegramUserId) ∧
        (getOrCreatePendingRequest identity requestedAt db).1 =
          { db with
            accessRequests := db.accessRequests ++ [created]
            nextId := db.nextId + 1 } := by
  simp only [getOrCreatePendingRequest]
  split
  · exact .inl rfl
  · rename_i absent
    refine .inr ⟨_, ?_, ?_, ?_, rfl⟩
    · rfl
    · rfl
    · intro row row_mem pending same
      have other := List.find?_eq_none.mp absent row row_mem
      simp [same, pending] at other

theorem RequestsSound.request (sound : RequestsSound before) (identity : TelegramIdentity)
    (requestedAt : ℤ) (fresh : ∀ row ∈ before.db.accessRequests, row.id < before.db.nextId)
    (bound : before.db.nextId < 2 ^ 128) :
    RequestsSound { before with
      db := (getOrCreatePendingRequest identity requestedAt before.db).1 } := by
  rcases getOrCreatePendingRequest_spec identity requestedAt before.db with
    same | ⟨created, id_eq, created_pending, unpending, written⟩
  · rw [same]
    exact sound
  · rw [written]
    have absent : before.db.request created.id = none := by
      apply lookup_eq_none_iff.mpr
      intro row row_mem same
      have earlier := fresh row row_mem
      omega
    constructor
    · exact sound.unique.append absent
    · intro row row_mem
      rcases List.mem_append.mp row_mem with old | new
      · exact sound.bounded row old
      · rw [List.mem_singleton.mp new, id_eq]
        exact bound
    · intro first second first_mem second_mem first_pending second_pending same
      rcases List.mem_append.mp first_mem with first_old | first_new <;>
        rcases List.mem_append.mp second_mem with second_old | second_new
      · exact sound.pending first_old second_old first_pending second_pending same
      · rw [List.mem_singleton.mp second_new] at same
        exact absurd same (unpending first first_old first_pending)
      · rw [List.mem_singleton.mp first_new] at same
        exact absurd same.symm (unpending second second_old second_pending)
      · rw [List.mem_singleton.mp first_new, List.mem_singleton.mp second_new]
    · intro requestId requestId_lt
      have recorded := sound.recorded requestId_lt
      by_cases same : created.id = requestId
      · subst same
        have found := lookup_append_new (rfl : created.id = created.id) absent
        have empty : _ ∧ _ := recorded.undecided fun {row} row_eq => by
          cases absent.symm.trans row_eq
        constructor
        · intro row row_eq decided
          cases found.symm.trans row_eq
          exact absurd created_pending decided
        · exact fun _ => empty
      · have kept := lookup_append_other same before.db.accessRequests
        constructor
        · intro row found
          exact recorded.decided (kept.symm.trans found)
        · intro pending
          exact recorded.undecided fun found => pending (kept.trans found)

end Recording

end CopyMint
