import CopyMint.Access.ReportedStatus
import CopyMint.Bot.SingleUse

/-!
# Challenges of revoked users

The callers of the access service issue and consume challenges with the contexts that they
have got. A revocation does not touch the challenges, so that it keeps a user from
consuming them only as long as nobody holds a context of the user. What is issued, revoked
and consumed is noted in the order in which it takes effect. Challenges expire by a clock
that never runs backwards, and a call reads the clock before its statement.
-/

namespace CopyMint

open Hexadecimal Relational RowSecurity Locking Interleaving

/-- What takes effect on challenges. -/
inductive ChallengeFact where
  | issued (challenge : CallbackChallenge)
  | revoked (telegramUserId : ℤ)
  | consumed (tokenHash : BytesOf 32)

/-- What the callers share, with the facts about challenges so far. -/
structure CallerStore where
  access : Locked AccessState AccessKey
  challenges : CallbackChallenges
  clock : ℤ
  facts : List ChallengeFact

/-- Where a caller of the services is. -/
inductive CallerProcess where
  | access (process : AccessProcess)
  | issuing (call : IssueCall)
  | consuming (call : ConsumeCall)

/-- What a caller does next. -/
inductive CallerEvent where
  | access (event : AccessEvent)
  | issue (values : ChallengeService.Issue) (rawToken : Text)
  | consume (token : Text) (expectedAction : ChallengeAction)
  /-- The statement of a call takes effect, an insertion under a drawn identifier. -/
  | execute (id : ℕ)
  /-- The context is not used any more. -/
  | finish
  | elapse (time : ℕ)

/-- What an action of the access service means for challenges. -/
def AccessProcess.facts : AccessProcess → AccessEvent → List ChallengeFact
  | .deciding _ (.revoke target _) _ _, .commit => [.revoked target]
  | _, _ => []

section Program

variable (ownerIds : List ℤ) (isoformat : ℤ → Text) (auditLogs : Policy SessionSettings AuditLog)
  (primitives : Primitives) (service : ChallengeService)

/-- One action of a caller. -/
def callerStep (store : CallerStore) :
    CallerProcess → CallerEvent → Option (CallerStore × CallerProcess)
  | .access process, .access event =>
      ((accessService ownerIds isoformat auditLogs).step store.access process event).map
        fun result =>
          ({ store with access := result.1, facts := store.facts ++ process.facts event },
            .access result.2)
  | .access (.authorized context), .issue values rawToken =>
      some (store, .issuing ⟨context, values, rawToken, store.clock⟩)
  | .access (.authorized context), .consume token expectedAction =>
      some (store, .consuming ⟨context, token, expectedAction, store.clock⟩)
  | .access (.authorized _), .finish => some (store, .access .idle)
  | .issuing call, .execute id =>
      match service.issue primitives call.actor call.values id call.rawToken call.now
          store.challenges with
      | .ok challenges =>
          let new := challenges.drop store.challenges.length
          some ({ store with challenges, facts := store.facts ++ new.map .issued },
            .access (.authorized call.actor))
      | .error _ => some (store, .access .idle)
  | .consuming call, .execute _ =>
      match ChallengeService.consume primitives call.actor call.token call.expectedAction call.now
          store.challenges with
      | .ok (challenges, record) =>
          some ({ store with challenges, facts := store.facts ++ [.consumed record.tokenHash] },
            .access (.authorized call.actor))
      | .error _ => some (store, .access .idle)
  | process, .elapse time => some ({ store with clock := store.clock + time }, process)
  | _, _ => none

/-- Callers of the access service who issue and consume challenges. -/
def callerProgram : Program CallerStore CallerProcess CallerEvent :=
  ⟨callerStep ownerIds isoformat auditLogs primitives service⟩

end Program

/-- No caller has begun. -/
def initialCallers (clock : ℤ) : World CallerStore CallerProcess :=
  .uniform ⟨⟨emptyAccessState, []⟩, [], clock, []⟩ (.access .idle)

/-- The user was revoked after the challenge had been issued. -/
def IssuedBeforeRevocation (challenge : CallbackChallenge) (facts : List ChallengeFact) : Prop :=
  ∃ earlier later, facts = earlier ++ later ∧ .issued challenge ∈ earlier ∧
    .revoked challenge.expectedActorTelegramUserId ∈ later

/-- No challenge is consumed once its user has been revoked. -/
def RevocationsRespected (facts : List ChallengeFact) : Prop :=
  ∀ earlier later challenge, facts = earlier ++ later →
    IssuedBeforeRevocation challenge earlier → .consumed challenge.tokenHash ∉ later

namespace CallerProcess

/-- The context with which a caller can consume challenges. -/
def context : CallerProcess → Option RequestContext
  | access (.authorized context) => some context
  | issuing call => some call.actor
  | consuming call => some call.actor
  | access _ => none

/-- The time by which the caller consumes a challenge at the earliest. -/
def reading (clock : ℤ) : CallerProcess → ℤ
  | consuming call => call.now
  | _ => clock

/-- What the caller is for the access service. -/
def accessProcess : CallerProcess → AccessProcess
  | access process => process
  | issuing call => .authorized call.actor
  | consuming call => .authorized call.actor

end CallerProcess

/-- The challenge cannot be consumed from a time on. -/
def CallbackChallenge.Spent (moment : ℤ) (row : CallbackChallenge) : Prop :=
  row.consumedAt.isSome ∨ row.expiresAt ≤ moment

/-- The account is revoked. -/
def IsRevoked (telegramUserId : ℤ) (db : AccessDatabase) : Prop :=
  ∃ user, db.user telegramUserId = some user ∧ user.status = .revoked

/--
A revoked user is approved again once the challenges of the user are spent, and a user is
revoked once they are for whoever holds a context of the user.
-/
def ChallengesSpent : Condition CallerStore CallerProcess CallerEvent :=
  fun world index event =>
    let db := world.store.access.committed.db
    match world.process index, event with
    | .access (.deciding _ (.approve requestId) _ _), .access .commit =>
        ∀ request, db.request requestId = some request → IsRevoked request.telegramUserId db →
          ∀ row ∈ world.store.challenges,
            row.expectedActorTelegramUserId = request.telegramUserId → row.Spent world.store.clock
    | .access (.deciding _ (.revoke target _) _ _), .access .commit =>
        ∀ other context, (world.process other).context = some context →
          context.telegramUserId = target → ∀ row ∈ world.store.challenges,
            row.expectedActorTelegramUserId = target →
              row.Spent ((world.process other).reading world.store.clock)
    | _, _ => True

section Facts

variable {facts earlier later : List ChallengeFact} {fact : ChallengeFact}
  {challenge : CallbackChallenge}

theorem append_eq_concat (same : facts ++ [fact] = earlier ++ later) :
    later = [] ∨ ∃ rest, later = rest ++ [fact] ∧ facts = earlier ++ rest := by
  rcases List.eq_nil_or_concat later with rfl | ⟨rest, last, rfl⟩
  · exact .inl rfl
  · right
    rw [List.concat_eq_append, ← List.append_assoc] at same
    rcases List.append_inj' same rfl with ⟨rfl, equal⟩
    cases equal
    exact ⟨rest, List.concat_eq_append, rfl⟩

theorem issuedBeforeRevocation_concat
    (before : IssuedBeforeRevocation challenge (facts ++ [fact])) :
    IssuedBeforeRevocation challenge facts ∨
      .issued challenge ∈ facts ∧ fact = .revoked challenge.expectedActorTelegramUserId := by
  rcases before with ⟨earlier, later, same, issued, revoked⟩
  rcases append_eq_concat same with rfl | ⟨rest, rfl, rfl⟩
  · cases revoked
  · rcases List.mem_append.mp revoked with old | new
    · exact .inl ⟨earlier, rest, rfl, issued, old⟩
    · exact .inr ⟨List.mem_append_left rest issued, (List.mem_singleton.mp new).symm⟩

theorem RevocationsRespected.concat (respected : RevocationsRespected facts)
    (late : ∀ {challenge}, fact = .consumed challenge.tokenHash →
      ¬IssuedBeforeRevocation challenge facts) : RevocationsRespected (facts ++ [fact]) := by
  intro earlier later challenge same before consumed
  rcases append_eq_concat same with rfl | ⟨rest, rfl, rfl⟩
  · cases consumed
  · rcases List.mem_append.mp consumed with old | new
    · exact respected _ _ challenge rfl before old
    · rcases before with ⟨first, second, rfl, issued, revoked⟩
      refine late (List.mem_singleton.mp new).symm ⟨first, second ++ rest, ?_, issued, ?_⟩
      · exact List.append_assoc first second rest
      · exact List.mem_append_left rest revoked

end Facts

section Invariant

variable {ownerIds : List ℤ} {isoformat : ℤ → Text} {auditLogs : Policy SessionSettings AuditLog}
  {primitives : Primitives} {service : ChallengeService}
  {world next : World CallerStore CallerProcess} {index : ℕ}

/-- What the access service sees of a world. -/
def accessView (world : World CallerStore CallerProcess) :
    World (Locked AccessState AccessKey) AccessProcess :=
  ⟨world.store.access, fun index => (world.process index).accessProcess⟩

/-- Nobody can consume the challenge, now or later, unless the user is approved again. -/
def Harmless (world : World CallerStore CallerProcess) (row : CallbackChallenge) : Prop :=
  row.consumedAt.isSome ∨
    (∀ index context, (world.process index).context = some context →
      context.telegramUserId = row.expectedActorTelegramUserId →
        row.expiresAt ≤ (world.process index).reading world.store.clock) ∧
    (IsRevoked row.expectedActorTelegramUserId world.store.access.committed.db ∨
      row.expiresAt ≤ world.store.clock)

/-- What holds in every world that is reached. -/
structure CallersSound (ownerIds : List ℤ) (world : World CallerStore CallerProcess) : Prop where
  access : AccessWorld ownerIds (accessView world)
  unique : Unique CallbackChallenge.tokenHash world.store.challenges
  remembered : ∀ {challenge}, .issued challenge ∈ world.store.facts →
    ∃ row ∈ world.store.challenges, row.tokenHash = challenge.tokenHash ∧
      row.expectedActorTelegramUserId = challenge.expectedActorTelegramUserId
  readings : ∀ index, (world.process index).reading world.store.clock ≤ world.store.clock
  harmless : ∀ {challenge}, IssuedBeforeRevocation challenge world.store.facts →
    ∀ row ∈ world.store.challenges, row.tokenHash = challenge.tokenHash → Harmless world row
  respected : RevocationsRespected world.store.facts

/-- A challenge remains harmless if contexts are only kept, or got by users who are not revoked. -/
theorem Harmless.mono {row : CallbackChallenge} (harmless : Harmless world row)
    (clock : world.store.clock ≤ next.store.clock)
    (held : ∀ index context, (next.process index).context = some context →
      (world.process index).context = some context ∧
        (world.process index).reading world.store.clock ≤
          (next.process index).reading next.store.clock ∨
      ¬IsRevoked context.telegramUserId world.store.access.committed.db ∧
        world.store.clock ≤ (next.process index).reading next.store.clock)
    (revoked : IsRevoked row.expectedActorTelegramUserId world.store.access.committed.db →
      IsRevoked row.expectedActorTelegramUserId next.store.access.committed.db ∨
        row.Spent next.store.clock) : Harmless next row := by
  rcases harmless with consumed | ⟨readers, spent⟩
  · exact .inl consumed
  · by_cases consumed : row.consumedAt.isSome
    · exact .inl consumed
    · refine .inr ⟨fun other context holds mine => ?_, ?_⟩
      · rcases held other context holds with ⟨before, later⟩ | ⟨unrevoked, later⟩
        · exact (readers other context before mine).trans later
        · rcases spent with isRevoked | expired
          · exact absurd (mine ▸ isRevoked) unrevoked
          · exact expired.trans later
      · rcases spent with isRevoked | expired
        · exact (revoked isRevoked).imp_right (Or.resolve_left · consumed)
        · exact .inr (expired.trans clock)

section Access

variable {before after : AccessState} {process : AccessProcess} {event : AccessEvent}
  {telegramUserId : ℤ}

/-- A revoked user stays so until a request of the user is approved. -/
theorem AccessChange.isRevoked (change : AccessChange ownerIds before process event after)
    (sound : AccessSound ownerIds before) (revoked : IsRevoked telegramUserId before.db) :
    IsRevoked telegramUserId after.db ∨
      ∃ context requestId firstId running request,
        process = .deciding context (.approve requestId) firstId running ∧ event = .commit ∧
          before.db.request requestId = some request ∧
            request.telegramUserId = telegramUserId := by
  rcases revoked with ⟨user, found, status⟩
  cases change with
  | kept => exact .inl ⟨user, found, status⟩
  | requested =>
      refine .inl ⟨user, ?_, status⟩
      rw [AccessDatabase.user, (CopyMint.requested _ _ before).owners.users]
      exact found
  | @decided context operation firstId running _ configured effect =>
      rcases effect.extends_.users found with ⟨later, later_eq, _⟩
      cases laterStatus : later.status with
      | revoked => exact .inl ⟨later, later_eq, laterStatus⟩
      | active =>
          right
          rcases effect.decided.actives later_eq laterStatus with
            rfl | ⟨old, old_eq, active⟩ | ⟨request, rfl, request_eq, _, mine⟩
          · have active := sound.accounts.owners found configured
            cases status.symm.trans active
          · cases found.symm.trans old_eq
            cases status.symm.trans active
          · exact ⟨context, request.id, firstId, running, request, rfl, rfl, request_eq, mine⟩

/-- A context is only got by a user who is not revoked. -/
theorem not_isRevoked_of_step {store next : Locked AccessState AccessKey} {context : RequestContext}
    (stepped : (accessService ownerIds isoformat auditLogs).step store process event =
      some (next, .authorized context)) :
    ¬IsRevoked context.telegramUserId store.committed.db := by
  have resolved : ∃ identity correlationId latest,
      resolveContext ownerIds identity correlationId latest store.committed.db = .ok context := by
    generalize same : AccessProcess.authorized context = state at stepped
    cases accessTransition stepped with
    | moved _ _ _ resolved => exact resolved context same.symm
    | started | stepped | committed | aborted | requested => cases same
  rcases resolved with ⟨identity, correlationId, latest, resolved⟩
  rcases resolveContext_eq_ok resolved with ⟨isPrivate, same, _⟩
  rw [same]
  rintro ⟨user, found, status⟩
  rw [resolveContext_of_revoked isPrivate found (by simp [status])] at resolved
  cases resolved

end Access

theorem accessView_update (store : CallerStore) (state : CallerProcess) :
    accessView ⟨store, Function.update world.process index state⟩ =
      ⟨store.access, Function.update (accessView world).process index state.accessProcess⟩ := by
  simp only [accessView]
  congr 1
  exact Function.comp_update CallerProcess.accessProcess world.process index state

theorem CallerProcess.reading_mono {process : CallerProcess} {earlier later : ℤ}
    (passes : earlier ≤ later) : process.reading earlier ≤ process.reading later := by
  cases process with
  | access | issuing => exact passes
  | consuming => exact le_rfl

theorem CallerProcess.reading_le {process : CallerProcess} {earlier later : ℤ}
    (passes : earlier ≤ later) (read : process.reading earlier ≤ earlier) :
    process.reading later ≤ later := by
  cases process with
  | access | issuing => exact le_rfl
  | consuming => exact read.trans passes

/-- Whoever holds a context after an action of one process. -/
theorem held_update {store : CallerStore} {state : CallerProcess}
    (clock : world.store.clock ≤ store.clock)
    (mine : ∀ context, state.context = some context →
      (world.process index).context = some context ∧
        (world.process index).reading world.store.clock ≤ state.reading store.clock ∨
      ¬IsRevoked context.telegramUserId world.store.access.committed.db ∧
        world.store.clock ≤ state.reading store.clock) (other : ℕ) (context : RequestContext)
    (holds : (Function.update world.process index state other).context = some context) :
    (world.process other).context = some context ∧
        (world.process other).reading world.store.clock ≤
          (Function.update world.process index state other).reading store.clock ∨
      ¬IsRevoked context.telegramUserId world.store.access.committed.db ∧
        world.store.clock ≤
          (Function.update world.process index state other).reading store.clock := by
  by_cases same : other = index
  · subst same
    rw [Function.update_self] at holds ⊢
    exact mine context holds
  · rw [Function.update_of_ne same] at holds ⊢
    exact .inl ⟨holds, CallerProcess.reading_mono clock⟩

theorem CallersSound.reading (holds : CallersSound ownerIds world) {store : CallerStore}
    {state : CallerProcess} (clock : world.store.clock ≤ store.clock)
    (mine : state.reading store.clock ≤ store.clock) (other : ℕ) :
    (Function.update world.process index state other).reading store.clock ≤ store.clock := by
  by_cases same : other = index
  · rw [same, Function.update_self]
    exact mine
  · rw [Function.update_of_ne same]
    exact CallerProcess.reading_le clock (holds.readings other)

/-- One process moves on, and nothing happens to the challenges. -/
theorem CallersSound.quiet (holds : CallersSound ownerIds world) {store : CallerStore}
    {state : CallerProcess}
    (access : AccessWorld ownerIds
      (accessView ⟨store, Function.update world.process index state⟩))
    (challenges : store.challenges = world.store.challenges)
    (facts : store.facts = world.store.facts) (clock : world.store.clock ≤ store.clock)
    (reading : state.reading store.clock ≤ store.clock)
    (mine : ∀ context, state.context = some context →
      (world.process index).context = some context ∧
        (world.process index).reading world.store.clock ≤ state.reading store.clock ∨
      ¬IsRevoked context.telegramUserId world.store.access.committed.db ∧
        world.store.clock ≤ state.reading store.clock)
    (revoked : ∀ row ∈ store.challenges,
      IsRevoked row.expectedActorTelegramUserId world.store.access.committed.db →
        IsRevoked row.expectedActorTelegramUserId store.access.committed.db ∨
          row.Spent store.clock) :
    CallersSound ownerIds ⟨store, Function.update world.process index state⟩ where
  access := access
  unique := challenges ▸ holds.unique
  remembered := by
    intro challenge issued
    rw [challenges]
    exact holds.remembered (facts ▸ issued)
  readings := holds.reading clock reading
  harmless := by
    intro challenge before row row_mem same
    have harmless := holds.harmless (facts ▸ before) row (challenges ▸ row_mem) same
    exact harmless.mono clock (held_update clock mine) (revoked row row_mem)
  respected := facts ▸ holds.respected

/-- A row that remembers an issue is one of the same user. -/
theorem CallersSound.actor_eq (holds : CallersSound ownerIds world) {challenge : CallbackChallenge}
    (issued : .issued challenge ∈ world.store.facts) {row : CallbackChallenge}
    (row_mem : row ∈ world.store.challenges) (same : row.tokenHash = challenge.tokenHash) :
    row.expectedActorTelegramUserId = challenge.expectedActorTelegramUserId := by
  rcases holds.remembered issued with ⟨known, known_mem, known_hash, actor⟩
  have rows := holds.unique.eq_of_key_eq row_mem known_mem (same.trans known_hash.symm)
  rw [rows]
  exact actor

/-- An action means nothing for challenges, or commits a revocation. -/
theorem AccessProcess.facts_eq (process : AccessProcess) (event : AccessEvent) :
    process.facts event = [] ∨ ∃ context target reason firstId running,
      process = .deciding context (.revoke target reason) firstId running ∧ event = .commit ∧
        process.facts event = [.revoked target] := by
  unfold AccessProcess.facts
  split
  · exact .inr ⟨_, _, _, _, _, rfl, rfl, rfl⟩
  · exact .inl rfl

theorem CallersSound.accesses (holds : CallersSound ownerIds world)
    {process after : AccessProcess} {event : AccessEvent}
    {access : Locked AccessState AccessKey} (found : world.process index = .access process)
    (stepped : (accessService ownerIds isoformat auditLogs).step world.store.access process event =
      some (access, after)) (spent : ChallengesSpent world index (.access event)) :
    CallersSound ownerIds
      ⟨{ world.store with access, facts := world.store.facts ++ process.facts event },
        Function.update world.process index (.access after)⟩ := by
  have process_eq : (accessView world).process index = process := by
    simp only [accessView, found, CallerProcess.accessProcess]
  have acted : (accessService ownerIds isoformat auditLogs).act (accessView world) index event =
      some ⟨access, Function.update (accessView world).process index after⟩ := by
    apply Program.act_eq_some_iff.mpr
    rw [process_eq]
    exact ⟨access, after, stepped, rfl⟩
  rcases holds.access.act acted with ⟨accessHolds, change⟩
  rw [process_eq] at change
  have viewHolds : AccessWorld ownerIds (accessView
      ⟨{ world.store with access, facts := world.store.facts ++ process.facts event },
        Function.update world.process index (.access after)⟩) := by
    rw [accessView_update]
    exact accessHolds
  have mine : ∀ context, (CallerProcess.access after).context = some context →
      ¬IsRevoked context.telegramUserId world.store.access.committed.db := by
    intro context has
    cases after with
    | authorized =>
        cases has
        exact not_isRevoked_of_step stepped
    | idle | requesting | inactive | eligible | deciding => cases has
  have revoked : ∀ row ∈ world.store.challenges,
      IsRevoked row.expectedActorTelegramUserId world.store.access.committed.db →
        IsRevoked row.expectedActorTelegramUserId access.committed.db ∨
          row.Spent world.store.clock := by
    intro row row_mem isRevoked
    refine (change.isRevoked holds.access.sound isRevoked).imp_right ?_
    rintro ⟨context, requestId, firstId, running, request, rfl, rfl, request_eq, same⟩
    simp only [ChallengesSpent, found] at spent
    exact spent request request_eq (same ▸ isRevoked) row row_mem same.symm
  rcases process.facts_eq event with
    none_new | ⟨context, target, reason, firstId, running, rfl, rfl, revokes⟩
  · refine holds.quiet viewHolds rfl ?_ le_rfl le_rfl (fun context has => ?_) revoked
    · dsimp only
      rw [none_new, List.append_nil]
    · exact .inr ⟨mine context has, le_rfl⟩
  · have ends : after = .idle := by
      rcases Option.map_eq_some_iff.mp stepped with ⟨result, _, same⟩
      cases same
      rfl
    subst ends
    refine ⟨viewHolds, holds.unique, ?_, holds.reading le_rfl le_rfl, ?_, ?_⟩
    · intro challenge issued
      rw [revokes] at issued
      apply holds.remembered
      simpa using issued
    · intro challenge before row row_mem same
      rw [revokes] at before
      rcases issuedBeforeRevocation_concat before with earlier | ⟨issued, now⟩
      · refine (holds.harmless earlier row row_mem same).mono le_rfl ?_ (revoked row row_mem)
        apply held_update le_rfl
        exact fun context has => .inr ⟨mine context has, le_rfl⟩
      · cases now
        have actor := holds.actor_eq issued row_mem same
        simp only [ChallengesSpent, found] at spent
        by_cases consumed : row.consumedAt.isSome
        · exact .inl consumed
        · refine .inr ⟨fun other context has own => ?_, .inl ?_⟩
          · dsimp only at has ⊢
            by_cases acting : other = index
            · rw [acting, Function.update_self] at has
              cases has
            · rw [Function.update_of_ne acting] at has ⊢
              exact (spent other context has (own.trans actor) row row_mem actor).resolve_left
                consumed
          · rw [actor]
            exact change.committed.2.decided.revoked rfl
    · dsimp only
      rw [revokes]
      exact holds.respected.concat nofun

/-- For the access service nothing happens. -/
theorem CallersSound.sameView (holds : CallersSound ownerIds world) {store : CallerStore}
    {state : CallerProcess} (access : store.access = world.store.access)
    (same : state.accessProcess = (world.process index).accessProcess) :
    AccessWorld ownerIds (accessView ⟨store, Function.update world.process index state⟩) := by
  have view : Function.update (accessView world).process index state.accessProcess =
      (accessView world).process := by
    rw [same]
    exact Function.update_eq_self index (accessView world).process
  rw [accessView_update, access, view]
  exact holds.access

theorem IssuedBeforeRevocation.issued {challenge : CallbackChallenge} {facts : List ChallengeFact}
    (before : IssuedBeforeRevocation challenge facts) : .issued challenge ∈ facts := by
  rcases before with ⟨earlier, later, rfl, issued, _⟩
  exact List.mem_append_left later issued

theorem CallersSound.issues (holds : CallersSound ownerIds world) {call : IssueCall}
    (found : world.process index = .issuing call) {challenge : CallbackChallenge}
    (absent : ∀ row ∈ world.store.challenges, row.tokenHash ≠ challenge.tokenHash) :
    CallersSound ownerIds
      ⟨{ world.store with
          challenges := world.store.challenges ++ [challenge]
          facts := world.store.facts ++ [.issued challenge] },
        Function.update world.process index (.access (.authorized call.actor))⟩ := by
  refine ⟨holds.sameView rfl ?_, ?_, ?_, holds.reading le_rfl le_rfl, ?_, ?_⟩
  · rw [found]
    rfl
  · apply holds.unique.append
    exact lookup_eq_none_iff.mpr absent
  · intro other issued
    rcases List.mem_append.mp issued with old | new
    · rcases holds.remembered old with ⟨row, row_mem, known⟩
      exact ⟨row, List.mem_append_left _ row_mem, known⟩
    · cases List.mem_singleton.mp new
      exact ⟨challenge, List.mem_append_right _ (List.mem_singleton_self challenge), rfl, rfl⟩
  · intro other before row row_mem same
    rcases issuedBeforeRevocation_concat before with earlier | ⟨_, impossible⟩
    · rcases List.mem_append.mp row_mem with old | new
      · refine (holds.harmless earlier row old same).mono le_rfl ?_ .inl
        apply held_update le_rfl
        intro context has
        left
        rw [found]
        exact ⟨has, le_rfl⟩
      · rw [List.mem_singleton.mp new] at same
        rcases holds.remembered earlier.issued with ⟨known, known_mem, hash, _⟩
        exact absurd (hash.trans same.symm) (absent known known_mem)
    · cases impossible
  · exact holds.respected.concat nofun

theorem CallersSound.consumes (holds : CallersSound ownerIds world) {call : ConsumeCall}
    (found : world.process index = .consuming call) {challenges : CallbackChallenges}
    {record : CallbackChallenge}
    (returned : ChallengeService.consume primitives call.actor call.token call.expectedAction
      call.now world.store.challenges = .ok (challenges, record)) :
    CallersSound ownerIds
      ⟨{ world.store with
          challenges
          facts := world.store.facts ++ [.consumed record.tokenHash] },
        Function.update world.process index (.access (.authorized call.actor))⟩ := by
  have earlierReading := holds.readings index
  rw [found] at earlierReading
  rcases ChallengeService.consume_eq_ok holds.unique returned with
    ⟨consumes, tokenHash, row, _, _, row_mem, selected, rfl, rfl⟩
  refine ⟨holds.sameView rfl ?_, consumes.unique, ?_, holds.reading le_rfl le_rfl, ?_, ?_⟩
  · rw [found]
    rfl
  · intro challenge issued
    have old : .issued challenge ∈ world.store.facts := by simpa using issued
    rcases holds.remembered old with ⟨known, known_mem, hash, actor⟩
    refine ⟨_, mem_updateWhere.mpr ⟨known, known_mem, rfl⟩, ?_, ?_⟩
    · split_ifs
      · exact hash
      · exact hash
    · split_ifs
      · exact actor
      · exact actor
  · intro challenge before later later_mem same
    rcases issuedBeforeRevocation_concat before with earlier | ⟨_, impossible⟩
    · rcases mem_updateWhere.mp later_mem with ⟨old, old_mem, rfl⟩
      split_ifs at same ⊢ with chosen
      · exact .inl rfl
      · refine (holds.harmless earlier old old_mem same).mono le_rfl ?_ .inl
        apply held_update le_rfl
        intro context has
        left
        rw [found]
        exact ⟨has, earlierReading⟩
    · cases impossible
  · refine holds.respected.concat fun {challenge} same before => ?_
    injection same with hash
    rcases holds.harmless before row row_mem hash with consumed | ⟨readers, _⟩
    · simp [selected.unconsumed] at consumed
    · have expired := readers index call.actor (by rw [found]; rfl) selected.telegramUserId.symm
      rw [found] at expired
      exact absurd selected.unexpired expired.not_gt

/-- A caller who has got a context reads the clock for a call. -/
theorem CallersSound.calls (holds : CallersSound ownerIds world) {context : RequestContext}
    {state : CallerProcess} (found : world.process index = .access (.authorized context))
    (same : state.accessProcess = .authorized context) (held : state.context = some context)
    (reading : state.reading world.store.clock = world.store.clock) :
    CallersSound ownerIds ⟨world.store, Function.update world.process index state⟩ := by
  refine holds.quiet (holds.sameView rfl ?_) rfl rfl le_rfl reading.le ?_ fun _ _ => .inl
  · rw [same, found]
    rfl
  · intro other has
    left
    rw [found, reading]
    exact ⟨held.symm.trans has, le_rfl⟩

theorem CallersSound.leaves (holds : CallersSound ownerIds world) :
    CallersSound ownerIds
      ⟨world.store, Function.update world.process index (.access .idle)⟩ := by
  refine holds.quiet ?_ rfl rfl le_rfl le_rfl nofun fun _ _ => .inl
  rw [accessView_update]
  exact holds.access.leave index

theorem CallersSound.elapses (holds : CallersSound ownerIds world) (time : ℕ) :
    CallersSound ownerIds
      ⟨{ world.store with clock := world.store.clock + time },
        Function.update world.process index (world.process index)⟩ := by
  have passes : world.store.clock ≤ world.store.clock + time := by omega
  refine holds.quiet (holds.sameView rfl rfl) rfl rfl passes ?_ ?_ fun _ _ => .inl
  · exact CallerProcess.reading_le passes (holds.readings index)
  · exact fun context has => .inl ⟨has, CallerProcess.reading_mono passes⟩

/-- Every action under the condition keeps what holds in every world. -/
theorem CallersSound.act (holds : CallersSound ownerIds world) {event : CallerEvent}
    (spent : ChallengesSpent world index event)
    (acted : (callerProgram ownerIds isoformat auditLogs primitives service).act world index event =
      some next) : CallersSound ownerIds next := by
  rcases Program.act_eq_some_iff.mp acted with ⟨store, state, stepped, rfl⟩
  generalize found : world.process index = process at stepped
  simp only [callerProgram] at stepped
  unfold callerStep at stepped
  split at stepped
  · rcases Option.map_eq_some_iff.mp stepped with ⟨result, ran, same⟩
    cases same
    exact holds.accesses found ran spent
  · cases stepped
    exact holds.calls found rfl rfl rfl
  · cases stepped
    exact holds.calls found rfl rfl rfl
  · cases stepped
    exact holds.leaves
  · split at stepped
    · rename_i issued
      rcases ChallengeService.issue_eq_ok issued with ⟨tokenHash, challenge, rfl, _, absent, _⟩
      simp only [List.drop_left, List.map_cons, List.map_nil] at stepped
      cases stepped
      exact holds.issues found absent
    · cases stepped
      exact holds.leaves
  · split at stepped
    · rename_i returned
      cases stepped
      exact holds.consumes found returned
    · cases stepped
      exact holds.leaves
  · cases stepped
    exact found ▸ holds.elapses _
  · cases stepped

theorem callersSound_initially (clock : ℤ) : CallersSound ownerIds (initialCallers clock) where
  access := accessWorld_initially
  unique := unique_nil
  remembered := fun issued => absurd issued List.not_mem_nil
  readings := fun _ => le_rfl
  harmless := fun before => absurd before.issued List.not_mem_nil
  respected := by
    intro earlier later challenge same _ consumed
    have mem : .consumed challenge.tokenHash ∈ earlier ++ later := List.mem_append_right _ consumed
    rw [← same] at mem
    cases mem

/--
In every run that approves a revoked user again only once the challenges of the user are
spent, and revokes a user only once they are for those who hold a context of the user, no
challenge is consumed after a revocation of its user.
-/
theorem revocations_respected {clock : ℤ}
    (run : (callerProgram ownerIds isoformat auditLogs primitives service).Reaches ChallengesSpent
      (initialCallers clock) world) : RevocationsRespected world.store.facts :=
  (run.invariant (CallersSound ownerIds) (fun holds spent acted => holds.act spent acted)
    (callersSound_initially clock)).respected

end Invariant

section Samples

/-- What a user does with access alone. -/
def accessOnly (schedule : List (ℕ × AccessEvent)) : List (ℕ × CallerEvent) :=
  schedule.map (Prod.map id .access)

/-- The request of the sample user, once the owner has approved it. -/
def approvedRequest (id : ℕ) (requestedAt decidedAt : ℤ) : AccessRequest where
  id
  telegramUserId := 99
  username := none
  displayName := some "Tester".toList
  status := .approved
  requestedAt
  decidedAt := some decidedAt
  decidedByUserId := some 1
  decisionReason := none
  cooldownUntil := none

/-- A challenge for a wallet in the first workspace. -/
def walletIssue : ChallengeService.Issue where
  action := .createWallet
  resourceType := "workspace".toList
  resourceId := 3
  authoritativePayload := []

/-- A user who has been approved gets a challenge. -/
def issueToUser : List (ℕ × CallerEvent) :=
  accessOnly (approvalSchedule ++ [(3, .resolveContext sampleIdentity 9
      (some (approvedRequest 0 1000 2000)))]) ++
    [(3, .issue walletIssue sampleToken), (3, .execute 5)]

/-- The owner revokes the user. -/
def revokeUserSchedule : List (ℕ × CallerEvent) :=
  accessOnly (decidingAs 2 (.revoke 99 none) 3000 15 none)

/-- The user consumes the challenge, and is revoked afterwards. -/
def consumedFirstSchedule : List (ℕ × CallerEvent) :=
  issueToUser ++ [(3, .consume sampleToken .createWallet), (3, .execute 0)] ++ revokeUserSchedule

/-- The user is revoked and approved again, and then consumes the challenge. -/
def reapprovalSchedule : List (ℕ × CallerEvent) :=
  issueToUser ++ [(3, .finish)] ++ revokeUserSchedule ++
    accessOnly (requesting 4 sampleIdentity (some (approvedRequest 0 1000 2000)) 4000 ++
      decidingAs 5 (.approve 15) 5000 23 none ++
        [(6, .resolveContext sampleIdentity 9 (some (approvedRequest 15 4000 5000)))]) ++
    [(6, .consume sampleToken .createWallet), (6, .execute 0)]

/-- The callers of a bot with one owner. -/
def sampleCallers : Program CallerStore CallerProcess CallerEvent :=
  callerProgram [1] Json.decimal auditPolicy tokenHashes sampleBot.challenges

/-- Every challenge has been consumed when a decision is committed. -/
def consumedAtCommit (world : World CallerStore CallerProcess) (index : ℕ) (event : CallerEvent) :
    Bool :=
  match world.process index, event with
  | .access (.deciding _ _ _ _), .access .commit =>
      world.store.challenges.all fun row => row.consumedAt.isSome
  | _, _ => true

theorem challengesSpent_of_consumedAtCommit {world : World CallerStore CallerProcess} {index : ℕ}
    {event : CallerEvent} (consumed : consumedAtCommit world index event = true) :
    ChallengesSpent world index event := by
  unfold ChallengesSpent
  dsimp only
  split
  · rename_i found
    simp only [consumedAtCommit, found, List.all_eq_true] at consumed
    exact fun _ _ _ row row_mem _ => .inl (consumed row row_mem)
  · rename_i found
    simp only [consumedAtCommit, found, List.all_eq_true] at consumed
    exact fun _ _ _ _ row row_mem _ => .inl (consumed row row_mem)
  · trivial

/-- A challenge is consumed after its user was revoked. -/
def isLateConsumption : List ChallengeFact → Bool
  | [.issued challenge, .revoked telegramUserId, .consumed tokenHash] =>
      challenge.expectedActorTelegramUserId = telegramUserId && challenge.tokenHash = tokenHash
  | _ => false

theorem not_respected_of_isLateConsumption {facts : List ChallengeFact}
    (late : isLateConsumption facts = true) : ¬RevocationsRespected facts := by
  unfold isLateConsumption at late
  split at late
  · rename_i challenge telegramUserId tokenHash
    simp only [Bool.and_eq_true, decide_eq_true_eq] at late
    rcases late with ⟨rfl, rfl⟩
    intro respected
    refine respected [.issued challenge, .revoked _] [.consumed _] challenge rfl ?_ (by simp)
    exact ⟨[.issued challenge], [.revoked _], rfl, by simp, by simp⟩
  · cases late

end Samples

/-- The user consumes the challenge before the revocation, and nothing more happens to it. -/
theorem consumedFirst_respected :
    ∃ world, sampleCallers.Reaches ChallengesSpent (initialCallers 0) world ∧
      world.store.facts.length = 3 ∧ RevocationsRespected world.store.facts := by
  have reached : (sampleCallers.execute (initialCallers 0) consumedFirstSchedule).any
      (fun world => world.store.facts.length = 3) = true := by
    decide +kernel
  rcases (Option.any_eq_true _ _).mp reached with ⟨world, executed, facts⟩
  have meets : sampleCallers.Meets
      (fun world index event => consumedAtCommit world index event = true) (initialCallers 0)
      consumedFirstSchedule := by
    decide +kernel
  have run := (Program.reaches_of_execute executed meets).mono challengesSpent_of_consumedAtCommit
  exact ⟨world, run, of_decide_eq_true facts, revocations_respected run⟩

/-- The user who is approved again consumes the challenge from before the revocation. -/
theorem reapprovedUser_consumes :
    ¬∀ world, sampleCallers.Reaches Unrestricted (initialCallers 0) world →
      RevocationsRespected world.store.facts := by
  intro claimed
  have reached : (sampleCallers.execute (initialCallers 0) reapprovalSchedule).any
      (fun world => isLateConsumption world.store.facts) = true := by
    decide +kernel
  rcases (Option.any_eq_true _ _).mp reached with ⟨world, executed, late⟩
  have run := Program.reaches_of_execute executed (Program.meets_unrestricted _ _)
  exact not_respected_of_isLateConsumption late (claimed world run)

end CopyMint
