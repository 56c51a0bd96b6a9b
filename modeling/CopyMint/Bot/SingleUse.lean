import CopyMint.Bot.Confirmations

/-!
# Challenges are single-use and bound

Processes issue and consume challenges in any order. A call begins by checking
its actor and reading the clock, and its one statement on the table takes effect
some time later. The table keeps a challenge once it has been consumed, so the
unique hash of its token identifies the issue of a challenge and its consumption
across a whole run. No order of the clock readings is needed for this, and
neither is that tokens have different hashes.
-/

namespace CopyMint

open Hexadecimal Relational Interleaving

/-- A call of `issue`, with the token that it draws and the time that it reads. -/
structure IssueCall where
  actor : RequestContext
  values : ChallengeService.Issue
  rawToken : Text
  now : ℤ

/-- A call of `consume`, with the time that it reads. -/
structure ConsumeCall where
  actor : RequestContext
  token : Text
  expectedAction : ChallengeAction
  now : ℤ

/-- How far the call of a process has got. -/
inductive ChallengeProcess where
  | idle
  | issuing (call : IssueCall)
  | issued (call : IssueCall)
  | consuming (call : ConsumeCall)
  | consumed (call : ConsumeCall) (record : CallbackChallenge)
  | failed (failure : CallbackFailure)

/-- What a caller of the challenge service does next. -/
inductive ChallengeEvent where
  | issue (call : IssueCall)
  | consume (call : ConsumeCall)
  /-- The statement of a call takes effect, an insertion under a drawn identifier. -/
  | execute (id : ℕ)

section Program

variable (primitives : Primitives) (service : ChallengeService)

/-- One action of a call. -/
def challengeStep (challenges : CallbackChallenges) :
    ChallengeProcess → ChallengeEvent → Option (CallbackChallenges × ChallengeProcess)
  | .idle, .issue call => some (challenges, .issuing call)
  | .idle, .consume call => some (challenges, .consuming call)
  | .issuing call, .execute id =>
      match service.issue primitives call.actor call.values id call.rawToken call.now
          challenges with
      | .ok next => some (next, .issued call)
      | .error failure => some (challenges, .failed failure)
  | .consuming call, .execute _ =>
      match ChallengeService.consume primitives call.actor call.token call.expectedAction call.now
          challenges with
      | .ok (next, record) => some (next, .consumed call record)
      | .error failure => some (challenges, .failed failure)
  | _, _ => none

/-- The calls of the challenge service as a program. -/
def challengeProgram : Program CallbackChallenges ChallengeProcess ChallengeEvent :=
  ⟨challengeStep primitives service⟩

end Program

variable {primitives : Primitives} {service : ChallengeService}
  {challenges next : CallbackChallenges} {process after : ChallengeProcess}
  {event : ChallengeEvent} {world : World CallbackChallenges ChallengeProcess}

/-- A row of the table comes from a call of `issue`. -/
structure IssueCall.Stored (primitives : Primitives) (service : ChallengeService)
    (call : IssueCall) (row : CallbackChallenge) : Prop where
  authorized : requireActor call.actor call.values.action = .ok ()
  hashed : hashChallengeToken primitives call.rawToken = .ok row.tokenHash
  bound : service.IssuedFor call.actor call.values row.tokenHash call.now row

/-- A row of the table is the record of a call of `consume`. -/
structure ConsumeCall.Redeemed (primitives : Primitives) (call : ConsumeCall)
    (record : CallbackChallenge) : Prop where
  authorized : requireActor call.actor call.expectedAction = .ok ()
  hashed : hashChallengeToken primitives call.token = .ok record.tokenHash
  action : record.action = call.expectedAction
  telegramUserId : record.expectedActorTelegramUserId = call.actor.telegramUserId
  chatId : record.expectedChatId = call.actor.chatId
  unexpired : call.now < record.expiresAt
  consumed : record.consumedAt = some call.now

namespace ChallengeProcess

/-- The call of the process has not returned. -/
def Running : ChallengeProcess → Prop
  | .issued _ | .consumed _ _ => False
  | _ => True

end ChallengeProcess

/-- What an action does to the table. -/
inductive ChallengeTransition (primitives : Primitives) (service : ChallengeService)
    (challenges : CallbackChallenges) :
    ChallengeProcess → CallbackChallenges → ChallengeProcess → Prop
  | leaves {process after : ChallengeProcess} (before : process.Running)
      (running : after.Running) :
      ChallengeTransition primitives service challenges process challenges after
  | issues {call : IssueCall} {challenge : CallbackChallenge}
      (absent : ∀ row ∈ challenges, row.tokenHash ≠ challenge.tokenHash)
      (stored : call.Stored primitives service challenge) :
      ChallengeTransition primitives service challenges (.issuing call)
        (challenges ++ [challenge]) (.issued call)
  | consumes {call : ConsumeCall} {row : CallbackChallenge} {selected : CallbackChallenge → Bool}
      (row_mem : row ∈ challenges) (unconsumed : row.consumedAt = none)
      (consumed : ChallengeService.Consumes challenges (row.consumed call.now)
        (updateWhere selected (CallbackChallenge.consumed call.now) challenges))
      (redeemed : call.Redeemed primitives (row.consumed call.now)) :
      ChallengeTransition primitives service challenges (.consuming call)
        (updateWhere selected (CallbackChallenge.consumed call.now) challenges)
        (.consumed call (row.consumed call.now))

theorem challengeTransition_of_step (unique : Unique CallbackChallenge.tokenHash challenges)
    (stepped : challengeStep primitives service challenges process event = some (next, after)) :
    ChallengeTransition primitives service challenges process next after := by
  cases process with
  | idle =>
      cases event with
      | issue call | consume call =>
          simp only [challengeStep, Option.some.injEq, Prod.mk.injEq] at stepped
          rcases stepped with ⟨rfl, rfl⟩
          exact .leaves trivial trivial
      | execute => cases stepped
  | issuing call =>
      cases event with
      | execute id =>
          simp only [challengeStep] at stepped
          split at stepped
          · rename_i issued
            cases stepped
            rcases ChallengeService.issue_eq_ok issued with
              ⟨tokenHash, challenge, rfl, _, absent, authorized, hashed, bound⟩
            apply ChallengeTransition.issues absent
            rw [← bound.hash] at hashed bound
            exact ⟨authorized, hashed, bound⟩
          · cases stepped
            exact .leaves trivial trivial
      | issue | consume => cases stepped
  | consuming call =>
      cases event with
      | execute id =>
          simp only [challengeStep] at stepped
          split at stepped
          · rename_i returned
            cases stepped
            rcases ChallengeService.consume_eq_ok unique returned with
              ⟨consumed, tokenHash, row, authorized, hashed, row_mem, chosen, rfl, rfl⟩
            apply ChallengeTransition.consumes row_mem chosen.unconsumed consumed
            rw [← chosen.hash] at hashed
            exact ⟨authorized, hashed, chosen.action, chosen.telegramUserId, chosen.chatId,
              chosen.unexpired, rfl⟩
          · cases stepped
            exact .leaves trivial trivial
      | issue | consume => cases stepped
  | issued | consumed | failed => cases stepped

/-- A row is known for its issue before and after it is consumed. -/
theorem IssueCall.Stored.consumed {call : IssueCall} {row : CallbackChallenge}
    (stored : call.Stored primitives service row) (consumedAt : ℤ) :
    call.Stored primitives service (row.consumed consumedAt) := by
  rcases stored with ⟨authorized, hashed, bound⟩
  rcases bound with
    ⟨hash, action, telegramUserId, chatId, resourceType, resourceId, payload, expires⟩
  exact ⟨authorized, hashed, hash, action, telegramUserId, chatId, resourceType, resourceId,
    payload, expires⟩

/-- The table remembers every issue and every consumption, each of them once. -/
structure ChallengesRemembered (primitives : Primitives) (service : ChallengeService)
    (world : World CallbackChallenges ChallengeProcess) : Prop where
  unique : Unique CallbackChallenge.tokenHash world.store
  issued : ∀ {index call}, world.process index = .issued call →
    ∃ row ∈ world.store, call.Stored primitives service row
  origin : ∀ row ∈ world.store,
    ∃ index call, world.process index = .issued call ∧ call.Stored primitives service row
  consumed : ∀ {index call record}, world.process index = .consumed call record →
    record ∈ world.store ∧ call.Redeemed primitives record
  single : ∀ {first second call other record otherRecord},
    world.process first = .consumed call record →
    world.process second = .consumed other otherRecord →
    record.tokenHash = otherRecord.tokenHash → first = second

section Update

variable {processes : ℕ → ChallengeProcess} {index other : ℕ} {settled : ChallengeProcess}

/-- What has returned is still there after an action of another process. -/
theorem update_of_settled (running : (processes index).Running) (returned : ¬settled.Running)
    (found : processes other = settled) :
    Function.update processes index after other = settled := by
  have distinct : other ≠ index := by
    intro same
    rw [same] at found
    exact returned (found ▸ running)
  rw [Function.update_of_ne distinct, found]

end Update

/-- The rows of an updated table stem from the same issues. -/
theorem stored_of_mem_updateWhere {selected : CallbackChallenge → Bool} {consumedAt : ℤ}
    {row : CallbackChallenge}
    (row_mem : row ∈ updateWhere selected (CallbackChallenge.consumed consumedAt) challenges) :
    ∃ old ∈ challenges, ∀ call : IssueCall, call.Stored primitives service old →
      call.Stored primitives service row := by
  rcases mem_updateWhere.mp row_mem with ⟨old, old_mem, rfl⟩
  refine ⟨old, old_mem, fun call stored => ?_⟩
  split_ifs
  · exact stored.consumed consumedAt
  · exact stored

theorem exists_mem_updateWhere {selected : CallbackChallenge → Bool} {consumedAt : ℤ}
    {call : IssueCall} (known : ∃ row ∈ challenges, call.Stored primitives service row) :
    ∃ row ∈ updateWhere selected (CallbackChallenge.consumed consumedAt) challenges,
      call.Stored primitives service row := by
  rcases known with ⟨row, row_mem, stored⟩
  refine ⟨_, mem_updateWhere.mpr ⟨row, row_mem, rfl⟩, ?_⟩
  split_ifs
  · exact stored.consumed consumedAt
  · exact stored

theorem ChallengesRemembered.act {index : ℕ}
    {next : World CallbackChallenges ChallengeProcess}
    (holds : ChallengesRemembered primitives service world)
    (acted : (challengeProgram primitives service).act world index event = some next) :
    ChallengesRemembered primitives service next := by
  rcases Program.act_eq_some_iff.mp acted with ⟨store, state, stepped, rfl⟩
  have moved := challengeTransition_of_step holds.unique stepped
  generalize own : world.process index = before at moved
  cases moved with
  | leaves before_running running =>
      have known : ∀ {other settled}, ¬settled.Running →
          Function.update world.process index state other = settled →
          world.process other = settled := by
        intro other settled returned found
        rcases eq_or_of_update_eq found with ⟨_, rfl⟩ | ⟨_, old⟩
        · exact absurd running returned
        · exact old
      refine ⟨holds.unique, fun found => holds.issued (known id found), ?_,
        fun found => holds.consumed (known id found),
        fun first second => holds.single (known id first) (known id second)⟩
      intro row row_mem
      rcases holds.origin row row_mem with ⟨origin, call, issued, stored⟩
      exact ⟨origin, call, update_of_settled (own ▸ before_running) id issued, stored⟩
  | @issues call challenge absent stored =>
      have running : (world.process index).Running := own ▸ trivial
      refine ⟨?_, ?_, ?_, ?_, ?_⟩
      · rw [← insertOrIgnore_of_absent absent]
        exact holds.unique.insertOrIgnore challenge
      · intro other issue found
        rcases eq_or_of_update_eq found with ⟨_, same⟩ | ⟨_, old⟩
        · cases same
          exact ⟨challenge, by simp, stored⟩
        · rcases holds.issued old with ⟨row, row_mem, known⟩
          exact ⟨row, List.mem_append_left _ row_mem, known⟩
      · intro row row_mem
        rcases List.mem_append.mp row_mem with old | new
        · rcases holds.origin row old with ⟨origin, issue, issued, known⟩
          exact ⟨origin, issue, update_of_settled running id issued, known⟩
        · rw [List.mem_singleton.mp new]
          exact ⟨index, call, Function.update_self _ _ _, stored⟩
      · intro other consume record found
        rcases eq_or_of_update_eq found with ⟨_, impossible⟩ | ⟨_, old⟩
        · cases impossible
        · rcases holds.consumed old with ⟨record_mem, redeemed⟩
          exact ⟨List.mem_append_left _ record_mem, redeemed⟩
      · intro first second consume other record otherRecord first_found second_found
        rcases eq_or_of_update_eq first_found with ⟨_, impossible⟩ | ⟨_, first_old⟩
        · cases impossible
        rcases eq_or_of_update_eq second_found with ⟨_, impossible⟩ | ⟨_, second_old⟩
        · cases impossible
        exact holds.single first_old second_old
  | @consumes call row selected row_mem unconsumed consumed redeemed =>
      have running : (world.process index).Running := own ▸ trivial
      have fresh : ∀ {other consume record}, world.process other = .consumed consume record →
          record.tokenHash ≠ row.tokenHash := by
        intro other consume record found same
        rcases holds.consumed found with ⟨record_mem, earlier⟩
        have equal := holds.unique.eq_of_key_eq record_mem row_mem same
        have impossible := earlier.consumed
        rw [equal, unconsumed] at impossible
        cases impossible
      refine ⟨consumed.unique, ?_, ?_, ?_, ?_⟩
      · intro other issue found
        rcases eq_or_of_update_eq found with ⟨_, impossible⟩ | ⟨_, old⟩
        · cases impossible
        · exact exists_mem_updateWhere (holds.issued old)
      · intro other other_mem
        rcases stored_of_mem_updateWhere other_mem with ⟨old, old_mem, kept⟩
        rcases holds.origin old old_mem with ⟨origin, issue, issued, known⟩
        exact ⟨origin, issue, update_of_settled running id issued, kept issue known⟩
      · intro other consume record found
        rcases eq_or_of_update_eq found with ⟨_, same⟩ | ⟨_, old⟩
        · cases same
          exact ⟨consumed.stored, redeemed⟩
        · rcases holds.consumed old with ⟨record_mem, earlier⟩
          exact ⟨consumed.kept record record_mem (by simp [earlier.consumed]), earlier⟩
      · intro first second consume other record otherRecord first_found second_found same
        rcases eq_or_of_update_eq first_found with ⟨first_eq, first_same⟩ | ⟨_, first_old⟩
        · rcases eq_or_of_update_eq second_found with ⟨second_eq, _⟩ | ⟨_, second_old⟩
          · rw [first_eq, second_eq]
          · cases first_same
            exact absurd same.symm (fresh second_old)
        · rcases eq_or_of_update_eq second_found with ⟨_, second_same⟩ | ⟨_, second_old⟩
          · cases second_same
            exact absurd same (fresh first_old)
          · exact holds.single first_old second_old same

/-- At first no call has begun and the table is empty. -/
def noChallenges : World CallbackChallenges ChallengeProcess := World.uniform [] .idle

theorem challengesRemembered_noChallenges :
    ChallengesRemembered primitives service noChallenges := by
  constructor
  · exact unique_nil
  · intro index call found
    cases found
  · simp [noChallenges]
  · intro index call record found
    cases found
  · intro first second call other record otherRecord found
    cases found

/-- A consumption gets what a call of `issue` has stored, as the actor that called it. -/
structure Redeems (service : ChallengeService) (issue : IssueCall) (call : ConsumeCall)
    (record : CallbackChallenge) : Prop where
  telegramUserId : call.actor.telegramUserId = issue.actor.telegramUserId
  chatId : call.actor.chatId = issue.actor.chatId
  action : call.expectedAction = issue.values.action
  unexpired : call.now < issue.now + service.defaultTtl
  authorized : requireActor call.actor call.expectedAction = .ok ()
  resourceType : record.resourceType = issue.values.resourceType
  resourceId : record.resourceId = issue.values.resourceId
  payload : record.authoritativePayload = issue.values.authoritativePayload

theorem redeems_of_stored {issue : IssueCall} {call : ConsumeCall} {record : CallbackChallenge}
    (stored : issue.Stored primitives service record) (redeemed : call.Redeemed primitives record) :
    Redeems service issue call record := by
  have bound := stored.bound
  constructor
  · rw [← redeemed.telegramUserId, bound.telegramUserId]
  · rw [← redeemed.chatId, bound.chatId]
  · rw [← redeemed.action, bound.action]
  · rw [← bound.expires]
    exact redeemed.unexpired
  · exact redeemed.authorized
  · exact bound.resourceType
  · exact bound.resourceId
  · exact bound.payload

theorem tokenHash_eq_of_hashed {token : Text} {first second : BytesOf 32}
    (first_hashed : hashChallengeToken primitives token = .ok first)
    (second_hashed : hashChallengeToken primitives token = .ok second) : first = second := by
  rw [first_hashed] at second_hashed
  cases second_hashed
  rfl

/--
In every run an issued token is consumed by one call at most, and only by one that
the issue authorizes; and whatever is consumed has been issued for it, under a token
with the same hash.
-/
theorem challenges_singleUse
    (run : (challengeProgram primitives service).Reaches Unrestricted noChallenges world) :
    (∀ {issuer issue consumer call record}, world.process issuer = .issued issue →
      world.process consumer = .consumed call record → call.token = issue.rawToken →
      Redeems service issue call record) ∧
    (∀ {first second call other record otherRecord},
      world.process first = .consumed call record →
      world.process second = .consumed other otherRecord → call.token = other.token →
      first = second) ∧
    ∀ {consumer call record}, world.process consumer = .consumed call record →
      ∃ issuer issue, world.process issuer = .issued issue ∧
        hashChallengeToken primitives issue.rawToken = hashChallengeToken primitives call.token ∧
        Redeems service issue call record := by
  have holds := run.invariant (ChallengesRemembered primitives service)
    (fun holds _ acted => holds.act acted) challengesRemembered_noChallenges
  refine ⟨?_, ?_, ?_⟩
  · intro issuer issue consumer call record issued consumed token
    rcases holds.issued issued with ⟨row, row_mem, stored⟩
    rcases holds.consumed consumed with ⟨record_mem, redeemed⟩
    have hashed := redeemed.hashed
    rw [token] at hashed
    have same := holds.unique.eq_of_key_eq row_mem record_mem
      (tokenHash_eq_of_hashed stored.hashed hashed)
    exact redeems_of_stored (same ▸ stored) redeemed
  · intro first second call other record otherRecord first_consumed second_consumed token
    have first_hashed := (holds.consumed first_consumed).2.hashed
    have second_hashed := (holds.consumed second_consumed).2.hashed
    rw [← token] at second_hashed
    exact holds.single first_consumed second_consumed
      (tokenHash_eq_of_hashed first_hashed second_hashed)
  · intro consumer call record consumed
    rcases holds.consumed consumed with ⟨record_mem, redeemed⟩
    rcases holds.origin record record_mem with ⟨issuer, issue, issued, stored⟩
    refine ⟨issuer, issue, issued, ?_, redeems_of_stored stored redeemed⟩
    rw [stored.hashed, redeemed.hashed]

section Samples

/-- The owner gets a challenge. -/
def ownerIssue : IssueCall := ⟨platformOwner, sampleIssue, sampleToken, 1000⟩

/-- The owner consumes it. -/
def ownerConsumption : ConsumeCall := ⟨platformOwner, sampleToken, .approveAccess, 2000⟩

/-- Two calls of the owner consume one challenge, and their statements overtake one another. -/
def issueSchedule : List (ℕ × ChallengeEvent) :=
  [(0, .issue ownerIssue), (1, .consume ownerConsumption), (0, .execute 5),
    (2, .consume ownerConsumption), (2, .execute 0), (1, .execute 0)]

end Samples

/-- The owner redeems its own challenge. -/
theorem ownerConsumption_redeems :
    ∃ world, (challengeProgram tokenHashes sampleBot.challenges).Reaches Unrestricted
        noChallenges world ∧
      ∃ record, world.process 2 = .consumed ownerConsumption record ∧
        Redeems sampleBot.challenges ownerIssue ownerConsumption record := by
  have executed : ∃ world, (challengeProgram tokenHashes sampleBot.challenges).execute
        noChallenges issueSchedule = some world ∧
      world.process 0 = .issued ownerIssue ∧
      ∃ record, world.process 2 = .consumed ownerConsumption record :=
    ⟨_, rfl, rfl, _, rfl⟩
  rcases executed with ⟨world, executed, issued, record, consumed⟩
  have run := Program.reaches_of_execute executed (Program.meets_unrestricted _ _)
  exact ⟨world, run, record, consumed, (challenges_singleUse run).1 issued consumed rfl⟩

end CopyMint
