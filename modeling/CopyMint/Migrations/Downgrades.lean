import CopyMint.Bot.Revocations
import CopyMint.Migrations.Versions

/-!
# Downgrades

Which migrations can be undone right after the upgrade and any use of the database. Dropping
what is new on top of a schema leaves the schema alone, so that two of the migrations can
always be undone. One of them is refused because a trigger still uses the function that is
dropped, and another where a challenge has an action that the earlier check does not know.
-/

namespace CopyMint

open Hexadecimal Relational Interleaving

section Schemas

/-- The key of the check that the second revision replaces. -/
def challengeActionKey : ObjectKey := .constraint .callbackChallenges (.check "challenge_action")

namespace Migration

/-- What an upgrade creates, which does not depend on the time. -/
def created (migration : Migration) : List SchemaObject :=
  (migration.upgrade 0).flatMap MigrationOperation.created

end Migration

/-- The schema of the first revision without the check that the second one replaces. -/
def uncheckedSchema : List SchemaObject :=
  Migration.phase1Access.created.filter fun object =>
    !schemaDependencies.isDropped challengeActionKey object

/-- The schema of every revision, and the empty one before all of them. -/
def schemaAt : Option Migration → List SchemaObject
  | none => []
  | some .phase1Access => Migration.phase1Access.created
  | some .executionWallets => uncheckedSchema ++ Migration.executionWallets.created
  | some .ethereumIntelligence =>
      uncheckedSchema ++ Migration.executionWallets.created ++
        Migration.ethereumIntelligence.created
  | some .workspaceCollections =>
      uncheckedSchema ++ Migration.executionWallets.created ++
        Migration.ethereumIntelligence.created ++ Migration.workspaceCollections.created

theorem drop_challengeActionKey :
    schemaDependencies.drop challengeActionKey Migration.phase1Access.created =
      some uncheckedSchema :=
  Dependencies.drop_eq_some_iff.mpr ⟨⟨by decide +kernel, by decide +kernel⟩, rfl⟩

theorem alterAll_upgrade (migration : Migration) (now : ℤ) :
    alterAll (migration.upgrade now) (schemaAt migration.downRevision) =
      some (schemaAt (some migration)) := by
  have sameTime : alterAll (migration.upgrade now) (schemaAt migration.downRevision) =
      alterAll (migration.upgrade 0) (schemaAt migration.downRevision) := by
    cases migration <;> rfl
  rw [sameTime]
  cases migration with
  | phase1Access | ethereumIntelligence | workspaceCollections =>
      exact alterAll_eq_append (by decide +kernel) (by decide +kernel)
  | executionWallets =>
      have created : alterAll (upgradeExecutionWallets.drop 1) uncheckedSchema =
          some (uncheckedSchema ++ Migration.executionWallets.created) :=
        alterAll_eq_append (by decide +kernel) (by decide +kernel)
      exact Option.bind_eq_some_iff.mpr ⟨_, drop_challengeActionKey, created⟩

theorem wellFormed_schemaAt : ∀ revision, schemaDependencies.WellFormed (schemaAt revision) := by
  have upgraded : ∀ migration : Migration,
      schemaDependencies.WellFormed (schemaAt migration.downRevision) →
        schemaDependencies.WellFormed (schemaAt (some migration)) :=
    fun migration wellFormed => wellFormed_alterAll wellFormed (alterAll_upgrade migration 0)
  have phase1 := upgraded .phase1Access .nil
  have wallets := upgraded .executionWallets phase1
  have ethereum := upgraded .ethereumIntelligence wallets
  rintro (_ | migration)
  · exact .nil
  · cases migration with
    | phase1Access => exact phase1
    | executionWallets => exact wallets
    | ethereumIntelligence => exact ethereum
    | workspaceCollections => exact upgraded .workspaceCollections ethereum

end Schemas

section Undoing

/-- The databases that upgrades and uses lead to. -/
inductive Installed : Option Migration → SchemaState → Prop
  | empty : Installed none ⟨[], fun _ => []⟩
  | upgrade {migration : Migration} {now : ℤ} {before after : SchemaState}
      (installed : Installed migration.downRevision before)
      (ran : runAll (migration.upgrade now) before = some after) :
      Installed (some migration) after
  | use {revision : Option Migration} {catalog : List SchemaObject} {before rows : Contents}
      (installed : Installed revision ⟨catalog, before⟩) (content : IsContent catalog rows) :
      Installed revision ⟨catalog, rows⟩

/-- A downgrade succeeds and gives the objects of an earlier schema, in whatever order. -/
def Migration.Undoes (migration : Migration) (before : List SchemaObject) (state : SchemaState) :
    Prop :=
  ∃ restored, runAll migration.downgrade state = some restored ∧ restored.catalog.Perm before

/-- The rows that a migration can be undone with. -/
def Migration.CanBeUndone (rows : Contents) : Migration → Prop
  | phase1Access | workspaceCollections => True
  | executionWallets =>
      ∀ row ∈ rows .callbackChallenges, row "action" ≠ .text "create_wallet".toList
  | ethereumIntelligence => False

variable {revision : Option Migration} {migration : Migration} {state : SchemaState}

theorem Installed.isContent (installed : Installed revision state) :
    state.catalog = schemaAt revision ∧ IsContent state.catalog state.rows := by
  induction installed with
  | empty => exact ⟨rfl, fun _ impossible => absurd impossible List.not_mem_nil, fun _ _ => rfl⟩
  | @upgrade migration now before after _ ran ih =>
      rcases ih with ⟨catalog, content⟩
      have wellFormed : schemaDependencies.WellFormed before.catalog :=
        catalog ▸ wellFormed_schemaAt _
      rcases isContent_runAll wellFormed content ran with ⟨altered, content⟩
      rw [catalog, alterAll_upgrade] at altered
      exact ⟨(Option.some.inj altered).symm, content⟩
  | use _ content ih => exact ⟨ih.1, content⟩

/-- What drops exactly what an upgrade has put on top of a schema undoes the upgrade. -/
theorem undoes_of_drops {base added : List SchemaObject} {rows : Contents}
    (wellFormed : schemaDependencies.WellFormed base)
    (whole : schemaDependencies.WellFormed (base ++ added))
    (drops : DropsElsewhere base migration.downgrade)
    (gone : (alterAll migration.downgrade added).any List.isEmpty = true) :
    migration.Undoes base ⟨base ++ added, rows⟩ := by
  rcases exists_runAll_of_gone wellFormed whole drops gone with ⟨restored, ran, catalog⟩
  exact ⟨restored, ran, .of_eq catalog⟩

/-- What cannot be dropped from the objects of an upgrade alone cannot be dropped at all. -/
theorem not_undoes_of_refused {base added before : List SchemaObject} {rows : Contents}
    (wellFormed : schemaDependencies.WellFormed base)
    (whole : schemaDependencies.WellFormed (base ++ added))
    (drops : DropsElsewhere base migration.downgrade)
    (refused : (alterAll migration.downgrade added).isNone = true) :
    ¬migration.Undoes before ⟨base ++ added, rows⟩ := by
  rintro ⟨restored, ran, _⟩
  have altered : (runAll migration.downgrade ⟨base ++ added, rows⟩).map SchemaState.catalog = _ :=
    map_catalog_runAll drops
  rw [alterAll_append wellFormed whole.new_of_append drops, Option.isNone_iff_eq_none.mp refused,
    ran] at altered
  cases altered

/-- Of the rows that the later check admits, the earlier one refuses those of the new action. -/
theorem passes_accessChallengeActions_iff {row : TableRow}
    (admitted : walletChallengeActions.passes row = true) :
    accessChallengeActions.passes row = true ↔ row "action" ≠ .text "create_wallet".toList := by
  simp only [walletChallengeActions, CheckExpression.passes, CheckExpression.eval] at admitted
  simp only [accessChallengeActions, CheckExpression.passes, CheckExpression.eval]
  cases value : row "action" with
  | null => simp
  | number | bytes => simp [value] at admitted
  | text action =>
      simp only [value, ne_eq, Option.some.injEq, Bool.not_eq_false, decide_eq_true_eq,
        List.any_cons, List.any_nil, Bool.or_eq_true, Bool.false_eq_true, or_false,
        SqlValue.text.injEq] at admitted ⊢
      rcases admitted with rfl | rfl | rfl | rfl <;> decide

/-- The object that holds the earlier check. -/
def accessChallengeCheck : SchemaObject :=
  .constraint .callbackChallenges (.check "challenge_action" accessChallengeActions)

theorem create_accessChallengeCheck :
    schemaDependencies.create accessChallengeCheck uncheckedSchema =
      some (uncheckedSchema ++ [accessChallengeCheck]) := if_pos (by decide +kernel)

/-- The earlier check comes back in another place. -/
theorem perm_accessChallengeCheck :
    (uncheckedSchema ++ [accessChallengeCheck]).Perm (schemaAt (some .phase1Access)) := by
  have phase1 := wellFormed_schemaAt (some .phase1Access)
  have unchecked := phase1.drop drop_challengeActionKey
  have found : (schemaAt (some .phase1Access)).find? (fun object =>
      object.key = challengeActionKey) = some accessChallengeCheck := rfl
  have check_mem := List.mem_of_find?_eq_some found
  rw [List.perm_ext_iff_of_nodup (unchecked.create create_accessChallengeCheck).unique.of_map
    phase1.unique.of_map]
  intro object
  rw [List.mem_append, List.mem_singleton]
  constructor
  · rintro (kept | rfl)
    · exact List.filter_sublist.subset kept
    · exact check_mem
  · intro object_mem
    cases goes : schemaDependencies.isDropped challengeActionKey object with
    | false =>
        left
        refine List.mem_filter.mpr ⟨object_mem, ?_⟩
        rw [goes]
        rfl
    | true =>
        right
        rcases Bool.or_eq_true_iff.mp goes with same | owned
        · exact phase1.unique.eq_of_key_eq object_mem check_mem (of_decide_eq_true same)
        · rcases List.mem_map.mp (List.contains_iff_mem.mp owned) with ⟨_, _, impossible⟩
          cases impossible

theorem undoes_executionWallets_iff {rows : Contents}
    (content : IsContent (schemaAt (some .executionWallets)) rows) :
    Migration.executionWallets.Undoes (schemaAt (some .phase1Access))
      ⟨schemaAt (some .executionWallets), rows⟩ ↔ Migration.executionWallets.CanBeUndone rows := by
  have unchecked := (wellFormed_schemaAt (some .phase1Access)).drop drop_challengeActionKey
  have drops : DropsElsewhere uncheckedSchema (downgradeExecutionWallets.take 4) :=
    dropsElsewhere_of_all (by decide +kernel)
  rcases exists_runAll_of_gone unchecked (wellFormed_schemaAt (some .executionWallets)) drops
    (by decide +kernel) with ⟨middle, ran, catalog⟩
  have rows_eq : middle.rows .callbackChallenges = rows .callbackChallenges :=
    rows_of_runAll drops (by decide +kernel) ran
  have restores : Migration.executionWallets.Undoes (schemaAt (some .phase1Access))
      ⟨schemaAt (some .executionWallets), rows⟩ ↔
        accessChallengeCheck.holds middle.rows = true := by
    have downgrade_eq : Migration.executionWallets.downgrade =
        downgradeExecutionWallets.take 4 ++ [.create [accessChallengeCheck]] := rfl
    constructor
    · rintro ⟨restored, accepted, _⟩
      rw [downgrade_eq, runAll_append, schemaAt, ran, Option.bind_some] at accepted
      rcases Option.bind_eq_some_iff.mp accepted with ⟨last, created, _⟩
      rw [MigrationOperation.run, Option.ite_none_right_eq_some] at created
      exact created.1 _ (List.mem_singleton_self _)
    · intro holds
      have admits : (MigrationOperation.create [accessChallengeCheck]).Admits middle := by
        intro object object_mem
        rw [List.mem_singleton.mp object_mem]
        exact holds
      have created : (MigrationOperation.create [accessChallengeCheck]).alter middle.catalog =
          some (uncheckedSchema ++ [accessChallengeCheck]) := by
        rw [catalog]
        exact Option.bind_eq_some_iff.mpr ⟨_, create_accessChallengeCheck, rfl⟩
      refine ⟨⟨uncheckedSchema ++ [accessChallengeCheck], middle.rows⟩, ?_,
        perm_accessChallengeCheck⟩
      rw [downgrade_eq, runAll_append, schemaAt, ran, Option.bind_some]
      refine Option.bind_eq_some_iff.mpr ⟨_, (if_pos admits).trans ?_, rfl⟩
      rw [created]
      rfl
  rw [restores, show accessChallengeCheck.holds middle.rows =
    (middle.rows .callbackChallenges).all accessChallengeActions.passes from rfl, rows_eq,
    List.all_eq_true]
  have found : (schemaAt (some .executionWallets)).find? (fun object =>
      object.key = challengeActionKey) =
        some (.constraint .callbackChallenges (.check "challenge_action" walletChallengeActions)) :=
    rfl
  have admitted := List.all_eq_true.mp (content.holds _ (List.mem_of_find?_eq_some found))
  exact forall₂_congr fun row row_mem => passes_accessChallengeActions_iff (admitted row row_mem)

/--
After every upgrade of a database at the revision before it, and after any use that the new
schema admits, the downgrade gives back the earlier schema exactly if the rows allow it.
-/
theorem downgrade_undoes_iff {now : ℤ} {before upgraded : SchemaState} {rows : Contents}
    (installed : Installed migration.downRevision before)
    (ran : runAll (migration.upgrade now) before = some upgraded)
    (content : IsContent upgraded.catalog rows) :
    migration.Undoes before.catalog ⟨upgraded.catalog, rows⟩ ↔ migration.CanBeUndone rows := by
  have earlier := installed.isContent.1
  have later := (Installed.upgrade installed ran).isContent.1
  rw [later] at content
  rw [earlier, later]
  have base := wellFormed_schemaAt migration.downRevision
  have whole := wellFormed_schemaAt (some migration)
  cases migration with
  | phase1Access =>
      exact iff_of_true (undoes_of_drops base whole (dropsElsewhere_of_all (by decide +kernel))
        (by decide +kernel)) trivial
  | executionWallets => exact undoes_executionWallets_iff content
  | ethereumIntelligence =>
      exact iff_of_false (not_undoes_of_refused base whole
        (dropsElsewhere_of_all (by decide +kernel)) (by decide +kernel)) id
  | workspaceCollections =>
      exact iff_of_true (undoes_of_drops base whole (dropsElsewhere_of_all (by decide +kernel))
        (by decide +kernel)) trivial

end Undoing

section Samples

/-- The value of the enumeration, as the column has it. -/
def ChallengeAction.value : ChallengeAction → String
  | .approveAccess => "approve_access"
  | .rejectAccess => "reject_access"
  | .revokeAccess => "revoke_access"
  | .createWallet => "create_wallet"

/-- The row of a challenge that is stored at a time. -/
def CallbackChallenge.tableRow (createdAt : ℤ) (challenge : CallbackChallenge) : TableRow :=
  CopyMint.tableRow
    [("id", .number challenge.id), ("token_hash", .bytes challenge.tokenHash.val),
      ("action", .text challenge.action.value.toList),
      ("expected_actor_telegram_user_id", .number challenge.expectedActorTelegramUserId),
      ("expected_chat_id", .number challenge.expectedChatId),
      ("resource_type", .text challenge.resourceType),
      ("resource_id", .number challenge.resourceId),
      ("authoritative_payload", .text (Json.dumps (.obj challenge.authoritativePayload))),
      ("expires_at", .number challenge.expiresAt),
      ("consumed_at", challenge.consumedAt.elim .null .number), ("created_at", .number createdAt)]

/-- Contents with the challenges alone. -/
def challengeContents (challenges : CallbackChallenges) : Contents
  | .callbackChallenges => challenges.map (CallbackChallenge.tableRow 0)
  | _ => []

theorem isContent_challengeContents {challenges : CallbackChallenges}
    (holds : ((schemaAt (some .executionWallets)).all fun object =>
      object.holds (challengeContents challenges)) = true) :
    IsContent (schemaAt (some .executionWallets)) (challengeContents challenges) where
  holds := List.all_eq_true.mp holds
  absent := by
    intro table absent
    cases table with
    | callbackChallenges => exact absurd (by decide +kernel) absent
    | _ => rfl

theorem canBeUndone_challengeContents_iff {challenges : CallbackChallenges} :
    Migration.executionWallets.CanBeUndone (challengeContents challenges) ↔
      ∀ challenge ∈ challenges, challenge.action ≠ .createWallet := by
  have value_iff : ∀ action : ChallengeAction,
      (SqlValue.text action.value.toList ≠ .text "create_wallet".toList) ↔
        action ≠ .createWallet := by
    intro action
    cases action <;> decide
  refine List.forall_mem_map.trans ?_
  exact forall₂_congr fun challenge _ => value_iff challenge.action

/-- The owner gets a challenge for the request of a user. -/
def issueToOwner : List (ℕ × CallerEvent) :=
  accessOnly (requesting 0 sampleIdentity none 1000 ++ [(1, .resolveContext ownerIdentity 7 none)])
    ++ [(1, .issue sampleIssue sampleToken), (1, .execute 5)]

/-- The migrations one right after another. -/
theorem exists_upgraded : ∃ phase1 wallets ethereum collections,
    runAll (Migration.phase1Access.upgrade 0) ⟨[], fun _ => []⟩ = some phase1 ∧
      runAll (Migration.executionWallets.upgrade 0) phase1 = some wallets ∧
        runAll (Migration.ethereumIntelligence.upgrade 0) wallets = some ethereum ∧
          runAll (Migration.workspaceCollections.upgrade 0) ethereum = some collections := by
  have upgraded : ((((runAll (Migration.phase1Access.upgrade 0) ⟨[], fun _ => []⟩).bind
      (runAll (Migration.executionWallets.upgrade 0))).bind
        (runAll (Migration.ethereumIntelligence.upgrade 0))).bind
          (runAll (Migration.workspaceCollections.upgrade 0))).isSome = true := by decide +kernel
  rcases Option.isSome_iff_exists.mp upgraded with ⟨collections, all⟩
  rcases Option.bind_eq_some_iff.mp all with ⟨ethereum, three, fourth⟩
  rcases Option.bind_eq_some_iff.mp three with ⟨wallets, two, third⟩
  rcases Option.bind_eq_some_iff.mp two with ⟨phase1, first, second⟩
  exact ⟨phase1, wallets, ethereum, collections, first, second, third, fourth⟩

end Samples

/-- The second migration is undone while the owner has been asked about a request. -/
theorem executionWallets_undone :
    ∃ before upgraded, ∃ world, Installed (some .phase1Access) before ∧
      runAll (Migration.executionWallets.upgrade 0) before = some upgraded ∧
        sampleCallers.Reaches Unrestricted (initialCallers 0) world ∧
          world.store.challenges.map CallbackChallenge.action = [.approveAccess] ∧
            IsContent upgraded.catalog (challengeContents world.store.challenges) ∧
              Migration.executionWallets.Undoes before.catalog
                ⟨upgraded.catalog, challengeContents world.store.challenges⟩ := by
  rcases exists_upgraded with ⟨phase1, wallets, _, _, first, second, _⟩
  have phase1_installed : Installed Migration.executionWallets.downRevision phase1 :=
    .upgrade .empty first
  have wallets_installed : Installed (some .executionWallets) wallets :=
    .upgrade phase1_installed second
  have reached : (sampleCallers.execute (initialCallers 0) issueToOwner).any (fun world =>
      world.store.challenges.map CallbackChallenge.action = [.approveAccess] &&
        (schemaAt (some .executionWallets)).all fun object =>
          object.holds (challengeContents world.store.challenges)) = true := by
    decide +kernel
  rcases (Option.any_eq_true _ _).mp reached with ⟨world, executed, facts⟩
  rcases Bool.and_eq_true_iff.mp facts with ⟨asked, holds⟩
  have actions : world.store.challenges.map CallbackChallenge.action = [.approveAccess] :=
    of_decide_eq_true asked
  have content : IsContent wallets.catalog (challengeContents world.store.challenges) := by
    rw [wallets_installed.isContent.1]
    exact isContent_challengeContents holds
  have others : ∀ challenge ∈ world.store.challenges, challenge.action ≠ .createWallet := by
    intro challenge challenge_mem
    have action_mem : challenge.action ∈ world.store.challenges.map CallbackChallenge.action :=
      List.mem_map_of_mem challenge_mem
    rw [actions, List.mem_singleton] at action_mem
    rw [action_mem]
    decide
  exact ⟨phase1, wallets, world, phase1_installed, second,
    Program.reaches_of_execute executed (Program.meets_unrestricted _ _), actions, content,
    (downgrade_undoes_iff phase1_installed second content).mpr
      (canBeUndone_challengeContents_iff.mpr others)⟩

/--
A downgrade that drops the function of a trigger is refused right after the upgrade, and one
that restores the earlier check is refused after a user has asked for a wallet.
-/
theorem downgrades_refused :
    (∃ before upgraded, Installed (some .executionWallets) before ∧
      runAll (Migration.ethereumIntelligence.upgrade 0) before = some upgraded ∧
        ¬Migration.ethereumIntelligence.Undoes before.catalog upgraded) ∧
    ∃ before upgraded, ∃ world, Installed (some .phase1Access) before ∧
      runAll (Migration.executionWallets.upgrade 0) before = some upgraded ∧
        sampleCallers.Reaches Unrestricted (initialCallers 0) world ∧
          IsContent upgraded.catalog (challengeContents world.store.challenges) ∧
            ¬Migration.executionWallets.Undoes before.catalog
              ⟨upgraded.catalog, challengeContents world.store.challenges⟩ := by
  rcases exists_upgraded with ⟨phase1, wallets, ethereum, _, first, second, third, _⟩
  have phase1_installed : Installed (some .phase1Access) phase1 := .upgrade .empty first
  have wallets_installed : Installed (some .executionWallets) wallets :=
    .upgrade phase1_installed second
  constructor
  · refine ⟨wallets, ethereum, wallets_installed, third, ?_⟩
    rcases ethereum with ⟨catalog, rows⟩
    have ethereum_installed : Installed (some .ethereumIntelligence) ⟨catalog, rows⟩ :=
      .upgrade wallets_installed third
    have base := wellFormed_schemaAt (some .executionWallets)
    have whole := wellFormed_schemaAt (some .ethereumIntelligence)
    rw [show catalog = _ from ethereum_installed.isContent.1]
    exact not_undoes_of_refused base whole (dropsElsewhere_of_all (by decide +kernel))
      (by decide +kernel)
  · have reached : (sampleCallers.execute (initialCallers 0) issueToUser).any (fun world =>
        (world.store.challenges.any fun challenge => challenge.action = .createWallet) &&
          (schemaAt (some .executionWallets)).all fun object =>
            object.holds (challengeContents world.store.challenges)) = true := by
      decide +kernel
    rcases (Option.any_eq_true _ _).mp reached with ⟨world, executed, facts⟩
    rcases Bool.and_eq_true_iff.mp facts with ⟨asked, holds⟩
    have content := isContent_challengeContents holds
    refine ⟨phase1, wallets, world, phase1_installed, second,
      Program.reaches_of_execute executed (Program.meets_unrestricted _ _), ?_, ?_⟩
    · rw [wallets_installed.isContent.1]
      exact content
    · rw [wallets_installed.isContent.1, phase1_installed.isContent.1,
        undoes_executionWallets_iff content, canBeUndone_challengeContents_iff]
      rcases List.any_eq_true.mp asked with ⟨challenge, challenge_mem, action⟩
      exact fun known => known challenge challenge_mem (of_decide_eq_true action)

end CopyMint
