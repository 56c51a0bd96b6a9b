import CopyMint.Migrations.Downgrades

/-!
# Upgrades

Which databases can be upgraded. An operation on tables that a schema does not have is admitted
or refused whatever the rows of the schema are, so that for most of a migration a run on an
empty database decides. What remains is the check that is replaced, where the rows that the
earlier one admits pass the later one, and the row that is inserted.
-/

namespace CopyMint

open Relational

section Above

variable {base catalog : List SchemaObject} {blank rows : Contents}
  {operation : MigrationOperation} {operations : List MigrationOperation} {result : SchemaState}

namespace MigrationOperation

/-- The operation is about tables that a schema does not have. -/
def isAbove (base : List SchemaObject) : MigrationOperation → Bool
  | create objects => objects.all fun object =>
      object.ownTable.all fun table => .table table ∉ base.map SchemaObject.key
  | insert table _ => .table table ∉ base.map SchemaObject.key
  | drop _ | dropIfExists _ => false

end MigrationOperation

/-- Rows that are those of another database, and more in the tables of a schema alone. -/
structure Contents.Extend (base : List SchemaObject) (blank rows : Contents) : Prop where
  above : ∀ table, ObjectKey.table table ∉ base.map SchemaObject.key → rows table = blank table
  below : ∀ table, ObjectKey.table table ∈ base.map SchemaObject.key → blank table = []

namespace Contents.Extend

theorem of_isContent (content : IsContent base rows) : Extend base (fun _ => []) rows where
  above := content.absent
  below := fun _ _ => rfl

/-- What is not about a table of the schema holds of more rows in these tables. -/
theorem holds (extend : Extend base blank rows) {object : SchemaObject}
    (foreign : ∀ table, object.ownTable = some table → .table table ∉ base.map SchemaObject.key)
    (holds : object.holds blank = true) : object.holds rows = true := by
  apply SchemaObject.holds_of_agree holds
  · exact fun table own => extend.above table (foreign table own)
  · intro table _
    by_cases present : ObjectKey.table table ∈ base.map SchemaObject.key
    · rw [extend.below table present]
      exact List.nil_subset _
    · rw [extend.above table present]
      exact List.Subset.refl _

theorem insert (extend : Extend base blank rows) {table : TableName} (row : TableRow)
    (foreign : .table table ∉ base.map SchemaObject.key) :
    Extend base (blank.insert table row) (rows.insert table row) := by
  have other : ∀ {contents : Contents} {name}, name ≠ table →
      contents.insert table row name = contents name :=
    fun different => Function.update_of_ne different _ _
  constructor
  · intro name absent
    by_cases same : name = table
    · subst same
      rw [Contents.insert, Contents.insert, Function.update_self, Function.update_self,
        extend.above name absent]
    · rw [other same, other same, extend.above name absent]
  · intro name present
    have different : name ≠ table := by
      rintro rfl
      exact foreign present
    rw [other different, extend.below name present]

end Contents.Extend

/-- An operation above a schema runs on the rows of the schema as it does without them. -/
theorem MigrationOperation.exists_run_of_isAbove (above : operation.isAbove base = true)
    (extend : blank.Extend base rows) (ran : operation.run ⟨catalog, blank⟩ = some result) :
    ∃ after, operation.run ⟨catalog, rows⟩ = some ⟨result.catalog, after⟩ ∧
      result.rows.Extend base after ∧
        ∀ table, .table table ∈ base.map SchemaObject.key → after table = rows table := by
  rw [run, Option.ite_none_right_eq_some] at ran
  rcases ran with ⟨admits, ran⟩
  rcases Option.map_eq_some_iff.mp ran with ⟨altered, alters, rfl⟩
  have accepted : operation.Admits ⟨catalog, rows⟩ →
      operation.run ⟨catalog, rows⟩ = some ⟨altered, operation.rowsAfter rows⟩ := by
    intro admits
    rw [run, if_pos admits, alters]
    rfl
  cases operation with
  | create objects =>
      refine ⟨rows, accepted ?_, extend, fun _ _ => rfl⟩
      intro object object_mem
      apply extend.holds _ (admits object object_mem)
      intro table own
      have foreign := List.all_eq_true.mp above object object_mem
      rw [own] at foreign
      exact of_decide_eq_true foreign
  | insert table row =>
      have foreign : .table table ∉ base.map SchemaObject.key := of_decide_eq_true above
      refine ⟨rows.insert table row, accepted ⟨admits.1, ?_⟩, extend.insert row foreign, ?_⟩
      · intro object object_mem own
        apply (extend.insert row foreign).holds _ (admits.2 object object_mem own)
        intro name same
        cases own.symm.trans same
        exact foreign
      · intro name present
        apply Function.update_of_ne
        rintro rfl
        exact foreign present
  | drop | dropIfExists => cases above

theorem exists_runAll_of_isAbove (above : ∀ operation ∈ operations, operation.isAbove base = true)
    (extend : blank.Extend base rows) (ran : runAll operations ⟨catalog, blank⟩ = some result) :
    ∃ after, runAll operations ⟨catalog, rows⟩ = some after ∧
      ∀ table, .table table ∈ base.map SchemaObject.key → after.rows table = rows table := by
  induction operations generalizing catalog blank rows with
  | nil => exact ⟨⟨catalog, rows⟩, rfl, fun _ _ => rfl⟩
  | cons operation operations ih =>
      rcases Option.bind_eq_some_iff.mp ran with ⟨middle, first, rest⟩
      rcases operation.exists_run_of_isAbove (above operation List.mem_cons_self) extend first with
        ⟨later, first, extend, kept⟩
      rcases ih (fun other other_mem => above other (List.mem_cons_of_mem _ other_mem)) extend rest
        with ⟨after, rest, unchanged⟩
      refine ⟨after, Option.bind_eq_some_iff.mpr ⟨_, first, rest⟩, fun table present => ?_⟩
      exact (unchanged table present).trans (kept table present)

variable (operations) in
/-- What an empty database with a schema accepts on top of it, every database does. -/
theorem exists_runAll_of_blank (content : IsContent base rows)
    (above : (operations.all fun operation => operation.isAbove base) = true)
    (accepted : (runAll operations ⟨base, fun _ => []⟩).isSome = true) :
    ∃ after, runAll operations ⟨base, rows⟩ = some after ∧
      ∀ table, .table table ∈ base.map SchemaObject.key → after.rows table = rows table := by
  rcases Option.isSome_iff_exists.mp accepted with ⟨result, ran⟩
  exact exists_runAll_of_isAbove (List.all_eq_true.mp above) (.of_isContent content) ran

end Above

section Upgrades

variable {rows : Contents}

/-- A migration is admitted on a schema, and the rows that there are stay. -/
def Admitted (base : List SchemaObject) (rows : Contents) (operations : List MigrationOperation) :
    Prop :=
  ∃ after, runAll operations ⟨base, rows⟩ = some after ∧
    ∀ table, .table table ∈ base.map SchemaObject.key → after.rows table = rows table

/-- The object that holds the later check. -/
def walletChallengeCheck : SchemaObject :=
  .constraint .callbackChallenges (.check "challenge_action" walletChallengeActions)

/-- The later check knows every action that the earlier one knows. -/
theorem passes_walletChallengeActions {row : TableRow}
    (passes : accessChallengeActions.passes row = true) :
    walletChallengeActions.passes row = true := by
  simp only [accessChallengeActions, CheckExpression.passes, CheckExpression.eval] at passes
  simp only [walletChallengeActions, CheckExpression.passes, CheckExpression.eval]
  cases value : row "action" with
  | null => simp
  | number | bytes => simp [value] at passes
  | text action =>
      simp only [value, ne_eq, Option.some.injEq, Bool.not_eq_false, decide_eq_true_eq,
        List.any_cons, List.any_nil, Bool.or_eq_true, Bool.false_eq_true, or_false] at passes ⊢
      rcases passes with approve | reject | revoke
      · exact .inl approve
      · exact .inr (.inl reject)
      · exact .inr (.inr (.inl revoke))

/-- No table goes with the earlier check. -/
theorem table_mem_uncheckedSchema {table : TableName}
    (present : .table table ∈ (schemaAt (some .phase1Access)).map SchemaObject.key) :
    .table table ∈ uncheckedSchema.map SchemaObject.key := by
  rcases List.mem_map.mp present with ⟨object, object_mem, same⟩
  refine List.mem_map.mpr ⟨object, List.mem_filter.mpr ⟨object_mem, ?_⟩, same⟩
  have noOwners : schemaDependencies.owners object = [] :=
    SchemaObject.owners_eq_nil_of_key same
  have other : schemaDependencies.key object ≠ challengeActionKey := by
    intro impossible
    cases same.symm.trans impossible
  rw [Dependencies.isDropped, noOwners, decide_eq_false other]
  rfl

/-- The check is replaced on the rows that there are. -/
theorem runAll_replaceCheck (content : IsContent (schemaAt (some .phase1Access)) rows) :
    runAll (upgradeExecutionWallets.take 2) ⟨schemaAt (some .phase1Access), rows⟩ =
      some ⟨uncheckedSchema ++ [walletChallengeCheck], rows⟩ := by
  have erased : rows.erase challengeActionKey = rows := by
    funext table
    exact if_neg nofun
  have dropped : (MigrationOperation.drop challengeActionKey).run
      ⟨schemaAt (some .phase1Access), rows⟩ = some ⟨uncheckedSchema, rows⟩ := by
    have drops : (MigrationOperation.drop challengeActionKey).alter
        (schemaAt (some .phase1Access)) = some uncheckedSchema := drop_challengeActionKey
    rw [MigrationOperation.run_of_drop rfl, drops, Option.map_some, erased]
  have found : (schemaAt (some .phase1Access)).find? (fun object =>
      object.key = challengeActionKey) = some accessChallengeCheck := rfl
  have passed := List.all_eq_true.mp (content.holds _ (List.mem_of_find?_eq_some found))
  have admits : (MigrationOperation.create [walletChallengeCheck]).Admits
      ⟨uncheckedSchema, rows⟩ := by
    intro object object_mem
    rw [List.mem_singleton.mp object_mem]
    exact List.all_eq_true.mpr fun row row_mem => passes_walletChallengeActions (passed row row_mem)
  have created : (MigrationOperation.create [walletChallengeCheck]).run ⟨uncheckedSchema, rows⟩ =
      some ⟨uncheckedSchema ++ [walletChallengeCheck], rows⟩ := by
    have fresh : schemaDependencies.create walletChallengeCheck uncheckedSchema =
        some (uncheckedSchema ++ [walletChallengeCheck]) := if_pos (by decide +kernel)
    have creates : (MigrationOperation.create [walletChallengeCheck]).alter uncheckedSchema =
        some (uncheckedSchema ++ [walletChallengeCheck]) :=
      Option.bind_eq_some_iff.mpr ⟨_, fresh, rfl⟩
    rw [MigrationOperation.run, if_pos admits, creates]
    rfl
  exact Option.bind_eq_some_iff.mpr
    ⟨_, dropped, Option.bind_eq_some_iff.mpr ⟨_, created, rfl⟩⟩

theorem admitted_executionWallets (content : IsContent (schemaAt (some .phase1Access)) rows) :
    Admitted (schemaAt (some .phase1Access)) rows upgradeExecutionWallets := by
  have replaced := runAll_replaceCheck content
  have middle : IsContent (uncheckedSchema ++ [walletChallengeCheck]) rows :=
    (isContent_runAll (wellFormed_schemaAt (some .phase1Access)) content replaced).2
  rcases exists_runAll_of_blank (upgradeExecutionWallets.drop 2) middle
    (by decide +kernel) (by decide +kernel) with ⟨after, ran, kept⟩
  refine ⟨after, ?_, ?_⟩
  · rw [← List.take_append_drop 2 upgradeExecutionWallets, runAll_append, replaced]
    exact ran
  · intro table present
    apply kept
    rw [List.map_append]
    exact List.mem_append_left _ (table_mem_uncheckedSchema present)

theorem rows_of_runAll_create {objects : List SchemaObject} {state result : SchemaState}
    (created : runAll [.create objects] state = some result) : result.rows = state.rows := by
  rcases Option.bind_eq_some_iff.mp created with ⟨middle, ran, same⟩
  cases same
  rw [MigrationOperation.run, Option.ite_none_right_eq_some] at ran
  rcases Option.map_eq_some_iff.mp ran.2 with ⟨altered, _, rfl⟩
  rfl

/-- The objects of the chains that are supported. -/
def chainObjects : List SchemaObject :=
  ((upgradeEthereumIntelligence 0).take 1).flatMap MigrationOperation.created

/-- The row of the supported chain is admitted, whatever the time is. -/
theorem admits_mainnetChain {now : ℤ}
    (content : IsContent (schemaAt (some .executionWallets)) rows) :
    (MigrationOperation.insert .chains (mainnetChain now)).Admits
      ⟨schemaAt (some .executionWallets) ++ chainObjects, rows⟩ := by
  have absent : .table .chains ∉ (schemaAt (some .executionWallets)).map SchemaObject.key := by
    decide +kernel
  have alone : rows.insert .chains (mainnetChain now) .chains = [mainnetChain now] := by
    rw [Contents.insert, Function.update_self, content.absent _ absent, List.nil_append]
  have present : .table .chains ∈ (schemaAt (some .executionWallets) ++ chainObjects).map
      SchemaObject.key := by decide +kernel
  refine ⟨present, fun object object_mem own => ?_⟩
  rcases List.mem_append.mp object_mem with old | new
  · have others : ((schemaAt (some .executionWallets)).all fun object =>
        object.ownTable ≠ some .chains) = true := by decide +kernel
    exact absurd own (of_decide_eq_true (List.all_eq_true.mp others object old))
  · simp only [chainObjects, upgradeEthereumIntelligence, createTable, List.take_succ_cons,
      List.take_zero, List.flatMap_cons, List.flatMap_nil, MigrationOperation.created,
      List.map_cons, List.map_nil, List.append_nil, List.mem_cons, List.not_mem_nil,
      or_false] at new
    rcases new with rfl | rfl | rfl
    all_goals
      simp only [SchemaObject.holds, TableConstraint.holds, alone]
      simp [mainnetChain, tableRow, distinctIn, CheckExpression.passes, CheckExpression.eval,
        SqlTerm.eval, SqlColumn.required, List.lookup_cons]

theorem admitted_ethereumIntelligence (now : ℤ)
    (content : IsContent (schemaAt (some .executionWallets)) rows) :
    Admitted (schemaAt (some .executionWallets)) rows (upgradeEthereumIntelligence now) := by
  have wellFormed := wellFormed_schemaAt (some .executionWallets)
  have created : ∃ after, runAll ((upgradeEthereumIntelligence 0).take 1)
      ⟨schemaAt (some .executionWallets), rows⟩ = some after ∧ _ :=
    exists_runAll_of_blank _ content (by decide +kernel) (by decide +kernel)
  rcases created with ⟨⟨catalog, contents⟩, created, _⟩
  have same : contents = rows := rows_of_runAll_create created
  subst same
  have appended : alterAll ((upgradeEthereumIntelligence 0).take 1)
      (schemaAt (some .executionWallets)) =
        some (schemaAt (some .executionWallets) ++ chainObjects) :=
    alterAll_eq_append (by decide +kernel) (by decide +kernel)
  cases (isContent_runAll wellFormed content created).1.symm.trans appended
  have inserted : runAll ((upgradeEthereumIntelligence now).take 2)
      ⟨schemaAt (some .executionWallets), contents⟩ =
        some ⟨schemaAt (some .executionWallets) ++ chainObjects,
          contents.insert .chains (mainnetChain now)⟩ := by
    rcases Option.bind_eq_some_iff.mp created with ⟨_, created, same⟩
    cases same
    exact Option.bind_eq_some_iff.mpr ⟨_, created, Option.bind_eq_some_iff.mpr
      ⟨_, if_pos (admits_mainnetChain content), rfl⟩⟩
  have middle : IsContent (schemaAt (some .executionWallets) ++ chainObjects)
      (contents.insert .chains (mainnetChain now)) :=
    (isContent_runAll wellFormed content inserted).2
  rcases exists_runAll_of_blank ((upgradeEthereumIntelligence 0).drop 2) middle
    (by decide +kernel) (by decide +kernel) with ⟨after, ran, kept⟩
  refine ⟨after, ?_, ?_⟩
  · rw [← List.take_append_drop 2 (upgradeEthereumIntelligence now), runAll_append, inserted]
    exact ran
  · intro table present
    have different : table ≠ .chains := by
      rintro rfl
      exact absurd present (by decide +kernel)
    rw [kept table]
    · exact Function.update_of_ne different _ _
    · rw [List.map_append]
      exact List.mem_append_left _ present

/-- Every migration is admitted on any rows that the schema before it admits. -/
theorem admitted_upgrade (migration : Migration) (now : ℤ)
    (content : IsContent (schemaAt migration.downRevision) rows) :
    Admitted (schemaAt migration.downRevision) rows (migration.upgrade now) := by
  cases migration with
  | phase1Access =>
      exact exists_runAll_of_blank upgradePhase1Access content (by decide +kernel)
        (by decide +kernel)
  | executionWallets => exact admitted_executionWallets content
  | ethereumIntelligence => exact admitted_ethereumIntelligence now content
  | workspaceCollections =>
      have onTop : IsContent (schemaAt (some .ethereumIntelligence)) rows := content
      exact exists_runAll_of_blank upgradeWorkspaceCollections onTop (by decide +kernel)
        (by decide +kernel)

/-- No migration drops a table. -/
theorem table_mem_schemaAt {migration : Migration} {table : TableName}
    (present : .table table ∈ (schemaAt migration.downRevision).map SchemaObject.key) :
    .table table ∈ (schemaAt (some migration)).map SchemaObject.key := by
  have onTop : ∀ {base added : List SchemaObject},
      ObjectKey.table table ∈ base.map SchemaObject.key →
        .table table ∈ (base ++ added).map SchemaObject.key := by
    intro base added present
    rw [List.map_append]
    exact List.mem_append_left _ present
  cases migration with
  | phase1Access => cases present
  | executionWallets => exact onTop (table_mem_uncheckedSchema present)
  | ethereumIntelligence | workspaceCollections => exact onTop present

end Upgrades

section Head

namespace Migration

/-- The migrations in the order in which each follows the one before it. -/
def history : List Migration :=
  [phase1Access, executionWallets, ethereumIntelligence, workspaceCollections]

/-- What is left to run on a database at a revision. -/
def pending (revision : Option Migration) : List Migration :=
  history.dropWhile fun migration => migration.downRevision ≠ revision

theorem pending_downRevision (migration : Migration) :
    pending migration.downRevision = migration :: pending (some migration) := by
  cases migration <;> rfl

end Migration

/-- Run all that is pending, in one transaction. -/
def upgradeHead (now : ℤ) (revision : Option Migration) (state : SchemaState) :
    Option SchemaState :=
  runAll ((Migration.pending revision).flatMap fun migration => migration.upgrade now) state

/-- The database can be upgraded to the head, and keeps the rows of its tables. -/
def Upgradable (now : ℤ) (revision : Option Migration) (state : SchemaState) : Prop :=
  ∃ after, upgradeHead now revision state = some after ∧
    Installed (some .workspaceCollections) after ∧
      ∀ table, .table table ∈ state.catalog.map SchemaObject.key →
        after.rows table = state.rows table

variable {revision : Option Migration} {now : ℤ} {state : SchemaState}

/-- One migration more can be run first. -/
theorem upgradable_downRevision (migration : Migration)
    (installed : Installed migration.downRevision state)
    (upgradable : ∀ {after}, Installed (some migration) after →
      Upgradable now (some migration) after) :
    Upgradable now migration.downRevision state := by
  rcases state with ⟨catalog, rows⟩
  rcases installed.isContent with ⟨same, content⟩
  change catalog = _ at same
  subst same
  rcases admitted_upgrade migration now content with ⟨middle, ran, kept⟩
  have next : Installed (some migration) middle := .upgrade installed ran
  rcases upgradable next with ⟨after, rest, head, unchanged⟩
  refine ⟨after, ?_, head, fun table present => ?_⟩
  · rw [upgradeHead, migration.pending_downRevision, List.flatMap_cons, runAll_append, ran]
    exact rest
  · refine (unchanged table ?_).trans (kept table present)
    rw [next.isContent.1]
    exact table_mem_schemaAt present

/--
Whatever revision a database is at, and whatever rows it has got since, the upgrade to the head
is never refused, and every table that there was has the rows that it had.
-/
theorem installed_upgradable (installed : Installed revision state) :
    Upgradable now revision state := by
  have collections : ∀ {after}, Installed (some .workspaceCollections) after →
      Upgradable now (some .workspaceCollections) after :=
    fun installed => ⟨_, rfl, installed, fun _ _ => rfl⟩
  have ethereum : ∀ {after}, Installed (some .ethereumIntelligence) after →
      Upgradable now (some .ethereumIntelligence) after := fun installed =>
    upgradable_downRevision .workspaceCollections installed collections
  have wallets : ∀ {after}, Installed (some .executionWallets) after →
      Upgradable now (some .executionWallets) after := fun installed =>
    upgradable_downRevision .ethereumIntelligence installed ethereum
  have phase1 : ∀ {after}, Installed (some .phase1Access) after →
      Upgradable now (some .phase1Access) after := fun installed =>
    upgradable_downRevision .executionWallets installed wallets
  rcases revision with _ | migration
  · exact upgradable_downRevision .phase1Access installed phase1
  · cases migration with
    | phase1Access => exact phase1 installed
    | executionWallets => exact wallets installed
    | ethereumIntelligence => exact ethereum installed
    | workspaceCollections => exact collections installed

/-- The rows of a database with one user. -/
def sampleUsers : Contents
  | .platformUsers => [tableRow [("id", .number 1), ("telegram_user_id", .number 42),
      ("status", .text "active".toList), ("approved_at", .number 0), ("created_at", .number 0),
      ("updated_at", .number 0)]]
  | _ => []

theorem isContent_sampleUsers : IsContent (schemaAt (some .phase1Access)) sampleUsers where
  holds := by
    have holds : ((schemaAt (some .phase1Access)).all fun object =>
        object.holds sampleUsers) = true := by decide +kernel
    exact List.all_eq_true.mp holds
  absent := by
    intro table absent
    cases table with
    | platformUsers => exact absurd (by decide +kernel) absent
    | _ => rfl

theorem sampleUsers_upgradable : ∃ state, Installed (some .phase1Access) state ∧
    state.rows = sampleUsers ∧ Upgradable 7 (some .phase1Access) state := by
  rcases exists_upgraded with ⟨phase1, _, _, _, ran, _⟩
  have fresh : Installed (some .phase1Access) phase1 := .upgrade .empty ran
  have used : Installed (some .phase1Access) ⟨phase1.catalog, sampleUsers⟩ :=
    .use fresh (fresh.isContent.1 ▸ isContent_sampleUsers)
  exact ⟨_, used, rfl, installed_upgradable used⟩

end Head

end CopyMint
