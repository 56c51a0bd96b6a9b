import CopyMint.Migrations.Operations

/-!
# The migrations

The operations of every revision, in the order in which it performs them. The checks of
enumerations are named after the enumeration.
-/

namespace CopyMint

open SqlColumn CheckExpression

/-- A row with a null in every column that is not given. -/
def tableRow (values : List (String × SqlValue)) : TableRow := fun column =>
  (values.lookup column).getD .null

/-- `string_enum`, as the check that it comes down to. -/
def stringEnum (name column : String) (values : List String) : TableConstraint :=
  .check name (isIn column values)

/-- `timestamps`, the two columns. -/
def timestamps : List SqlColumn := [required "created_at", required "updated_at"]

section Phase1Access

/-- `enable_workspace_rls`. -/
def enableWorkspaceRls (table : TableName) : List MigrationOperation :=
  enableRowSecurity table ++ [createPolicy "workspace_isolation" table]

/-- `upgrade` of `0001_phase1_access`. -/
def upgradePhase1Access : List MigrationOperation :=
  [createTable .platformUsers
      ([required "id", required "telegram_user_id", optional "username", optional "display_name",
        required "status", required "approved_at", optional "approved_by_user_id",
        optional "revoked_at", optional "revoked_by_user_id"] ++ timestamps)
      [stringEnum "platform_user_status" "status" ["active", "revoked"],
        .foreignKey "approved_by_user_id" .platformUsers "id",
        .foreignKey "revoked_by_user_id" .platformUsers "id",
        .primaryKey ["id"],
        .unique ["telegram_user_id"]],
    createTable .accessRequests
      ([required "id", required "telegram_user_id", optional "username", optional "display_name",
        required "status", required "requested_at", optional "decided_at",
        optional "decided_by_user_id", optional "decision_reason", optional "cooldown_until"] ++
        timestamps)
      [stringEnum "access_request_status" "status"
          ["pending", "approved", "rejected", "cancelled"],
        .foreignKey "decided_by_user_id" .platformUsers "id",
        .primaryKey ["id"]],
    createIndex "ix_access_requests_status_requested" .accessRequests ["status", "requested_at"],
    .create [.uniqueIndex .accessRequests "uq_access_requests_one_pending_per_telegram_user"
      ["telegram_user_id"] (isIn "status" ["pending"])],
    createTable .workspaces
      ([required "id", required "name", required "personal_owner_user_id", required "status"] ++
        timestamps)
      [stringEnum "workspace_status" "status" ["active", "suspended", "closed"],
        .foreignKey "personal_owner_user_id" .platformUsers "id",
        .primaryKey ["id"],
        .unique ["personal_owner_user_id"]],
    createTable .workspaceMemberships
      ([required "id", required "workspace_id", required "user_id", required "role",
        required "status", optional "revoked_at"] ++ timestamps)
      [stringEnum "workspace_role" "role" ["workspace_owner"],
        stringEnum "membership_status" "status" ["active", "revoked"],
        .foreignKey "user_id" .platformUsers "id",
        .foreignKey "workspace_id" .workspaces "id",
        .primaryKey ["id"],
        .unique ["workspace_id", "user_id"]],
    createTable .notificationDestinations
      ([required "id", required "workspace_id", required "telegram_chat_id", required "chat_type",
        required "enabled"] ++ timestamps)
      [.foreignKey "workspace_id" .workspaces "id",
        .primaryKey ["id"],
        .unique ["workspace_id", "telegram_chat_id"]],
    createTable .workspaceStrategies
      ([required "id", required "workspace_id", required "version", required "mode",
        required "configuration", required "active"] ++ timestamps)
      [stringEnum "execution_mode" "mode" ["alert", "paper", "manual", "auto"],
        .check "ck_workspace_strategies_positive_version" (less (.number 0) (.column "version")),
        .foreignKey "workspace_id" .workspaces "id",
        .primaryKey ["id"],
        .unique ["workspace_id", "version"]],
    createTable .callbackChallenges
      [required "id", required "token_hash", required "action",
        required "expected_actor_telegram_user_id", required "expected_chat_id",
        required "resource_type", required "resource_id", required "authoritative_payload",
        required "expires_at", optional "consumed_at", required "created_at"]
      [stringEnum "challenge_action" "action" ["approve_access", "reject_access", "revoke_access"],
        .check "ck_callback_challenges_sha256_token_hash"
          (equal (.octetLength (.column "token_hash")) (.number 32)),
        .primaryKey ["id"],
        .unique ["token_hash"]],
    createIndex "ix_callback_challenges_expiry" .callbackChallenges ["expires_at"],
    createTable .telegramUpdates
      [required "id", required "bot_id", required "update_id", required "status",
        required "correlation_id", required "received_at", optional "processed_at",
        optional "failure_code"]
      [stringEnum "telegram_update_status" "status" ["received", "processed", "failed"],
        .primaryKey ["id"],
        .unique ["bot_id", "update_id"]],
    createTable .auditLogs
      [required "id", optional "workspace_id", required "actor_type", required "actor_id",
        required "action", required "resource_type", required "resource_id", optional "before",
        optional "after", required "correlation_id", required "severity", required "occurred_at"]
      [stringEnum "audit_actor_type" "actor_type" ["telegram_user", "service", "signer", "system"],
        stringEnum "audit_severity" "severity" ["info", "low", "medium", "high", "critical"],
        .foreignKey "workspace_id" .workspaces "id",
        .primaryKey ["id"]],
    createIndex "ix_audit_logs_correlation" .auditLogs ["correlation_id"],
    createIndex "ix_audit_logs_workspace_timestamp" .auditLogs ["workspace_id", "occurred_at"]] ++
  enableWorkspaceRls .workspaces ++
  enableWorkspaceRls .workspaceMemberships ++
  enableWorkspaceRls .notificationDestinations ++
  enableWorkspaceRls .workspaceStrategies ++
  enableRowSecurity .auditLogs ++
  [createPolicy "workspace_select" .auditLogs,
    createPolicy "insert" .auditLogs]

/-- `downgrade` of `0001_phase1_access`. -/
def downgradePhase1Access : List MigrationOperation :=
  [dropPolicyIfExists "insert" .auditLogs,
    dropPolicyIfExists "workspace_select" .auditLogs,
    dropPolicyIfExists "workspace_isolation" .workspaceStrategies,
    dropPolicyIfExists "workspace_isolation" .notificationDestinations,
    dropPolicyIfExists "workspace_isolation" .workspaceMemberships,
    dropPolicyIfExists "workspace_isolation" .workspaces,
    dropIndex "ix_audit_logs_workspace_timestamp",
    dropIndex "ix_audit_logs_correlation",
    dropTable .auditLogs,
    dropTable .telegramUpdates,
    dropIndex "ix_callback_challenges_expiry",
    dropTable .callbackChallenges,
    dropTable .workspaceStrategies,
    dropTable .notificationDestinations,
    dropTable .workspaceMemberships,
    dropTable .workspaces,
    dropIndex "uq_access_requests_one_pending_per_telegram_user",
    dropIndex "ix_access_requests_status_requested",
    dropTable .accessRequests,
    dropTable .platformUsers]

end Phase1Access

section ExecutionWallets

/-- The actions of challenges that the first revision knows. -/
def accessChallengeActions : CheckExpression :=
  isIn "action" ["approve_access", "reject_access", "revoke_access"]

/-- The actions of challenges that the second revision knows. -/
def walletChallengeActions : CheckExpression :=
  isIn "action" ["approve_access", "reject_access", "revoke_access", "create_wallet"]

/-- `upgrade` of `0002_execution_wallets`. -/
def upgradeExecutionWallets : List MigrationOperation :=
  [dropConstraint "challenge_action" .callbackChallenges,
    createCheckConstraint "challenge_action" .callbackChallenges walletChallengeActions,
    createTable .executionWallets
      ([required "id", required "workspace_id", required "chain_id", required "address",
        required "signer_key_id", required "idempotency_key_hash", required "status",
        required "balance_wei", optional "balance_block_number",
        optional "balance_refreshed_at"] ++ timestamps)
      [stringEnum "execution_wallet_status" "status" ["active", "suspended"],
        .check "ethereum_mainnet_only" (equal (.column "chain_id") (.number 1)),
        .check "idempotency_sha256"
          (equal (.octetLength (.column "idempotency_key_hash")) (.number 32)),
        .check "nonnegative_balance" (atMost (.number 0) (.column "balance_wei")),
        .foreignKey "workspace_id" .workspaces "id",
        .primaryKey ["id"],
        .unique ["signer_key_id"],
        .unique ["chain_id", "address"],
        .unique ["workspace_id", "idempotency_key_hash"]],
    createIndex "ix_execution_wallets_workspace_created" .executionWallets
      ["workspace_id", "created_at"]] ++
  enableRowSecurity .executionWallets ++
  [createPolicy "workspace_isolation" .executionWallets]

/-- `downgrade` of `0002_execution_wallets`. -/
def downgradeExecutionWallets : List MigrationOperation :=
  [dropPolicyIfExists "workspace_isolation" .executionWallets,
    dropIndex "ix_execution_wallets_workspace_created",
    dropTable .executionWallets,
    dropConstraint "challenge_action" .callbackChallenges,
    createCheckConstraint "challenge_action" .callbackChallenges accessChallengeActions]

end ExecutionWallets

section EthereumIntelligence

/-- The row of the chain that the third migration inserts. -/
def mainnetChain (now : ℤ) : TableRow :=
  tableRow
    [("chain_id", .number 1), ("namespace", .text "eip155".toList),
      ("name", .text "Ethereum mainnet".toList), ("currency_symbol", .text "ETH".toList),
      ("finality_configuration", .text ("\x7b\"safe_tag\": \"safe\", " ++
        "\"finalized_tag\": \"finalized\", \"reorg_lookback\": 64\x7d").toList),
      ("created_at", .number now)]

/-- The values of the enumeration of token standards. -/
def tokenStandards : List String := ["erc721", "erc1155", "erc2309", "custom", "unknown"]

/-- `upgrade` of `6014276fbd67`. -/
def upgradeEthereumIntelligence (now : ℤ) : List MigrationOperation :=
  [createTable .chains
      [required "chain_id", required "namespace", required "name", required "currency_symbol",
        required "finality_configuration", required "created_at"]
      [.check "release1_ethereum_mainnet" (equal (.column "chain_id") (.number 1)),
        .primaryKey ["chain_id"]],
    .insert .chains (mainnetChain now),
    createTable .chainCursors
      [required "id", required "chain_id", required "purpose",
        required "last_processed_block_number", required "last_processed_block_hash",
        required "updated_at"]
      [.foreignKey "chain_id" .chains "chain_id",
        .primaryKey ["id"],
        .unique ["chain_id", "purpose"]],
    createTable .collections
      ([required "id", required "chain_id", required "normalized_address",
        required "checksum_address", required "token_standard",
        optional "deployment_block_number", optional "deployment_block_hash",
        required "deployment_confidence", required "deployment_confidence_value",
        required "scan_status"] ++ timestamps)
      [stringEnum "token_standard" "token_standard" tokenStandards,
        stringEnum "deployment_confidence" "deployment_confidence" ["exact", "bounded", "unknown"],
        stringEnum "collection_scan_status" "scan_status"
          ["pending", "scanning", "complete", "failed", "quality_warning"],
        .check "deployment_confidence_range" (between "deployment_confidence_value" 0 100),
        .check "address_length" (equal (.length (.column "normalized_address")) (.number 42)),
        .check "normalized_address"
          (equal (.column "normalized_address") (.lower (.column "normalized_address"))),
        .foreignKey "chain_id" .chains "chain_id",
        .primaryKey ["id"],
        .unique ["chain_id", "normalized_address"]],
    createIndex "ix_collections_scan_status" .collections ["chain_id", "scan_status"],
    createTable .rawEvidence
      [required "id", required "chain_id", required "kind", required "content_hash",
        required "provider_alias", optional "block_number", optional "transaction_hash",
        required "payload", required "retention_status", required "observed_at",
        required "created_at"]
      [stringEnum "evidence_kind" "kind" ["block", "log", "transaction", "receipt", "trace"],
        stringEnum "evidence_retention_status" "retention_status"
          ["active", "archived", "expired"],
        .check "sha256_content_hash"
          (equal (.octetLength (.column "content_hash")) (.number 32)),
        .foreignKey "chain_id" .chains "chain_id",
        .primaryKey ["id"],
        .unique ["content_hash"]],
    createIndex "ix_raw_evidence_chain_kind" .rawEvidence ["chain_id", "kind"],
    .create [.function "reject_raw_evidence_mutation"],
    .create [.trigger .rawEvidence "raw_evidence_immutable" "reject_raw_evidence_mutation"],
    createTable .collectionImplementations
      [required "id", required "collection_id", required "implementation_address",
        required "effective_from_block", optional "effective_to_block", required "evidence"]
      [.check "implementation_block_interval" (either (isNull "effective_to_block")
          (atMost (.column "effective_from_block") (.column "effective_to_block"))),
        .foreignKey "collection_id" .collections "id",
        .primaryKey ["id"],
        .unique ["collection_id", "effective_from_block"]],
    createTable .mintEvents
      [required "id", required "chain_id", required "collection_id", required "raw_evidence_id",
        required "block_number", required "block_hash", required "transaction_hash",
        required "log_index", required "sub_index", required "token_standard",
        required "token_id", required "quantity", required "recipient",
        optional "transaction_sender", optional "operator", optional "payer",
        optional "probable_initiator", required "identity_confidence",
        required "identity_reason_code", required "route", required "classification",
        required "classification_reason_code", required "finality", required "canonical"]
      [stringEnum "mint_event_token_standard" "token_standard" tokenStandards,
        stringEnum "mint_event_route" "route"
          ["direct", "seadrop", "launchpad", "marketplace", "relayer", "unknown"],
        stringEnum "mint_event_classification" "classification"
          ["public_paid_mint", "public_free_mint", "allowlist_mint", "token_gated_mint",
            "server_signed_mint", "admin_mint", "airdrop", "bridge_mint", "migration_mint",
            "lazy_marketplace_mint", "unknown_mint"],
        stringEnum "mint_event_finality" "finality"
          ["provisional", "safe", "finalized", "reorged"],
        .check "identity_confidence_range" (between "identity_confidence" 0 100),
        .check "nonnegative_log_position" (both (atMost (.number 0) (.column "log_index"))
          (atMost (.number 0) (.column "sub_index"))),
        .check "positive_quantity" (less (.number 0) (.column "quantity")),
        .foreignKey "chain_id" .chains "chain_id",
        .foreignKey "collection_id" .collections "id",
        .foreignKey "raw_evidence_id" .rawEvidence "id",
        .primaryKey ["id"],
        .unique ["chain_id", "transaction_hash", "log_index", "sub_index"]],
    createIndex "ix_mint_events_collection_block" .mintEvents ["collection_id", "block_number"],
    createIndex "ix_mint_events_initiator" .mintEvents ["chain_id", "probable_initiator"],
    createTable .scanCheckpoints
      [required "id", required "collection_id", required "scan_version",
        required "last_committed_block_number", required "last_committed_block_hash",
        required "updated_at"]
      [.foreignKey "collection_id" .collections "id",
        .primaryKey ["id"],
        .unique ["collection_id", "scan_version"]],
    createTable .scanJobs
      ([required "id", required "collection_id", required "scan_version", required "start_block",
        required "end_block", required "status", required "attempt_count",
        required "quality_warnings", optional "error_code"] ++ timestamps)
      [stringEnum "scan_job_status" "status"
          ["queued", "running", "completed", "failed", "cancelled"],
        .check "nonnegative_attempt_count" (atMost (.number 0) (.column "attempt_count")),
        .check "valid_block_range" (both (atMost (.number 0) (.column "start_block"))
          (atMost (.column "start_block") (.column "end_block"))),
        .foreignKey "collection_id" .collections "id",
        .primaryKey ["id"],
        .unique ["collection_id", "scan_version"]]]

/-- `downgrade` of `6014276fbd67`. -/
def downgradeEthereumIntelligence : List MigrationOperation :=
  [dropTable .scanJobs,
    dropTable .scanCheckpoints,
    dropIndex "ix_mint_events_initiator",
    dropIndex "ix_mint_events_collection_block",
    dropTable .mintEvents,
    dropTable .collectionImplementations,
    .dropIfExists (.function "reject_raw_evidence_mutation"),
    dropIndex "ix_raw_evidence_chain_kind",
    dropTable .rawEvidence,
    dropIndex "ix_collections_scan_status",
    dropTable .collections,
    dropTable .chainCursors,
    dropTable .chains]

end EthereumIntelligence

section WorkspaceCollections

/-- `upgrade` of `0003_workspace_collections`. -/
def upgradeWorkspaceCollections : List MigrationOperation :=
  [createTable .workspaceCollections
      ([required "id", required "workspace_id", required "collection_id", optional "label",
        required "added_by_user_id", required "notification_settings", required "active"] ++
        timestamps)
      [.foreignKey "workspace_id" .workspaces "id",
        .foreignKey "collection_id" .collections "id",
        .foreignKey "added_by_user_id" .platformUsers "id",
        .primaryKey ["id"],
        .unique ["workspace_id", "collection_id"]],
    createIndex "ix_workspace_collections_workspace_created" .workspaceCollections
      ["workspace_id", "created_at"]] ++
  enableRowSecurity .workspaceCollections ++
  [createPolicy "workspace_isolation" .workspaceCollections]

/-- `downgrade` of `0003_workspace_collections`. -/
def downgradeWorkspaceCollections : List MigrationOperation :=
  [dropPolicyIfExists "workspace_isolation" .workspaceCollections,
    dropIndex "ix_workspace_collections_workspace_created",
    dropTable .workspaceCollections]

end WorkspaceCollections

/-- The migrations, in the order of their revisions. -/
inductive Migration where
  | phase1Access | executionWallets | ethereumIntelligence | workspaceCollections
  deriving DecidableEq

namespace Migration

/-- The revision before that of a migration. -/
def downRevision : Migration → Option Migration
  | phase1Access => none
  | executionWallets => some phase1Access
  | ethereumIntelligence => some executionWallets
  | workspaceCollections => some ethereumIntelligence

/-- What the upgrade of a migration performs at a time. -/
def upgrade (now : ℤ) : Migration → List MigrationOperation
  | phase1Access => upgradePhase1Access
  | executionWallets => upgradeExecutionWallets
  | ethereumIntelligence => upgradeEthereumIntelligence now
  | workspaceCollections => upgradeWorkspaceCollections

/-- What the downgrade of a migration performs. -/
def downgrade : Migration → List MigrationOperation
  | phase1Access => downgradePhase1Access
  | executionWallets => downgradeExecutionWallets
  | ethereumIntelligence => downgradeEthereumIntelligence
  | workspaceCollections => downgradeWorkspaceCollections

end Migration

end CopyMint
