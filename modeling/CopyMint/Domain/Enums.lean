/-!
# Domain enumerations

The enumerations that the modelled tables and operations use, with the members
of the source in its order.
-/

namespace CopyMint

/-- The standard of a collection or a mint. -/
inductive TokenStandard where
  | erc721 | erc1155 | erc2309 | custom | unknown
  deriving DecidableEq, Repr

/-- The way a mint has come about. -/
inductive MintRoute where
  | direct | seadrop | launchpad | marketplace | relayer | unknown
  deriving DecidableEq, Repr

/-- What kind of a mint it is. -/
inductive MintClassification where
  | publicPaidMint | publicFreeMint | allowlistMint | tokenGatedMint | serverSignedMint
  | adminMint | airdrop | bridgeMint | migrationMint | lazyMarketplaceMint | unknownMint
  deriving DecidableEq, Repr

/-- How settled the block of an event is. -/
inductive FinalityStatus where
  | provisional | safe | finalized | reorged
  deriving DecidableEq, Repr

/-- How far the scan of a collection has come. -/
inductive CollectionScanStatus where
  | pending | scanning | complete | failed | qualityWarning
  deriving DecidableEq, Repr

/-- What the tracker of a scan takes for the end of it. -/
def CollectionScanStatus.isTerminal : CollectionScanStatus → Bool
  | .complete | .failed | .qualityWarning => true
  | .pending | .scanning => false

/-- How far the job of a scan has come. -/
inductive ScanJobStatus where
  | queued | running | completed | failed | cancelled
  deriving DecidableEq, Repr

/-- What a piece of raw evidence is. -/
inductive EvidenceKind where
  | block | log | transaction | receipt | trace
  deriving DecidableEq, Repr

/-- Whether raw evidence is still kept. -/
inductive EvidenceRetentionStatus where
  | active | archived | expired
  deriving DecidableEq, Repr

/-- How certain the deployment block of a contract is. -/
inductive DeploymentConfidence where
  | exact | bounded | unknown
  deriving DecidableEq, Repr

/-- What a strategy may do. -/
inductive ExecutionMode where
  | alert | paper | manual | auto
  deriving DecidableEq, Repr

/-- Whether an account may use the platform. -/
inductive UserStatus where
  | active | revoked
  deriving DecidableEq, Repr

/-- What has become of a request for access. -/
inductive AccessRequestStatus where
  | pending | approved | rejected | cancelled
  deriving DecidableEq, Repr

/-- A role on the whole platform. -/
inductive PlatformRole where
  | platformOwner | workspaceOwner | serviceWorker | signer
  deriving DecidableEq, Repr

/-- Whether a workspace may be used. -/
inductive WorkspaceStatus where
  | active | suspended | closed
  deriving DecidableEq, Repr

/-- Whether a membership is in force. -/
inductive MembershipStatus where
  | active | revoked
  deriving DecidableEq, Repr

/-- A role in a workspace. -/
inductive WorkspaceRole where
  | owner
  deriving DecidableEq, Repr

/-- The action that a challenge confirms. -/
inductive ChallengeAction where
  | approveAccess | rejectAccess | revokeAccess | createWallet
  deriving DecidableEq, Repr

/-- Whether an execution wallet may be used. -/
inductive WalletStatus where
  | active | suspended
  deriving DecidableEq, Repr

/-- How far the processing of a delivered update has come. -/
inductive TelegramUpdateStatus where
  | received | processed | failed
  deriving DecidableEq, Repr

/-- Who has done what an audit row records. -/
inductive ActorType where
  | telegramUser | service | signer | system
  deriving DecidableEq, Repr

/-- How grave what an audit row records is. -/
inductive Severity where
  | info | low | medium | high | critical
  deriving DecidableEq, Repr

end CopyMint
