import CopyMint.Ethereum.Database

/-!
# Collections of workspaces

A collection is stored once for all workspaces, and each workspace that has added it
subscribes to it with a row of its own. The settings of a subscription hold the report
that was last made of the scan of its collection.
-/

namespace CopyMint

open Hexadecimal Relational

/-- What a workspace is told about a scan. -/
structure ScanReport where
  milestone : ℤ
  status : CollectionScanStatus
  warnings : List String
  deriving DecidableEq

/-- The settings of a subscription, as far as the tracker uses them. -/
structure NotificationSettings where
  lastScanReport : Option ScanReport := none
  deriving DecidableEq

/-- A row of `workspace_collections`. -/
structure WorkspaceCollection where
  id : ℕ
  workspaceId : ℕ
  collectionId : ℕ
  label : Option Text
  addedByUserId : ℕ
  notificationSettings : NotificationSettings
  active : Bool
  deriving DecidableEq

/-- The unique constraint of the subscriptions. -/
def WorkspaceCollection.key (row : WorkspaceCollection) : ℕ × ℕ :=
  (row.workspaceId, row.collectionId)

end CopyMint
