import CopyMint.Ethereum.Database
import CopyMint.Ethereum.Deduplication
import CopyMint.Ethereum.Discovery

/-!
# Requests for scans

Both ways to ask for a scan, the addition of a collection and a request for one that is
saved, publish two messages one after the other: one for the indexer and one for the
worker that reports the scan. Whatever a send raises is caught around both of them, and
the scan is then reported as not queued. The first message may have been sent by then.
-/

namespace CopyMint

open Hexadecimal Relational

/-- A task with its keyword arguments, and the queue that it is sent to. -/
structure TaskMessage where
  task : String
  kwargs : List (String × Text)
  queue : String
  deriving DecidableEq

/-- The broker as a call sees it: every send of the call returns or raises something. -/
structure Broker (Failure : Type) where
  /-- What a send raises, by its position among the sends. -/
  raises : ℕ → Option Failure
  sends : ℕ
  messages : List TaskMessage

variable {Failure : Type}

/-- `celery.send_task`. -/
def Broker.sendTask (broker : Broker Failure) (message : TaskMessage) :
    Except Failure Unit × Broker Failure :=
  match broker.raises broker.sends with
  | some failure => (.error failure, { broker with sends := broker.sends + 1 })
  | none =>
      (.ok (),
        { broker with
          sends := broker.sends + 1
          messages := broker.messages ++ [message] })

/-- The message that starts a scan. -/
def scanCollectionMessage (collectionId : ℕ) : TaskMessage where
  task := "copymint.ethereum.scan_collection"
  kwargs := [("collection_id", uuidText collectionId)]
  queue := "indexer"

/-- The message that starts a tracker. -/
def trackScanMessage (workspaceId collectionId : ℕ) : TaskMessage where
  task := "copymint.collections.track_scan"
  kwargs := [("workspace_id", uuidText workspaceId), ("collection_id", uuidText collectionId)]
  queue := "notifications"

/-- `request_scan` of the queue. -/
def CeleryCollectionScanQueue.requestScan (workspaceId collectionId : ℕ)
    (broker : Broker Failure) : Except Failure Unit × Broker Failure :=
  match broker.sendTask (scanCollectionMessage collectionId) with
  | (.error failure, broker) => (.error failure, broker)
  | (.ok (), broker) => broker.sendTask (trackScanMessage workspaceId collectionId)

/-- The collection of a workspace by its address, with the state of its scan. -/
def RegistryStore.findByAddress (store : RegistryStore) (scans : Database) (workspaceId : ℕ)
    (address : Text) : List WorkspaceCollectionRecord :=
  let subscribed := store.subscriptions.rows.filter fun row =>
    row.workspaceId = workspaceId && row.active
  subscribed.flatMap fun subscription =>
    (store.collections.rows.filter fun collection =>
      collection.row.id = subscription.collectionId &&
        collection.key = (1, lower address)).map fun collection =>
          let job := scans.job collection.row.id
          { collectionRecord subscription collection with
            scanStartBlock := job.map ScanJob.startBlock
            scanEndBlock := job.map ScanJob.endBlock
            lastScannedBlock := scans.committedBlock collection.row.id 1
            qualityWarningCodes := scans.qualityWarnings collection.row.id }

/-- Why a scan is not requested. -/
inductive ScanRequestFailure where
  | registration (failure : RegistrationFailure)
  | collectionNotFound (message : String)
  | multipleResultsFound
  deriving DecidableEq

namespace CollectionService

/-- `_queue`. -/
def queue (workspaceId collectionId : ℕ) (broker : Broker Failure) : Bool × Broker Failure :=
  match CeleryCollectionScanQueue.requestScan workspaceId collectionId broker with
  | (.error _, broker) => (false, broker)
  | (.ok (), broker) => (true, broker)

variable (primitives : Primitives)

/-- The collection that a scan is requested for. -/
def savedCollection (store : RegistryStore) (scans : Database) (context : RequestContext)
    (address : Text) : Except ScanRequestFailure (ℕ × WorkspaceCollectionRecord) := do
  let workspaceId ← context.requireWorkspace.mapError fun error => .registration (.access error)
  let checksum ← (normalizeAddress primitives address).mapError .registration
  match store.findByAddress scans workspaceId checksum with
  | [] =>
      .error (.collectionNotFound
        "That collection is not saved in your workspace. Use /add_collection first.")
  | [collection] => .ok (workspaceId, collection)
  | _ => .error .multipleResultsFound

/-- `request_scan` of the service. -/
def requestScan (store : RegistryStore) (scans : Database) (context : RequestContext)
    (address : Text) (broker : Broker Failure) :
    Except ScanRequestFailure (WorkspaceCollectionRecord × Bool) × Broker Failure :=
  match savedCollection primitives store scans context address with
  | .error failure => (.error failure, broker)
  | .ok (workspaceId, collection) =>
      let queued := queue workspaceId collection.collectionId broker
      (.ok (collection, queued.1), queued.2)

/-- A step of `add_collection`, whose last one publishes the scan. -/
def addCollectionStep (store : RegistryStore × Broker Failure) (phase : AddPhase)
    (event : AddEvent) : Option ((RegistryStore × Broker Failure) × AddPhase) :=
  match phase, event with
  | .queueing result, .queue reported =>
      let queued := queue result.request.workspaceId result.record.collectionId store.2
      if reported = queued.1 then some ((store.1, queued.2), .returned result reported) else none
  | phase, event =>
      (addStep primitives store.1 phase event).map fun (registry, next) =>
        ((registry, store.2), next)

end CollectionService

/-- What a call has sent agrees with what it reports. -/
def AllOrNothing (workspaceId collectionId : ℕ) (queued : Bool)
    (before after : Broker Failure) : Prop :=
  after.messages = before.messages ++
    if queued then [scanCollectionMessage collectionId, trackScanMessage workspaceId collectionId]
    else []

/-- The second of two sends does not raise where the first one returns. -/
def Broker.SendsTogether (broker : Broker Failure) : Prop :=
  broker.raises broker.sends = none → broker.raises (broker.sends + 1) = none

namespace CollectionService

variable {primitives : Primitives} {store : RegistryStore} {broker after : Broker Failure}

/-- What is sent and reported, by what the two sends do. -/
theorem queue_eq (workspaceId collectionId : ℕ) (broker : Broker Failure) :
    (queue workspaceId collectionId broker).1 =
        ((broker.raises broker.sends).isNone && (broker.raises (broker.sends + 1)).isNone) ∧
      (queue workspaceId collectionId broker).2.messages = broker.messages ++
        if (broker.raises broker.sends).isNone then
          scanCollectionMessage collectionId ::
            if (broker.raises (broker.sends + 1)).isNone then
              [trackScanMessage workspaceId collectionId]
            else []
        else [] := by
  cases first : broker.raises broker.sends with
  | some failure =>
      simp [queue, CeleryCollectionScanQueue.requestScan, Broker.sendTask, first]
  | none =>
      cases second : broker.raises (broker.sends + 1) with
      | some failure =>
          simp [queue, CeleryCollectionScanQueue.requestScan, Broker.sendTask, first, second]
      | none =>
          simp [queue, CeleryCollectionScanQueue.requestScan, Broker.sendTask, first, second]

theorem queue_allOrNothing_iff (workspaceId collectionId : ℕ) (broker : Broker Failure) :
    AllOrNothing workspaceId collectionId (queue workspaceId collectionId broker).1 broker
        (queue workspaceId collectionId broker).2 ↔ broker.SendsTogether := by
  rcases queue_eq workspaceId collectionId broker with ⟨reported, sent⟩
  rw [AllOrNothing, reported, sent, List.append_cancel_left_eq, Broker.SendsTogether]
  cases broker.raises broker.sends with
  | some failure => simp
  | none =>
      cases broker.raises (broker.sends + 1) with
      | some failure => simp
      | none => simp

/-- A requested scan is that of a collection of the workspace of its caller. -/
theorem savedCollection_workspaceId {scans : Database} {context : RequestContext} {address : Text}
    {workspaceId : ℕ} {collection : WorkspaceCollectionRecord}
    (found : savedCollection primitives store scans context address =
      .ok (workspaceId, collection)) : collection.workspaceId = workspaceId := by
  rcases Fallible.bind_eq_ok_iff.mp found with ⟨_, _, found⟩
  rcases Fallible.bind_eq_ok_iff.mp found with ⟨checksum, _, found⟩
  split at found
  · cases found
  · rename_i saved selected
    cases found
    have selected_mem : collection ∈ store.findByAddress scans workspaceId checksum := by
      simp [selected]
    simp only [RegistryStore.findByAddress, List.mem_flatMap, List.mem_map, List.mem_filter]
      at selected_mem
    rcases selected_mem with ⟨subscription, ⟨_, own⟩, _, _, rfl⟩
    exact of_decide_eq_true (Bool.and_eq_true_iff.mp own).1
  · cases found

/-- Without the broker, the steps of an addition are those of its program. -/
theorem addStep_of_addCollectionStep {next : RegistryStore} {phase later : AddPhase}
    {event : AddEvent}
    (stepped : addCollectionStep primitives (store, broker) phase event =
      some ((next, after), later)) : addStep primitives store phase event = some (next, later) := by
  simp only [addCollectionStep] at stepped
  split at stepped
  · split_ifs at stepped
    cases stepped
    rfl
  · rcases Option.map_eq_some_iff.mp stepped with ⟨⟨registry, reached⟩, moved, equal⟩
    cases equal
    exact moved

/-- Only the publication of its scan ends an addition with a report. -/
theorem eq_queue_of_returned {next : RegistryStore} {phase : AddPhase} {event : AddEvent}
    {result : AddResult} {queued : Bool}
    (stepped : addStep primitives store phase event = some (next, .returned result queued)) :
    phase = .queueing result ∧ event = .queue queued := by
  simp only [addStep] at stepped
  split at stepped
  · split at stepped <;> cases stepped
  · simp only [addProceed] at stepped
    split at stepped
    · split at stepped <;> cases stepped
    · split at stepped <;> cases stepped
    · split at stepped <;> cases stepped
    · split at stepped <;> cases stepped
    · cases stepped
    · cases stepped
  · cases stepped
    exact ⟨rfl, rfl⟩
  · rw [abandon_eq] at stepped
    split_ifs at stepped
    cases stepped
  · cases stepped

/--
What a request for a scan and an addition of a collection report agrees with what they
have sent exactly if the second send does not raise after the first one has returned.
-/
theorem scanRequests_allOrNothing_iff (primitives : Primitives) (broker : Broker Failure) :
    (∀ store scans context address collection queued after,
      requestScan primitives store scans context address broker =
          (.ok (collection, queued), after) →
        (AllOrNothing collection.workspaceId collection.collectionId queued broker after ↔
          broker.SendsTogether)) ∧
      ∀ store phase event next after result queued,
        addCollectionStep primitives (store, broker) phase event =
            some ((next, after), .returned result queued) →
          (AllOrNothing result.request.workspaceId result.record.collectionId queued broker after ↔
            broker.SendsTogether) := by
  constructor
  · intro store scans context address collection queued after requested
    simp only [requestScan] at requested
    cases found : savedCollection primitives store scans context address with
    | error failure =>
        simp only [found] at requested
        cases requested
    | ok saved =>
        rcases saved with ⟨workspaceId, saved⟩
        simp only [found] at requested
        cases requested
        rw [savedCollection_workspaceId found]
        exact queue_allOrNothing_iff workspaceId collection.collectionId broker
  · intro store phase event next after result queued stepped
    simp only [addCollectionStep] at stepped
    split at stepped
    · rename_i published reported
      split_ifs at stepped with same
      cases stepped
      rw [same]
      exact queue_allOrNothing_iff _ _ broker
    · rename_i unpublished
      rcases Option.map_eq_some_iff.mp stepped with ⟨⟨registry, reached⟩, moved, equal⟩
      cases equal
      rcases eq_queue_of_returned moved with ⟨rfl, rfl⟩
      exact absurd rfl (unpublished _ _ rfl)

open EthereumCollectionDiscovery (contractText)

section Samples

/-- A workspace has saved a collection, whose scan is under way. -/
def subscribedRegistry : RegistryStore where
  collections :=
    ⟨[{ chainId := 1
        normalizedAddress := contractText
        tokenStandard := .unknown
        row := ⟨11, contractText, some 7, none, .exact, 100, .scanning⟩ }], []⟩
  subscriptions := ⟨[⟨12, 1, 11, none, 3, {}, true⟩], []⟩
  auditLogs := []
  results := []

/-- A database in which the collection is being scanned. -/
def scannedDatabase : Database where
  collections := []
  scanJobs := [⟨13, 11, 1, 7, 20, .running, 1, []⟩]
  scanCheckpoints := [⟨14, 11, 1, 9, []⟩]
  rawEvidence := []
  mintEvents := []
  nextId := 15

/-- The broker accepts one message and refuses the next one. -/
def failingBroker : Broker String where
  raises position := if position = 1 then some "connection lost" else none
  sends := 0
  messages := []

/-- A broker whose next sends succeed. -/
def workingBroker : Broker String := { failingBroker with sends := 2 }

/-- What is returned for the collection. -/
def savedRecord : WorkspaceCollectionRecord where
  id := 12
  collectionId := 11
  workspaceId := 1
  address := contractText
  label := none
  scanStatus := .scanning
  active := true
  scanStartBlock := some 7
  scanEndBlock := some 20
  lastScannedBlock := some 9

end Samples

theorem savedCollection_contractText :
    savedCollection sampleHashes subscribedRegistry scannedDatabase (sampleAdder 1) contractText =
      .ok (1, savedRecord) := by
  decide +kernel

/-- A scan is reported as not queued after its message has been sent to the indexer. -/
theorem failedRequest_sends :
    ¬∀ (store : RegistryStore) (scans : Database) (context : RequestContext) (address : Text)
      (broker after : Broker String) (collection : WorkspaceCollectionRecord) (queued : Bool),
      requestScan sampleHashes store scans context address broker =
          (.ok (collection, queued), after) →
        AllOrNothing collection.workspaceId collection.collectionId queued broker after := by
  intro claimed
  have requested : requestScan sampleHashes subscribedRegistry scannedDatabase (sampleAdder 1)
      contractText failingBroker = (.ok (savedRecord, false),
        { failingBroker with sends := 2, messages := [scanCollectionMessage 11] }) := by
    rw [requestScan, savedCollection_contractText]
    rfl
  have nothing := claimed _ _ _ _ _ _ _ _ requested
  cases nothing

/-- Two sends that return leave both messages, and the scan is reported as queued. -/
theorem workingRequest_sends :
    ∃ after, requestScan sampleHashes subscribedRegistry scannedDatabase (sampleAdder 1)
        contractText workingBroker = (.ok (savedRecord, true), after) ∧
      AllOrNothing 1 11 true workingBroker after := by
  have requested : requestScan sampleHashes subscribedRegistry scannedDatabase (sampleAdder 1)
      contractText workingBroker = (.ok (savedRecord, true), { workingBroker with
        sends := 4
        messages := [scanCollectionMessage 11, trackScanMessage 1 11] }) := by
    rw [requestScan, savedCollection_contractText]
    rfl
  refine ⟨_, requested, ?_⟩
  exact ((scanRequests_allOrNothing_iff sampleHashes workingBroker).1 _ _ _ _ _ _ _ requested).mpr
    fun _ => rfl

end CollectionService

end CopyMint
