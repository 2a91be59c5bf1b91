import Snowcat.Control.Encoding
import Snowcat.Lib.Instant
import Snowcat.Queue.Validation

/-!
# What the control plane keeps of a repository's GitHub deliveries

A pull-request delivery is recorded once from its webhook (`direct`), or
from GitHub's delivery API when no webhook arrived (`audited`). Checkpoints
say up to which instant the deliveries of a repository are complete, a gap
says that from some instant on they are not, and the repair of a gap
records the checkpoint that closes it.

A transaction of the ledger is one entry with the payloads of its records;
the entries stand in the order of their sequences. Instants are typed, so a
text that is no canonical instant is refused by the type of a field.
-/

namespace Snowcat

open Patterns Pattern
open Calendar (Instant)

/-! ## The deliveries -/

/-- `githubPullRequestActions`. -/
inductive GitHubPullRequestAction where
  | opened | reopened | synchronize | edited | readyForReview | convertedToDraft | closed
  deriving DecidableEq, Repr

/-- The state of a pull request. -/
inductive GitHubPullRequestState where
  | open | closed
  deriving DecidableEq, Repr

/-- The pull request of a delivery. -/
structure GitHubPullRequest where
  number : ℕ
  actorId : String
  state : GitHubPullRequestState
  draft : Bool
  merged : Bool
  baseRepositoryId : String
  baseRef : String
  baseCommitId : String
  headRepositoryId : String
  headRef : String
  headCommitId : String
  observedTestMergeCommitId : Option String
  mergedAt : Option String
  mergeCommitId : Option String
  sourceUpdatedAt : String
  deriving DecidableEq, Repr

/-- `GitHubPullRequestDeliveryInput`. -/
structure GitHubPullRequestDeliveryInput where
  appId : String
  deliveryGuid : String
  bodyDigest : String
  requestBytes : ℕ
  installationId : String
  repositoryId : String
  action : GitHubPullRequestAction
  pullRequest : GitHubPullRequest
  deriving DecidableEq, Repr

/-- `GitHubPullRequestDeliveryRepairInput`. -/
structure GitHubPullRequestDeliveryRepairInput where
  expectedLastTransactionSequence : ℕ
  appId : String
  deliveryId : String
  deliveryGuid : String
  deliveredAt : String
  redelivery : Bool
  statusCode : ℕ
  responseDigest : String
  installationId : String
  repositoryId : String
  action : GitHubPullRequestAction
  pullRequest : GitHubPullRequest
  deriving DecidableEq, Repr

/-! ## The coverage -/

/-- `githubSourceGapCauses`. -/
inductive GitHubSourceGapCause where
  | deliveryAuditIncomplete | sourceUnavailable | paginationIncomplete | requestBudgetExhausted
  | unsupportedRelevantDelivery | normalizationFailed | recoveryHorizonExpired
  deriving DecidableEq, Repr

/-- What a gap leaves uncovered. -/
inductive CoverageFailureKind where
  | intervalCoverage | deliveryContent
  deriving DecidableEq, Repr

/-- `GitHubSourceCheckpointInput`. -/
structure GitHubSourceCheckpointInput where
  expectedLastTransactionSequence : ℕ
  runId : String
  repositoryId : String
  appId : String
  installationId : String
  coveredFrom : Instant
  coveredThrough : Instant
  pageCount : ℕ
  deliveryCount : ℕ
  pageProofDigest : String
  selectedResponseDigest : String
  deriving DecidableEq

/-- `GitHubSourceGapInput`. -/
structure GitHubSourceGapInput where
  expectedLastTransactionSequence : ℕ
  runId : String
  repositoryId : String
  appId : String
  installationId : String
  checkpointRecordId : String
  cause : GitHubSourceGapCause
  coverageFailureKind : CoverageFailureKind
  affectedDeliveryGuids : List String
  deriving DecidableEq

/-- `GitHubSourceGapRepairInput`. -/
structure GitHubSourceGapRepairInput where
  expectedLastTransactionSequence : ℕ
  runId : String
  repositoryId : String
  appId : String
  installationId : String
  coveredThrough : Instant
  pageCount : ℕ
  deliveryCount : ℕ
  pageProofDigest : String
  selectedResponseDigest : String
  gapRecordId : String
  repairAuditRecordIds : List String
  deriving DecidableEq

/-! ## The records -/

/-- `GitHubDeliveryReceiptPayload`. -/
structure GitHubDeliveryReceiptPayload where
  appId : String
  hookSubjectId : String
  deliveryGuid : String
  action : GitHubPullRequestAction
  installationId : String
  repositoryId : String
  bodyDigest : String
  requestBytes : ℕ
  receiptRecordId : String
  observationRecordId : String
  eventRecordId : String
  receivedAt : Instant
  deriving DecidableEq

/-- `GitHubDeliveryAuditPayload`. -/
structure GitHubDeliveryAuditPayload where
  appId : String
  hookSubjectId : String
  deliveryId : String
  deliveryGuid : String
  deliveredAt : String
  redelivery : Bool
  statusCode : ℕ
  action : GitHubPullRequestAction
  installationId : String
  repositoryId : String
  responseDigest : String
  auditRecordId : String
  observationRecordId : String
  eventRecordId : String
  observedAt : Instant
  deriving DecidableEq

/-- How a delivery was acquired. -/
inductive Acquisition where
  | directWebhook | deliveryApiRepair
  deriving DecidableEq, Repr

/-- `GitHubPullRequestObservationPayload`: the pull request is the
delivery's. -/
structure GitHubPullRequestObservationPayload where
  repositoryId : String
  pullRequestId : String
  action : GitHubPullRequestAction
  installationId : String
  pullRequest : GitHubPullRequest
  deliveryGuid : String
  acquisition : Acquisition
  acquisitionRecordId : String
  observationRecordId : String
  observationDigest : String
  observedAt : Instant
  deriving DecidableEq

/-- `GitHubSourceCheckpointPayload`. -/
structure GitHubSourceCheckpointPayload where
  repositoryId : String
  appId : String
  installationId : String
  runId : String
  previousCheckpointRecordId : Option String
  coveredFrom : Instant
  coveredThrough : Instant
  pageCount : ℕ
  deliveryCount : ℕ
  pageProofDigest : String
  selectedResponseDigest : String
  checkpointDigest : String
  checkpointRecordId : String
  recordedAt : Instant
  deriving DecidableEq

/-- `GitHubSourceGapPayload`: a gap's identity is its record's. -/
structure GitHubSourceGapPayload where
  repositoryId : String
  appId : String
  installationId : String
  runId : String
  checkpointRecordId : String
  gapRecordId : String
  lowerBoundAt : Instant
  cause : GitHubSourceGapCause
  coverageFailureKind : CoverageFailureKind
  affectedDeliveryGuids : List String
  gapDigest : String
  detectedAt : Instant
  deriving DecidableEq

/-- How a gap was repaired. -/
inductive RepairMethod where
  | deliveryObservationsAndCompleteAudit | completeDeliveryAudit
  deriving DecidableEq, Repr

/-- `GitHubSourceGapRepairPayload`. -/
structure GitHubSourceGapRepairPayload where
  repositoryId : String
  appId : String
  installationId : String
  runId : String
  gapRecordId : String
  priorCheckpointRecordId : String
  checkpointRecordId : String
  repairRecordId : String
  eventRecordId : String
  lowerBoundAt : Instant
  exclusiveEndAt : Instant
  repairMethod : RepairMethod
  repairAuditRecordIds : List String
  repairDigest : String
  repairedAt : Instant
  deriving DecidableEq

/-- **What a transaction records.** -/
inductive SourceEntry where
  /-- `github.record-pull-request-delivery` -/
  | direct (receipt : GitHubDeliveryReceiptPayload)
      (observation : GitHubPullRequestObservationPayload)
  /-- `github.record-pull-request-delivery-repair` -/
  | audited (audit : GitHubDeliveryAuditPayload)
      (observation : GitHubPullRequestObservationPayload)
  /-- `github.record-source-checkpoint` -/
  | checkpoint (checkpoint : GitHubSourceCheckpointPayload) (eventRecordId : String)
  /-- `github.open-source-gap` -/
  | gap (gap : GitHubSourceGapPayload) (eventRecordId : String)
  /-- `github.repair-source-gap` -/
  | repair (checkpoint : GitHubSourceCheckpointPayload) (repair : GitHubSourceGapRepairPayload)
  deriving DecidableEq

/-- The records of an entry. -/
def SourceEntry.recordIds : SourceEntry → List String
  | .direct receipt _ =>
    [receipt.receiptRecordId, receipt.observationRecordId, receipt.eventRecordId]
  | .audited audit _ => [audit.auditRecordId, audit.observationRecordId, audit.eventRecordId]
  | .checkpoint c eventRecordId => [c.checkpointRecordId, eventRecordId]
  | .gap g eventRecordId => [g.gapRecordId, eventRecordId]
  | .repair c r => [c.checkpointRecordId, r.repairRecordId, r.eventRecordId]

/-- A transaction. -/
structure SourceTransaction where
  sequence : ℕ
  entry : SourceEntry
  deriving DecidableEq

/-! ## The receipts -/

/-- The commands that are received under a key. -/
inductive SourceCommandKind where
  | recordPullRequestDelivery | recordPullRequestDeliveryRepair | recordSourceCheckpoint
  | openSourceGap | repairSourceGap
  deriving DecidableEq, Repr

/-- What is digested of a command or of a record: the JSON it is digested
from. -/
inductive Digested where
  | delivery (input : GitHubPullRequestDeliveryInput)
  | deliveryRepair (input : GitHubPullRequestDeliveryRepairInput)
  | source (action : GitHubPullRequestAction) (installationId repositoryId : String)
      (pullRequest : GitHubPullRequest)
  | checkpointInput (input : GitHubSourceCheckpointInput)
  | gapInput (input : GitHubSourceGapInput)
  | gapRepairInput (input : GitHubSourceGapRepairInput)
  | checkpoint (repositoryId appId installationId : String) (coveredFrom coveredThrough : Instant)
      (pageCount deliveryCount : ℕ) (pageProofDigest selectedResponseDigest : String)
  /-- A gap, without its digest. -/
  | gap (gap : GitHubSourceGapPayload)
  /-- A repair, without its digest. -/
  | gapRepair (repair : GitHubSourceGapRepairPayload)

/-- `sha256(canonicalJson(…))`. -/
abbrev Sha256 := Digested → { s : String // Patterns.sha256Digest.test s = true }

/-- The receipt of a command. Its result names what the command recorded, and is
its transaction here. -/
structure CommandReceipt where
  kind : SourceCommandKind
  key : String
  payloadDigest : String
  result : SourceTransaction
  deriving DecidableEq

/-- **The ledger of the source coverage.** -/
structure SourceLedger where
  transactions : List SourceTransaction
  receipts : List CommandReceipt
  /-- The records of every other command. -/
  otherRecordIds : List String
  lastTransactionSequence : ℕ
  controlTimeWatermark : Instant
  /-- The repositories whose status has an enrollment. -/
  enrolled : List String
  deriving DecidableEq

/-- A computation on the ledger. -/
abbrev SourceTx : Type → Type := Tx SourceLedger ControlError

/-- A moment a command happens at: the clock, the identifiers it draws, and
what `verifyExisting` says of the database. -/
structure SourceMoment where
  now : Instant
  drawn : ℕ → { id : String // isUuidV7 id = true }
  verified : Except ControlError Unit

/-- The instants whose milliseconds fit in 48 bits. -/
def encodable (now : Instant) : Prop :=
  Calendar.order 1970 1 1 0 0 0 0 ≤ now.key ∧ now.key ≤ Calendar.order 10889 8 2 5 31 50 655

instance (now : Instant) : Decidable (encodable now) := inferInstanceAs (Decidable (_ ∧ _))

/-- The `k`-th `uuidV7` of a command. -/
def SourceMoment.uuidV7 (m : SourceMoment) (k : ℕ) : Except ControlError String := do
  refuseIf (¬ encodable m.now)
    (.error "UUIDv7 time is outside its 48-bit Unix-millisecond range")
  pure (m.drawn k).1

/-- The records that are there. -/
def SourceLedger.recordIds (db : SourceLedger) : List String :=
  db.otherRecordIds ++ db.transactions.flatMap (·.entry.recordIds)

/-- `insertOccurrence`, `insertReceipt` and `advanceControlMetadata`: the rows of
a transaction. -/
def commitEntry (kind : SourceCommandKind) (key payloadDigest : String) (now : Instant)
    (entry : SourceEntry) : SourceTx SourceTransaction := do
  let db ← Tx.read id
  Tx.failIf (¬ entry.recordIds.Nodup ∨ ∃ recordId ∈ entry.recordIds, recordId ∈ db.recordIds)
    (.error "UNIQUE constraint failed: durable_occurrences.record_id")
  let transaction : SourceTransaction := ⟨db.lastTransactionSequence + 1, entry⟩
  Tx.update fun db => { db with
    transactions := db.transactions ++ [transaction]
    receipts := ⟨kind, key, payloadDigest, transaction⟩ :: db.receipts
    lastTransactionSequence := transaction.sequence
    controlTimeWatermark := now }
  pure transaction

/-- `BEGIN IMMEDIATE`, `verifyExisting`, and the receipt of an earlier command
under the key; `ROLLBACK` when the body throws. -/
def underKey (m : SourceMoment) (kind : SourceCommandKind) (key payloadDigest : String)
    (reused : ControlError) (body : SourceTx SourceTransaction) : SourceTx SourceTransaction :=
  Tx.atomically (fun before _ => before) do
    Tx.ofExcept m.verified
    let receipts ← Tx.read SourceLedger.receipts
    match receipts.find? (fun receipt => receipt.kind = kind ∧ receipt.key = key) with
    | some prior => do
      Tx.failIf (prior.payloadDigest ≠ payloadDigest) reused
      pure prior.result
    | none => body

end Snowcat
