import Mathlib.Data.List.Sort
import Mathlib.Data.String.Basic
import Snowcat.Source.Delivery

/-!
# Recording what is covered

`recordGitHubSourceCheckpoint` continues the latest checkpoint of a
repository, `openGitHubSourceGap` opens a gap at its end, and
`repairGitHubSourceGap` closes the open gap with a checkpoint of its own. A
gap whose deliveries could not be read is closed by citing an audit of each
of them.

The commands compare instants in two ways: as the canonical texts they are
stored as, and, in the contracts and where a repair must end later, as
times.
-/

namespace Snowcat

open Patterns Pattern
open Calendar (Instant)

/-! ## The inputs -/

/-- The refusals that the inputs of a checkpoint and of a repair share. -/
def assertCoverage (runId repositoryId appId installationId : String)
    (pageCount deliveryCount : ℕ) (pageProofDigest selectedResponseDigest : String) :
    Except ControlError Unit :=
  refuseIf (isUuidV7 runId = false ∨ Patterns.appId.test appId = false ∨
      Patterns.installationId.test installationId = false ∨
      Patterns.repositoryId.test repositoryId = false ∨ pageCount < 1 ∨ 100 < pageCount ∨
      10000 < deliveryCount ∨ Patterns.sha256Digest.test pageProofDigest = false ∨
      Patterns.sha256Digest.test selectedResponseDigest = false)
    (.error "GitHub source checkpoint contains invalid identities or bounds")

/-- **`normalizeGitHubSourceCheckpointInput`.** -/
def normalizeGitHubSourceCheckpointInput (input : GitHubSourceCheckpointInput) :
    Except ControlError GitHubSourceCheckpointInput := do
  assertExpectedSequence input.expectedLastTransactionSequence
  assertCoverage input.runId input.repositoryId input.appId input.installationId input.pageCount
    input.deliveryCount input.pageProofDigest input.selectedResponseDigest
  refuseIf (input.coveredThrough.text < input.coveredFrom.text)
    (.error "GitHub source checkpoint boundaries are reversed")
  pure input

/-- Texts in order. -/
def sortTexts (texts : List String) : List String := texts.insertionSort (· ≤ ·)

/-- `isCanonicalGitHubDeliveryGuidSet`. -/
def isCanonicalGitHubDeliveryGuidSet (value : List String) : Bool :=
  value.length ≤ 100 && value.all Patterns.deliveryGuid.test && decide value.Nodup &&
    value == sortTexts value

/-- `isGitHubSourceGapShape`. -/
def isGitHubSourceGapShape (cause : GitHubSourceGapCause) (kind : CoverageFailureKind)
    (affectedDeliveryGuids : List String) : Bool :=
  if cause = .unsupportedRelevantDelivery ∧ kind ≠ .deliveryContent then false
  else if (cause = .deliveryAuditIncomplete ∨ cause = .paginationIncomplete ∨
      cause = .recoveryHorizonExpired) ∧ kind ≠ .intervalCoverage then false
  else if kind = .deliveryContent then !affectedDeliveryGuids.isEmpty
  else affectedDeliveryGuids.isEmpty

/-- **`normalizeGitHubSourceGapInput`.** -/
def normalizeGitHubSourceGapInput (input : GitHubSourceGapInput) :
    Except ControlError GitHubSourceGapInput := do
  assertExpectedSequence input.expectedLastTransactionSequence
  refuseIf (isUuidV7 input.runId = false ∨ isUuidV7 input.checkpointRecordId = false ∨
      Patterns.appId.test input.appId = false ∨
      Patterns.installationId.test input.installationId = false ∨
      Patterns.repositoryId.test input.repositoryId = false ∨
      isCanonicalGitHubDeliveryGuidSet input.affectedDeliveryGuids = false ∨
      isGitHubSourceGapShape input.cause input.coverageFailureKind
        input.affectedDeliveryGuids = false)
    (.error "GitHub source gap contains invalid identities or cause")
  pure input

/-- **`normalizeGitHubSourceGapRepairInput`.** -/
def normalizeGitHubSourceGapRepairInput (input : GitHubSourceGapRepairInput) :
    Except ControlError GitHubSourceGapRepairInput := do
  assertExpectedSequence input.expectedLastTransactionSequence
  assertCoverage input.runId input.repositoryId input.appId input.installationId input.pageCount
    input.deliveryCount input.pageProofDigest input.selectedResponseDigest
  refuseIf (isUuidV7 input.gapRecordId = false)
    (.error "GitHub source-gap repair requires a UUIDv7 gap record")
  let ids := input.repairAuditRecordIds
  refuseIf (100 < ids.length ∨ ids.all isUuidV7 = false ∨ ¬ ids.Nodup ∨ ids ≠ sortTexts ids)
    (.error "GitHub source-gap repair audit citations must be sorted unique UUIDv7 values")
  pure input

/-! ## The contracts of the registry -/

/-- `isGitHubSourceCheckpointPayload`. -/
def isGitHubSourceCheckpointPayload (value : GitHubSourceCheckpointPayload) : Bool :=
  Patterns.repositoryId.test value.repositoryId && Patterns.appId.test value.appId &&
    Patterns.installationId.test value.installationId && isUuidV7 value.runId &&
    value.previousCheckpointRecordId.all isUuidV7 && 1 ≤ value.pageCount &&
    value.pageCount ≤ maximumSafeInteger && value.deliveryCount ≤ maximumSafeInteger &&
    Patterns.sha256Digest.test value.pageProofDigest &&
    Patterns.sha256Digest.test value.selectedResponseDigest &&
    Patterns.sha256Digest.test value.checkpointDigest && isUuidV7 value.checkpointRecordId &&
    value.coveredFrom ≤ value.coveredThrough

/-- `isGitHubSourceGapPayload`. -/
def isGitHubSourceGapPayload (value : GitHubSourceGapPayload) : Bool :=
  Patterns.repositoryId.test value.repositoryId && Patterns.appId.test value.appId &&
    Patterns.installationId.test value.installationId && isUuidV7 value.runId &&
    isUuidV7 value.checkpointRecordId && isUuidV7 value.gapRecordId &&
    isCanonicalGitHubDeliveryGuidSet value.affectedDeliveryGuids &&
    isGitHubSourceGapShape value.cause value.coverageFailureKind value.affectedDeliveryGuids &&
    Patterns.sha256Digest.test value.gapDigest && value.lowerBoundAt ≤ value.detectedAt

/-! ## What the ledger says of a repository -/

/-- The checkpoint an entry records for a repository. -/
def SourceEntry.checkpointOf (repositoryId : String) :
    SourceEntry → Option GitHubSourceCheckpointPayload
  | .checkpoint c _ | .repair c _ => if c.repositoryId = repositoryId then some c else none
  | _ => none

/-- The gap an entry opens for a repository. -/
def SourceEntry.gapOf (repositoryId : String) : SourceEntry → Option GitHubSourceGapPayload
  | .gap g _ => if g.repositoryId = repositoryId then some g else none
  | _ => none

/-- Whether an entry is a repair of a gap. -/
def SourceEntry.repairs (gapRecordId : String) : SourceEntry → Bool
  | .repair _ r => r.gapRecordId == gapRecordId
  | _ => false

/-- The checkpoints of a repository, in order. -/
def checkpointsOf (repositoryId : String) (transactions : List SourceTransaction) :
    List GitHubSourceCheckpointPayload :=
  transactions.filterMap (·.entry.checkpointOf repositoryId)

/-- The gaps of a repository, in order. -/
def gapsOf (repositoryId : String) (transactions : List SourceTransaction) :
    List GitHubSourceGapPayload :=
  transactions.filterMap (·.entry.gapOf repositoryId)

/-- The gaps of a repository that no repair cites, in order. -/
def openGaps (repositoryId : String) (transactions : List SourceTransaction) :
    List GitHubSourceGapPayload :=
  (gapsOf repositoryId transactions).filter fun gap =>
    !transactions.any (·.entry.repairs gap.gapRecordId)

/-- `latestGitHubSourceCheckpoint`. -/
def latestGitHubSourceCheckpoint (repositoryId : String) :
    SourceTx (Option GitHubSourceCheckpointPayload) := do
  let transactions ← Tx.read SourceLedger.transactions
  match (checkpointsOf repositoryId transactions).getLast? with
  | none => pure none
  | some payload => do
    Tx.failIf (isGitHubSourceCheckpointPayload payload = false)
      (.error "latest GitHub source checkpoint is invalid")
    pure (some payload)

/-- `findOpenGitHubSourceGap`. -/
def findOpenGitHubSourceGap (repositoryId : String) : SourceTx (Option GitHubSourceGapPayload) := do
  let transactions ← Tx.read SourceLedger.transactions
  match (openGaps repositoryId transactions).getLast? with
  | none => pure none
  | some payload => do
    Tx.failIf (isGitHubSourceGapPayload payload = false)
      (.error "open GitHub source gap is invalid")
    pure (some payload)

/-- `assertGitHubCoverageWrite`. -/
def assertGitHubCoverageWrite (expectedSequence : ℕ) (repositoryId : String) : SourceTx Unit := do
  let db ← Tx.read id
  Tx.failIf (db.lastTransactionSequence ≠ expectedSequence)
    (.error (s!"expected control-plane sequence {expectedSequence} " ++
      s!"but current sequence is {db.lastTransactionSequence}"))
  Tx.failIf (repositoryId ∉ db.enrolled)
    (.error "GitHub source coverage requires a previously enrolled repository")

/-- `checkedGitHubCoverageTime`. -/
def checkedGitHubCoverageTime (m : SourceMoment) (sourceBoundary : Instant) : SourceTx Unit := do
  let watermark ← Tx.read SourceLedger.controlTimeWatermark
  Tx.failIf (m.now.text < watermark.text)
    (.error "control-plane clock moved backwards while recording GitHub source coverage")
  Tx.failIf (m.now.text < sourceBoundary.text)
    (.error "GitHub source coverage boundary is later than server evaluation time")

section Commands

variable (sha256 : Sha256)

/-! ## Checkpoints -/

/-- The records of a checkpoint. -/
def checkpointEntry (m : SourceMoment) (input : GitHubSourceCheckpointInput)
    (previous : Option GitHubSourceCheckpointPayload) : Except ControlError SourceEntry := do
  let checkpointRecordId ← m.uuidV7 0
  let eventRecordId ← m.uuidV7 1
  pure (.checkpoint {
    repositoryId := input.repositoryId
    appId := input.appId
    installationId := input.installationId
    runId := input.runId
    previousCheckpointRecordId := previous.map (·.checkpointRecordId)
    coveredFrom := input.coveredFrom
    coveredThrough := input.coveredThrough
    pageCount := input.pageCount
    deliveryCount := input.deliveryCount
    pageProofDigest := input.pageProofDigest
    selectedResponseDigest := input.selectedResponseDigest
    checkpointDigest := (sha256 (.checkpoint input.repositoryId input.appId input.installationId
      input.coveredFrom input.coveredThrough input.pageCount input.deliveryCount
      input.pageProofDigest input.selectedResponseDigest)).1
    checkpointRecordId
    recordedAt := m.now } eventRecordId)

/-- The refusals of a checkpoint that does not continue the latest one. -/
def assertContinues (input : GitHubSourceCheckpointInput) :
    Option GitHubSourceCheckpointPayload → Except ControlError Unit
  | some previous => refuseIf (input.coveredFrom ≠ previous.coveredThrough ∨
        input.appId ≠ previous.appId ∨ input.installationId ≠ previous.installationId)
      (.error "GitHub source checkpoint does not continue the latest boundary")
  | none => refuseIf (input.coveredFrom ≠ input.coveredThrough)
      (.error "the first GitHub source checkpoint must establish a point boundary")

/-- **`recordGitHubSourceCheckpoint`.** -/
def recordGitHubSourceCheckpoint (m : SourceMoment) (input : GitHubSourceCheckpointInput) :
    SourceTx SourceTransaction := do
  let normalized ← Tx.ofExcept (normalizeGitHubSourceCheckpointInput input)
  let key := s!"github-checkpoint:{normalized.runId}"
  let payloadDigest := (sha256 (.checkpointInput normalized)).1
  underKey m .recordSourceCheckpoint key payloadDigest
    (.error "GitHub checkpoint run was reused") do
      assertGitHubCoverageWrite normalized.expectedLastTransactionSequence normalized.repositoryId
      let gap ← findOpenGitHubSourceGap normalized.repositoryId
      Tx.failIf (gap.isSome = true)
        (.error "GitHub source checkpoint requires repair of the open source gap")
      let previous ← latestGitHubSourceCheckpoint normalized.repositoryId
      Tx.ofExcept (assertContinues normalized previous)
      checkedGitHubCoverageTime m normalized.coveredThrough
      let entry ← Tx.ofExcept (checkpointEntry sha256 m normalized previous)
      commitEntry .recordSourceCheckpoint key payloadDigest m.now entry

/-! ## Gaps -/

/-- The records of a gap. -/
def gapEntry (m : SourceMoment) (input : GitHubSourceGapInput)
    (checkpoint : GitHubSourceCheckpointPayload) : Except ControlError SourceEntry := do
  let gapRecordId ← m.uuidV7 0
  let eventRecordId ← m.uuidV7 1
  let gap : GitHubSourceGapPayload := {
    repositoryId := input.repositoryId
    appId := input.appId
    installationId := input.installationId
    runId := input.runId
    checkpointRecordId := input.checkpointRecordId
    gapRecordId
    lowerBoundAt := checkpoint.coveredThrough
    cause := input.cause
    coverageFailureKind := input.coverageFailureKind
    affectedDeliveryGuids := input.affectedDeliveryGuids
    gapDigest := ""
    detectedAt := m.now }
  pure (.gap { gap with gapDigest := (sha256 (.gap gap)).1 } eventRecordId)

/-- **`openGitHubSourceGap`.** -/
def openGitHubSourceGap (m : SourceMoment) (input : GitHubSourceGapInput) :
    SourceTx SourceTransaction := do
  let normalized ← Tx.ofExcept (normalizeGitHubSourceGapInput input)
  let key := s!"github-gap:{normalized.runId}"
  let payloadDigest := (sha256 (.gapInput normalized)).1
  underKey m .openSourceGap key payloadDigest (.error "GitHub gap run was reused") do
    assertGitHubCoverageWrite normalized.expectedLastTransactionSequence normalized.repositoryId
    let gap ← findOpenGitHubSourceGap normalized.repositoryId
    Tx.failIf (gap.isSome = true) (.error "GitHub source gap is already open")
    let latest ← latestGitHubSourceCheckpoint normalized.repositoryId
    let checkpoint ← Tx.ofOption (latest.filter fun c =>
        c.checkpointRecordId = normalized.checkpointRecordId ∧ c.appId = normalized.appId ∧
          c.installationId = normalized.installationId)
      (.error "GitHub source gap requires the latest checkpoint boundary")
    checkedGitHubCoverageTime m checkpoint.coveredThrough
    let entry ← Tx.ofExcept (gapEntry sha256 m normalized checkpoint)
    commitEntry .openSourceGap key payloadDigest m.now entry

/-! ## Repairs -/

/-- Whether an entry opens a gap. -/
def SourceEntry.opens (gapRecordId : String) : SourceEntry → Bool
  | .gap g _ => g.gapRecordId == gapRecordId
  | _ => false

/-- The sequence a gap was opened at. -/
def gapSequence (transactions : List SourceTransaction) (gapRecordId : String) : Option ℕ :=
  (transactions.find? (·.entry.opens gapRecordId)).map SourceTransaction.sequence

/-- The delivery an audit is of, when the audit is evidence for a gap: it is
recorded after the gap, for the gap's repository and installation. -/
def SourceTransaction.eligible (gap : GitHubSourceGapPayload) (sequence : ℕ)
    (auditRecordId : String) (t : SourceTransaction) : Option String :=
  match t.entry with
  | .audited audit _ =>
    if audit.auditRecordId = auditRecordId ∧ isGitHubDeliveryAuditPayload audit = true ∧
        sequence < t.sequence ∧ audit.repositoryId = gap.repositoryId ∧
        audit.appId = gap.appId ∧ audit.installationId = gap.installationId then
      some audit.deliveryGuid
    else none
  | _ => none

/-- The delivery of the audit with an identity. -/
def eligibleAudit (transactions : List SourceTransaction) (gap : GitHubSourceGapPayload)
    (sequence : ℕ) (auditRecordId : String) : Option String :=
  transactions.findSome? (·.eligible gap sequence auditRecordId)

/-- `assertGitHubContentGapRepairEvidence`. -/
def assertGitHubContentGapRepairEvidence (transactions : List SourceTransaction)
    (gap : GitHubSourceGapPayload) (repairAuditRecordIds : List String) :
    Except ControlError Unit := do
  refuseIf (repairAuditRecordIds.length ≠ gap.affectedDeliveryGuids.length)
    (.error "GitHub content source-gap repair must cite every affected delivery exactly once")
  match gapSequence transactions gap.gapRecordId with
  | none => throw (.error "GitHub content source-gap repair requires its retained gap")
  | some sequence =>
    match repairAuditRecordIds.mapM (eligibleAudit transactions gap sequence) with
    | none => throw (.error "GitHub content source-gap repair cites an ineligible delivery audit")
    | some repairedGuids =>
      refuseIf (sortTexts repairedGuids ≠ gap.affectedDeliveryGuids)
        (.error "GitHub content source-gap repair evidence does not match affected deliveries")

/-- The refusals of the evidence of a repair. -/
def assertEvidence (transactions : List SourceTransaction) (gap : GitHubSourceGapPayload)
    (repairAuditRecordIds : List String) : Except ControlError Unit :=
  match gap.coverageFailureKind with
  | .deliveryContent =>
    assertGitHubContentGapRepairEvidence transactions gap repairAuditRecordIds
  | .intervalCoverage => refuseIf (repairAuditRecordIds ≠ [])
      (.error "GitHub interval source-gap repair cannot cite delivery repair audits")

/-- The records of a repair. -/
def repairEntry (m : SourceMoment) (input : GitHubSourceGapRepairInput)
    (gap : GitHubSourceGapPayload) : Except ControlError SourceEntry := do
  let checkpointRecordId ← m.uuidV7 0
  let repairRecordId ← m.uuidV7 1
  let eventRecordId ← m.uuidV7 2
  let checkpoint : GitHubSourceCheckpointPayload := {
    repositoryId := input.repositoryId
    appId := input.appId
    installationId := input.installationId
    runId := input.runId
    previousCheckpointRecordId := some gap.checkpointRecordId
    coveredFrom := gap.lowerBoundAt
    coveredThrough := input.coveredThrough
    pageCount := input.pageCount
    deliveryCount := input.deliveryCount
    pageProofDigest := input.pageProofDigest
    selectedResponseDigest := input.selectedResponseDigest
    checkpointDigest := (sha256 (.checkpoint input.repositoryId input.appId input.installationId
      gap.lowerBoundAt input.coveredThrough input.pageCount input.deliveryCount
      input.pageProofDigest input.selectedResponseDigest)).1
    checkpointRecordId
    recordedAt := m.now }
  let repair : GitHubSourceGapRepairPayload := {
    repositoryId := input.repositoryId
    appId := input.appId
    installationId := input.installationId
    runId := input.runId
    gapRecordId := gap.gapRecordId
    priorCheckpointRecordId := gap.checkpointRecordId
    checkpointRecordId
    repairRecordId
    eventRecordId
    lowerBoundAt := gap.lowerBoundAt
    exclusiveEndAt := input.coveredThrough
    repairMethod := match gap.coverageFailureKind with
      | .deliveryContent => .deliveryObservationsAndCompleteAudit
      | .intervalCoverage => .completeDeliveryAudit
    repairAuditRecordIds := input.repairAuditRecordIds
    repairDigest := ""
    repairedAt := m.now }
  pure (.repair checkpoint { repair with repairDigest := (sha256 (.gapRepair repair)).1 })

/-- **`repairGitHubSourceGap`.** -/
def repairGitHubSourceGap (m : SourceMoment) (input : GitHubSourceGapRepairInput) :
    SourceTx SourceTransaction := do
  let normalized ← Tx.ofExcept (normalizeGitHubSourceGapRepairInput input)
  let key := s!"github-gap-repair:{normalized.runId}"
  let payloadDigest := (sha256 (.gapRepairInput normalized)).1
  underKey m .repairSourceGap key payloadDigest (.error "GitHub repair run was reused") do
    assertGitHubCoverageWrite normalized.expectedLastTransactionSequence normalized.repositoryId
    let current ← findOpenGitHubSourceGap normalized.repositoryId
    let gap ← Tx.ofOption (current.filter fun g =>
        g.gapRecordId = normalized.gapRecordId ∧ g.appId = normalized.appId ∧
          g.installationId = normalized.installationId)
      (.error "GitHub source-gap repair requires the current open gap")
    let transactions ← Tx.read SourceLedger.transactions
    Tx.ofExcept (assertEvidence transactions gap normalized.repairAuditRecordIds)
    Tx.failIf (normalized.coveredThrough ≤ gap.lowerBoundAt)
      (.error "GitHub source-gap repair must establish a later exclusive end")
    checkedGitHubCoverageTime m normalized.coveredThrough
    let entry ← Tx.ofExcept (repairEntry sha256 m normalized gap)
    commitEntry .repairSourceGap key payloadDigest m.now entry

/-! ## Calls -/

/-- A command on the ledger. -/
inductive SourceCall where
  | deliver (input : GitHubPullRequestDeliveryInput)
  | audit (input : GitHubPullRequestDeliveryRepairInput)
  | checkpoint (input : GitHubSourceCheckpointInput)
  | openGap (input : GitHubSourceGapInput)
  | repairGap (input : GitHubSourceGapRepairInput)
  /-- Some other command: it commits records of its own, and may enroll
  repositories or end their enrollment. -/
  | other (recordIds enrolled : List String)

/-- A command and the moment it happens at. -/
structure SourceInput where
  call : SourceCall
  moment : SourceMoment

/-- A transaction of some other command. -/
def commitOther (m : SourceMoment) (recordIds enrolled : List String) : SourceTx Unit := do
  let db ← Tx.read id
  Tx.failIf (m.now.text < db.controlTimeWatermark.text ∨ ∃ recordId ∈ recordIds,
      recordId ∈ db.recordIds)
    (.error "control-plane clock moved backwards; refusing a new write transaction")
  Tx.update fun db => { db with
    otherRecordIds := db.otherRecordIds ++ recordIds
    lastTransactionSequence := db.lastTransactionSequence + 1
    controlTimeWatermark := m.now
    enrolled }

/-- One command. It answers with the transaction it recorded, if it is one of
these. -/
def SourceInput.exec (i : SourceInput) : SourceTx (Option SourceTransaction) :=
  match i.call with
  | .deliver input => do
    let t ← recordVerifiedGitHubPullRequestDelivery sha256 i.moment input
    pure (some t)
  | .audit input => do
    let t ← recordAuditedGitHubPullRequestDelivery sha256 i.moment input
    pure (some t)
  | .checkpoint input => do
    let t ← recordGitHubSourceCheckpoint sha256 i.moment input
    pure (some t)
  | .openGap input => do
    let t ← openGitHubSourceGap sha256 i.moment input
    pure (some t)
  | .repairGap input => do
    let t ← repairGitHubSourceGap sha256 i.moment input
    pure (some t)
  | .other recordIds enrolled => do
    commitOther i.moment recordIds enrolled
    pure none

/-- The ledger of a fresh database: no entry. -/
def SourceLedger.initial (evaluationTime : Instant) (recordIds : List String) : SourceLedger :=
  ⟨[], [], recordIds, 1, evaluationTime, []⟩

end Commands

end Snowcat
