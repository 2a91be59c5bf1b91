import Snowcat.Control.Schedule
import Snowcat.Lib.Machine
import Snowcat.Lib.Newest

/-!
# The checks of the Core source, and whether they admit work

The control plane keeps one snapshot of the Core catalogue active, and checks
its source: a check finds the source eligible, or a rejection says why it did
not. The commands here record the checks, move the active snapshot (an
activation or a rollback), override a source that is stale, and delete the
details of old checks. `coreAdmissionReadiness` reads from all of it whether
work may be admitted.

A transaction is kept with its typed record; the event next to each record is
left out, and a sequence is one that a `Number` holds exactly. What the files of
a candidate must look like, and what they must keep of the snapshots before, is
asked through `CoreCatalogChecks`.
-/

namespace Snowcat

open Newest Patterns Pattern

/-! ## What is recorded -/

/-- `operation` of a rejection. -/
inductive CoreOperation where
  | automaticSourceCheck | operatorRollback
  deriving DecidableEq, Repr

/-- `CoreCandidateRejectionStage`. -/
inductive CoreCandidateRejectionStage where
  | source | validation | continuity | persistence
  deriving DecidableEq, Repr

/-- `CoreCandidateRejectionCode`. -/
inductive CoreCandidateRejectionCode where
  | sourceUnavailable | candidateInvalid | candidateNotDescendant | continuityUnverifiable
  | persistenceFailed
  deriving DecidableEq, Repr

/-- `CoreCandidateRejectionInput`. -/
structure CoreCandidateRejectionInput where
  checkId : String
  operation : CoreOperation
  stage : CoreCandidateRejectionStage
  code : CoreCandidateRejectionCode
  summary : String
  details : List String
  sourceUrl : String
  sourceRef : String
  commitId : Option String
  treeId : Option String
  catalogDigest : Option String
  activeCommitId : Option String
  deriving DecidableEq, Repr

/-- `CoreCandidateRejectionPayload`. -/
structure CoreCandidateRejectionPayload extends CoreCandidateRejectionInput where
  observedAt : Time
  deriving DecidableEq, Repr

/-- `CoreSourceCheckEligiblePayload`. -/
structure CoreSourceCheckEligiblePayload where
  checkId : String
  sourceUrl : String
  sourceRef : String
  commitId : String
  treeId : String
  catalogDigest : String
  activeSnapshotId : String
  activeCommitId : String
  checkedAt : Time
  deriving DecidableEq, Repr

/-- `CoreStaleSourceOverrideDecisionPayload`. -/
structure CoreStaleSourceOverrideDecisionPayload where
  decisionId : String
  activeSnapshotId : String
  latestCheckId : String
  lastValidatedAt : Time
  staleAt : Time
  expectedLastTransactionSequence : ℕ
  reason : String
  decidedAt : Time
  expiresAt : Time
  deriving DecidableEq, Repr

/-- `ActiveCoreSnapshot`. -/
structure ActiveCoreSnapshot where
  snapshotId : String
  sourceCommitId : String
  sourceTreeId : String
  catalogDigest : String
  activatedAt : Time
  transactionSequence : ℕ
  deriving DecidableEq, Repr

/-- The record of a transaction. -/
inductive CoreRecord where
  /-- `core.source-check-eligible-observation` -/
  | sourceCheckEligible (payload : CoreSourceCheckEligiblePayload)
  /-- `core.candidate-rejection-observation` -/
  | candidateRejection (payload : CoreCandidateRejectionPayload)
  /-- `core.stale-source-override-decision` -/
  | staleSourceOverride (payload : CoreStaleSourceOverrideDecisionPayload)
  /-- `core.snapshot-active` -/
  | snapshotActive (snapshot : ActiveCoreSnapshot)
  /-- Any other record. -/
  | other
  deriving DecidableEq, Repr

/-- A row of `control_transactions`, with its record. -/
structure CoreTransaction where
  sequence : ℕ
  recordedAt : Time
  record : CoreRecord
  deriving DecidableEq, Repr

/-- What names the source of a candidate. -/
structure CoreCandidateSource where
  sourceUrl : String
  ref : String
  commitId : String
  treeId : String
  catalogDigest : String
  deriving DecidableEq, Repr

/-- `InspectedCoreCandidate`: the source, and the files with their contents. -/
structure CoreCandidate extends CoreCandidateSource where
  files : List (String × String)
  deriving DecidableEq, Repr

/-- The payload a command is known by. -/
inductive CoreCommandPayload where
  | activateSnapshot (source : CoreCandidateSource) (expectedLastTransactionSequence : ℕ)
  | rollbackSnapshot (source : CoreCandidateSource) (expectedLastTransactionSequence : ℕ)
      (reason : String)
  | recordSourceCheckEligible (checkId : String) (source : CoreCandidateSource)
      (expectedLastTransactionSequence : ℕ)
  | issueStaleSourceOverride (expectedLastTransactionSequence : ℕ) (expiresAt : Time)
      (reason : String)
  | pruneCheckDetail (expectedLastTransactionSequence : ℕ)
  | recordCandidateRejection (input : CoreCandidateRejectionInput)
  deriving DecidableEq, Repr

/-- The kind of a command with its idempotency key. -/
inductive CoreIdempotencyKey where
  /-- `core-activate:<sequence>:<commit>` -/
  | activate (expectedLastTransactionSequence : ℕ) (commitId : String)
  /-- `core-rollback:<sequence>:<commit>` -/
  | rollback (expectedLastTransactionSequence : ℕ) (commitId : String)
  /-- `core-source-check:<check>` -/
  | sourceCheck (checkId : String)
  /-- `core-stale-source-override:<sequence>:<milliseconds>` -/
  | staleSourceOverride (expectedLastTransactionSequence : ℕ) (expiresAt : Time)
  /-- `core-prune-check-detail:<sequence>` -/
  | pruneCheckDetail (expectedLastTransactionSequence : ℕ)
  /-- `core-rejection:<check>` -/
  | rejection (checkId : String)
  deriving DecidableEq, Repr

/-- The idempotency key of a command. -/
def CoreCommandPayload.idempotencyKey : CoreCommandPayload → CoreIdempotencyKey
  | .activateSnapshot source expected => .activate expected source.commitId
  | .rollbackSnapshot source expected _ => .rollback expected source.commitId
  | .recordSourceCheckEligible checkId _ _ => .sourceCheck checkId
  | .issueStaleSourceOverride expected expiresAt _ => .staleSourceOverride expected expiresAt
  | .pruneCheckDetail expected => .pruneCheckDetail expected
  | .recordCandidateRejection input => .rejection input.checkId

/-- A row of `idempotency_receipts`. -/
structure CoreReceipt where
  payload : CoreCommandPayload
  transactionSequence : ℕ
  deriving DecidableEq, Repr

/-- **The tables of the Core checks.** -/
structure CoreTables where
  metadata : ControlPlaneMetadata
  transactions : List CoreTransaction
  /-- `core_snapshots`, with their files. -/
  snapshots : List CoreCandidate
  /-- `core_active_snapshot`. -/
  active : Option ActiveCoreSnapshot
  receipts : List CoreReceipt
  deriving DecidableEq, Repr

/-- What is asked of the files of a candidate. -/
structure CoreCatalogChecks where
  /-- `validateCoreCatalog`, `assertCandidateReport`. -/
  validate : CoreCandidate → Except ControlError Unit
  /-- `assertVerificationProfileHistoryRetention`, `assertGoalHistoryRetention` and, when a
  snapshot is active, what the candidate must keep of it. -/
  retains : List CoreCandidate → Option String → CoreCandidate → Except ControlError Unit
  /-- `assertRepositoryDeclarationRetention`, of the active commit. -/
  retainsDeclarations : List CoreCandidate → String → CoreCandidate → Except ControlError Unit

/-! ## What a record must look like -/

/-- `isCanonicalCoreRef`. -/
def isCanonicalCoreRef (value : String) : Bool :=
  (Pattern.seq (lit "refs/heads/")
      (plus (.one fun c => alphanumeric c || c ∈ ['.', '_', '/', '-']))).test value &&
    !includes value ".." && !includes value "//" && !includes value "@\x7b" &&
    !endsWith value "/" && !endsWith value "."

/-- A control character that a diagnostic may not contain. -/
def isDiagnosticControl (c : Char) : Bool :=
  (c.toNat ≤ 8) || c.toNat = 11 || c.toNat = 12 || (14 ≤ c.toNat && c.toNat ≤ 31) ||
    c.toNat = 127

/-- `isBoundedDiagnostic`. -/
def isBoundedDiagnostic (value : String) : Bool :=
  1 ≤ value.utf8ByteSize && value.utf8ByteSize ≤ 512 &&
    value.toList.all fun c => !isDiagnosticControl c && c != '\n' && c != '\r'

/-- `assertBoundedReason`. -/
def assertBoundedReason (value label : String) : Except ControlError Unit :=
  refuseIf
    (value.utf8ByteSize < 1 ∨ 512 < value.utf8ByteSize ∨
      (value.toList.any fun c => c.toNat ≤ 31 || c.toNat = 127) = true ∨ trim value ≠ value)
    (.error s!"{label} must be a trimmed single line from 1 through 512 UTF-8 bytes")

/-- The sources a rejection may name. -/
def rejectionSourceUrls : List String :=
  ["https://github.com/frostyard/core.git", "git@github.com:frostyard/core.git",
    "ssh://git@github.com:frostyard/core.git"]

/-- The sources an eligible check may name. -/
def eligibleSourceUrls : List String :=
  ["https://github.com/frostyard/core.git", "git@github.com:frostyard/core.git",
    "ssh://git@github.com/frostyard/core.git"]

/-- `isCoreCandidateRejectionPayload`. -/
def isCoreCandidateRejectionPayload (value : CoreCandidateRejectionInput) : Bool :=
  isUuidV7 value.checkId && isBoundedDiagnostic value.summary &&
    decide (value.details.length ≤ 8) && value.details.all isBoundedDiagnostic &&
    rejectionSourceUrls.contains value.sourceUrl && isCanonicalCoreRef value.sourceRef &&
    value.commitId.all commitSha.test && value.treeId.all commitSha.test &&
    value.catalogDigest.all Patterns.sha256Digest.test &&
    value.activeCommitId.all commitSha.test &&
    match value.stage with
    | .source => value.code = .sourceUnavailable && value.catalogDigest.isNone
    | .validation =>
      value.commitId.isSome && value.code = .candidateInvalid && value.catalogDigest.isNone
    | .continuity =>
      value.commitId.isSome && value.treeId.isSome && value.catalogDigest.isSome &&
        value.activeCommitId.isSome &&
        (value.code = .candidateNotDescendant || value.code = .continuityUnverifiable)
    | .persistence =>
      value.commitId.isSome && value.treeId.isSome && value.catalogDigest.isSome &&
        value.code = .persistenceFailed

/-- `isCoreSourceCheckEligiblePayload`. -/
def isCoreSourceCheckEligiblePayload (value : CoreSourceCheckEligiblePayload) : Bool :=
  isUuidV7 value.checkId && eligibleSourceUrls.contains value.sourceUrl &&
    isCanonicalCoreRef value.sourceRef && commitSha.test value.commitId &&
    commitSha.test value.treeId && Patterns.sha256Digest.test value.catalogDigest &&
    isUuidV7 value.activeSnapshotId && value.activeCommitId = value.commitId

/-- A day, in milliseconds. -/
def dayMilliseconds : ℤ := 86400000

/-- `isCoreStaleSourceOverrideDecisionPayload`. -/
def isCoreStaleSourceOverrideDecisionPayload
    (value : CoreStaleSourceOverrideDecisionPayload) : Bool :=
  isUuidV7 value.decisionId && isUuidV7 value.activeSnapshotId && isUuidV7 value.latestCheckId &&
    decide (1 ≤ value.expectedLastTransactionSequence) && isBoundedDiagnostic value.reason &&
    decide (value.staleAt = value.lastValidatedAt + dayMilliseconds) &&
    decide (value.staleAt ≤ value.decidedAt) && decide (value.decidedAt < value.expiresAt) &&
    decide (value.expiresAt ≤ value.decidedAt + dayMilliseconds)

/-- `assertMaterializedCoreCandidate`, as far as the source goes. -/
def assertMaterializedCoreCandidate (source : CoreCandidateSource) :
    Except ControlError Unit := do
  refuseIf (source.sourceUrl ∉ rejectionSourceUrls)
    (.error "Core snapshot activation source must be the configured frostyard/core GitHub repository")
  refuseIf (isCanonicalCoreRef source.ref = false)
    (.error "Core snapshot activation source ref is not canonical")
  refuseIf (commitSha.test source.commitId = false ∨ commitSha.test source.treeId = false)
    (.error "Core snapshot activation requires canonical SHA-1 Git object identities")

/-! ## Reading the checks -/

/-- One of the `checks` that `coreAdmissionReadiness` reads. -/
structure CoreSourceCheck where
  checkId : String
  outcome : CoreSourceCheckOutcome
  checkedAt : Time
  commitId : Option String
  transactionSequence : ℕ
  validated : Bool
  deriving DecidableEq, Repr

/-- The outcome of an automatic check that was rejected at a stage. -/
def CoreCandidateRejectionStage.outcome : CoreCandidateRejectionStage → CoreSourceCheckOutcome
  | .source => .sourceUnavailable
  | .validation => .candidateInvalid
  | .continuity => .continuityBlocked
  | .persistence => .persistenceFailed

/-- Whether a check that was rejected at a stage validated its candidate. -/
def CoreCandidateRejectionStage.validated : CoreCandidateRejectionStage → Bool
  | .source => false
  | .validation => false
  | .continuity => true
  | .persistence => true

/-- The automatic check of a transaction. -/
def CoreTransaction.check? (tx : CoreTransaction) : Option CoreSourceCheck :=
  match tx.record with
  | .sourceCheckEligible payload =>
    some ⟨payload.checkId, .eligible, payload.checkedAt, some payload.commitId, tx.sequence, true⟩
  | .candidateRejection payload =>
    if payload.operation = .automaticSourceCheck then
      some ⟨payload.checkId, payload.stage.outcome, payload.observedAt, payload.commitId,
        tx.sequence, payload.stage.validated⟩
    else none
  | _ => none

/-- The override of a transaction. -/
def CoreTransaction.override? (tx : CoreTransaction) :
    Option CoreStaleSourceOverrideDecisionPayload :=
  match tx.record with
  | .staleSourceOverride payload => some payload
  | _ => none

/-- The rows of a query that asks for the newest transactions first. -/
def CoreTables.rows (s : CoreTables) : List CoreTransaction :=
  newestFirst CoreTransaction.sequence s.transactions

/-- `CoreAdmissionReadinessReason`. -/
inductive CoreAdmissionReadinessReason where
  | ready | noActiveSnapshot | continuityBlocked | candidateInvalid | persistenceFailed
  | sourceStale
  deriving DecidableEq, Repr

/-- `CoreAdmissionReadiness`. -/
structure CoreAdmissionReadiness where
  ready : Bool
  reason : CoreAdmissionReadinessReason
  evaluatedAt : Time
  controlPlaneSequence : ℕ
  activeSnapshotId : Option String
  activeSourceCommitId : Option String
  latestCheckId : Option String
  latestCheckOutcome : Option CoreSourceCheckOutcome
  latestCheckedAt : Option Time
  lastValidatedAt : Option Time
  maximumStalenessSeconds : ℕ
  staleAt : Option Time
  overrideDecisionId : Option String
  overrideExpiresAt : Option Time
  degraded : Bool
  deriving DecidableEq, Repr

/-- Whether a check read a candidate. -/
def CoreSourceCheck.substantive (check : CoreSourceCheck) : Bool :=
  check.outcome ≠ .sourceUnavailable

/-- What the newest check that read a candidate says of the active snapshot. -/
def substantiveReason (active : ActiveCoreSnapshot) :
    Option CoreSourceCheck → CoreAdmissionReadinessReason
  | none => .ready
  | some check =>
    match check.outcome with
    | .eligible =>
      if check.commitId = some active.sourceCommitId then .ready else .continuityBlocked
    | .candidateInvalid => .candidateInvalid
    | .persistenceFailed => .persistenceFailed
    | .continuityBlocked =>
      -- A rollback to the blocked commit resolves the block.
      if check.commitId = some active.sourceCommitId ∧
          check.transactionSequence < active.transactionSequence then .ready
      else .continuityBlocked
    | .sourceUnavailable => .ready

/-- The reason for the readiness. -/
def readinessReason (active : Option ActiveCoreSnapshot) (substantive : Option CoreSourceCheck)
    (staleAt : Option Time) (evaluatedAt : Time) : CoreAdmissionReadinessReason :=
  match active with
  | none => .noActiveSnapshot
  | some active =>
    let reason := substantiveReason active substantive
    if reason = .ready ∧ (∀ t ∈ staleAt, t ≤ evaluatedAt) then .sourceStale else reason

/-- The automatic checks, the newest first. -/
def CoreTables.checks (s : CoreTables) : List CoreSourceCheck :=
  s.rows.filterMap CoreTransaction.check?

/-- The overrides, the newest first. -/
def CoreTables.overrides (s : CoreTables) : List CoreStaleSourceOverrideDecisionPayload :=
  s.rows.filterMap CoreTransaction.override?

/-- **`coreAdmissionReadinessWithoutOverride`.** -/
def coreAdmissionReadinessWithoutOverride (s : CoreTables) (evaluatedAt : Time) :
    Except ControlError CoreAdmissionReadiness := do
  refuseIf (evaluatedAt < s.metadata.controlTimeWatermark)
    (.error s!"Core admission readiness evaluation precedes control time {s.metadata.controlTimeWatermark}")
  let checks := s.checks
  let latest := checks.head?
  let lastValidated := checks.find? CoreSourceCheck.validated
  let staleAt := lastValidated.map fun check => check.checkedAt + dayMilliseconds
  let reason := readinessReason s.active (checks.find? CoreSourceCheck.substantive) staleAt evaluatedAt
  pure
    { ready := reason = .ready
      reason
      evaluatedAt
      controlPlaneSequence := s.metadata.lastTransactionSequence
      activeSnapshotId := s.active.map ActiveCoreSnapshot.snapshotId
      activeSourceCommitId := s.active.map ActiveCoreSnapshot.sourceCommitId
      latestCheckId := latest.map CoreSourceCheck.checkId
      latestCheckOutcome := latest.map CoreSourceCheck.outcome
      latestCheckedAt := latest.map CoreSourceCheck.checkedAt
      lastValidatedAt := lastValidated.map CoreSourceCheck.checkedAt
      maximumStalenessSeconds := 86400
      staleAt
      overrideDecisionId := none
      overrideExpiresAt := none
      degraded := false }

/-- Whether an override permits a stale snapshot at an instant. -/
def CoreStaleSourceOverrideDecisionPayload.permits
    (payload : CoreStaleSourceOverrideDecisionPayload) (activeSnapshotId : String)
    (evaluatedAt : Time) : Bool :=
  payload.activeSnapshotId = activeSnapshotId && decide (payload.decidedAt ≤ evaluatedAt) &&
    decide (evaluatedAt < payload.expiresAt)

/-- **`coreAdmissionReadiness`.** -/
def coreAdmissionReadiness (s : CoreTables) (evaluatedAt : Time) :
    Except ControlError CoreAdmissionReadiness := do
  let readiness ← coreAdmissionReadinessWithoutOverride s evaluatedAt
  match readiness.reason, readiness.activeSnapshotId with
  | .sourceStale, some snapshotId =>
    match s.overrides.find? fun payload => payload.permits snapshotId evaluatedAt with
    | some payload =>
      pure
        { readiness with
          ready := true
          reason := .ready
          overrideDecisionId := some payload.decisionId
          overrideExpiresAt := some payload.expiresAt
          degraded := true }
    | none => pure readiness
  | _, _ => pure readiness

/-- Whether an automatic rejection is the one that an input would repeat. -/
def CoreCandidateRejectionPayload.repeatedBy (payload : CoreCandidateRejectionPayload)
    (input : CoreCandidateRejectionInput) : Bool :=
  if payload.stage ≠ input.stage ∨ payload.code ≠ input.code ∨ payload.commitId ≠ input.commitId
  then false
  else input.stage ≠ .continuity || payload.activeCommitId = input.activeCommitId

/-- The rows that `shouldSuppressCoreCandidateRejection` walks, until one decides. -/
def suppressedBy (input : CoreCandidateRejectionInput) : List CoreTransaction → Bool
  | [] => false
  | tx :: rows =>
    match tx.record with
    | .sourceCheckEligible _ => false
    | .candidateRejection payload =>
      if payload.operation ≠ .automaticSourceCheck then suppressedBy input rows
      else payload.repeatedBy input
    | _ => suppressedBy input rows

/-- **`shouldSuppressCoreCandidateRejection`.** -/
def shouldSuppressCoreCandidateRejection (s : CoreTables) (input : CoreCandidateRejectionInput) :
    Bool :=
  if input.operation ≠ .automaticSourceCheck ∨
      (input.stage ≠ .validation ∧ input.stage ≠ .continuity) then false
  else suppressedBy input s.rows

/-! ## The commands -/

/-- What a command does that was run before: nothing, when its receipt is that of the same
payload. -/
def oncePerReceipt (s : CoreTables) (payload : CoreCommandPayload) (different : String)
    (body : Except ControlError CoreTables) : Except ControlError CoreTables :=
  match s.receipts.find? fun receipt =>
    receipt.payload.idempotencyKey = payload.idempotencyKey with
  | some receipt => do
    refuseIf (receipt.payload ≠ payload) (.error different)
    pure s
  | none => body

/-- A clock that is behind the watermark. -/
def assertControlTime (metadata : ControlPlaneMetadata) (now : Time) : Except ControlError Unit :=
  refuseIf (now < metadata.controlTimeWatermark)
    (.error s!"control-plane clock moved backwards behind {metadata.controlTimeWatermark}; refusing a new write transaction")

/-- A command that was sent with another sequence in mind. -/
def assertSequence (metadata : ControlPlaneMetadata) (expected : ℕ) : Except ControlError Unit :=
  refuseIf (metadata.lastTransactionSequence ≠ expected)
    (.error s!"stale control-plane sequence: expected {expected}, current {metadata.lastTransactionSequence}")

/-- An expected sequence that no transaction can have. -/
def assertPositiveSequence (expected : ℕ) : Except ControlError Unit :=
  refuseIf (expected < 1)
    (.error "expectedLastTransactionSequence must be a positive safe integer")

/-- The sequence of the next transaction. -/
def CoreTables.nextSequence (s : CoreTables) : ℕ := s.metadata.lastTransactionSequence + 1

/-- The transaction of a command, with its record. -/
def CoreTables.recording (s : CoreTables) (now : Time) (record : CoreRecord) : CoreTables :=
  { s with
    metadata := ⟨now, s.nextSequence⟩
    transactions := s.transactions ++ [⟨s.nextSequence, now, record⟩] }

/-- The transaction of a command, with its record and its receipt. -/
def CoreTables.recorded (s : CoreTables) (now : Time) (payload : CoreCommandPayload)
    (record : CoreRecord) : CoreTables :=
  { s.recording now record with receipts := s.receipts ++ [⟨payload, s.nextSequence⟩] }

/-- The transaction that makes a candidate the active snapshot. -/
def CoreTables.activating (s : CoreTables) (now : Time) (payload : CoreCommandPayload)
    (candidate : CoreCandidate) (snapshotId : String) : CoreTables :=
  let snapshot : ActiveCoreSnapshot :=
    ⟨snapshotId, candidate.commitId, candidate.treeId, candidate.catalogDigest, now,
      s.nextSequence⟩
  { s.recorded now payload (.snapshotActive snapshot) with
    snapshots := s.snapshots ++ [candidate]
    active := some snapshot }

section Commands

variable (catalog : CoreCatalogChecks)

/-- `CoreSnapshotActivationInput`. -/
structure CoreSnapshotActivationInput where
  candidate : CoreCandidate
  expectedLastTransactionSequence : ℕ
  continuityAncestorCommitId : Option String
  deriving DecidableEq, Repr

/-- What an activation asks of the active snapshot. -/
def assertActivation (snapshots : List CoreCandidate) (activeCommitId : Option String)
    (candidate : CoreCandidate) (continuityAncestorCommitId : Option String) :
    Except ControlError Unit := do
  catalog.retains snapshots activeCommitId candidate
  match activeCommitId with
  | some commitId =>
    refuseIf (continuityAncestorCommitId ≠ some commitId)
      (.error s!"automatic Core activation requires source continuity from active commit {commitId}")
  | none =>
    refuseIf (continuityAncestorCommitId ≠ none)
      (.error "initial Core activation must not claim a continuity ancestor")

/-- **`activateCoreSnapshot`.** -/
def activateCoreSnapshot (s : CoreTables) (m : Moment) (input : CoreSnapshotActivationInput) :
    Except ControlError CoreTables := do
  assertPositiveSequence input.expectedLastTransactionSequence
  assertMaterializedCoreCandidate input.candidate.toCoreCandidateSource
  catalog.validate input.candidate
  let payload : CoreCommandPayload :=
    .activateSnapshot input.candidate.toCoreCandidateSource input.expectedLastTransactionSequence
  oncePerReceipt s payload "Core commit was already activated with a different command payload" do
    assertControlTime s.metadata m.now
    assertSequence s.metadata input.expectedLastTransactionSequence
    assertActivation catalog s.snapshots (s.active.map ActiveCoreSnapshot.sourceCommitId)
      input.candidate input.continuityAncestorCommitId
    let snapshotId ← uuidV7 m 0
    pure (s.activating m.now payload input.candidate snapshotId)

/-- `CoreSnapshotRollbackInput`. -/
structure CoreSnapshotRollbackInput where
  candidate : CoreCandidate
  expectedLastTransactionSequence : ℕ
  reason : String
  deriving DecidableEq, Repr

/-- What a rollback asks of the active snapshot. -/
def assertRollback (snapshots : List CoreCandidate) (activeCommitId : Option String)
    (candidate : CoreCandidate) : Except ControlError Unit :=
  match activeCommitId with
  | none => .error (.error "Core rollback requires an active snapshot")
  | some commitId => do
    catalog.retainsDeclarations snapshots commitId candidate
    refuseIf (commitId = candidate.commitId)
      (.error "Core rollback target is already the active source commit")

/-- **`rollbackCoreSnapshot`.** -/
def rollbackCoreSnapshot (s : CoreTables) (m : Moment) (input : CoreSnapshotRollbackInput) :
    Except ControlError CoreTables := do
  assertPositiveSequence input.expectedLastTransactionSequence
  assertBoundedReason input.reason "Core rollback reason"
  assertMaterializedCoreCandidate input.candidate.toCoreCandidateSource
  catalog.validate input.candidate
  let payload : CoreCommandPayload :=
    .rollbackSnapshot input.candidate.toCoreCandidateSource input.expectedLastTransactionSequence
      input.reason
  oncePerReceipt s payload "Core rollback target was already used with a different command payload" do
    assertControlTime s.metadata m.now
    assertSequence s.metadata input.expectedLastTransactionSequence
    assertRollback catalog s.snapshots (s.active.map ActiveCoreSnapshot.sourceCommitId)
      input.candidate
    -- The decision draws the first identifier, the snapshot the second.
    let snapshotId ← uuidV7 m 1
    pure (s.activating m.now payload input.candidate snapshotId)

/-- `CoreSourceCheckEligibleInput`. -/
structure CoreSourceCheckEligibleInput where
  checkId : String
  candidate : CoreCandidate
  expectedLastTransactionSequence : ℕ
  deriving DecidableEq, Repr

/-- The active snapshot, when a candidate is what it was made of. -/
def CoreTables.activeFor (s : CoreTables) (source : CoreCandidateSource) :
    Except ControlError ActiveCoreSnapshot :=
  match s.active.filter fun active =>
    active.sourceCommitId = source.commitId && active.catalogDigest = source.catalogDigest with
  | some active => .ok active
  | none => .error (.error "eligible Core source check must match the active snapshot exactly")

/-- **`recordCoreSourceCheckEligible`.** -/
def recordCoreSourceCheckEligible (s : CoreTables) (m : Moment)
    (input : CoreSourceCheckEligibleInput) : Except ControlError CoreTables := do
  refuseIf (isUuidV7 input.checkId = false) (.error "Core source check ID must be UUIDv7")
  assertPositiveSequence input.expectedLastTransactionSequence
  assertMaterializedCoreCandidate input.candidate.toCoreCandidateSource
  catalog.validate input.candidate
  let source := input.candidate.toCoreCandidateSource
  let payload : CoreCommandPayload :=
    .recordSourceCheckEligible input.checkId source input.expectedLastTransactionSequence
  oncePerReceipt s payload "Core source check ID was already used with a different candidate" do
    assertSequence s.metadata input.expectedLastTransactionSequence
    let active ← s.activeFor source
    assertControlTime s.metadata m.now
    let record : CoreSourceCheckEligiblePayload :=
      { checkId := input.checkId
        sourceUrl := source.sourceUrl
        sourceRef := source.ref
        commitId := source.commitId
        treeId := source.treeId
        catalogDigest := source.catalogDigest
        activeSnapshotId := active.snapshotId
        activeCommitId := active.sourceCommitId
        checkedAt := m.now }
    refuseIf (isCoreSourceCheckEligiblePayload record = false)
      (.error "eligible Core source check is outside the registered contract")
    let _ ← uuidV7 m 0
    pure (s.recorded m.now payload (.sourceCheckEligible record))

/-- `CoreStaleSourceOverrideInput`. -/
structure CoreStaleSourceOverrideInput where
  expectedLastTransactionSequence : ℕ
  expiresAt : Time
  reason : String
  deriving DecidableEq, Repr

/-- The text of a reason, in the refusal of an override. -/
def CoreAdmissionReadinessReason.text : CoreAdmissionReadinessReason → String
  | .ready => "ready"
  | .noActiveSnapshot => "no-active-snapshot"
  | .continuityBlocked => "continuity-blocked"
  | .candidateInvalid => "candidate-invalid"
  | .persistenceFailed => "persistence-failed"
  | .sourceStale => "source-stale"

/-- The fields of a stale readiness that an override cites. -/
def CoreAdmissionReadiness.staleFields (readiness : CoreAdmissionReadiness) :
    Except ControlError (String × String × Time × Time) :=
  match readiness.reason, readiness.activeSnapshotId, readiness.latestCheckId,
    readiness.lastValidatedAt, readiness.staleAt with
  | .sourceStale, some activeSnapshotId, some latestCheckId, some lastValidatedAt, some staleAt =>
    .ok (activeSnapshotId, latestCheckId, lastValidatedAt, staleAt)
  | reason, _, _, _, _ =>
    .error (.error s!"Core stale-source override requires source-stale readiness; found {reason.text}")

/-- **`issueCoreStaleSourceOverride`.** -/
def issueCoreStaleSourceOverride (s : CoreTables) (m : Moment)
    (input : CoreStaleSourceOverrideInput) : Except ControlError CoreTables := do
  assertPositiveSequence input.expectedLastTransactionSequence
  assertBoundedReason input.reason "Core stale-source override reason"
  let payload : CoreCommandPayload :=
    .issueStaleSourceOverride input.expectedLastTransactionSequence input.expiresAt input.reason
  oncePerReceipt s payload "Core stale-source override was already issued with a different payload" do
    assertControlTime s.metadata m.now
    assertSequence s.metadata input.expectedLastTransactionSequence
    refuseIf (input.expiresAt ≤ m.now)
      (.error "Core stale-source override expiry must be after its decision time")
    refuseIf (m.now + dayMilliseconds < input.expiresAt)
      (.error "Core stale-source override cannot exceed 24 hours from issuance")
    let readiness ← coreAdmissionReadinessWithoutOverride s m.now
    let (activeSnapshotId, latestCheckId, lastValidatedAt, staleAt) ← readiness.staleFields
    let decisionId ← uuidV7 m 0
    let record : CoreStaleSourceOverrideDecisionPayload :=
      { decisionId
        activeSnapshotId
        latestCheckId
        lastValidatedAt
        staleAt
        expectedLastTransactionSequence := input.expectedLastTransactionSequence
        reason := input.reason
        decidedAt := m.now
        expiresAt := input.expiresAt }
    refuseIf (isCoreStaleSourceOverrideDecisionPayload record = false)
      (.error "Core stale-source override is outside the registered decision contract")
    pure (s.recorded m.now payload (.staleSourceOverride record))

/-- **`recordCoreCandidateRejection`.** -/
def recordCoreCandidateRejection (s : CoreTables) (m : Moment)
    (input : CoreCandidateRejectionInput) : Except ControlError CoreTables := do
  refuseIf (isCoreCandidateRejectionPayload input = false)
    (.error "Core candidate rejection input is outside the registered diagnostic contract")
  let payload : CoreCommandPayload := .recordCandidateRejection input
  oncePerReceipt s payload "Core rejection check ID was already used with a different diagnostic payload" do
    assertControlTime s.metadata m.now
    let _ ← uuidV7 m 0
    pure (s.recorded m.now payload (.candidateRejection ⟨input, m.now⟩))

/-! ## Deleting the details of old checks -/

/-- One of the `histories` of `pruneCoreCheckDetail`. -/
structure CoreCheckHistory where
  sequence : ℕ
  recordedAt : Time
  checkId : String
  automatic : Bool
  validated : Bool
  substantive : Bool
  deriving DecidableEq, Repr

/-- The check of a transaction, automatic or not. -/
def CoreTransaction.history? (tx : CoreTransaction) : Option CoreCheckHistory :=
  match tx.record with
  | .sourceCheckEligible payload =>
    some ⟨tx.sequence, tx.recordedAt, payload.checkId, true, true, true⟩
  | .candidateRejection payload =>
    some ⟨tx.sequence, tx.recordedAt, payload.checkId,
      payload.operation = .automaticSourceCheck, payload.stage.validated,
      payload.stage ≠ .source⟩
  | _ => none

/-- `CORE_CHECK_DETAIL_MAXIMUM_ELIGIBLE_CHECKS`. -/
def coreCheckDetailMaximumEligibleChecks : ℕ := 10000

/-- `coreCheckDetailCutoff`. -/
def coreCheckDetailCutoff (evaluatedAt : Time) : Time := evaluatedAt - 30 * dayMilliseconds

/-- `selectCoreCheckDetailForPrune`. -/
def selectCoreCheckDetailForPrune (candidates : List CoreCheckHistory)
    (protectedCheckIds : List String) (cutoffAt : Time) : List CoreCheckHistory :=
  let unprotectedNewestFirst := newestFirst CoreCheckHistory.sequence
    (candidates.filter fun candidate => !protectedCheckIds.contains candidate.checkId)
  let retainedInsideWindow := unprotectedNewestFirst.filter fun candidate =>
    decide (cutoffAt ≤ candidate.recordedAt)
  let countOverflow :=
    (retainedInsideWindow.drop coreCheckDetailMaximumEligibleChecks).map CoreCheckHistory.sequence
  (unprotectedNewestFirst.filter fun candidate =>
    decide (candidate.recordedAt < cutoffAt) || countOverflow.contains candidate.sequence).reverse

/-- The `histories` of `pruneCoreCheckDetail`, the newest first. -/
def CoreTables.histories (s : CoreTables) : List CoreCheckHistory :=
  s.rows.filterMap CoreTransaction.history?

/-- The checks that are never deleted. -/
def CoreTables.protectedCheckIds (s : CoreTables) : List String :=
  let automatic := s.histories.filter CoreCheckHistory.automatic
  (automatic.head?.toList ++ (automatic.find? CoreCheckHistory.validated).toList ++
      (automatic.find? CoreCheckHistory.substantive).toList).map CoreCheckHistory.checkId ++
    s.overrides.map CoreStaleSourceOverrideDecisionPayload.latestCheckId

/-- The tables without some transactions, and without their receipts. -/
def CoreTables.without (s : CoreTables) (deleted : List ℕ) : CoreTables :=
  { s with
    transactions := s.transactions.filter fun tx => !deleted.contains tx.sequence
    receipts := s.receipts.filter fun receipt => !deleted.contains receipt.transactionSequence }

/-- **`pruneCoreCheckDetail`.** -/
def pruneCoreCheckDetail (s : CoreTables) (m : Moment) (expectedLastTransactionSequence : ℕ) :
    Except ControlError CoreTables := do
  assertPositiveSequence expectedLastTransactionSequence
  let payload : CoreCommandPayload := .pruneCheckDetail expectedLastTransactionSequence
  oncePerReceipt s payload "Core check-detail prune was already run with a different payload" do
    assertControlTime s.metadata m.now
    assertSequence s.metadata expectedLastTransactionSequence
    let toDelete := selectCoreCheckDetailForPrune s.histories s.protectedCheckIds
      (coreCheckDetailCutoff m.now)
    let _ ← uuidV7 m 0
    pure ((s.without (toDelete.map CoreCheckHistory.sequence)).recorded m.now payload .other)

/-! ## The control plane -/

/-- **A command of the control plane**, as far as the Core checks are concerned. -/
inductive CoreCommand where
  | activateCoreSnapshot (input : CoreSnapshotActivationInput)
  | rollbackCoreSnapshot (input : CoreSnapshotRollbackInput)
  | recordCoreSourceCheckEligible (input : CoreSourceCheckEligibleInput)
  | issueCoreStaleSourceOverride (input : CoreStaleSourceOverrideInput)
  | recordCoreCandidateRejection (input : CoreCandidateRejectionInput)
  | pruneCoreCheckDetail (expectedLastTransactionSequence : ℕ)
  /-- Any other command that records a transaction. -/
  | other
  deriving DecidableEq, Repr

/-- The transaction of a command. -/
def runCoreCommand (s : CoreTables) (m : Moment) : CoreCommand → Except ControlError CoreTables
  | .activateCoreSnapshot input => activateCoreSnapshot catalog s m input
  | .rollbackCoreSnapshot input => rollbackCoreSnapshot catalog s m input
  | .recordCoreSourceCheckEligible input => recordCoreSourceCheckEligible catalog s m input
  | .issueCoreStaleSourceOverride input => issueCoreStaleSourceOverride s m input
  | .recordCoreCandidateRejection input => recordCoreCandidateRejection s m input
  | .pruneCoreCheckDetail expected => pruneCoreCheckDetail s m expected
  | .other => do
    assertControlTime s.metadata m.now
    pure (s.recording m.now .other)

/-- The tables of a new database. -/
def CoreTables.initial (initializedAt : Time) : CoreTables :=
  ⟨⟨initializedAt, 1⟩, [⟨1, initializedAt, .other⟩], [], none, []⟩

/-- **The control plane**: a command that throws leaves the tables as they were. -/
def coreControl (initializedAt : Time) :
    Machine CoreTables (Moment × CoreCommand) (Except ControlError Unit) where
  start := .initial initializedAt
  step s call :=
    match runCoreCommand catalog s call.1 call.2 with
    | .ok s' => (.ok (), s')
    | .error e => (.error e, s)

end Commands

end Snowcat
