import Snowcat.Control.Encoding

/-!
# The schedules of the Core poll and of the delivery audit

Two rows of the control-plane database say when the next Core poll and the
next GitHub delivery audit are due, which run is in flight and how the last
one ended. A run is claimed, works outside the database, and completes; a
run whose lease has run out may be superseded in between.

The rows are typed: the three lease columns are one optional `InFlight`,
and the columns of the last run one optional record, as the `CHECK`s of the
tables require. Reading a row decodes it, and the decoder's remaining
refusals are here under its messages; a command reads the row back before
it commits, so they refuse a command as well.
-/

namespace Snowcat

/-! ## The rows -/

/-- `CoreSourceCheckOutcome`. -/
inductive CoreSourceCheckOutcome where
  | eligible | sourceUnavailable | candidateInvalid | continuityBlocked | persistenceFailed
  deriving DecidableEq, Repr

/-- `CorePollRunStatus`, `GitHubDeliveryAuditRunStatus`. -/
inductive RunStatus where
  | completed | controllerError
  deriving DecidableEq, Repr

/-- `CorePollCheckDisposition`. -/
inductive CorePollCheckDisposition where
  | recorded | suppressed | recordFailed | none
  deriving DecidableEq, Repr

/-- `GitHubDeliveryAuditOperationalOutcome`. -/
inductive GitHubDeliveryAuditOutcome where
  | complete | sourceUnavailable | paginationIncomplete | requestBudgetExhausted
  | unsupportedRelevantDelivery | normalizationFailed
  deriving DecidableEq, Repr

/-- The lease columns of a row. -/
structure InFlight where
  runId : String
  startedAt : Time
  expiresAt : Time
  deriving DecidableEq, Repr

/-- The last run of the Core poll. -/
structure LastPoll where
  runId : String
  startedAt : Time
  completedAt : Time
  runStatus : RunStatus
  sourceOutcome : Option CoreSourceCheckOutcome
  checkDisposition : CorePollCheckDisposition
  deriving DecidableEq, Repr

/-- `CorePollState`. -/
structure CorePollState where
  healthyIntervalSeconds : ℕ
  nextPollAt : Time
  nextPruneAt : Time
  sourceUnavailableStreak : ℕ
  inFlight : Option InFlight
  last : Option LastPoll
  completedRunCount : ℕ
  suppressedCheckCount : ℕ
  deriving DecidableEq, Repr

/-- The last run of the delivery audit. -/
structure LastAudit where
  runId : String
  startedAt : Time
  completedAt : Time
  runStatus : RunStatus
  outcome : Option GitHubDeliveryAuditOutcome
  retryAt : Option Time
  deriving DecidableEq, Repr

/-- `GitHubDeliveryAuditState`. -/
structure GitHubDeliveryAuditState where
  appId : Option String
  healthyIntervalSeconds : ℕ
  nextAuditAt : Time
  incompleteStreak : ℕ
  inFlight : Option InFlight
  last : Option LastAudit
  lastCompleteBoundaryAt : Option Time
  completedRunCount : ℕ
  deriving DecidableEq, Repr

/-- What the two schedules read of `ControlPlaneMetadata`. -/
structure ControlPlaneMetadata where
  controlTimeWatermark : Time
  lastTransactionSequence : ℕ
  deriving DecidableEq, Repr

/-- **The rows the schedules live in.** -/
structure Schedules where
  metadata : ControlPlaneMetadata
  corePoll : CorePollState
  githubDeliveryAudit : GitHubDeliveryAuditState
  deriving DecidableEq, Repr

/-- A call on the schedules. -/
abbrev ScheduleTx : Type → Type := Tx Schedules ControlError

/-! ## The policies -/

/-- `CORE_POLL_LEASE_SECONDS`, `GITHUB_DELIVERY_AUDIT_LEASE_SECONDS`. -/
def leaseSeconds : ℕ := 600

/-- `CORE_POLL_PRUNE_INTERVAL_SECONDS`. -/
def corePollPruneIntervalSeconds : ℕ := 86400

/-- `assertCorePollInterval`. -/
def assertCorePollInterval (value : JsNumber) : Except ControlError ℕ :=
  match value with
  | .int n =>
    if value.isSafeInteger ∧ 60 ≤ n ∧ n ≤ 3600 then .ok n.toNat
    else .error (.error "Core poll interval must be from 60 through 3600 seconds")
  | .notInteger => .error (.error "Core poll interval must be from 60 through 3600 seconds")

/-- `assertGitHubDeliveryAuditInterval`. -/
def assertGitHubDeliveryAuditInterval (value : JsNumber) : Except ControlError ℕ :=
  match value with
  | .int n =>
    if value.isSafeInteger ∧ 60 ≤ n ∧ n ≤ 900 then .ok n.toNat
    else .error (.error "GitHub delivery-audit interval must be from 60 through 900 seconds")
  | .notInteger =>
    .error (.error "GitHub delivery-audit interval must be from 60 through 900 seconds")

/-- `corePollDelaySeconds`. -/
def corePollDelaySeconds (healthyIntervalSeconds : ℕ)
    (sourceOutcome : Option CoreSourceCheckOutcome) (sourceUnavailableStreak : ℕ) : ℕ :=
  if sourceOutcome ≠ some .sourceUnavailable then healthyIntervalSeconds
  else if sourceUnavailableStreak ≤ 1 then max healthyIntervalSeconds 1800
  else max healthyIntervalSeconds 3600

/-- `githubDeliveryAuditRetrySeconds`. -/
def githubDeliveryAuditRetrySeconds (incompleteStreak : ℕ) : Except ControlError ℕ := do
  refuseIf (2 ^ 53 - 1 < incompleteStreak ∨ incompleteStreak < 1)
    (.error "GitHub delivery-audit incomplete streak must be a positive safe integer")
  pure (if incompleteStreak = 1 then 60 else if incompleteStreak = 2 then 300 else 900)

/-! ## Reading the rows -/

/-- The refusals of the lease columns. -/
def assertInFlight (uuid duration : String) (flight : InFlight) : Except ControlError Unit := do
  refuseIf (isUuidV7 flight.runId = false) (.error uuid)
  refuseIf (addSeconds flight.startedAt leaseSeconds ≠ flight.expiresAt) (.error duration)

/-- The refusals of the last run of the Core poll. -/
def assertLastPoll (last : LastPoll) : Except ControlError Unit := do
  refuseIf (isUuidV7 last.runId = false) (.error "Core last poll run ID is not UUIDv7")
  refuseIf (last.completedAt < last.startedAt)
    (.error "Core poll completion predates its start")
  refuseIf
    ((last.sourceOutcome = none ∧ last.checkDisposition ≠ .none) ∨
      (last.sourceOutcome ≠ none ∧ last.checkDisposition = .none) ∨
      (last.runStatus = .completed ∧ last.sourceOutcome = none))
    (.error "Core poll completion source/disposition linkage is invalid")

/-- **`decodeCorePollState`.** -/
def decodeCorePollState (row : CorePollState) : Except ControlError CorePollState := do
  let _ ← assertCorePollInterval (.int row.healthyIntervalSeconds)
  refuseIf (2 ^ 53 - 1 < row.sourceUnavailableStreak)
    (.error "invalid Core poll source-unavailable streak")
  refuseIf
    (2 ^ 53 - 1 < row.completedRunCount ∨ 2 ^ 53 - 1 < row.suppressedCheckCount ∨
      row.completedRunCount < row.suppressedCheckCount)
    (.error "invalid Core poll operational counters")
  refuseSome
    (assertInFlight "Core poll lease run ID is not UUIDv7"
      "Core poll lease duration is not ten minutes") row.inFlight
  refuseIf (row.completedRunCount = 0 ∧ row.last ≠ none)
    (.error "Core poll state has last-run fields before a completion")
  refuseIf (row.completedRunCount ≠ 0 ∧ row.last = none)
    (.error "Core poll state is missing completed-run fields")
  refuseSome assertLastPoll row.last
  pure row

/-- A GitHub App's number: `/^[1-9][0-9]{0,19}$/`. -/
def Patterns.appId : Pattern :=
  .seq (.one nonzeroDigit) (Pattern.upTo (.one digit) 19)

/-- The refusals of the last run of the delivery audit. -/
def assertLastAudit (row : GitHubDeliveryAuditState) (last : LastAudit) :
    Except ControlError Unit := do
  refuseIf (row.appId = none)
    (.error "GitHub delivery-audit state is missing completed-run fields")
  refuseIf (isUuidV7 last.runId = false)
    (.error "GitHub last delivery-audit run ID is not UUIDv7")
  refuseIf (last.completedAt < last.startedAt ∨ row.nextAuditAt < last.completedAt)
    (.error "GitHub delivery-audit operational times are invalid")
  refuseIf (¬ (last.runStatus = .completed ↔ last.outcome ≠ none))
    (.error "GitHub delivery-audit completion status and outcome are inconsistent")
  refuseIf (¬ (last.outcome = some .complete ↔ row.incompleteStreak = 0))
    (.error "GitHub delivery-audit incomplete streak is inconsistent")
  refuseIf
    (last.retryAt ≠ none ∧
      (last.outcome = some .complete ∨ last.runStatus = .controllerError))
    (.error "GitHub delivery-audit retry instruction is inconsistent")
  refuseSome (fun boundary => refuseIf (last.completedAt < boundary)
    (.error "GitHub complete delivery-audit boundary follows completion"))
    row.lastCompleteBoundaryAt
  refuseIf (last.outcome = some .complete ∧ row.lastCompleteBoundaryAt = none)
    (.error "complete GitHub delivery audit lacks its source boundary")

/-- **`decodeGitHubDeliveryAuditState`.** -/
def decodeGitHubDeliveryAuditState (row : GitHubDeliveryAuditState) :
    Except ControlError GitHubDeliveryAuditState := do
  refuseSome (fun appId => refuseIf (Patterns.appId.test appId = false)
    (.error "GitHub delivery-audit state has invalid App identity")) row.appId
  let _ ← assertGitHubDeliveryAuditInterval (.int row.healthyIntervalSeconds)
  refuseIf (2 ^ 53 - 1 < row.incompleteStreak)
    (.error "invalid GitHub delivery-audit incomplete streak")
  refuseIf (2 ^ 53 - 1 < row.completedRunCount)
    (.error "invalid GitHub delivery-audit completion count")
  refuseSome
    (assertInFlight "GitHub delivery-audit lease run ID is not UUIDv7"
      "GitHub delivery-audit lease duration is not ten minutes") row.inFlight
  refuseIf
    (row.completedRunCount = 0 ∧
      (row.last ≠ none ∨ row.lastCompleteBoundaryAt ≠ none ∨ row.incompleteStreak ≠ 0))
    (.error "GitHub delivery-audit state has last-run fields before a completion")
  refuseIf (row.completedRunCount ≠ 0 ∧ row.last = none)
    (.error "GitHub delivery-audit state is missing completed-run fields")
  refuseSome (assertLastAudit row) row.last
  pure row

/-- `corePollState`. -/
def corePollState : ScheduleTx CorePollState := do
  let row ← Tx.read Schedules.corePoll
  Tx.ofExcept (decodeCorePollState row)

/-- `githubDeliveryAuditState`. -/
def githubDeliveryAuditState : ScheduleTx GitHubDeliveryAuditState := do
  let row ← Tx.read Schedules.githubDeliveryAudit
  Tx.ofExcept (decodeGitHubDeliveryAuditState row)

/-- `verifyExisting`, as far as the schedules go: both rows decode, and
`ledger` is what it says of the rest of the database. -/
def verifySchedules (ledger : Except ControlError Unit) : ScheduleTx Unit := do
  let _ ← corePollState
  let _ ← githubDeliveryAuditState
  Tx.ofExcept ledger

/-- `BEGIN IMMEDIATE`, with `ROLLBACK` when the body throws. -/
def immediately {α : Type} (body : ScheduleTx α) : ScheduleTx α :=
  Tx.atomically (fun before _ => before) body

/-! ## The Core poll -/

/-- `CorePollClaimResult`. -/
inductive CorePollClaimResult where
  | claimed (runId : String) (startedAt expiresAt : Time) (controlPlaneSequence : ℕ)
      (pruneDue : Bool) (state : CorePollState)
  | notDue (nextPollAt : Time) (state : CorePollState)
  | inFlight (runId : String) (expiresAt : Time) (state : CorePollState)
  deriving DecidableEq, Repr

/-- `CorePollCompletionInput`. -/
structure CorePollCompletionInput where
  runId : String
  runStatus : RunStatus
  sourceOutcome : Option CoreSourceCheckOutcome
  checkDisposition : CorePollCheckDisposition
  pruneRan : Bool
  deriving DecidableEq, Repr

/-- The lease that keeps a run from being granted now. -/
def unexpired (now : Time) (flight : Option InFlight) : Option InFlight :=
  flight.filter (now < ·.expiresAt)

/-- The row after a claim. -/
def CorePollState.claimedBy (row : CorePollState) (healthyIntervalSeconds : ℕ) (runId : String)
    (now : Time) : CorePollState :=
  { row with
    healthyIntervalSeconds
    inFlight := some ⟨runId, now, addSeconds now leaseSeconds⟩ }

/-- **`claimCorePoll`.** -/
def claimCorePoll (m : Moment) (ledger : Except ControlError Unit)
    (healthyIntervalSeconds : JsNumber) : ScheduleTx CorePollClaimResult := do
  let interval ← Tx.ofExcept (assertCorePollInterval healthyIntervalSeconds)
  immediately do
    verifySchedules ledger
    let metadata ← Tx.read Schedules.metadata
    let state ← corePollState
    Tx.failIf (m.now < metadata.controlTimeWatermark ∨
        ∃ last ∈ state.last, m.now < last.completedAt)
      (.error "control-plane clock moved backwards behind durable Core poll state")
    match unexpired m.now state.inFlight with
    | some flight => pure (.inFlight flight.runId flight.expiresAt state)
    | none =>
      if m.now < state.nextPollAt then pure (.notDue state.nextPollAt state)
      else do
        let runId ← Tx.ofExcept (uuidV7 m 0)
        Tx.update fun db => { db with corePoll := db.corePoll.claimedBy interval runId m.now }
        let claimedState ← corePollState
        pure (.claimed runId m.now (addSeconds m.now leaseSeconds)
          metadata.lastTransactionSequence (decide (state.nextPruneAt ≤ m.now)) claimedState)

/-- The refusals of a completion that no row is read for. -/
def assertCorePollCompletion (input : CorePollCompletionInput) : Except ControlError Unit := do
  refuseIf (isUuidV7 input.runId = false) (.error "Core poll run ID must be UUIDv7")
  refuseIf (input.runStatus = .completed ∧ input.sourceOutcome = none)
    (.error "a completed Core poll requires a source outcome")
  refuseIf (input.sourceOutcome = none ∧ input.checkDisposition ≠ .none)
    (.error "a Core poll without a source outcome cannot have a check disposition")
  refuseIf (input.sourceOutcome ≠ none ∧ input.checkDisposition = .none)
    (.error "a Core poll source outcome requires a check disposition")

/-- The streak after a completion. -/
def CorePollState.streakAfter (row : CorePollState)
    (sourceOutcome : Option CoreSourceCheckOutcome) : ℕ :=
  if sourceOutcome = some .sourceUnavailable then row.sourceUnavailableStreak + 1
  else if sourceOutcome = none then row.sourceUnavailableStreak
  else 0

/-- The row after a completion. -/
def CorePollState.completedBy (row : CorePollState) (input : CorePollCompletionInput)
    (startedAt completedAt : Time) : CorePollState :=
  let sourceUnavailableStreak := row.streakAfter input.sourceOutcome
  { row with
    nextPollAt := addSeconds completedAt
      (corePollDelaySeconds row.healthyIntervalSeconds input.sourceOutcome
        sourceUnavailableStreak)
    nextPruneAt :=
      if input.pruneRan then addSeconds completedAt corePollPruneIntervalSeconds
      else row.nextPruneAt
    sourceUnavailableStreak
    inFlight := none
    last := some ⟨input.runId, startedAt, completedAt, input.runStatus, input.sourceOutcome,
      input.checkDisposition⟩
    completedRunCount := row.completedRunCount + 1
    suppressedCheckCount :=
      row.suppressedCheckCount + if input.checkDisposition = .suppressed then 1 else 0 }

/-- **`completeCorePoll`.** -/
def completeCorePoll (m : Moment) (ledger : Except ControlError Unit)
    (input : CorePollCompletionInput) : ScheduleTx CorePollState := do
  Tx.ofExcept (assertCorePollCompletion input)
  immediately do
    verifySchedules ledger
    let metadata ← Tx.read Schedules.metadata
    let state ← corePollState
    let flight ← Tx.ofOption (state.inFlight.filter (·.runId = input.runId))
      (.error "Core poll completion does not own the active lease")
    Tx.failIf (m.now < metadata.controlTimeWatermark ∨ m.now < flight.startedAt)
      (.error "control-plane clock moved backwards during the Core poll run")
    Tx.update fun db =>
      { db with corePoll := db.corePoll.completedBy input flight.startedAt m.now }
    corePollState

/-! ## The delivery audit -/

/-- `GitHubDeliveryAuditClaimResult`. -/
inductive GitHubDeliveryAuditClaimResult where
  | claimed (runId : String) (startedAt expiresAt : Time) (controlPlaneSequence : ℕ)
      (state : GitHubDeliveryAuditState)
  | notDue (nextAuditAt : Time) (state : GitHubDeliveryAuditState)
  | inFlight (runId : String) (expiresAt : Time) (state : GitHubDeliveryAuditState)
  deriving DecidableEq, Repr

/-- `GitHubDeliveryAuditCompletionInput`. -/
structure GitHubDeliveryAuditCompletionInput where
  runId : String
  runStatus : RunStatus
  outcome : Option GitHubDeliveryAuditOutcome
  sourceBoundaryAt : Option Time
  retryAt : Option Time
  deriving DecidableEq, Repr

/-- The row after a claim. -/
def GitHubDeliveryAuditState.claimedBy (row : GitHubDeliveryAuditState) (appId : String)
    (healthyIntervalSeconds : ℕ) (runId : String) (now : Time) : GitHubDeliveryAuditState :=
  { row with
    appId := some appId
    healthyIntervalSeconds
    inFlight := some ⟨runId, now, addSeconds now leaseSeconds⟩ }

/-- **`claimGitHubDeliveryAudit`.** -/
def claimGitHubDeliveryAudit (m : Moment) (ledger : Except ControlError Unit) (appId : String)
    (healthyIntervalSeconds : JsNumber) : ScheduleTx GitHubDeliveryAuditClaimResult := do
  Tx.failIf (Patterns.appId.test appId = false)
    (.error "GitHub delivery-audit App ID is invalid")
  let interval ← Tx.ofExcept (assertGitHubDeliveryAuditInterval healthyIntervalSeconds)
  immediately do
    verifySchedules ledger
    let metadata ← Tx.read Schedules.metadata
    let state ← githubDeliveryAuditState
    Tx.ofExcept (refuseSome (fun bound => refuseIf (bound ≠ appId)
      (.error s!"GitHub delivery-audit schedule is already bound to App {bound}")) state.appId)
    Tx.failIf (m.now < metadata.controlTimeWatermark ∨
        ∃ last ∈ state.last, m.now < last.completedAt)
      (.error "control-plane clock moved backwards behind durable GitHub delivery-audit state")
    match unexpired m.now state.inFlight with
    | some flight => pure (.inFlight flight.runId flight.expiresAt state)
    | none =>
      if m.now < state.nextAuditAt then pure (.notDue state.nextAuditAt state)
      else do
        let runId ← Tx.ofExcept (uuidV7 m 0)
        Tx.update fun db =>
          { db with
            githubDeliveryAudit := db.githubDeliveryAudit.claimedBy appId interval runId m.now }
        let claimedState ← githubDeliveryAuditState
        pure (.claimed runId m.now (addSeconds m.now leaseSeconds)
          metadata.lastTransactionSequence claimedState)

/-- The refusals of a completion that no row is read for. -/
def assertGitHubDeliveryAuditCompletion (input : GitHubDeliveryAuditCompletionInput) :
    Except ControlError Unit := do
  refuseIf (isUuidV7 input.runId = false)
    (.error "GitHub delivery-audit run ID must be UUIDv7")
  refuseIf (¬ (input.runStatus = .completed ↔ input.outcome ≠ none))
    (.error "GitHub delivery-audit completion status and outcome disagree")
  refuseIf (¬ (input.outcome = some .complete ↔ input.sourceBoundaryAt ≠ none))
    (.error "only a complete GitHub delivery audit establishes a source boundary")
  refuseIf (input.outcome = some .complete ∧ input.retryAt ≠ none)
    (.error "a complete GitHub delivery audit cannot request retry")

/-- The streak after a completion. -/
def GitHubDeliveryAuditState.streakAfter (row : GitHubDeliveryAuditState)
    (outcome : Option GitHubDeliveryAuditOutcome) : ℕ :=
  if outcome = some .complete then 0 else row.incompleteStreak + 1

/-- The delay the schedule asks for after a completion. -/
def GitHubDeliveryAuditState.delayAfter (row : GitHubDeliveryAuditState)
    (outcome : Option GitHubDeliveryAuditOutcome) : Except ControlError ℕ :=
  if outcome = some .complete then .ok row.healthyIntervalSeconds
  else githubDeliveryAuditRetrySeconds (row.streakAfter outcome)

/-- The row after a completion. -/
def GitHubDeliveryAuditState.completedBy (row : GitHubDeliveryAuditState)
    (input : GitHubDeliveryAuditCompletionInput) (delay : ℕ) (startedAt completedAt : Time) :
    GitHubDeliveryAuditState :=
  let ordinaryNext := addSeconds completedAt delay
  { row with
    nextAuditAt := (input.retryAt.filter (ordinaryNext < ·)).getD ordinaryNext
    incompleteStreak := row.streakAfter input.outcome
    inFlight := none
    last := some ⟨input.runId, startedAt, completedAt, input.runStatus, input.outcome,
      input.retryAt⟩
    lastCompleteBoundaryAt := input.sourceBoundaryAt <|> row.lastCompleteBoundaryAt
    completedRunCount := row.completedRunCount + 1 }

/-- **`completeGitHubDeliveryAudit`.** -/
def completeGitHubDeliveryAudit (m : Moment) (ledger : Except ControlError Unit)
    (input : GitHubDeliveryAuditCompletionInput) : ScheduleTx GitHubDeliveryAuditState := do
  Tx.ofExcept (assertGitHubDeliveryAuditCompletion input)
  immediately do
    verifySchedules ledger
    let metadata ← Tx.read Schedules.metadata
    let state ← githubDeliveryAuditState
    let flight ← Tx.ofOption (state.inFlight.filter (·.runId = input.runId))
      (.error "GitHub delivery-audit completion does not own the active lease")
    Tx.failIf
      (m.now < metadata.controlTimeWatermark ∨ m.now < flight.startedAt ∨
        (∃ boundary ∈ input.sourceBoundaryAt, m.now < boundary) ∨
        ∃ boundary ∈ input.sourceBoundaryAt, ∃ before ∈ state.lastCompleteBoundaryAt,
          boundary < before)
      (.error "control-plane clock moved backwards during the GitHub delivery-audit run")
    let delay ← Tx.ofExcept (state.delayAfter input.outcome)
    Tx.update fun db =>
      { db with
        githubDeliveryAudit :=
          db.githubDeliveryAudit.completedBy input delay flight.startedAt m.now }
    githubDeliveryAuditState

/-! ## Calls -/

/-- A call on the schedules. -/
inductive ScheduleCall where
  | claimCorePoll (healthyIntervalSeconds : JsNumber)
  | completeCorePoll (input : CorePollCompletionInput)
  | claimGitHubDeliveryAudit (appId : String) (healthyIntervalSeconds : JsNumber)
  | completeGitHubDeliveryAudit (input : GitHubDeliveryAuditCompletionInput)
  /-- Some other command commits a transaction: `advanceControlMetadata`. -/
  | commit
  deriving DecidableEq, Repr

/-- A call, when it happens and what `verifyExisting` says of the rest of the
database then. -/
structure ScheduleInput where
  call : ScheduleCall
  moment : Moment
  ledger : Except ControlError Unit

/-- What a call answers. -/
inductive ScheduleAnswer where
  | corePollClaim (result : CorePollClaimResult)
  | corePoll (state : CorePollState)
  | githubDeliveryAuditClaim (result : GitHubDeliveryAuditClaimResult)
  | githubDeliveryAudit (state : GitHubDeliveryAuditState)
  | committed
  deriving DecidableEq, Repr

/-- `advanceControlMetadata`: the watermark and the sequence of a new
transaction. -/
def advanceControlMetadata (m : Moment) : ScheduleTx Unit := do
  let metadata ← Tx.read Schedules.metadata
  Tx.failIf (m.now < metadata.controlTimeWatermark)
    (.error "control-plane clock moved backwards; refusing a new write transaction")
  Tx.update fun db =>
    { db with metadata := ⟨m.now, metadata.lastTransactionSequence + 1⟩ }

/-- One call. -/
def ScheduleInput.exec (i : ScheduleInput) : ScheduleTx ScheduleAnswer :=
  match i.call with
  | .claimCorePoll interval => do
    let result ← Snowcat.claimCorePoll i.moment i.ledger interval
    pure (.corePollClaim result)
  | .completeCorePoll input => do
    let state ← Snowcat.completeCorePoll i.moment i.ledger input
    pure (.corePoll state)
  | .claimGitHubDeliveryAudit appId interval => do
    let result ← Snowcat.claimGitHubDeliveryAudit i.moment i.ledger appId interval
    pure (.githubDeliveryAuditClaim result)
  | .completeGitHubDeliveryAudit input => do
    let state ← Snowcat.completeGitHubDeliveryAudit i.moment i.ledger input
    pure (.githubDeliveryAudit state)
  | .commit => do
    advanceControlMetadata i.moment
    pure .committed

/-- The rows `initialize` writes. -/
def Schedules.initial (evaluationTime : Time) : Schedules where
  metadata := ⟨evaluationTime, 1⟩
  corePoll := ⟨900, evaluationTime, addSeconds evaluationTime corePollPruneIntervalSeconds, 0,
    none, none, 0, 0⟩
  githubDeliveryAudit := ⟨none, 300, evaluationTime, 0, none, none, none, 0⟩

end Snowcat
