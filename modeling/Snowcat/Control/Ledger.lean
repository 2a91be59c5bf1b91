import Mathlib.Data.String.Basic
import Snowcat.Control.Projection

/-!
# The ledger and its projections

The tables that commands write: the transactions, the subjects, the occurrences,
and which of them are records and which events. Two projections are built from
them, one row for each subject (`control-plane.subject-lookup`) and one for each
event (`control-plane.event-cursor`). A projection is built as a shadow next to
those that are there, and published with the other one.

What a command writes is told here; what it checks before it writes, and what it
writes to other tables, is not, so that a run may do more here. SQLite refuses a
row whose key is taken, and an occurrence of a subject that is not there.
-/

namespace Snowcat.Projections

open Calendar (Instant)

/-! ## What commands write -/

/-- `recordClasses`. -/
inductive RecordClass where
  | definition | assertion | observation | evidenceReference | fact | decision
  deriving DecidableEq, Repr

/-- The class as it is spelled. -/
def RecordClass.text : RecordClass → String
  | .definition => "definition"
  | .assertion => "assertion"
  | .observation => "observation"
  | .evidenceReference => "evidence-reference"
  | .fact => "fact"
  | .decision => "decision"

/-- The kinds of subjects that commands write of. -/
inductive SubjectKind where
  | controlPlaneDatabase | operatorPrincipal | coreSnapshot | githubRepository | githubAppHook
  | githubPullRequest
  deriving DecidableEq, Repr

/-- The kind as it is spelled. -/
def SubjectKind.text : SubjectKind → String
  | .controlPlaneDatabase => "control-plane-database"
  | .operatorPrincipal => "operator-principal"
  | .coreSnapshot => "core-snapshot"
  | .githubRepository => "github-repository"
  | .githubAppHook => "github-app-hook"
  | .githubPullRequest => "github-pull-request"

/-- `CommandKind`. -/
inductive CommandKind where
  | initializeControlPlane | checkIntegrity | activateSnapshot | recordCandidateRejection
  | recordSourceCheckEligible | issueStaleSourceOverride | pruneCheckDetail | rollbackSnapshot
  | materializeCoreAuthority | recordGithubIdentity | recordCanonicalSurfaces
  | establishEnrollment | imposeOperatorHold | clearOperatorHold | recordPullRequestDelivery
  | recordPullRequestDeliveryRepair | recordInstallationReconciliation | recordSourceCheckpoint
  | openSourceGap | repairSourceGap
  deriving DecidableEq, Repr

/-- An occurrence that a command inserts: a record of a class, or an event. -/
structure Output where
  recordClass : Option RecordClass
  kind : String
  schemaVersion : ℕ
  subjectKind : SubjectKind

namespace CommandKind

/-- **The occurrences a command inserts**, in their positions. -/
def outputs : CommandKind → List Output
  | .initializeControlPlane =>
    [⟨some .definition, "control-plane.database-definition", 1, .controlPlaneDatabase⟩,
      ⟨some .definition, "principal.definition", 1, .operatorPrincipal⟩,
      ⟨none, "control-plane.initialized", 1, .controlPlaneDatabase⟩]
  | .checkIntegrity =>
    [⟨some .observation, "control-plane.integrity-observation", 1, .controlPlaneDatabase⟩,
      ⟨none, "control-plane.integrity-checked", 1, .controlPlaneDatabase⟩]
  | .activateSnapshot =>
    [⟨some .definition, "core.snapshot-definition", 1, .coreSnapshot⟩,
      ⟨some .fact, "core.snapshot-active", 1, .controlPlaneDatabase⟩,
      ⟨none, "core.snapshot-activated", 1, .coreSnapshot⟩]
  | .recordCandidateRejection =>
    [⟨some .observation, "core.candidate-rejection-observation", 1, .controlPlaneDatabase⟩,
      ⟨none, "core.candidate-rejected", 1, .controlPlaneDatabase⟩]
  | .recordSourceCheckEligible =>
    [⟨some .observation, "core.source-check-eligible-observation", 1, .controlPlaneDatabase⟩,
      ⟨none, "core.source-check-eligible", 1, .controlPlaneDatabase⟩]
  | .issueStaleSourceOverride =>
    [⟨some .decision, "core.stale-source-override-decision", 1, .controlPlaneDatabase⟩,
      ⟨none, "core.stale-source-override-issued", 1, .controlPlaneDatabase⟩]
  | .pruneCheckDetail =>
    [⟨some .observation, "core.check-detail-prune-observation", 1, .controlPlaneDatabase⟩,
      ⟨none, "core.check-detail-pruned", 1, .controlPlaneDatabase⟩]
  | .rollbackSnapshot =>
    [⟨some .decision, "core.rollback-decision", 1, .controlPlaneDatabase⟩,
      ⟨some .definition, "core.snapshot-definition", 1, .coreSnapshot⟩,
      ⟨some .fact, "core.snapshot-active", 1, .controlPlaneDatabase⟩,
      ⟨none, "core.snapshot-rollback-activated", 1, .coreSnapshot⟩]
  | .materializeCoreAuthority =>
    [⟨some .definition, "repository.declaration-definition", 1, .githubRepository⟩,
      ⟨some .fact, "repository.core-authorized", 1, .githubRepository⟩,
      ⟨none, "repository.core-authority-reconciled", 1, .githubRepository⟩]
  | .recordGithubIdentity =>
    [⟨some .observation, "repository.github-identity-observation", 1, .githubRepository⟩,
      ⟨some .fact, "repository.github-identity-reconciled", 1, .githubRepository⟩,
      ⟨none, "repository.github-identity-reconciliation-recorded", 1, .githubRepository⟩]
  | .recordCanonicalSurfaces =>
    [⟨some .observation, "repository.canonical-surface-observation", 1, .githubRepository⟩,
      ⟨some .decision, "repository.enrollment-checkpoint-policy-decision", 1, .githubRepository⟩,
      ⟨some .fact, "repository.canonical-surfaces-reconciled", 1, .githubRepository⟩,
      ⟨none, "repository.canonical-surfaces-reconciliation-recorded", 1, .githubRepository⟩]
  | .establishEnrollment =>
    [⟨some .definition, "repository.controller-definition", 1, .githubRepository⟩,
      ⟨some .fact, "repository.enrolled", 1, .githubRepository⟩,
      ⟨none, "repository.enrollment-established", 1, .githubRepository⟩]
  | .imposeOperatorHold =>
    [⟨some .decision, "repository.operator-hold-decision", 1, .githubRepository⟩,
      ⟨none, "repository.operator-hold-imposed", 1, .githubRepository⟩]
  | .clearOperatorHold =>
    [⟨some .decision, "repository.operator-hold-decision", 1, .githubRepository⟩,
      ⟨none, "repository.operator-hold-cleared", 1, .githubRepository⟩]
  | .recordPullRequestDelivery =>
    [⟨some .observation, "github.delivery-receipt-observation", 1, .githubAppHook⟩,
      ⟨some .observation, "github.pull-request-observation", 2, .githubPullRequest⟩,
      ⟨none, "github.delivery-recorded", 1, .githubAppHook⟩]
  | .recordPullRequestDeliveryRepair =>
    [⟨some .observation, "github.delivery-audit-observation", 1, .githubAppHook⟩,
      ⟨some .observation, "github.pull-request-observation", 2, .githubPullRequest⟩,
      ⟨none, "github.delivery-repair-recorded", 1, .githubAppHook⟩]
  | .recordInstallationReconciliation =>
    [⟨some .observation, "github.installation-repository-observation", 1, .githubRepository⟩,
      ⟨some .fact, "github.installation-repository-reconciled", 1, .githubRepository⟩,
      ⟨none, "github.installation-repository-reconciliation-recorded", 1, .githubRepository⟩]
  | .recordSourceCheckpoint =>
    [⟨some .observation, "github.source-checkpoint-observation", 1, .githubRepository⟩,
      ⟨none, "github.source-checkpoint-recorded", 1, .githubRepository⟩]
  | .openSourceGap =>
    [⟨some .observation, "github.source-gap-observation", 3, .githubRepository⟩,
      ⟨none, "github.source-gap-opened", 3, .githubRepository⟩]
  | .repairSourceGap =>
    [⟨some .observation, "github.source-checkpoint-observation", 1, .githubRepository⟩,
      ⟨some .observation, "github.source-gap-repair-observation", 3, .githubRepository⟩,
      ⟨none, "github.source-gap-repaired", 3, .githubRepository⟩]

/-- The subjects a command inserts. -/
def inserts : CommandKind → List SubjectKind
  | .initializeControlPlane => [.controlPlaneDatabase, .operatorPrincipal]
  | .activateSnapshot | .rollbackSnapshot => [.coreSnapshot]
  | _ => []

/-- The subjects a command inserts when they are not there. -/
def ensures : CommandKind → List SubjectKind
  | .materializeCoreAuthority => [.githubRepository]
  | .recordPullRequestDelivery | .recordPullRequestDeliveryRepair =>
    [.githubAppHook, .githubPullRequest]
  | _ => []

/-- A command that records a check of the Core, whose details are pruned. -/
def isCheckDetail : CommandKind → Bool
  | .recordSourceCheckEligible | .recordCandidateRejection => true
  | _ => false

/-- A command that does nothing to the projections. -/
def onlyRecords : CommandKind → Bool
  | .initializeControlPlane | .pruneCheckDetail => false
  | _ => true

end CommandKind

/-! ## The tables -/

/-- A row of `subjects`. -/
structure Subject where
  kind : SubjectKind
  subjectId : String
  createdTransactionSequence : ℕ
  deriving DecidableEq, Repr

/-- **The authoritative tables**, as far as the projections are built from them. -/
structure Ledger where
  databaseLineageId : String
  operatorPrincipalId : String
  lastTransactionSequence : ℕ
  /-- `control_transactions`. -/
  transactions : List (ℕ × CommandKind)
  subjects : List Subject
  /-- `durable_occurrences`. -/
  occurrences : List DurableOccurrence
  /-- `durable_records`. -/
  records : List (String × RecordClass)
  /-- `event_ledger`. -/
  events : List String

/-- What a call writes besides: the identities it draws, the digests of its payloads, its subjects
and its time. -/
structure Call where
  recordId : ℕ → String
  payloadDigest : ℕ → String
  correlationId : String
  recordedAt : Instant
  snapshotId : String
  repositoryId : String
  hookSubjectId : String
  pullRequestId : String

namespace Ledger

variable (L : Ledger)

/-- The subject of a kind in a call. -/
def subjectId (call : Call) : SubjectKind → String
  | .controlPlaneDatabase => L.databaseLineageId
  | .operatorPrincipal => L.operatorPrincipalId
  | .coreSnapshot => call.snapshotId
  | .githubRepository => call.repositoryId
  | .githubAppHook => call.hookSubjectId
  | .githubPullRequest => call.pullRequestId

/-- Whether a subject is there. -/
def hasSubject (kind subjectId : String) : Bool :=
  L.subjects.any fun subject => subject.kind.text = kind && subject.subjectId = subjectId

/-- `INSERT INTO subjects`. -/
def insertSubject (sequence : ℕ) (kind : SubjectKind) (subjectId : String) :
    Except ControlError Ledger := do
  refuseIf (L.hasSubject kind.text subjectId = true)
    (.error "UNIQUE constraint failed: subjects.subject_kind, subjects.subject_id")
  pure { L with subjects := L.subjects ++ [⟨kind, subjectId, sequence⟩] }

/-- `INSERT INTO subjects`, when the subject is not there. -/
def ensureSubject (sequence : ℕ) (kind : SubjectKind) (subjectId : String) :
    Except ControlError Ledger :=
  if L.hasSubject kind.text subjectId = true then pure L
  else L.insertSubject sequence kind subjectId

/-- `insertOccurrence`. -/
def insertOccurrence (input : DurableOccurrence × Option RecordClass) :
    Except ControlError Ledger := do
  let o := input.1
  refuseIf (∃ old ∈ L.occurrences, old.recordId = o.recordId)
    (.error "UNIQUE constraint failed: durable_occurrences.record_id")
  refuseIf (∃ old ∈ L.occurrences, old.key = o.key)
    (.error "UNIQUE constraint failed: durable_occurrences.transaction_sequence, durable_occurrences.transaction_position")
  refuseIf (L.hasSubject o.subjectKind o.subjectId = false)
    (.error "FOREIGN KEY constraint failed")
  match o.occurrenceType, input.2 with
  | .record, some recordClass =>
    pure { L with
      occurrences := L.occurrences ++ [o]
      records := L.records ++ [(o.recordId, recordClass)] }
  | .record, none => .error (.error "durable record requires a record class")
  | .event, _ =>
    pure { L with occurrences := L.occurrences ++ [o], events := L.events ++ [o.recordId] }

/-- The occurrences of a command. -/
def occurrencesOf (command : CommandKind) (call : Call) (sequence : ℕ) :
    List (DurableOccurrence × Option RecordClass) :=
  command.outputs.zipIdx.map fun (output, position) =>
    ({ recordId := call.recordId position
       occurrenceType := if output.recordClass.isSome = true then .record else .event
       kind := output.kind
       schemaVersion := output.schemaVersion
       subjectKind := output.subjectKind.text
       subjectId := L.subjectId call output.subjectKind
       correlationId := call.correlationId
       informationClass := .organization
       informationScope := .object [("deploymentId", .text L.databaseLineageId)]
       payloadDigest := call.payloadDigest position
       transactionSequence := sequence
       transactionPosition := position
       recordedAt := call.recordedAt }, output.recordClass)

/-- **The transaction of a command.** -/
def record (command : CommandKind) (call : Call) : Except ControlError Ledger := do
  let sequence := L.lastTransactionSequence + 1
  let begun := { L with transactions := L.transactions ++ [(sequence, command)] }
  let inserted ← command.inserts.foldlM
    (fun M kind => M.insertSubject sequence kind (L.subjectId call kind)) begun
  let ensured ← command.ensures.foldlM
    (fun M kind => M.ensureSubject sequence kind (L.subjectId call kind)) inserted
  let written ← (L.occurrencesOf command call sequence).foldlM insertOccurrence ensured
  pure { written with lastTransactionSequence := sequence }

/-- The transactions of the checks, with their occurrences. -/
def checkDetails : List (ℕ × List DurableOccurrence) :=
  ((L.transactions.filter fun transaction => transaction.2.isCheckDetail).map fun transaction =>
    (transaction.1, L.occurrences.filter fun o => o.transactionSequence = transaction.1)).filter
      fun history => !history.2.isEmpty

/-- The rows of a transaction are deleted. -/
def deleteTransaction (sequence : ℕ) : Ledger :=
  let recordIds := (L.occurrences.filter fun o => o.transactionSequence = sequence).map
    DurableOccurrence.recordId
  { L with
    records := L.records.filter fun row => !recordIds.contains row.1
    events := L.events.filter fun recordId => !recordIds.contains recordId
    occurrences := L.occurrences.filter fun o => o.transactionSequence ≠ sequence
    transactions := L.transactions.filter fun transaction => transaction.1 ≠ sequence }

end Ledger

/-! ## The projections -/

/-- `ProjectionName`. -/
inductive ProjectionName where
  | subjectLookup | eventCursor
  deriving DecidableEq, Repr

/-- The name as it is spelled. -/
def ProjectionName.text : ProjectionName → String
  | .subjectLookup => "control-plane.subject-lookup"
  | .eventCursor => "control-plane.event-cursor"

/-- `ProjectionContract`. -/
structure ProjectionContract where
  contractVersion : ℕ
  transformationVersion : ℕ
  informationHandlingVersion : ℕ
  deriving DecidableEq, Repr

/-- `projectionContractRegistry`. -/
def ProjectionName.contract : ProjectionName → ProjectionContract
  | .subjectLookup => ⟨2, 2, 1⟩
  | .eventCursor => ⟨1, 1, 1⟩

/-- The keys of `projectionContractRegistry`. -/
def projectionNames : List ProjectionName := [.subjectLookup, .eventCursor]

/-- `ProjectionGeneration`. -/
structure Generation where
  projectionName : ProjectionName
  generationId : String
  contract : ProjectionContract
  sourceSequence : ℕ
  sourceDigest : String
  outputDigest : String
  evaluationTime : Instant
  builtAt : Instant
  rowCount : ℕ
  invariantResult : String

/-- A row of `projection_heads`. -/
structure Head where
  projectionName : ProjectionName
  contractVersion : ℕ
  generationId : String
  sourceSequence : ℕ
  publishedAt : Instant

/-- `ProjectedSubject`. -/
structure ProjectedSubject where
  subjectKind : String
  subjectId : String
  createdTransactionSequence : ℕ
  creationRecordId : String
  informationClass : InformationClass
  informationScope : Json

/-- A row of `projection_subject_lookup`. -/
structure SubjectLookupRow where
  generationId : String
  subject : ProjectedSubject

/-- **The tables of the projections.** -/
structure ProjectionTables where
  generations : List Generation
  heads : List Head
  subjectRows : List SubjectLookupRow
  eventRows : List EventCursorRow

/-- The tables without any projection. -/
def ProjectionTables.empty : ProjectionTables := ⟨[], [], [], []⟩

/-- **The tables of the control plane.** -/
structure ControlState where
  ledger : Ledger
  projections : ProjectionTables

/-! ## What a projection is built from -/

/-- A row of the sources of `control-plane.subject-lookup`. -/
structure SubjectSource where
  subject : Subject
  creation : DurableOccurrence
  recordClass : RecordClass

namespace SubjectSource

/-- The row that is kept of a subject. -/
def projected (source : SubjectSource) : ProjectedSubject :=
  ⟨source.subject.kind.text, source.subject.subjectId, source.subject.createdTransactionSequence,
    source.creation.recordId, source.creation.informationClass, source.creation.informationScope⟩

/-- `subjectProjectionSourceJson`. -/
def json (source : SubjectSource) : Json :=
  .object [("createdTransactionSequence",
      .number (.int source.subject.createdTransactionSequence)),
    ("creationKind", .text source.creation.kind),
    ("creationPayloadDigest", .text source.creation.payloadDigest),
    ("creationRecordClass", .text source.recordClass.text),
    ("creationRecordId", .text source.creation.recordId),
    ("creationSchemaVersion", .number (.int source.creation.schemaVersion)),
    ("informationClass", .text source.creation.informationClass.text),
    ("informationScope", source.creation.informationScope),
    ("subjectId", .text source.subject.subjectId),
    ("subjectKind", .text source.subject.kind.text)]

/-- What a subject is told apart by. -/
def identity (source : SubjectSource) : String :=
  source.subject.kind.text ++ "\u0000" ++ source.subject.subjectId

end SubjectSource

/-- `subjectProjectionOutputJson`, `subjectProjectionStoredOutputJson`. -/
def ProjectedSubject.json (subject : ProjectedSubject) : Json :=
  .object [("createdTransactionSequence", .number (.int subject.createdTransactionSequence)),
    ("creationRecordId", .text subject.creationRecordId),
    ("informationClass", .text subject.informationClass.text),
    ("informationScope", subject.informationScope), ("subjectId", .text subject.subjectId),
    ("subjectKind", .text subject.subjectKind)]

/-- The order of the subjects. -/
abbrev SubjectOrder := String ×ₗ String

/-- Where a subject stands. -/
def Subject.order (subject : Subject) : SubjectOrder :=
  toLex (subject.kind.text, subject.subjectId)

/-- Where a row of a subject stands. -/
def ProjectedSubject.order (subject : ProjectedSubject) : SubjectOrder :=
  toLex (subject.subjectKind, subject.subjectId)

namespace Ledger

variable (L : Ledger)

/-- Whether an occurrence is of a subject, in the transaction that created it. -/
def createdIn (subject : Subject) (o : DurableOccurrence) : Bool :=
  o.subjectKind = subject.kind.text && o.subjectId = subject.subjectId &&
    o.transactionSequence = subject.createdTransactionSequence

/-- The least position of a record of a subject, in the transaction that created it. -/
def creationPosition (subject : Subject) : Option ℕ :=
  ((L.occurrences.filter fun o => createdIn subject o &&
    L.records.any fun row => row.1 = o.recordId).map DurableOccurrence.transactionPosition).min?

/-- The sources of one subject. -/
def sourcesOf (subject : Subject) : List SubjectSource :=
  (L.occurrences.filter fun o => createdIn subject o &&
    some o.transactionPosition = L.creationPosition subject).flatMap fun o =>
      (L.records.filter fun row => row.1 = o.recordId).map fun row => ⟨subject, o, row.2⟩

/-- `subjectProjectionSources`. -/
def subjectProjectionSources (sourceSequence : ℕ) : List SubjectSource :=
  ((L.subjects.filter fun subject =>
      subject.createdTransactionSequence ≤ sourceSequence).flatMap L.sourcesOf).insertionSort
    fun a b => toLex (a.subject.order, a.creation.transactionPosition) ≤
      toLex (b.subject.order, b.creation.transactionPosition)

/-- `eventProjectionSources`. -/
def eventProjectionSources (sourceSequence : ℕ) : List DurableOccurrence :=
  ((L.events.flatMap fun recordId =>
      L.occurrences.filter fun o => o.recordId = recordId).filter fun o =>
    o.transactionSequence ≤ sourceSequence).insertionSort fun a b => a.key ≤ b.key

end Ledger

/-! ## Building a projection -/

/-- What a call builds its projections with: an identity for each, and the time. -/
structure Build where
  generationId : ProjectionName → String
  evaluationTime : Instant
  uuid : ∀ name, isUuidV7 (generationId name) = true

namespace ProjectionTables

variable (P : ProjectionTables)

/-- `insertProjectionGeneration`. -/
def insertProjectionGeneration (generation : Generation) : Except ControlError ProjectionTables := do
  refuseIf (∃ old ∈ P.generations, old.generationId = generation.generationId)
    (.error "UNIQUE constraint failed: projection_generations.generation_id")
  pure { P with generations := P.generations ++ [generation] }

/-- `INSERT INTO projection_subject_lookup`. -/
def insertSubjectRow (row : SubjectLookupRow) : Except ControlError ProjectionTables := do
  refuseIf (∃ old ∈ P.subjectRows, old.generationId = row.generationId ∧
      old.subject.order = row.subject.order)
    (.error "UNIQUE constraint failed: projection_subject_lookup.generation_id, projection_subject_lookup.subject_kind, projection_subject_lookup.subject_id")
  pure { P with subjectRows := P.subjectRows ++ [row] }

/-- `INSERT INTO projection_event_cursor`. -/
def insertEventRow (row : EventCursorRow) : Except ControlError ProjectionTables := do
  refuseIf (∃ old ∈ P.eventRows, old.generationId = row.generationId ∧
      old.event.recordId = row.event.recordId)
    (.error "UNIQUE constraint failed: projection_event_cursor.generation_id, projection_event_cursor.record_id")
  refuseIf (∃ old ∈ P.eventRows, old.generationId = row.generationId ∧
      old.event.key = row.event.key)
    (.error "UNIQUE constraint failed: projection_event_cursor.generation_id, projection_event_cursor.transaction_sequence, projection_event_cursor.transaction_position")
  pure { P with eventRows := P.eventRows ++ [row] }

/-- `publishProjectionGenerations`, of one generation. -/
def publish (publishedAt : Instant) (generation : Generation) :
    Except ControlError ProjectionTables := do
  let head : Head := ⟨generation.projectionName, generation.contract.contractVersion,
    generation.generationId, generation.sourceSequence, publishedAt⟩
  refuseIf (∃ old ∈ P.heads, old.projectionName ≠ head.projectionName ∧
      old.generationId = head.generationId)
    (.error "UNIQUE constraint failed: projection_heads.generation_id")
  pure { P with
    heads := if P.heads.any (fun old => old.projectionName = head.projectionName) = true then
        P.heads.map fun old => if old.projectionName = head.projectionName then head else old
      else P.heads ++ [head] }

end ProjectionTables

section Build

variable (digest : Json → String)

/-- The generation of a projection, of what it is built from. -/
def generationOf (name : ProjectionName) (build : Build) (sourceSequence : ℕ)
    (source output : List Json) : Generation where
  projectionName := name
  generationId := build.generationId name
  contract := name.contract
  sourceSequence
  sourceDigest := digest (.array source)
  outputDigest := digest (.array output)
  evaluationTime := build.evaluationTime
  builtAt := build.evaluationTime
  rowCount := output.length
  invariantResult := "ok"

/-- **`buildProjectionShadow`.** -/
def buildProjectionShadow (L : Ledger) (name : ProjectionName) (sourceSequence : ℕ) (build : Build)
    (P : ProjectionTables) : Except ControlError (Generation × ProjectionTables) :=
  match name with
  | .subjectLookup => do
    let sources := L.subjectProjectionSources sourceSequence
    let subjectCount := (L.subjects.filter fun subject =>
      subject.createdTransactionSequence ≤ sourceSequence).length
    let identities := (sources.map SubjectSource.identity).dedup
    refuseIf (sources.length ≠ subjectCount ∨ identities.length ≠ subjectCount)
      (.error "subject-lookup projection requires exactly one creation record per subject")
    let outputs := sources.map SubjectSource.projected
    let generation := generationOf digest .subjectLookup build sourceSequence
      (sources.map SubjectSource.json) (outputs.map ProjectedSubject.json)
    let inserted ← P.insertProjectionGeneration generation
    let written ← (outputs.map (⟨generation.generationId, ·⟩)).foldlM
      ProjectionTables.insertSubjectRow inserted
    pure (generation, written)
  | .eventCursor => do
    let sources := L.eventProjectionSources sourceSequence
    let outputs := sources.map DurableOccurrence.projected
    let generation := generationOf digest .eventCursor build sourceSequence
      (sources.map DurableOccurrence.sourceJson) (outputs.map ProjectedEvent.outputJson)
    let inserted ← P.insertProjectionGeneration generation
    let written ← (outputs.map (⟨generation.generationId, ·⟩)).foldlM
      ProjectionTables.insertEventRow inserted
    pure (generation, written)

/-- The two projections are built, and then published. -/
def buildAndPublish (L : Ledger) (build : Build) (P : ProjectionTables) :
    Except ControlError ProjectionTables := do
  let (subjects, P₁) ←
    buildProjectionShadow digest L .subjectLookup L.lastTransactionSequence build P
  let (events, P₂) ←
    buildProjectionShadow digest L .eventCursor L.lastTransactionSequence build P₁
  let P₃ ← P₂.publish build.evaluationTime subjects
  P₃.publish build.evaluationTime events

/-! ## Reading a projection -/

/-- `decodeProjectionGeneration`. -/
def decodeProjectionGeneration (generation : Generation) : Except ControlError Unit := do
  let name := generation.projectionName.text
  refuseIf (isUuidV7 generation.generationId = false)
    (.error s!"projection generation ID is not UUIDv7: {name}")
  refuseIf (generation.contract.contractVersion < 1 ∨
      generation.contract.transformationVersion < 1 ∨
      generation.contract.informationHandlingVersion < 1 ∨ generation.sourceSequence < 1)
    (.error s!"projection generation has invalid numeric metadata: {name}")
  refuseIf (Patterns.sha256Digest.test generation.sourceDigest = false ∨
      Patterns.sha256Digest.test generation.outputDigest = false)
    (.error s!"projection generation has invalid digest metadata: {name}")
  refuseIf (generation.evaluationTime ≠ generation.builtAt)
    (.error s!"projection {name} evaluation and build times differ")
  refuseIf (generation.invariantResult ≠ "ok")
    (.error s!"projection {name} has an invalid invariant result")

namespace ProjectionTables

variable (P : ProjectionTables)

/-- The row of the join of a head with its generation. -/
def headOf (name : ProjectionName) : Option (Head × Generation) := do
  let head ← P.heads.find? fun head => head.projectionName = name
  let generation ← P.generations.find? fun generation =>
    generation.generationId = head.generationId
  pure (head, generation)

/-- **`activeProjectionGeneration`.** -/
def activeProjectionGeneration (name : ProjectionName) : Except ControlError Generation :=
  match P.headOf name with
  | none => .error (.error s!"projection {name.text} has no active generation")
  | some (head, generation) => do
    decodeProjectionGeneration generation
    refuseIf (generation.projectionName ≠ name)
      (.error s!"projection {name.text} head points to another contract")
    refuseIf (head.contractVersion ≠ generation.contract.contractVersion ∨
        head.sourceSequence ≠ generation.sourceSequence)
      (.error s!"projection {name.text} head lineage does not match its generation")
    pure generation

/-- The subjects that a generation keeps, in their order. -/
def storedSubjects (generationId : String) : List ProjectedSubject :=
  ((P.subjectRows.filter fun row => row.generationId = generationId).map
    SubjectLookupRow.subject).insertionSort fun a b => a.order ≤ b.order

/-- The events that a generation keeps, in their order. -/
def storedEvents (generationId : String) : List ProjectedEvent :=
  ((P.eventRows.filter fun row => row.generationId = generationId).map
    EventCursorRow.event).insertionSort fun a b => a.key ≤ b.key

end ProjectionTables

/-- What a generation is checked against: its sources, what it keeps, and how many rows of it are
in the table of the other projection. -/
def materialOf (s : ControlState) (generation : Generation) : List Json × List Json × ℕ :=
  let id := generation.generationId
  match generation.projectionName with
  | .subjectLookup =>
    ((s.ledger.subjectProjectionSources generation.sourceSequence).map SubjectSource.json,
      (s.projections.storedSubjects id).map ProjectedSubject.json,
      (s.projections.eventRows.filter fun row => row.generationId = id).length)
  | .eventCursor =>
    ((s.ledger.eventProjectionSources generation.sourceSequence).map DurableOccurrence.sourceJson,
      (s.projections.storedEvents id).map ProjectedEvent.outputJson,
      (s.projections.subjectRows.filter fun row => row.generationId = id).length)

/-- **`verifyProjectionGeneration`.** -/
def verifyProjectionGeneration (s : ControlState) (generation : Generation) :
    Except ControlError Unit := do
  let name := generation.projectionName.text
  refuseIf (generation.contract ≠ generation.projectionName.contract)
    (.error s!"projection {name} has an unknown contract version")
  refuseIf (generation.invariantResult ≠ "ok")
    (.error s!"projection {name} did not pass its invariants")
  let (source, output, wrongTableCount) := materialOf s generation
  refuseIf (wrongTableCount ≠ 0)
    (.error s!"projection {name} contains rows for another contract")
  refuseIf (output.length ≠ generation.rowCount)
    (.error s!"projection {name} row-count mismatch")
  refuseIf (digest (.array source) ≠ generation.sourceDigest)
    (.error s!"projection {name} source digest mismatch")
  refuseIf (digest (.array output) ≠ generation.outputDigest)
    (.error s!"projection {name} output digest mismatch")

/-- The refusals of `verifyProjectionCatalog` for one generation. -/
def verifyCatalogGeneration (L : Ledger) (generation : Generation) : Except ControlError Unit := do
  decodeProjectionGeneration generation
  refuseIf (generation.contract ≠ generation.projectionName.contract)
    (.error s!"unknown projection contract version: {generation.projectionName.text}")
  refuseIf (L.lastTransactionSequence < generation.sourceSequence)
    (.error s!"projection source watermark is ahead of authoritative state: {generation.projectionName.text}")

/-- The refusals of `verifyProjectionCatalog` for one head. -/
def verifyCatalogHead (P : ProjectionTables) (head : Head) : Except ControlError Unit :=
  refuseIf (∀ generation ∈ P.generations, generation.generationId = head.generationId →
      generation.projectionName ≠ head.projectionName ∨
        head.contractVersion ≠ generation.contract.contractVersion ∨
        head.sourceSequence ≠ generation.sourceSequence)
    (.error s!"projection head lineage mismatch: {head.projectionName.text}")

/-- **`verifyProjectionCatalog`.** -/
def verifyProjectionCatalog (s : ControlState) : Except ControlError Unit := do
  s.projections.generations.forM (verifyCatalogGeneration s.ledger)
  refuseIf (¬ (s.projections.heads.map Head.projectionName).Perm projectionNames)
    (.error "projection head registry mismatch")
  s.projections.heads.forM (verifyCatalogHead s.projections)

/-! ## The commands -/

/-- **`rebuildProjections`.** -/
def rebuildProjections (s : ControlState) (build : Build) : Except ControlError ControlState := do
  verifyProjectionCatalog s
  let projections ← buildAndPublish digest s.ledger build s.projections
  pure { s with projections }

/-- **`repairProjections`**: the projections are deleted, whatever they are. -/
def repairProjections (s : ControlState) (build : Build) : Except ControlError ControlState := do
  let projections ← buildAndPublish digest s.ledger build .empty
  pure { s with projections }

/-- **`pruneCoreCheckDetail`**, with the checks it chooses. -/
def pruneCoreCheckDetail (s : ControlState) (chosen : ℕ → Bool) (call : Call) (build : Build) :
    Except ControlError ControlState := do
  refuseIf (∃ history ∈ s.ledger.checkDetails, history.2.length ≠ 2)
    (.error "Core check-detail transaction does not contain exactly two occurrences")
  let toDelete := (s.ledger.checkDetails.map Prod.fst).filter chosen
  let kept := toDelete.foldl Ledger.deleteTransaction s.ledger
  let ledger ← kept.record .pruneCheckDetail call
  let projections ← buildAndPublish digest ledger build .empty
  pure ⟨ledger, projections⟩

/-- What a database is initialized with. -/
structure Initialization where
  databaseLineageId : String
  operatorPrincipalId : String
  call : Call
  build : Build

/-- **`initialize`.** -/
def initializeControlPlane (input : Initialization) : Except ControlError ControlState := do
  let new : Ledger := ⟨input.databaseLineageId, input.operatorPrincipalId, 0, [], [], [], [], []⟩
  let ledger ← new.record .initializeControlPlane input.call
  let projections ← buildAndPublish digest ledger input.build .empty
  pure ⟨ledger, projections⟩

/-- **A command of the control plane.** -/
inductive ControlCommand where
  | write (command : CommandKind) (records : command.onlyRecords = true) (call : Call)
  | rebuildProjections (build : Build)
  | repairProjections (build : Build)
  | pruneCoreCheckDetail (chosen : ℕ → Bool) (call : Call) (build : Build)

/-- The transaction of a command. -/
def ControlCommand.run (s : ControlState) : ControlCommand → Except ControlError ControlState
  | .write command _ call => do
    let ledger ← s.ledger.record command call
    pure { s with ledger }
  | .rebuildProjections build => Projections.rebuildProjections digest s build
  | .repairProjections build => Projections.repairProjections digest s build
  | .pruneCoreCheckDetail chosen call build =>
    Projections.pruneCoreCheckDetail digest s chosen call build

/-- **The control plane**: a command that throws leaves the tables as they were. -/
def controlLedger (s : ControlState) : Machine ControlState ControlCommand (Except ControlError Unit)
    where
  start := s
  step s command :=
    match command.run digest s with
    | .ok s' => (.ok (), s')
    | .error e => (.error e, s)

end Build

end Snowcat.Projections
