import Mathlib.Data.Int.Order.Basic
import Mathlib.Data.List.Sort
import Mathlib.Data.Prod.Lex
import Snowcat.Control.Encoding
import Snowcat.Lib.Instant
import Snowcat.Lib.Machine
import Snowcat.Lib.Paging
import Snowcat.Sweep.GitHub

/-!
# The event cursor of the control plane

What a command records is a transaction of occurrences, and some of them are
events. A projection of the events is built from time to time: a generation
keeps a row for each event that was recorded until then, with the digests
that a reader checks it against. The reader (`projectedEvents`) shows the
rows behind a cursor that its caller may see.

The event cursor is one of two projections; the other one, of the subjects,
is left out, and so is what a command records its occurrences for.
-/

namespace Snowcat

open Calendar (Instant)
open Patterns Pattern

/-! ## The tables -/

/-- `informationClasses`, in their order. -/
inductive InformationClass where
  | publicInformation | organization | restricted
  deriving DecidableEq, Repr

/-- `informationClasses.indexOf`. -/
def InformationClass.index : InformationClass → ℕ
  | .publicInformation => 0
  | .organization => 1
  | .restricted => 2

/-- `informationClassAtLeast`. -/
def informationClassAtLeast (actual minimum : InformationClass) : Bool :=
  minimum.index ≤ actual.index

/-- `occurrence_type`. -/
inductive OccurrenceType where
  | record | event
  deriving DecidableEq, Repr

/-- A row of `durable_occurrences`, with the columns that the event cursor
reads. The events are also listed in `event_ledger`. -/
structure DurableOccurrence where
  recordId : String
  occurrenceType : OccurrenceType
  kind : String
  schemaVersion : ℕ
  subjectKind : String
  subjectId : String
  correlationId : String
  informationClass : InformationClass
  informationScope : Json
  payloadDigest : String
  transactionSequence : ℕ
  transactionPosition : ℕ
  recordedAt : Instant

/-- `ProjectedEvent`. -/
structure ProjectedEvent where
  recordId : String
  kind : String
  schemaVersion : ℕ
  subjectKind : String
  subjectId : String
  correlationId : String
  informationClass : InformationClass
  informationScope : Json
  transactionSequence : ℕ
  transactionPosition : ℕ
  recordedAt : Instant

/-- Where an occurrence stands in the ledger. -/
abbrev LedgerKey := ℤ ×ₗ ℤ

/-- The transaction and the position in it. -/
def DurableOccurrence.key (o : DurableOccurrence) : LedgerKey :=
  toLex ((o.transactionSequence : ℤ), (o.transactionPosition : ℤ))

/-- The transaction and the position in it. -/
def ProjectedEvent.key (e : ProjectedEvent) : LedgerKey :=
  toLex ((e.transactionSequence : ℤ), (e.transactionPosition : ℤ))

/-- `ProjectionGeneration`, of the event cursor. -/
structure ProjectionGeneration where
  generationId : String
  contractVersion : ℕ
  transformationVersion : ℕ
  informationHandlingVersion : ℕ
  sourceSequence : ℕ
  sourceDigest : String
  outputDigest : String
  evaluationTime : Instant
  builtAt : Instant
  rowCount : ℕ
  deriving DecidableEq

/-- The row of `projection_heads`. -/
structure ProjectionHead where
  contractVersion : ℕ
  generationId : String
  sourceSequence : ℕ
  publishedAt : Instant
  deriving DecidableEq

/-- A row of `projection_event_cursor`. -/
structure EventCursorRow where
  generationId : String
  event : ProjectedEvent

/-- The tables the event cursor is built from and kept in. -/
structure ControlTables where
  occurrences : List DurableOccurrence
  lastTransactionSequence : ℕ
  generations : List ProjectionGeneration
  head : Option ProjectionHead
  eventRows : List EventCursorRow

/-- The tables of a new database. -/
def ControlTables.empty : ControlTables := ⟨[], 0, [], none, []⟩

/-! ## Recording a transaction -/

/-- `insertOccurrence`, under the constraints of the table. -/
def insertOccurrence (s : ControlTables) (o : DurableOccurrence) :
    Except ControlError ControlTables := do
  refuseIf (∃ old ∈ s.occurrences, old.recordId = o.recordId)
    (.error "UNIQUE constraint failed: durable_occurrences.record_id")
  refuseIf (∃ old ∈ s.occurrences, old.key = o.key)
    (.error "UNIQUE constraint failed: durable_occurrences.transaction_sequence, durable_occurrences.transaction_position")
  pure { s with occurrences := s.occurrences ++ [o] }

/-- What every command does that records a transaction: its occurrences get the
next sequence. -/
def recordTransaction (s : ControlTables) (occurrences : List DurableOccurrence) :
    Except ControlError ControlTables := do
  let sequence := s.lastTransactionSequence + 1
  let s' ← (occurrences.map fun o => { o with transactionSequence := sequence }).foldlM
    insertOccurrence s
  pure { s' with lastTransactionSequence := sequence }

/-! ## Building a generation -/

section Build

variable (digest : Json → String)

/-- `eventProjectionSources`. -/
def eventProjectionSources (s : ControlTables) (sourceSequence : ℕ) : List DurableOccurrence :=
  (s.occurrences.filter fun o =>
    o.occurrenceType = .event && decide (o.transactionSequence ≤ sourceSequence)).insertionSort
    fun a b => a.key ≤ b.key

/-- The text of an information class. -/
def InformationClass.text : InformationClass → String
  | .publicInformation => "public"
  | .organization => "organization"
  | .restricted => "restricted"

/-- What is kept of an event. -/
def DurableOccurrence.projected (o : DurableOccurrence) : ProjectedEvent :=
  ⟨o.recordId, o.kind, o.schemaVersion, o.subjectKind, o.subjectId, o.correlationId,
    o.informationClass, o.informationScope, o.transactionSequence, o.transactionPosition,
    o.recordedAt⟩

/-- `eventProjectionOutputJson`, `eventProjectionStoredOutputJson`. -/
def ProjectedEvent.outputJson (e : ProjectedEvent) : Json :=
  .object [("correlationId", .text e.correlationId),
    ("informationClass", .text e.informationClass.text),
    ("informationScope", e.informationScope), ("kind", .text e.kind),
    ("recordId", .text e.recordId), ("recordedAt", .text e.recordedAt.text),
    ("schemaVersion", .number (.int e.schemaVersion)), ("subjectId", .text e.subjectId),
    ("subjectKind", .text e.subjectKind),
    ("transactionPosition", .number (.int e.transactionPosition)),
    ("transactionSequence", .number (.int e.transactionSequence))]

/-- `eventProjectionSourceJson`. -/
def DurableOccurrence.sourceJson (o : DurableOccurrence) : Json :=
  .object [("correlationId", .text o.correlationId),
    ("informationClass", .text o.informationClass.text),
    ("informationScope", o.informationScope), ("kind", .text o.kind),
    ("payloadDigest", .text o.payloadDigest), ("recordId", .text o.recordId),
    ("recordedAt", .text o.recordedAt.text),
    ("schemaVersion", .number (.int o.schemaVersion)), ("subjectId", .text o.subjectId),
    ("subjectKind", .text o.subjectKind),
    ("transactionPosition", .number (.int o.transactionPosition)),
    ("transactionSequence", .number (.int o.transactionSequence))]

/-- The digest of what a generation is built from. -/
def sourceDigestOf (sources : List DurableOccurrence) : String :=
  digest (.array (sources.map DurableOccurrence.sourceJson))

/-- The digest of what a generation keeps. -/
def outputDigestOf (events : List ProjectedEvent) : String :=
  digest (.array (events.map ProjectedEvent.outputJson))

/-- What a generation is built with: the identifier that is drawn, and the
clock. -/
structure ProjectionBuild where
  generationId : String
  evaluationTime : Instant

/-- The generation that `buildProjectionShadow` builds. -/
def builtGeneration (s : ControlTables) (sourceSequence : ℕ) (build : ProjectionBuild) :
    ProjectionGeneration :=
  let sources := eventProjectionSources s sourceSequence
  { generationId := build.generationId
    contractVersion := 1
    transformationVersion := 1
    informationHandlingVersion := 1
    sourceSequence
    sourceDigest := sourceDigestOf digest sources
    outputDigest := outputDigestOf digest (sources.map DurableOccurrence.projected)
    evaluationTime := build.evaluationTime
    builtAt := build.evaluationTime
    rowCount := sources.length }

/-- `buildProjectionShadow`, then `publishProjectionGenerations`. -/
def buildAndPublish (s : ControlTables) (sourceSequence : ℕ) (build : ProjectionBuild) :
    Except ControlError ControlTables := do
  let generation := builtGeneration digest s sourceSequence build
  refuseIf (∃ old ∈ s.generations, old.generationId = generation.generationId)
    (.error "UNIQUE constraint failed: projection_generations.generation_id")
  pure { s with
    generations := s.generations ++ [generation]
    eventRows := s.eventRows ++ (eventProjectionSources s sourceSequence).map fun o =>
      ⟨generation.generationId, o.projected⟩
    head := some ⟨generation.contractVersion, generation.generationId, sourceSequence,
      build.evaluationTime⟩ }

/-- The tables without any projection. -/
def ControlTables.withoutProjections (s : ControlTables) : ControlTables :=
  { s with generations := [], head := none, eventRows := [] }

/-! ## The commands -/

/-- **A command of the control plane**, as far as the event cursor is concerned. -/
inductive ControlCommand where
  /-- Any command that records a transaction. -/
  | record (occurrences : List DurableOccurrence)
  | rebuildProjections (build : ProjectionBuild)
  | repairProjections (build : ProjectionBuild)
  /-- The command deletes the details of whole transactions, and records that it
  did. -/
  | pruneCoreCheckDetail (deleted : ℕ → Bool) (occurrences : List DurableOccurrence)
      (build : ProjectionBuild)

/-- The transaction of a command. -/
def ControlCommand.run (s : ControlTables) : ControlCommand → Except ControlError ControlTables
  | .record occurrences => recordTransaction s occurrences
  | .rebuildProjections build => buildAndPublish digest s s.lastTransactionSequence build
  | .repairProjections build =>
    buildAndPublish digest s.withoutProjections s.lastTransactionSequence build
  | .pruneCoreCheckDetail deleted occurrences build => do
    let kept := s.occurrences.filter fun o => !deleted o.transactionSequence
    let recorded ← recordTransaction { s.withoutProjections with occurrences := kept } occurrences
    buildAndPublish digest recorded recorded.lastTransactionSequence build

/-- **The control plane**: a command that throws leaves the tables as they were. -/
def controlPlane : Machine ControlTables ControlCommand (Except ControlError Unit) where
  start := .empty
  step s command :=
    match command.run digest s with
    | .ok s' => (.ok (), s')
    | .error e => (.error e, s)

/-! ## Reading -/

/-- `ProjectionAccess`. -/
structure ProjectionAccess where
  maximumInformationClass : InformationClass
  deploymentIds : List String
  deriving DecidableEq, Repr

/-- `assertProjectionAccess`. -/
def assertProjectionAccess (access : ProjectionAccess) : Except ControlError Unit :=
  refuseIf (∃ id ∈ access.deploymentIds, isUuidV7 id = false)
    (.error "projection access deploymentIds must contain only UUIDv7 identities")

/-- `isExactDeploymentScope`, with the deployment. -/
def exactDeploymentScope : Json → Option String
  | .object [("deploymentId", .text id)] => if isUuidV7 id = true then some id else none
  | _ => none

/-- `canAccessProjectionRow`. -/
def canAccessProjectionRow (access : ProjectionAccess) (informationClass : InformationClass)
    (informationScope : Json) : Bool :=
  informationClassAtLeast access.maximumInformationClass informationClass &&
    (exactDeploymentScope informationScope).any access.deploymentIds.contains

/-- The refusals of `decodeProjectionGeneration`. -/
def decodeProjectionGeneration (generation : ProjectionGeneration) : Except ControlError Unit := do
  let name := "control-plane.event-cursor"
  refuseIf (isUuidV7 generation.generationId = false)
    (.error s!"projection generation ID is not UUIDv7: {name}")
  refuseIf (generation.contractVersion < 1 ∨ generation.transformationVersion < 1 ∨
      generation.informationHandlingVersion < 1 ∨ generation.sourceSequence < 1)
    (.error s!"projection generation has invalid numeric metadata: {name}")
  refuseIf (Patterns.sha256Digest.test generation.sourceDigest = false ∨
      Patterns.sha256Digest.test generation.outputDigest = false)
    (.error s!"projection generation has invalid digest metadata: {name}")
  refuseIf (generation.evaluationTime ≠ generation.builtAt)
    (.error s!"projection {name} evaluation and build times differ")

/-- `activeProjectionGeneration`. -/
def activeProjectionGeneration (s : ControlTables) : Except ControlError ProjectionGeneration :=
  let found := s.head.bind fun head =>
    (s.generations.find? fun generation => generation.generationId = head.generationId).map
      fun generation => (head, generation)
  match found with
  | none => .error (.error "projection control-plane.event-cursor has no active generation")
  | some (head, generation) => do
    decodeProjectionGeneration generation
    refuseIf (head.contractVersion ≠ generation.contractVersion ∨
        head.sourceSequence ≠ generation.sourceSequence)
      (.error "projection control-plane.event-cursor head lineage does not match its generation")
    pure generation

/-- The rows of a generation, in their order. -/
def storedEvents (s : ControlTables) (generationId : String) : List ProjectedEvent :=
  ((s.eventRows.filter fun row => row.generationId = generationId).map
    EventCursorRow.event).insertionSort fun a b => a.key ≤ b.key

/-- `verifyProjectionGeneration`. -/
def verifyProjectionGeneration (s : ControlTables) (generation : ProjectionGeneration) :
    Except ControlError Unit := do
  let name := "control-plane.event-cursor"
  refuseIf (generation.contractVersion ≠ 1 ∨ generation.transformationVersion ≠ 1 ∨
      generation.informationHandlingVersion ≠ 1)
    (.error s!"projection {name} has an unknown contract version")
  let sources := eventProjectionSources s generation.sourceSequence
  let outputs := storedEvents s generation.generationId
  refuseIf (outputs.length ≠ generation.rowCount)
    (.error s!"projection {name} row-count mismatch")
  refuseIf (sourceDigestOf digest sources ≠ generation.sourceDigest)
    (.error s!"projection {name} source digest mismatch")
  refuseIf (outputDigestOf digest outputs ≠ generation.outputDigest)
    (.error s!"projection {name} output digest mismatch")

/-- An event cursor. -/
structure EventCursor where
  transactionSequence : ℤ
  transactionPosition : ℤ
  deriving DecidableEq, Repr

/-- The cursor before every event. -/
def EventCursor.start : EventCursor := ⟨0, -1⟩

/-- The cursor at an event. -/
def ProjectedEvent.cursor (e : ProjectedEvent) : EventCursor :=
  ⟨e.transactionSequence, e.transactionPosition⟩

/-- The refusals of the arguments of `projectedEvents`. -/
def assertEventPage (access : ProjectionAccess) (after : EventCursor) (limit : JsNumber) :
    Except ControlError Unit := do
  assertProjectionAccess access
  refuseIf (after.transactionSequence < 0)
    (.error "event cursor transactionSequence must be a non-negative safe integer")
  refuseIf (after.transactionPosition < -1)
    (.error "event cursor transactionPosition must be a safe integer of at least -1")
  refuseIf (limit.isSafeInteger = false ∨ limit.toInt < 1 ∨ 1000 < limit.toInt)
    (.error "event cursor limit must be a safe integer from 1 through 1000")

/-- Whether a row is behind a cursor, as the query asks it. -/
def ProjectedEvent.isBehind (after : EventCursor) (e : ProjectedEvent) : Bool :=
  after.transactionSequence < e.transactionSequence ||
    ((e.transactionSequence : ℤ) = after.transactionSequence &&
      after.transactionPosition < e.transactionPosition)

/-- The event of the ledger that a row was kept of. -/
def sourceOf (s : ControlTables) (e : ProjectedEvent) : Option DurableOccurrence :=
  s.occurrences.find? fun o => o.recordId = e.recordId && o.occurrenceType = .event

/-- The rows of a generation behind a cursor, each with its event. -/
def eventRowsBehind (s : ControlTables) (generationId : String) (after : EventCursor) :
    List (ProjectedEvent × DurableOccurrence) :=
  (((s.eventRows.filter fun row =>
      row.generationId = generationId && row.event.isBehind after).map
    EventCursorRow.event).insertionSort fun a b => a.key ≤ b.key).filterMap fun e =>
      (sourceOf s e).map fun o => (e, o)

/-- `decodeProjectedEvent`: who may see an event is what its occurrence says
now. -/
def decodeProjectedEvent (row : ProjectedEvent × DurableOccurrence) : ProjectedEvent :=
  { row.1 with
    informationClass := row.2.informationClass
    informationScope := row.2.informationScope }

/-- `ProjectionReadResult`. -/
structure ProjectionReadResult where
  generation : ProjectionGeneration
  stale : Bool
  rows : List ProjectedEvent

/-- **`projectedEvents`.** -/
def projectedEvents (s : ControlTables) (access : ProjectionAccess) (after : EventCursor)
    (limit : JsNumber) : Except ControlError ProjectionReadResult := do
  assertEventPage access after limit
  let generation ← activeProjectionGeneration s
  verifyProjectionGeneration digest s generation
  let rows := eventRowsBehind s generation.generationId after
  pure
    { generation
      stale := generation.sourceSequence ≠ s.lastTransactionSequence
      rows := ((rows.filter fun row =>
          canAccessProjectionRow access row.2.informationClass row.2.informationScope).take
        limit.toInt.toNat).map decodeProjectedEvent }

end Build

end Snowcat
