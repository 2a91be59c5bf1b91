import Snowcat.Lib.Sessions
import Snowcat.Queue.Operator

/-!
# The projections of the queue

The two reads whose answers are more than a row: the attempts of an item,
which are its leases as the newest part of the ledger recorded them, and
the contract audit, which lists the work in flight that could not be
delivered as it stands. Neither writes anything; the first may read the
clock.
-/

namespace Snowcat

open Sessions (newest)

/-! ## Attempts -/

/-- `MAX_ITEM_ATTEMPTS`. -/
def maxItemAttempts : ℤ := 10

/-- `ATTEMPT_OUTCOME_BY_EVENT`. -/
def EventType.attemptOutcome : EventType → Option AttemptOutcome
  | .workCompleted => some .completed
  | .workBlocked => some .blocked
  | .workReleased => some .released
  | .leaseExpired => some .expired
  | _ => none

/-- Whether an event opens or ends a lease. -/
def EventType.isLifecycle (type : EventType) : Bool :=
  type = .workClaimed || type.attemptOutcome.isSome

/-- The lifecycle events of an item, oldest first. -/
def lifecycle (db : Db) (id : String) : List WorkEvent :=
  (db.ledger.of id).filter fun e => e.type.isLifecycle

/-- When an event ended the lease: an expiry names the instant, every other
event is it. -/
def WorkEvent.endedAt (e : WorkEvent) : Time :=
  match e.payload with
  | .leaseExpired _ (some expiresAt) => expiresAt
  | _ => e.occurredAt

/-- The attempt a claim opens. A label of another shape than a claim's is
not published. -/
def openAttempt (e : WorkEvent) : WorkAttempt :=
  let published : Option String × Option (List String) := match e.payload with
    | .workClaimed _ label kindsRestriction _ => (label, kindsRestriction)
    | _ => (none, none)
  { sequence := e.sequence
    claimedAt := e.occurredAt
    worker := e.actor
    label := published.1.filter (fun label => Patterns.claimLabel.test label)
    kindsRestriction := published.2
    outcome := none
    endedAt := none
    endedBy := none }

/-- The attempt an event closes. -/
def WorkAttempt.closedBy (attempt : WorkAttempt) (e : WorkEvent) : WorkAttempt :=
  { attempt with
    outcome := e.type.attemptOutcome
    endedAt := some e.endedAt
    endedBy := some e.actor }

/-- One event of the loop of `attempts`. An end with no open attempt before
it belongs to one the window cut off. -/
def recordAttempt (attempts : List WorkAttempt) (e : WorkEvent) : List WorkAttempt :=
  if e.type = .workClaimed then attempts ++ [openAttempt e]
  else
    match attempts.getLast? with
    | none => attempts
    | some newest =>
      if newest.outcome.isSome = true then attempts
      else attempts.dropLast ++ [newest.closedBy e]

/-- An attempt whose lease is over with no event of the ledger saying so. -/
def WorkAttempt.lapsed (attempt : WorkAttempt) (endedAt : Time) : WorkAttempt :=
  { attempt with
    outcome := some .expired
    endedAt := some endedAt
    endedBy := some "system" }

section Attempts

variable (env : Env)

/-- What the clock says of the newest attempt, when it is still open. -/
def judgeOpenAttempt (item : WorkItem) (newest : WorkAttempt) : QueueTx WorkAttempt :=
  match item.rowStatus, item.leaseExpiresAt with
  | .claimed, none => pure newest
  | .claimed, some expiresAt => do
    let atTime ← now env
    if expiresAt ≤ atTime then pure (newest.lapsed expiresAt) else pure newest
  | _, some expiresAt => pure (newest.lapsed expiresAt)
  | _, none => do
    let atTime ← now env
    pure (newest.lapsed atTime)

/-- **`attempts`.** The query orders twice and `slice(-limit)` cuts: both
keep the newest, oldest first. -/
def attempts (id : String) (limit : JsNumber) : QueueTx (List WorkAttempt) := do
  Tx.failIf (limit.isSafeInteger = false ∨ limit.toInt < 1 ∨ maxItemAttempts < limit.toInt)
    (.error s!"limit must be between 1 and {maxItemAttempts}")
  let count := limit.toInt.toNat
  let db ← Tx.read World.db
  match db.items.find? id with
  | none => pure []
  | some item =>
    let rows := newest (2 * count + 1) (lifecycle db id)
    let recorded := rows.foldl recordAttempt []
    match recorded.getLast? with
    | none => pure []
    | some last =>
      if last.outcome.isSome = true then pure (newest count recorded)
      else do
        let judged ← judgeOpenAttempt env item last
        pure (newest count (recorded.dropLast ++ [judged]))

end Attempts

/-! ## The contract audit -/

/-- A finding of the audit. -/
structure ContractFinding where
  id : String
  repository : String
  kind : String
  status : WorkStatus
  parentId : Option String
  allowedActions : List AllowedAction
  requiredArtifact : RequiredArtifact
  executionTarget : Option ExecutionTarget
  problem : ContractProblemCode
  message : String
  suggestedCommand : String
  deriving DecidableEq, Repr

/-- The problem the audit finds with a row: its contract, no execution
target, or no policy although a policy authority is configured. -/
def auditProblem (env : Env) (item : WorkItem) : Option ContractProblem :=
  contractProblem item.contract <|>
    (if item.executionTarget = none then
      some ⟨.undeclaredExecutionTarget, "the item predates ADR-0073 and declares no executionTarget"⟩
    else none) <|>
    (if env.policyAuthority.isSome = true ∧ item.policy = none then
      some ⟨.unboundPolicy, "the item predates ADR-0074 and carries no policy binding"⟩
    else none)

/-- The command the audit suggests for an item. -/
def suggestedCommand (item : WorkItem) : String :=
  match item.status with
  | .proposed => s!"reject {item.id} \"<reason>\""
  | .claimed =>
    s!"note {item.id} \"<text>\" (cancel once the lease ends; the worker can only block or release)"
  | _ => s!"cancel {item.id} \"<reason>\""

/-- The finding about a row. -/
def contractFinding (item : WorkItem) (problem : ContractProblem) : ContractFinding where
  id := item.id
  repository := item.repository
  kind := item.kind
  status := item.status
  parentId := item.parentId
  allowedActions := item.allowedActions
  requiredArtifact := item.requiredArtifact
  executionTarget := item.executionTarget
  problem := problem.code
  message := problem.message
  suggestedCommand := suggestedCommand item

/-- **`auditContracts`**: the findings over the work in flight, oldest
first. -/
def auditContracts (env : Env) (db : Db) (repository : Option String) :
    Except QueueError (List ContractFinding) := do
  refuseSome validateRepository repository
  let rows := (db.items.rows.filter fun item =>
    !item.rowStatus.isTerminal && decide (∀ slug ∈ repository, item.repository = slug)).mergeSort
      fun a b => if a.createdAt = b.createdAt then binaryLe a.id b.id
        else decide (a.createdAt < b.createdAt)
  pure (rows.filterMap fun item => (auditProblem env item).map (contractFinding item))

end Snowcat
