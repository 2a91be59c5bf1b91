import Snowcat.Queue.Policy

/-!
# Defining work

The paths that create work items other than a completion: seeds, the
feeder's batch, cure and review roots, and imported proposals. Each checks
its definition and its bindings in its own order, and all of them end in
`insertWork`, which binds the policy before it writes the row.
-/

namespace Snowcat

/-- What `insertWork` is given. -/
structure NewWork where
  id : String
  rootId : String
  parentId : Option String := none
  repository : String
  kind : String
  objective : String
  instructions : String
  acceptanceCriteria : List String
  allowedActions : List AllowedAction
  delegableActions : List AllowedAction
  requiredArtifact : RequiredArtifact
  executionTarget : Option ExecutionTarget
  priority : ℤ
  createdBy : String
  admitted : Bool
  createdAt : Time
  sourceRef : Option String := none
  predecessors : Option (List String) := none
  cure : Option PullRequestCure := none
  review : Option PullRequestReview := none

namespace NewWork

/-- The subject its policy is bound for. -/
def policySubject (work : NewWork) : PolicySubject where
  repository := work.repository
  kind := work.kind
  allowedActions := work.allowedActions
  delegableActions := work.delegableActions
  createdBy := work.createdBy
  admitted := work.admitted

/-- The row it is stored as. An empty list of predecessors is stored as
none. -/
def row (work : NewWork) (policy : Option PolicyRecord) : WorkItem where
  id := work.id
  rootId := work.rootId
  parentId := work.parentId
  repository := work.repository
  kind := work.kind
  objective := work.objective
  instructions := work.instructions
  acceptanceCriteria := work.acceptanceCriteria
  allowedActions := work.allowedActions
  delegableActions := work.delegableActions
  requiredArtifact := work.requiredArtifact
  executionTarget := work.executionTarget
  policy
  priority := work.priority
  rowStatus := .queued
  admitted := work.admitted
  createdBy := work.createdBy
  sourceRef := work.sourceRef
  predecessors := work.predecessors.filter (fun predecessors => predecessors ≠ [])
  cure := work.cure
  review := work.review
  createdAt := work.createdAt
  updatedAt := work.createdAt
  leaseOwner := none
  leaseToken := none
  leaseExpiresAt := none
  result := none
  operatorNotes := []
  previousResults := []

end NewWork

/-- What a root is made of besides its id and its instant: the definition it
was asked for with, and what its path binds it to. -/
structure RootWork where
  definition : WorkDefinition
  repository : String
  admitted : Bool
  sourceRef : Option String := none
  predecessors : Option (List String) := none
  cure : Option PullRequestCure := none
  review : Option PullRequestReview := none

/-- The root under its id: `rootId` is its own, and a priority that is not
given is 0. -/
def RootWork.withId (root : RootWork) (id : String) (createdAt : Time) : NewWork where
  id
  rootId := id
  repository := root.repository
  kind := root.definition.kind
  objective := root.definition.objective
  instructions := root.definition.instructions
  acceptanceCriteria := root.definition.acceptanceCriteria
  allowedActions := root.definition.allowedActions
  delegableActions := root.definition.delegableActions
  requiredArtifact := root.definition.requiredArtifact.getD .none
  executionTarget := root.definition.executionTarget
  priority := (root.definition.priority.map JsNumber.toInt).getD 0
  createdBy := root.definition.createdBy
  admitted := root.admitted
  createdAt
  sourceRef := root.sourceRef
  predecessors := root.predecessors
  cure := root.cure
  review := root.review

/-- `activeRootKinds`. -/
def activeRootKinds (db : Db) (repository : String) : List String :=
  let active := db.items.rows.filter fun item =>
    item.repository = repository && !item.rowStatus.isTerminal
  sortedUnique (active.filterMap fun item => (db.items.find? item.rootId).map WorkItem.kind)

/-- `sourceRefExists`. -/
def sourceRefExists (db : Db) (repository sourceRef : String) : Bool :=
  db.items.rows.any fun item => item.repository = repository && item.sourceRef = some sourceRef

/-! ## The no-finding cooldown -/

/-- `MAX_NO_FINDING_COOLDOWN_SECONDS`. -/
def maxNoFindingCooldownSeconds : ℤ := 14 * 24 * 60 * 60

/-- `backedOffCooldownSeconds`. -/
def backedOffCooldownSeconds (baseSeconds : ℤ) (streak : ℕ) : ℤ :=
  if baseSeconds ≤ 0 ∨ streak ≤ 1 then baseSeconds
  else
    let doublings := min (streak - 1) 60
    max baseSeconds (min (baseSeconds * 2 ^ doublings) maxNoFindingCooldownSeconds)

/-- A streak of roots that found nothing: when the newest completed, and how
many there are. -/
structure NoFinding where
  completedAt : Time
  streak : ℕ
  deriving DecidableEq, Repr

/-- When a root completed: the latest `work.completed` of its ledger, or its
`updated_at` when it has none. -/
def completedAt (db : Db) (root : WorkItem) : Time :=
  (((db.ledger.of root.id).filter (fun e => e.type = .workCompleted)).map
    WorkEvent.occurredAt).max?.getD root.updatedAt

/-- Whether an item proposed a child. -/
def hasChild (db : Db) (item : WorkItem) : Bool :=
  db.items.rows.any fun child => child.parentId = some item.id

/-- The roots of a repository by kind, newest first. -/
def rootsByKind (db : Db) (repository : String) : List WorkItem :=
  ((db.items.rows.filter fun item => item.repository = repository && item.parentId.isNone).reverse).mergeSort
    fun a b => if a.kind = b.kind then b.createdAt ≤ a.createdAt else jsLe a.kind b.kind

/-- The loop of `noFindingStreaks`: the streaks found so far, and the kinds
whose walk has stopped. -/
def noFindingLoop (db : Db) (streaks : List (String × NoFinding)) (settled : List String) :
    List WorkItem → List (String × NoFinding)
  | [] => streaks
  | root :: rest =>
    if root.kind ∈ settled then noFindingLoop db streaks settled rest
    else if root.rowStatus ≠ .completed ∨ hasChild db root = true then
      noFindingLoop db streaks (root.kind :: settled) rest
    else
      match streaks.lookup root.kind with
      | none => noFindingLoop db ((root.kind, ⟨completedAt db root, 1⟩) :: streaks) settled rest
      | some entry =>
        let longer := (root.kind, { entry with streak := entry.streak + 1 })
        noFindingLoop db (longer :: streaks.filter (fun e => e.1 ≠ root.kind)) settled rest

/-- `noFindingStreaks`. -/
def noFindingStreaks (db : Db) (repository : String) : List (String × NoFinding) :=
  noFindingLoop db [] [] (rootsByKind db repository)

section Paths

variable (env : Env)

/-- **`insertWork`.** -/
def insertWork (work : NewWork) : QueueTx Unit := do
  let policy ← bindPolicy env work.policySubject
  insertRow (work.row policy)

/-- `assertRepositoryEnabled`. -/
def assertRepositoryEnabled (repository : String) : QueueTx Unit := do
  Tx.ofExcept (validateRepository repository)
  let row? ← Tx.read fun w => w.db.repositories.find? repository
  Tx.failIf (¬ ∃ row ∈ row?, row.enabled = true)
    (.error s!"repository is not opted in: {repository}")

/-- How every path creates a root: a fresh id, the instant, the row and its
first event. -/
def createRoot (root : RootWork) (payload : EventPayload) : QueueTx WorkItem := do
  let id ← randomUUID env
  let createdAt ← now env
  insertWork env (root.withId id createdAt)
  addEvent env id root.definition.createdBy payload
  getRequired id

/-! ## Seeds and the feeder -/

/-- `enqueueSeed`. -/
def enqueueSeed (repository : String) (input : WorkDefinition) : QueueTx WorkItem :=
  checked
    (do
      validateWorkDefinition input
      assertNoPredecessors input.predecessors "a seed root")
    fun _ => do
      assertRepositoryEnabled repository
      createRoot env
        { definition := input
          repository
          admitted := true } (.workQueued none none)

/-- What a call of the feeder did. -/
structure BatchResult where
  created : List WorkItem
  skippedKinds : List String
  cooledKinds : List String
  deriving DecidableEq, Repr

/-- The cooldown of a candidate: the call's own, or the candidate's, or
none. -/
def cooldownOf (override : Option JsNumber) (candidate : BatchCandidate) :
    Except QueueError ℤ := do
  let cooldownSeconds := (override <|> candidate.cooldownSeconds).getD (.int 0)
  refuseIf (cooldownSeconds.isSafeInteger = false ∨ cooldownSeconds.toInt < 0)
    (.error "cooldownSeconds must be a non-negative safe integer")
  pure cooldownSeconds.toInt

/-- Whether a kind is still cooling down. The clock is read only for a kind
that has a streak and a window. -/
def isCooling (noFinding : List (String × NoFinding)) (kind : String) (baseSeconds : ℤ) :
    QueueTx Bool :=
  match noFinding.lookup kind with
  | none => pure false
  | some entry =>
    let cooldownSeconds := backedOffCooldownSeconds baseSeconds entry.streak
    if 0 < cooldownSeconds then do
      let atTime ← now env
      pure (decide (atTime - cooldownSeconds * 1000 ≤ entry.completedAt))
    else pure false

/-- The loop of `enqueueInactiveRootBatch` over the candidates and their
cooldowns, with the kinds that are active so far. -/
def inactiveRootLoop (repository : String) (noFinding : List (String × NoFinding))
    (activeKinds : List String) : List (BatchCandidate × ℤ) → QueueTx BatchResult
  | [] => pure ⟨[], [], []⟩
  | (candidate, cooldown) :: rest => do
    let input := candidate.definition
    Tx.ofExcept (validateWorkDefinition input)
    Tx.ofExcept (assertNoPredecessors input.predecessors "a seed root")
    if input.kind ∈ activeKinds then do
      let result ← inactiveRootLoop repository noFinding activeKinds rest
      pure { result with skippedKinds := input.kind :: result.skippedKinds }
    else do
      let cooling ← isCooling env noFinding input.kind cooldown
      if cooling = true then do
        let result ← inactiveRootLoop repository noFinding activeKinds rest
        pure { result with cooledKinds := input.kind :: result.cooledKinds }
      else do
        let item ← createRoot env
          { definition := input
            repository
            admitted := true } (.workQueued none none)
        let result ← inactiveRootLoop repository noFinding (input.kind :: activeKinds) rest
        pure { result with created := item :: result.created }

/-- **`enqueueInactiveRootBatch`.** -/
def enqueueInactiveRootBatch (repository : String) (candidates : List BatchCandidate)
    (cooldownSeconds : Option JsNumber) : QueueTx BatchResult := do
  Tx.ofExcept (validateRepository repository)
  let cooldowns ← Tx.each (fun c => Tx.ofExcept (cooldownOf cooldownSeconds c)) candidates
  transaction do
    assertRepositoryEnabled repository
    let db ← Tx.read World.db
    let noFinding :=
      if ∃ seconds ∈ cooldowns, 0 < seconds then noFindingStreaks db repository else []
    inactiveRootLoop env repository noFinding (activeRootKinds db repository)
      (candidates.zip cooldowns)

/-! ## Cures and reviews -/

/-- `enqueueCureRoot`. -/
def enqueueCureRoot (repository : String) (input : CureRootInput) : QueueTx (Option WorkItem) :=
  checked
    (do
      validateRepository repository
      validateSourceRef input.sourceRef
      validateCure input.cure
      refuseIf (input.definition.kind ≠ "pr-cure") (.error "a cure root must have kind pr-cure")
      assertNoPredecessors input.definition.predecessors "a cure root"
      validateWorkDefinition input.definition
        { sourceRef := some input.sourceRef
          cure := some input.cure })
    fun _ => do
      assertRepositoryEnabled repository
      let db ← Tx.read World.db
      if sourceRefExists db repository input.sourceRef = true then pure none
      else do
        let item ← createRoot env
          { definition := input.definition
            repository
            admitted := true
            sourceRef := some input.sourceRef
            cure := some input.cure }
          (.workQueued (some ⟨input.cure.pullRequestUrl, input.cure.headSha, input.cure.decay⟩) none)
        pure (some item)

/-- The actions a `pr-review-fix` root carries, all of them. -/
def reviewFixActions : List AllowedAction := [.read, .write, .runTests, .openPr]

/-- `[...actions].sort()`. -/
def sortedActions (actions : List AllowedAction) : List AllowedAction :=
  actions.mergeSort (fun a b => jsLe a.text b.text)

/-- What a review root may do, by its kind. -/
def assertReviewAuthority (input : ReviewRootInput) : Except QueueError Unit :=
  if input.definition.kind = "pr-review" then
    assertSubset input.definition.allowedActions [.read, .runTests] "pr-review allowedActions"
  else do
    refuseIf (sortedActions input.definition.allowedActions ≠ sortedActions reviewFixActions)
      (.error "a pr-review-fix root must carry exactly read, write, run-tests, open-pr")
    refuseIf (input.review.reviewItemId.getD "" = "")
      (.error "a pr-review-fix root must name the review item it addresses")

/-- What the first event of a review root says of its review. -/
def reviewNotice (input : ReviewRootInput) : ReviewNotice where
  kind := input.definition.kind
  pullRequestUrl := input.review.pullRequestUrl
  headSha := input.review.headSha
  round := input.review.round
  reviewItemId := input.review.reviewItemId.filter (fun id => id ≠ "")
  fingerprints :=
    if input.definition.kind = "pr-review-fix" then
      some ((input.review.blockers.getD []).map ReviewBlocker.fingerprint)
    else none

/-- `enqueueReviewRoot`. -/
def enqueueReviewRoot (repository : String) (input : ReviewRootInput) :
    QueueTx (Option WorkItem) :=
  checked
    (do
      validateRepository repository
      validateSourceRef input.sourceRef
      validateReview input.review
      refuseIf (input.definition.kind ≠ "pr-review" ∧ input.definition.kind ≠ "pr-review-fix")
        (.error "a review root must have kind pr-review or pr-review-fix")
      assertNoPredecessors input.definition.predecessors s!"a {input.definition.kind} root"
      refuseIf (input.definition.delegableActions ≠ [])
        (.error s!"a {input.definition.kind} root delegates nothing")
      assertReviewAuthority input
      validateWorkDefinition input.definition
        { sourceRef := some input.sourceRef
          review := some input.review })
    fun _ => do
      assertRepositoryEnabled repository
      let db ← Tx.read World.db
      if sourceRefExists db repository input.sourceRef = true then pure none
      else do
        let item ← createRoot env
          { definition := input.definition
            repository
            admitted := true
            sourceRef := some input.sourceRef
            review := some input.review }
          (.workQueued none (some (reviewNotice input)))
        pure (some item)

/-! ## Imported proposals -/

/-- What an import did. -/
structure ImportResult where
  created : List WorkItem
  skippedSourceRefs : List String
  deriving DecidableEq, Repr

/-- The loop of `enqueueProposedRoots`, with the source references it has
created so far. -/
def proposedRootLoop (repository : String) (seen : List String) :
    List ProposedRootInput → QueueTx ImportResult
  | [] => pure ⟨[], []⟩
  | candidate :: rest => do
    Tx.ofExcept (validateWorkDefinition candidate.definition)
    Tx.ofExcept (validateSourceRef candidate.sourceRef)
    let predecessors ← Tx.ofExcept (normalizePredecessors candidate.definition.predecessors)
    let db ← Tx.read World.db
    if candidate.sourceRef ∈ seen ∨ sourceRefExists db repository candidate.sourceRef = true then do
      let result ← proposedRootLoop repository seen rest
      pure { result with skippedSourceRefs := candidate.sourceRef :: result.skippedSourceRefs }
    else do
      let item ← createRoot env
        { definition := candidate.definition
          repository
          admitted := false
          sourceRef := some candidate.sourceRef
          predecessors } (.rootProposed candidate.sourceRef predecessors)
      let result ← proposedRootLoop repository (candidate.sourceRef :: seen) rest
      pure { result with created := item :: result.created }

/-- `enqueueProposedRoots`. -/
def enqueueProposedRoots (repository : String) (candidates : List ProposedRootInput) :
    QueueTx ImportResult :=
  checked (validateRepository repository) fun _ => do
    assertRepositoryEnabled repository
    proposedRootLoop env repository [] candidates

/-- `replaceProposedPredecessors`. -/
def replaceProposedPredecessors (id : String) (predecessors : List String) (actor : String) :
    QueueTx WorkItem :=
  checked
    (do
      let _ ← validateOperatorActor actor "predecessors"
      normalizePredecessors (some predecessors))
    fun replacement => do
      let item ← getRequired id
      Tx.failIf (item.admitted = true ∨ item.status ≠ .proposed)
        (.error s!"work item is not proposed, so its predecessors cannot be replaced: {id}")
      let updatedAt ← now env
      updateItem id
        (fun row => { row with predecessors := replacement, updatedAt }) (fun _ => rfl)
      addEvent env id actor
        (.workPredecessorsUpdated (replacement.getD []) (item.predecessors.getD []))
      getRequired id

end Paths

end Snowcat
