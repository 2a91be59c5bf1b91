import Snowcat.Queue.Definition

/-!
# What the holder of a lease may do

Heartbeat, completion, block and release. All four start from
`assertActiveLease`, which reads the item, its lease and the clock inside
the transaction. A completion writes its follow-ups first and the parent
last, so every child is inserted under a parent that is still claimed.
-/

namespace Snowcat

/-- `MAX_FOLLOW_UPS`. -/
def maxFollowUps : ℕ := 10

/-- `MAX_LINEAGE_DEPTH`. -/
def maxLineageDepth : ℕ := 4

/-- The loop of `lineageDepth`, with the edges it may still follow. A parent
id is a generated one and never empty, so having one is having a parent. -/
def lineageDepthLoop (current : WorkItem) : ℕ → QueueTx ℕ
  | 0 =>
    match current.parentId with
    | none => pure 0
    | some _ => Tx.fail (.error "work lineage exceeds the supported depth")
  | remaining + 1 =>
    match current.parentId with
    | none => pure 0
    | some parentId => do
      let parent ← getRequired parentId
      let depth ← lineageDepthLoop parent remaining
      pure (depth + 1)

/-- `lineageDepth`. -/
def lineageDepth (item : WorkItem) : QueueTx ℕ := lineageDepthLoop item maxLineageDepth

/-- The action reporting an artifact requires. A release requires none:
nobody here publishes one. -/
def ArtifactKind.requiredAction : ArtifactKind → Option AllowedAction
  | .issue => some .openIssue
  | .pullRequest => some .openPr
  | .commit => some .write
  | _ => none

/-- `assertRequiredArtifactReported`. -/
def assertRequiredArtifactReported (item : WorkItem) (artifacts : List WorkArtifact) :
    Except QueueError Unit :=
  refuseIf (item.requiredArtifact = .pullRequest ∧
      ∀ artifact ∈ artifacts, artifact.kind ≠ .pullRequest)
    (.error "completion must report a pull-request artifact: this item is delivered through one pull request; report the pull request you opened, or block_work with the reason if no change is warranted")

/-- The fields a proposal may not set, in the order they are refused. -/
def assertProposalFields (proposal : FollowUpProposalInput) : Except QueueError Unit := do
  refuseIf (proposal.priority.isSome = true)
    (.error "follow-up items may not set priority; children inherit the parent's priority")
  refuseEach (fun field => refuseIf (field.2 = true)
      (.error s!"follow-up items may not set {field.1}; a pull-request-bound child inherits its parent's binding"))
    [("sourceRef", proposal.sourceRef.isSome), ("cure", proposal.cure.isSome),
      ("review", proposal.review.isSome)]
  assertNoPredecessors proposal.predecessors "a follow-up item"

/-- The contract of a follow-up under its parent: what `complete` hands to
`contractProblem`. -/
def followUpContract (parent : WorkItem) (followUp : FollowUpInput) : ContractItem where
  allowedActions := followUp.allowedActions
  delegableActions := some followUp.delegableActions
  requiredArtifact := followUp.requiredArtifact
  executionTarget := some followUp.executionTarget
  cure := inheritedCureBinding parent followUp
  parentId := some parent.id
  parentDelegableActions := some parent.delegableActions
  kind := some followUp.kind

/-- A follow-up as a definition of its proposer's. -/
def FollowUpInput.definition (followUp : FollowUpInput) (createdBy : String) : WorkDefinition where
  kind := followUp.kind
  objective := followUp.objective
  instructions := followUp.instructions
  acceptanceCriteria := followUp.acceptanceCriteria
  allowedActions := followUp.allowedActions
  delegableActions := followUp.delegableActions
  requiredArtifact := some followUp.requiredArtifact
  executionTarget := some followUp.executionTarget
  createdBy

/-- **The checks of one follow-up**, which leave its explicit contract. -/
def checkFollowUp (parent : WorkItem) (worker : String) (proposal : FollowUpProposalInput) :
    Except QueueError FollowUpInput := do
  assertProposalFields proposal
  let followUp ← normalizeFollowUpIntent parent.delegableActions parent.cure proposal
  refuseSome (fun problem => .error (.error s!"follow-up \"{followUp.kind}\": {problem.message}"))
    (contractProblem (followUpContract parent followUp))
  validateWorkDefinition (followUp.definition worker)
    { cure := inheritedCureBinding parent followUp }
  assertSubset followUp.allowedActions parent.delegableActions "follow-up allowedActions"
  assertSubset followUp.delegableActions parent.delegableActions "follow-up delegableActions"
  pure followUp

/-- The row a follow-up becomes: its parent's repository, root and priority,
and not admitted. -/
def FollowUpInput.withId (followUp : FollowUpInput) (parent : WorkItem) (worker id : String)
    (createdAt : Time) : NewWork where
  id
  rootId := parent.rootId
  parentId := some parent.id
  repository := parent.repository
  kind := followUp.kind
  objective := followUp.objective
  instructions := followUp.instructions
  acceptanceCriteria := followUp.acceptanceCriteria
  allowedActions := followUp.allowedActions
  delegableActions := followUp.delegableActions
  requiredArtifact := followUp.requiredArtifact
  executionTarget := some followUp.executionTarget
  priority := parent.priority
  createdBy := worker
  admitted := false
  createdAt
  cure := inheritedCureBinding parent followUp

section Lease

variable (env : Env)

/-- **`assertActiveLease`**: the item is claimed under this token by this
worker, and the lease is not over. -/
def assertActiveLease (id leaseToken worker : String) : QueueTx WorkItem := do
  let item ← getRequired id
  Tx.failIf (item.status ≠ .claimed) (.error s!"work item is not claimed: {id}")
  Tx.failIf (item.leaseToken ≠ some leaseToken ∨ item.leaseOwner ≠ some worker)
    (.error "lease owner or token does not match")
  let expiresAt ← Tx.ofOption item.leaseExpiresAt (.error "lease has expired")
  let atTime ← now env
  Tx.failIf (expiresAt ≤ atTime) (.error "lease has expired")
  pure item

/-- `heartbeat`. -/
def heartbeat (id leaseToken worker : String) (leaseSeconds : Option JsNumber) :
    QueueTx WorkItem :=
  checked (validateWorkerPrincipal worker) fun _ => do
    let _ ← assertActiveLease env id leaseToken worker
    let updatedAt ← now env
    let reading ← now env
    let seconds ← Tx.ofExcept (boundedLease leaseSeconds)
    let expiresAt := reading + seconds * 1000
    updateItem id
      (fun row => { row with leaseExpiresAt := some expiresAt, updatedAt }) (fun _ => rfl)
    addEvent env id worker (.leaseRenewed expiresAt)
    getRequired id

/-- `assertArtifactsAllowed`. -/
def assertArtifactsAllowed (item : WorkItem) (artifacts : List WorkArtifact) :
    Except QueueError Unit :=
  refuseEach (fun artifact => do
    refuseSome (fun action => refuseIf (action ∉ item.allowedActions)
      (.error s!"artifact {artifact.kind.text} requires allowed action {action.text}"))
      artifact.kind.requiredAction
    if artifact.kind.requiredAction.isSome = true ∨ artifact.kind = .release then
      assertGitHubArtifactScope env item.repository artifact
    else pure ()) artifacts

/-- The verdict of a completion, merged into the item's review record: a
`pr-review` needs one and no other kind takes one. -/
def reviewVerdict (parent : WorkItem) (review : Option ReviewResult) :
    QueueTx (Option PullRequestReview) :=
  if parent.kind = "pr-review" then do
    let verdict ← Tx.ofOption review
      (.error "pr-review completion requires a review result (decision, blockers, advisories)")
    let record ← Tx.ofOption parent.review (.error "pr-review item has no review record")
    Tx.ofExcept (validateReviewResult verdict)
    let reviewedAt ← now env
    pure (some
      { record with
        decision := some verdict.decision
        blockers := some verdict.blockers
        advisories := some verdict.advisories
        reviewedAt := some reviewedAt })
  else do
    Tx.failIf (review.isSome = true)
      (.error "review results are accepted only on pr-review items")
    pure none

/-- One round of the follow-up loop of `complete`. -/
def proposeFollowUp (parent : WorkItem) (worker : String) (createdAt : Time)
    (proposal : FollowUpProposalInput) : QueueTx WorkItem := do
  let followUp ← Tx.ofExcept (checkFollowUp parent worker proposal)
  let id ← randomUUID env
  insertWork env (followUp.withId parent worker id createdAt)
  addEvent env id worker (.childProposed parent.id parent.rootId)
  getRequired id

/-- What a completion returns. -/
structure Completion where
  completed : WorkItem
  followUps : List WorkItem
  deriving DecidableEq, Repr

/-- The event of a recorded verdict, when there was a verdict and a
record. -/
def addReviewEvent (input : CompletionInput) (parent : WorkItem) : QueueTx Unit :=
  match input.review, parent.review with
  | some verdict, some record =>
    addEvent env input.id input.worker
      (.workReviewed verdict.decision record.round record.headSha record.pullRequestUrl
        (verdict.blockers.map ReviewBlocker.fingerprint))
  | _, _ => pure ()

/-- Whether the parent may have follow-ups, asked only when there are any. -/
def assertMayFollowUp (parent : WorkItem) (followUps : List FollowUpProposalInput) :
    QueueTx Unit :=
  if followUps = [] then pure ()
  else do
    Tx.failIf (.createFollowup ∉ parent.allowedActions)
      (.error "work item does not allow creating follow-up work")
    let depth ← lineageDepth parent
    Tx.failIf (maxLineageDepth ≤ depth)
      (.error s!"work lineage may be at most {maxLineageDepth} edges deep")

/-- **`complete`.** -/
def complete (input : CompletionInput) : QueueTx Completion :=
  checked
    (do
      let _ ← validateWorkerPrincipal input.worker
      validateResult env input.result
      refuseIf (maxFollowUps < input.followUps.length)
        (.error s!"completion may propose at most {maxFollowUps} follow-up items"))
    fun _ => do
      let parent ← assertActiveLease env input.id input.leaseToken input.worker
      assertMayFollowUp parent input.followUps
      Tx.ofExcept (assertArtifactsAllowed env parent input.result.artifacts)
      Tx.ofExcept (assertRequiredArtifactReported parent input.result.artifacts)
      let review? ← reviewVerdict env parent input.review
      let updatedAt ← now env
      let children ← Tx.each (proposeFollowUp env parent input.worker updatedAt) input.followUps
      updateItem input.id
        (fun row =>
          { row with
            rowStatus := .completed
            result := some input.result
            review := review? <|> row.review
            leaseOwner := none
            leaseToken := none
            leaseExpiresAt := none
            updatedAt })
        (fun _ => rfl)
      addEvent env input.id input.worker
        (.workCompleted (children.map WorkItem.id) input.result.artifacts.length
          input.result.model)
      addReviewEvent env input parent
      let completed ← getRequired input.id
      pure ⟨completed, children⟩

/-- `block`. -/
def block (id leaseToken worker reason : String) : QueueTx WorkItem :=
  checked
    (do
      let _ ← validateWorkerPrincipal worker
      validateReason reason "block reason is required")
    fun _ => do
      let _ ← assertActiveLease env id leaseToken worker
      let updatedAt ← now env
      updateItem id
        (fun row =>
          { row with
            rowStatus := .blocked
            result := some (.ofReason reason)
            leaseOwner := none
            leaseToken := none
            leaseExpiresAt := none
            updatedAt })
        (fun _ => rfl)
      addEvent env id worker (.workBlocked reason)
      getRequired id

/-- `release`. -/
def release (id leaseToken worker reason : String) : QueueTx WorkItem :=
  checked (validateWorkerPrincipal worker) fun _ => do
    let _ ← assertActiveLease env id leaseToken worker
    let updatedAt ← now env
    updateItem id
      (fun row =>
        { row with
          rowStatus := .queued
          leaseOwner := none
          leaseToken := none
          leaseExpiresAt := none
          updatedAt })
      (fun _ => rfl)
    addEvent env id worker (.workReleased reason)
    getRequired id

end Lease

end Snowcat
