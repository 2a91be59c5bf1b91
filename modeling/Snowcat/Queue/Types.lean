import Mathlib.Data.Int.Notation
import Snowcat.Queue.Text

/-!
# The data of the work queue

The types the queue store reads and writes, with the fields of the source
under the source's names. A work item is kept as the row the database
holds: its status column knows nothing of `proposed`, which is a queued row
that is not admitted, and `WorkItem.status` is the status every caller
sees. The columns that hold JSON hold the value it encodes.

Instants are numbers of milliseconds. The source keeps them as ISO-8601
strings in UTC, which compare as the instants do.
-/

namespace Snowcat

/-- An instant, in milliseconds. -/
abbrev Time : Type := ℤ

/-- A JavaScript number, as far as the store asks about one: an integer, or
something that is not – a fraction, an infinity, not-a-number. -/
inductive JsNumber where
  | int (n : ℤ)
  | notInteger
  deriving DecidableEq, Repr

namespace JsNumber

/-- `Number.isInteger`. -/
def isInteger : JsNumber → Bool
  | .int _ => true
  | .notInteger => false

/-- `Number.isSafeInteger`. -/
def isSafeInteger : JsNumber → Bool
  | .int n => -(2 ^ 53 - 1) ≤ n && n ≤ 2 ^ 53 - 1
  | .notInteger => false

/-- The integer a number that has passed `isInteger` is. -/
def toInt : JsNumber → ℤ
  | .int n => n
  | .notInteger => 0

end JsNumber

/-! ## Actions and contracts -/

/-- What a work item's holder may do. -/
inductive AllowedAction where
  | read
  | write
  | runTests
  | openIssue
  | openPr
  | createFollowup
  deriving DecidableEq, Repr

/-- Every action, in the source's order. -/
def allowedActions : List AllowedAction :=
  [.read, .write, .runTests, .openIssue, .openPr, .createFollowup]

/-- The text of an action. -/
def AllowedAction.text : AllowedAction → String
  | .read => "read"
  | .write => "write"
  | .runTests => "run-tests"
  | .openIssue => "open-issue"
  | .openPr => "open-pr"
  | .createFollowup => "create-followup"

/-- The artifact kind a completion must report. -/
inductive RequiredArtifact where
  | none
  | pullRequest
  deriving DecidableEq, Repr

/-- The text of a required artifact. -/
def RequiredArtifact.text : RequiredArtifact → String
  | .none => "none"
  | .pullRequest => "pull-request"

/-- Where a work item executes. -/
inductive ExecutionTarget where
  | readOnly
  | newPullRequest
  | existingPullRequest
  deriving DecidableEq, Repr

/-- The text of an execution target. -/
def ExecutionTarget.text : ExecutionTarget → String
  | .readOnly => "read-only"
  | .newPullRequest => "new-pull-request"
  | .existingPullRequest => "existing-pull-request"

/-- The status every caller sees. -/
inductive WorkStatus where
  | proposed
  | queued
  | claimed
  | completed
  | blocked
  | cancelled
  deriving DecidableEq, Repr

/-- The text of a status. -/
def WorkStatus.text : WorkStatus → String
  | .proposed => "proposed"
  | .queued => "queued"
  | .claimed => "claimed"
  | .completed => "completed"
  | .blocked => "blocked"
  | .cancelled => "cancelled"

/-- The `status` column, which the database constrains to these values. -/
inductive RowStatus where
  | queued
  | claimed
  | completed
  | blocked
  | cancelled
  deriving DecidableEq, Repr

/-- Whether work in this status is finished for good. -/
def RowStatus.isTerminal : RowStatus → Bool
  | .completed => true
  | .cancelled => true
  | _ => false

/-! ## Policy -/

/-- A governance decision about an action. -/
inductive PolicyDecision where
  | allow
  | reviewRequired
  | deny
  deriving DecidableEq, Repr

/-- The text of a policy decision. -/
def PolicyDecision.text : PolicyDecision → String
  | .allow => "allow"
  | .reviewRequired => "review-required"
  | .deny => "deny"

/-- A protected boundary of a repository's governance policy. -/
structure PolicyBoundary where
  id : String
  decision : PolicyDecision
  minimumRiskTier : String
  paths : List String
  deriving DecidableEq, Repr

/-- How review-required acts were satisfied: by a person's decision, or by
a standing authorization. -/
inductive AuthorizationKind where
  | operator
  | standing
  deriving DecidableEq, Repr

/-- The authorization that satisfied an item's review-required acts; its
instant is `at` in the source. -/
structure PolicyAuthorization where
  kind : AuthorizationKind
  actor : Option String
  standingId : Option String
  adr : Option String
  coveredActions : List AllowedAction
  atTime : Time
  deriving DecidableEq, Repr

/-- The policy an item was defined and admitted under. -/
structure PolicyRecord where
  coreSnapshotId : String
  repositoryCommitId : Option String
  reviewRequired : List AllowedAction
  authorization : Option PolicyAuthorization
  deriving DecidableEq, Repr

/-- What the control plane says one repository's agents may do. -/
structure PolicyAuthority where
  coreSnapshotId : String
  repositoryCommitId : Option String
  actionCeiling : List AllowedAction
  defaultDecision : PolicyDecision
  actionDecisions : AllowedAction → Option PolicyDecision
  protectedBoundaries : List PolicyBoundary

/-- The decision the authority takes about one action:
`authority.actionDecisions[action] ?? authority.defaultDecision`. -/
def PolicyAuthority.decision (authority : PolicyAuthority) (action : AllowedAction) :
    PolicyDecision :=
  (authority.actionDecisions action).getD authority.defaultDecision

/-! ## Results and their artifacts -/

/-- The kinds of a reported artifact. -/
inductive ArtifactKind where
  | issue
  | pullRequest
  | release
  | commit
  | report
  | other
  deriving DecidableEq, Repr

/-- The text of an artifact kind. -/
def ArtifactKind.text : ArtifactKind → String
  | .issue => "issue"
  | .pullRequest => "pull-request"
  | .release => "release"
  | .commit => "commit"
  | .report => "report"
  | .other => "other"

/-- The state GitHub was observed to give an artifact. -/
inductive ObservedState where
  | opened
  | closed
  | merged
  | published
  | draft
  deriving DecidableEq, Repr

/-- A deferred hand-off check of an open pull request. -/
inductive Handoff where
  | unverified (attemptedAt reason : String)
  | rejected (checkedAt reason : String)
  deriving DecidableEq, Repr

/-- The status of a hand-off check. -/
inductive HandoffStatus where
  | unverified
  | rejected
  deriving DecidableEq, Repr

/-- Which of the two a hand-off check is. -/
def Handoff.status : Handoff → HandoffStatus
  | .unverified _ _ => .unverified
  | .rejected _ _ => .rejected

/-- A successful observation of an artifact. -/
structure VerifiedObservation where
  verifiedAt : String
  number : JsNumber
  state : ObservedState
  headSha : Option String := none
  mergedAt : Option String := none
  closedAt : Option String := none
  draft : Option Bool := none
  tag : Option String := none
  publishedAt : Option String := none
  handoff : Option Handoff := none
  deriving DecidableEq, Repr

/-- An observation of an artifact, taken or attempted. -/
inductive ArtifactVerification where
  | verified (observation : VerifiedObservation)
  | unverified (attemptedAt reason : String)
  deriving DecidableEq, Repr

/-- Whether an observation was taken. -/
inductive VerificationStatus where
  | verified
  | unverified
  deriving DecidableEq, Repr

namespace ArtifactVerification

/-- The status of a verification. -/
def status : ArtifactVerification → VerificationStatus
  | .verified _ => .verified
  | .unverified _ _ => .unverified

/-- The observed state, when the observation was taken. -/
def state? : ArtifactVerification → Option ObservedState
  | .verified o => some o.state
  | .unverified _ _ => none

/-- The status of the hand-off check, when there is one. -/
def handoffStatus? : ArtifactVerification → Option HandoffStatus
  | .verified o => o.handoff.map Handoff.status
  | .unverified _ _ => none

end ArtifactVerification

/-- An artifact of a result. -/
structure WorkArtifact where
  kind : ArtifactKind
  url : String
  description : Option String
  verification : Option ArtifactVerification
  deriving DecidableEq, Repr

/-- What a completion, a block or a cancellation leaves. -/
structure WorkResult where
  summary : String
  evidence : List String
  artifacts : List WorkArtifact
  model : Option String
  deriving DecidableEq, Repr

/-- The result an operator or a worker leaves with a reason alone. -/
def WorkResult.ofReason (reason : String) : WorkResult := ⟨reason, [], [], none⟩

/-! ## Pull-request bindings -/

/-- Why a head was judged decayed. -/
inductive PullRequestDecay where
  | behind
  | dirty
  | failingChecks
  | changesRequested
  | unresolvedThreads
  | badTitle
  deriving DecidableEq, Repr

/-- The pull-request cure a `pr-cure` root was created for. -/
structure PullRequestCure where
  pullRequestUrl : String
  headSha : String
  patchDigest : String
  decay : List PullRequestDecay
  originItemId : Option String
  deriving DecidableEq, Repr

/-- The decision of a review round. -/
inductive ReviewDecision where
  | pass
  | block
  | unableToReview
  deriving DecidableEq, Repr

/-- A defect a reviewer found. -/
structure ReviewBlocker where
  fingerprint : String
  location : String
  contract : String
  impact : String
  resolution : String
  verification : String
  deriving DecidableEq, Repr

/-- A non-blocking observation of a reviewer. -/
structure ReviewAdvisory where
  fingerprint : String
  text : String
  deriving DecidableEq, Repr

/-- The verdict a `pr-review` worker supplies. -/
structure ReviewResult where
  decision : ReviewDecision
  blockers : List ReviewBlocker
  advisories : List ReviewAdvisory
  deriving DecidableEq, Repr

/-- The review record a `pr-review` or `pr-review-fix` root is bound to. -/
structure PullRequestReview where
  pullRequestUrl : String
  headSha : String
  patchDigest : Option String
  round : JsNumber
  originItemId : Option String
  authorModel : Option String
  priorReviewerModel : Option String
  priorBlockers : List ReviewBlocker
  reviewItemId : Option String
  reviewerModel : Option String
  decision : Option ReviewDecision
  blockers : Option (List ReviewBlocker)
  advisories : Option (List ReviewAdvisory)
  reviewedAt : Option Time
  deriving DecidableEq, Repr

/-! ## Work items -/

/-- What an operator did when a note was left. -/
inductive OperatorNoteAction where
  | requeue
  | defer
  | prioritize
  | note
  | releaseLease
  deriving DecidableEq, Repr

/-- An operator's note on an item; its instant is `at` in the source. -/
structure OperatorNote where
  atTime : Time
  actor : String
  action : OperatorNoteAction
  reason : String
  deriving DecidableEq, Repr

/-- **A row of `work_items`.** -/
structure WorkItem where
  id : String
  rootId : String
  parentId : Option String
  repository : String
  kind : String
  objective : String
  instructions : String
  acceptanceCriteria : List String
  allowedActions : List AllowedAction
  delegableActions : List AllowedAction
  requiredArtifact : RequiredArtifact
  executionTarget : Option ExecutionTarget
  policy : Option PolicyRecord
  priority : ℤ
  /-- The `status` column. -/
  rowStatus : RowStatus
  admitted : Bool
  createdBy : String
  sourceRef : Option String
  predecessors : Option (List String)
  cure : Option PullRequestCure
  review : Option PullRequestReview
  createdAt : Time
  updatedAt : Time
  leaseOwner : Option String
  leaseToken : Option String
  leaseExpiresAt : Option Time
  result : Option WorkResult
  operatorNotes : List OperatorNote
  previousResults : List WorkResult
  deriving DecidableEq, Repr

namespace WorkItem

/-- The logical status: a queued row that is not admitted is a proposal. -/
def status (item : WorkItem) : WorkStatus :=
  match item.rowStatus with
  | .queued => if item.admitted then .queued else .proposed
  | .claimed => .claimed
  | .completed => .completed
  | .blocked => .blocked
  | .cancelled => .cancelled

@[simp] theorem status_eq_proposed {item : WorkItem} :
    item.status = .proposed ↔ item.rowStatus = .queued ∧ item.admitted = false := by
  unfold status
  cases item.rowStatus <;> cases item.admitted <;> simp

@[simp] theorem status_eq_queued {item : WorkItem} :
    item.status = .queued ↔ item.rowStatus = .queued ∧ item.admitted = true := by
  unfold status
  cases item.rowStatus <;> cases item.admitted <;> simp

@[simp] theorem status_eq_claimed {item : WorkItem} :
    item.status = .claimed ↔ item.rowStatus = .claimed := by
  unfold status
  cases item.rowStatus <;> cases item.admitted <;> simp

@[simp] theorem status_eq_completed {item : WorkItem} :
    item.status = .completed ↔ item.rowStatus = .completed := by
  unfold status
  cases item.rowStatus <;> cases item.admitted <;> simp

@[simp] theorem status_eq_blocked {item : WorkItem} :
    item.status = .blocked ↔ item.rowStatus = .blocked := by
  unfold status
  cases item.rowStatus <;> cases item.admitted <;> simp

@[simp] theorem status_eq_cancelled {item : WorkItem} :
    item.status = .cancelled ↔ item.rowStatus = .cancelled := by
  unfold status
  cases item.rowStatus <;> cases item.admitted <;> simp

end WorkItem

/-! ## The ledger -/

/-- The type of a ledger event, with the source's text. -/
inductive EventType where
  /-- `work.queued` -/
  | workQueued
  /-- `work.proposed` -/
  | workProposed
  /-- `work.predecessors-updated` -/
  | workPredecessorsUpdated
  /-- `work.claimed` -/
  | workClaimed
  /-- `work.completed` -/
  | workCompleted
  /-- `work.reviewed` -/
  | workReviewed
  /-- `work.blocked` -/
  | workBlocked
  /-- `work.released` -/
  | workReleased
  /-- `work.approved` -/
  | workApproved
  /-- `work.deferred` -/
  | workDeferred
  /-- `work.noted` -/
  | workNoted
  /-- `work.prioritized` -/
  | workPrioritized
  /-- `work.rejected` -/
  | workRejected
  /-- `work.requeued` -/
  | workRequeued
  /-- `work.cancelled` -/
  | workCancelled
  /-- `lease.expired` -/
  | leaseExpired
  /-- `lease.renewed` -/
  | leaseRenewed
  /-- `artifact.ready` -/
  | artifactReady
  /-- `artifact.verified` -/
  | artifactVerified
  /-- `artifact.attached` -/
  | artifactAttached
  deriving DecidableEq, Repr

/-- What a `work.queued` event says of the cure it was created for. -/
structure CureNotice where
  pullRequestUrl : String
  headSha : String
  decay : List PullRequestDecay
  deriving DecidableEq, Repr

/-- What a `work.queued` event says of the review it was created for. -/
structure ReviewNotice where
  kind : String
  pullRequestUrl : String
  headSha : String
  round : JsNumber
  reviewItemId : Option String
  fingerprints : Option (List String)
  deriving DecidableEq, Repr

/-- What a `work.approved` event says of the policy it was bound to. -/
structure PolicyNotice where
  coreSnapshotId : String
  repositoryCommitId : Option String
  coveredActions : List AllowedAction
  deriving DecidableEq, Repr

/-- **The payload of a ledger event**, by the type of the event. A
`work.proposed` event has two shapes, a root's and a child's; a
`work.released` event of an operator names the lease it ended. -/
inductive EventPayload where
  | workQueued (cure : Option CureNotice) (review : Option ReviewNotice)
  | rootProposed (sourceRef : String) (predecessors : Option (List String))
  | childProposed (parentId rootId : String)
  | workPredecessorsUpdated (predecessors previous : List String)
  | workClaimed (leaseExpiresAt : Time) (label : Option String)
      (kindsRestriction toolsGrant : Option (List String))
  | workCompleted (followUpIds : List String) (artifactCount : ℕ) (model : Option String)
  | workReviewed (decision : ReviewDecision) (round : JsNumber) (headSha pullRequestUrl : String)
      (fingerprints : List String)
  | workBlocked (reason : String)
  | workReleased (reason : String)
  | leaseReleased (reason : String) (previousOwner : Option String) (leaseExpiresAt : Option Time)
  | workApproved (policy : Option PolicyNotice)
  | workDeferred (reason : String)
  | workNoted (reason : String)
  | workPrioritized (previous priority : ℤ) (reason : String)
  | workRejected (reason : String)
  | workRequeued (reason : String)
  | workCancelled (reason : String)
  | leaseExpired (previousOwner : Option String) (leaseExpiresAt : Option Time)
  | leaseRenewed (leaseExpiresAt : Time)
  | artifactReady (url headSha reviewItemId : String)
  | artifactVerified (url : String) (kind : ArtifactKind) (status : VerificationStatus)
      (state previousState : Option ObservedState)
      (handoffStatus previousHandoffStatus : Option HandoffStatus)
  | artifactAttached (url : String) (kind : ArtifactKind) (status : VerificationStatus)
      (state : Option ObservedState)
  deriving DecidableEq, Repr

/-- The type of an event with this payload. -/
def EventPayload.type : EventPayload → EventType
  | .workQueued .. => .workQueued
  | .rootProposed .. => .workProposed
  | .childProposed .. => .workProposed
  | .workPredecessorsUpdated .. => .workPredecessorsUpdated
  | .workClaimed .. => .workClaimed
  | .workCompleted .. => .workCompleted
  | .workReviewed .. => .workReviewed
  | .workBlocked .. => .workBlocked
  | .workReleased .. => .workReleased
  | .leaseReleased .. => .workReleased
  | .workApproved .. => .workApproved
  | .workDeferred .. => .workDeferred
  | .workNoted .. => .workNoted
  | .workPrioritized .. => .workPrioritized
  | .workRejected .. => .workRejected
  | .workRequeued .. => .workRequeued
  | .workCancelled .. => .workCancelled
  | .leaseExpired .. => .leaseExpired
  | .leaseRenewed .. => .leaseRenewed
  | .artifactReady .. => .artifactReady
  | .artifactVerified .. => .artifactVerified
  | .artifactAttached .. => .artifactAttached

/-- **An event of the ledger.** -/
structure WorkEvent where
  sequence : ℕ
  workItemId : String
  actor : String
  payload : EventPayload
  occurredAt : Time
  deriving DecidableEq, Repr

/-- The type of an event. -/
def WorkEvent.type (e : WorkEvent) : EventType := e.payload.type

/-! ## Requests -/

/-- The definition of an item, as every creation path receives it. The
typed inputs carry `predecessors` on an imported root only; the other paths
refuse the field when an untyped caller supplies it. -/
structure WorkDefinition where
  kind : String
  objective : String
  instructions : String
  acceptanceCriteria : List String
  allowedActions : List AllowedAction
  delegableActions : List AllowedAction
  requiredArtifact : Option RequiredArtifact := none
  executionTarget : Option ExecutionTarget
  priority : Option JsNumber := none
  createdBy : String
  predecessors : Option (List String) := none
  deriving DecidableEq, Repr

/-- A root imported from an external source. -/
structure ProposedRootInput where
  definition : WorkDefinition
  sourceRef : String
  deriving DecidableEq, Repr

/-- An admitted `pr-cure` root. -/
structure CureRootInput where
  definition : WorkDefinition
  sourceRef : String
  cure : PullRequestCure
  deriving DecidableEq, Repr

/-- An admitted `pr-review` or `pr-review-fix` root. -/
structure ReviewRootInput where
  definition : WorkDefinition
  sourceRef : String
  review : PullRequestReview
  deriving DecidableEq, Repr

/-- A candidate of the feeder: a definition and its no-finding cooldown. -/
structure BatchCandidate where
  definition : WorkDefinition
  cooldownSeconds : Option JsNumber := none
  deriving DecidableEq, Repr

/-- The shorthand a worker may name a follow-up's contract by. -/
inductive FollowUpIntent where
  | readOnly
  | newPrChange
  | existingPrChange
  deriving DecidableEq, Repr

/-- The text of an intent. -/
def FollowUpIntent.text : FollowUpIntent → String
  | .readOnly => "read-only"
  | .newPrChange => "new-pr-change"
  | .existingPrChange => "existing-pr-change"

/-- A follow-up as a worker proposes it. The last five fields are the ones
the store refuses on a proposal; no typed request carries them. -/
structure FollowUpProposalInput where
  intent : Option FollowUpIntent := none
  kind : Option String := none
  objective : String
  instructions : String
  acceptanceCriteria : List String
  allowedActions : Option (List AllowedAction) := none
  delegableActions : Option (List AllowedAction) := none
  requiredArtifact : Option RequiredArtifact := none
  executionTarget : Option ExecutionTarget := none
  priority : Option JsNumber := none
  sourceRef : Option String := none
  cure : Option PullRequestCure := none
  review : Option PullRequestReview := none
  predecessors : Option (List String) := none
  deriving DecidableEq, Repr

/-- A follow-up with its contract explicit. -/
structure FollowUpInput where
  kind : String
  objective : String
  instructions : String
  acceptanceCriteria : List String
  allowedActions : List AllowedAction
  delegableActions : List AllowedAction
  requiredArtifact : RequiredArtifact
  executionTarget : ExecutionTarget
  deriving DecidableEq, Repr

/-- A request to claim work. -/
structure ClaimInput where
  worker : String
  repository : Option String := none
  kinds : Option (List String) := none
  allowedKinds : Option (List String) := none
  allowedTools : Option (List String) := none
  leaseSeconds : Option JsNumber := none
  label : Option String := none
  deriving DecidableEq, Repr

/-- A completion. -/
structure CompletionInput where
  id : String
  leaseToken : String
  worker : String
  result : WorkResult
  followUps : List FollowUpProposalInput
  review : Option ReviewResult := none
  deriving DecidableEq, Repr

/-- An artifact an operator attaches to a completed item. -/
structure AttachedArtifact where
  kind : ArtifactKind
  url : String
  description : Option String := none
  verification : Option ArtifactVerification
  deriving DecidableEq, Repr

/-- The item state an operator observed before deciding. -/
structure MutationPrecondition where
  status : WorkStatus
  updatedAt : Time
  deriving DecidableEq, Repr

/-- How an attempt ended. -/
inductive AttemptOutcome where
  | completed
  | blocked
  | released
  | expired
  deriving DecidableEq, Repr

/-- One lease on an item, as the ledger recorded it. -/
structure WorkAttempt where
  sequence : ℕ
  claimedAt : Time
  worker : String
  label : Option String
  kindsRestriction : Option (List String)
  outcome : Option AttemptOutcome
  endedAt : Option Time
  endedBy : Option String
  deriving DecidableEq, Repr

end Snowcat
