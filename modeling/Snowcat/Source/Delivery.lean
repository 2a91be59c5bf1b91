import Snowcat.Control.Schedule
import Snowcat.Repository.Surfaces
import Snowcat.Source.Ledger

/-!
# Recording a delivery

`recordVerifiedGitHubPullRequestDelivery` records a delivery that arrived by
webhook, `recordAuditedGitHubPullRequestDelivery` one that was read from the
delivery API after it did not. Both check the input, build the records, and
check these against the contracts of the registry, which state the rules of
the input once more.
-/

namespace Snowcat

open Patterns Pattern
open Calendar (Instant)

/-! ## The texts of identities -/

/-- `/^github\.com:[1-9][0-9]{0,19}$/`. -/
def Patterns.repositoryId : Pattern := .seq (lit "github.com:") Patterns.appId

/-- `/^github\.com:installation:[1-9][0-9]{0,19}$/`. -/
def Patterns.installationId : Pattern := .seq (lit "github.com:installation:") Patterns.appId

/-- `/^github\.com:user:[1-9][0-9]{0,19}$/`. -/
def Patterns.userId : Pattern := .seq (lit "github.com:user:") Patterns.appId

/-- `/^[0-9a-f]{8}-[0-9a-f]{4}-[0-9a-f]{4}-[0-9a-f]{4}-[0-9a-f]{12}$/`. -/
def Patterns.deliveryGuid : Pattern :=
  let digits (n : ℕ) : Pattern := times (.one hexDigit) n
  all [digits 8, lit "-", digits 4, lit "-", digits 4, lit "-", digits 4, lit "-", digits 12]

/-- `/^sha1:[0-9a-f]{40}$/`. -/
def Patterns.commitId : Pattern := .seq (lit "sha1:") commitSha

/-- `isGitHubObservationRefName`: as `isRepositoryBranchName`, but for a name that
ends in `.lock`. -/
def isGitHubObservationRefName (value : String) : Bool :=
  let letter : Pattern :=
    .one fun c => Patterns.alphanumeric c || c == '.' || c == '_' || c == '/' || c == '-'
  (Pattern.seq (.one Patterns.alphanumeric) (.upTo letter 254)).test value &&
    !includes value ".." && !includes value "//" && !includes value "@\x7b" &&
    !endsWith value "." && !endsWith value "/"

/-- `isUtcInstant`. -/
def isUtcInstant (value : String) : Bool := Instant.isCanonical value

/-- `Number.MAX_SAFE_INTEGER`. -/
def maximumSafeInteger : ℕ := 9007199254740991

/-- `25 * 1024 * 1024`. -/
def maximumBodyBytes : ℕ := 26214400

/-! ## The input -/

/-- `assertExpectedSequence`. -/
def assertExpectedSequence (value : ℕ) : Except ControlError Unit :=
  refuseIf (value < 1 ∨ maximumSafeInteger < value)
    (.error "expectedLastTransactionSequence must be a positive safe integer")

/-- Whether the merge fields of a pull request fit its state, as the input is
checked. -/
def GitHubPullRequest.mergeShape (pr : GitHubPullRequest) : Bool :=
  match pr.state with
  | .open => !pr.merged && pr.mergedAt.isNone && pr.mergeCommitId.isNone
  | .closed => pr.observedTestMergeCommitId.isNone &&
      if pr.merged then pr.mergedAt.isSome && pr.mergeCommitId.isSome
      else pr.mergedAt.isNone && pr.mergeCommitId.isNone

/-- Whether the state of a pull request fits an action. -/
def GitHubPullRequestAction.fits (action : GitHubPullRequestAction) (state : GitHubPullRequestState) :
    Bool :=
  match action with
  | .closed => state == .closed
  | .edited => true
  | _ => state == .open

/-- The identities of an input and of its pull request. -/
def GitHubPullRequestDeliveryInput.validIdentities (input : GitHubPullRequestDeliveryInput) :
    Bool :=
  let pr := input.pullRequest
  Patterns.appId.test input.appId && Patterns.deliveryGuid.test input.deliveryGuid &&
    Patterns.sha256Digest.test input.bodyDigest &&
    1 ≤ input.requestBytes && input.requestBytes ≤ maximumBodyBytes &&
    Patterns.installationId.test input.installationId &&
    Patterns.repositoryId.test input.repositoryId &&
    1 ≤ pr.number && pr.number ≤ maximumSafeInteger && Patterns.userId.test pr.actorId &&
    pr.baseRepositoryId == input.repositoryId && pr.headRepositoryId == input.repositoryId &&
    isGitHubObservationRefName pr.baseRef && Patterns.commitId.test pr.baseCommitId &&
    isGitHubObservationRefName pr.headRef && Patterns.commitId.test pr.headCommitId &&
    pr.observedTestMergeCommitId.all Patterns.commitId.test &&
    pr.mergeCommitId.all Patterns.commitId.test

/-- **`normalizeGitHubPullRequestDeliveryInput`.** -/
def normalizeGitHubPullRequestDeliveryInput (input : GitHubPullRequestDeliveryInput) :
    Except ControlError GitHubPullRequestDeliveryInput := do
  let pr := input.pullRequest
  refuseIf (input.validIdentities = false)
    (.error "GitHub pull-request delivery contains invalid identity or state fields")
  refuseIf (isUtcInstant pr.sourceUpdatedAt = false)
    (.error "GitHub pull-request source update time is not canonical UTC")
  refuseSome (fun mergedAt => refuseIf (isUtcInstant mergedAt = false)
    (.error "GitHub pull-request merged time is not canonical UTC")) pr.mergedAt
  refuseIf (input.action = .closed ∧ pr.state ≠ .closed)
    (.error "GitHub closed action requires closed pull-request state")
  refuseIf (input.action ≠ .closed ∧ input.action ≠ .edited ∧ pr.state ≠ .open)
    (.error "GitHub pull-request action requires open state")
  refuseIf (pr.mergeShape = false)
    (.error "GitHub pull-request delivery has an inconsistent merge shape")
  pure input

/-- **`normalizeGitHubPullRequestDeliveryRepairInput`.** -/
def normalizeGitHubPullRequestDeliveryRepairInput (input : GitHubPullRequestDeliveryRepairInput) :
    Except ControlError GitHubPullRequestDeliveryRepairInput := do
  assertExpectedSequence input.expectedLastTransactionSequence
  refuseIf (Patterns.appId.test input.deliveryId = false ∨ 599 < input.statusCode)
    (.error "GitHub pull-request delivery repair contains invalid audit fields")
  refuseIf (isUtcInstant input.deliveredAt = false)
    (.error "GitHub audited delivery source time is not canonical UTC")
  let _ ← normalizeGitHubPullRequestDeliveryInput
    ⟨input.appId, input.deliveryGuid, input.responseDigest, 1, input.installationId,
      input.repositoryId, input.action, input.pullRequest⟩
  pure input

/-! ## The contracts of the registry -/

/-- `new Set([…]).size === 3`. -/
def threeRecords (a b c : String) : Bool := a != b && a != c && b != c

/-- `isGitHubDeliveryReceiptPayload`. -/
def isGitHubDeliveryReceiptPayload (value : GitHubDeliveryReceiptPayload) : Bool :=
  Patterns.appId.test value.appId && value.hookSubjectId == s!"github.com:app:{value.appId}:hook" &&
    Patterns.deliveryGuid.test value.deliveryGuid &&
    Patterns.installationId.test value.installationId &&
    Patterns.repositoryId.test value.repositoryId && Patterns.sha256Digest.test value.bodyDigest &&
    1 ≤ value.requestBytes && value.requestBytes ≤ maximumBodyBytes &&
    isUuidV7 value.receiptRecordId && isUuidV7 value.observationRecordId &&
    isUuidV7 value.eventRecordId &&
    threeRecords value.receiptRecordId value.observationRecordId value.eventRecordId

/-- `isGitHubDeliveryAuditPayload`. -/
def isGitHubDeliveryAuditPayload (value : GitHubDeliveryAuditPayload) : Bool :=
  Patterns.appId.test value.appId && value.hookSubjectId == s!"github.com:app:{value.appId}:hook" &&
    Patterns.appId.test value.deliveryId && Patterns.deliveryGuid.test value.deliveryGuid &&
    isUtcInstant value.deliveredAt && value.statusCode ≤ 599 &&
    Patterns.installationId.test value.installationId &&
    Patterns.repositoryId.test value.repositoryId &&
    Patterns.sha256Digest.test value.responseDigest &&
    isUuidV7 value.auditRecordId && isUuidV7 value.observationRecordId &&
    isUuidV7 value.eventRecordId &&
    threeRecords value.auditRecordId value.observationRecordId value.eventRecordId

/-- `isGitHubPullRequestObservationPayload`. -/
def isGitHubPullRequestObservationPayload (value : GitHubPullRequestObservationPayload) : Bool :=
  let pr := value.pullRequest
  Patterns.repositoryId.test value.repositoryId && 1 ≤ pr.number &&
    pr.number ≤ maximumSafeInteger &&
    value.pullRequestId == s!"{value.repositoryId}:pull:{pr.number}" &&
    Patterns.installationId.test value.installationId && Patterns.userId.test pr.actorId &&
    pr.baseRepositoryId == value.repositoryId && pr.headRepositoryId == value.repositoryId &&
    isRepositoryBranchName pr.baseRef && Patterns.commitId.test pr.baseCommitId &&
    isRepositoryBranchName pr.headRef && Patterns.commitId.test pr.headCommitId &&
    pr.observedTestMergeCommitId.all Patterns.commitId.test &&
    pr.mergedAt.all isUtcInstant && pr.mergeCommitId.all Patterns.commitId.test &&
    isUtcInstant pr.sourceUpdatedAt && Patterns.deliveryGuid.test value.deliveryGuid &&
    isUuidV7 value.acquisitionRecordId && isUuidV7 value.observationRecordId &&
    Patterns.sha256Digest.test value.observationDigest &&
    value.action.fits pr.state && pr.mergeShape

/-! ## The commands -/

section Commands

variable (sha256 : Sha256)

/-- The records of a delivery: what `recordVerifiedGitHubPullRequestDelivery`
builds and checks before it writes. The contract of the event asks for nothing
that the receipt's does not. -/
def directEntry (m : SourceMoment) (input : GitHubPullRequestDeliveryInput) :
    Except ControlError SourceEntry := do
  let receiptRecordId ← m.uuidV7 1
  let observationRecordId ← m.uuidV7 2
  let eventRecordId ← m.uuidV7 3
  let receipt : GitHubDeliveryReceiptPayload := {
    appId := input.appId
    hookSubjectId := s!"github.com:app:{input.appId}:hook"
    deliveryGuid := input.deliveryGuid
    action := input.action
    installationId := input.installationId
    repositoryId := input.repositoryId
    bodyDigest := input.bodyDigest
    requestBytes := input.requestBytes
    receiptRecordId
    observationRecordId
    eventRecordId
    receivedAt := m.now }
  let observation : GitHubPullRequestObservationPayload := {
    repositoryId := input.repositoryId
    pullRequestId := s!"{input.repositoryId}:pull:{input.pullRequest.number}"
    action := input.action
    installationId := input.installationId
    pullRequest := input.pullRequest
    deliveryGuid := input.deliveryGuid
    acquisition := .directWebhook
    acquisitionRecordId := receiptRecordId
    observationRecordId
    observationDigest := (sha256 (.source input.action input.installationId input.repositoryId
      input.pullRequest)).1
    observedAt := m.now }
  refuseIf (isGitHubDeliveryReceiptPayload receipt = false)
    (.error "GitHub delivery receipt is outside its record contract")
  refuseIf (isGitHubPullRequestObservationPayload observation = false)
    (.error "GitHub pull-request observation is outside its record contract")
  pure (.direct receipt observation)

/-- **`recordVerifiedGitHubPullRequestDelivery`.** -/
def recordVerifiedGitHubPullRequestDelivery (m : SourceMoment)
    (input : GitHubPullRequestDeliveryInput) : SourceTx SourceTransaction := do
  let normalized ← Tx.ofExcept (normalizeGitHubPullRequestDeliveryInput input)
  let key := s!"github-delivery:{normalized.appId}:{normalized.deliveryGuid}"
  let payloadDigest := (sha256 (.delivery normalized)).1
  underKey m .recordPullRequestDelivery key payloadDigest
    (.error "GitHub delivery acceptance failed: delivery-conflict") do
      let db ← Tx.read id
      Tx.failIf (normalized.repositoryId ∉ db.enrolled)
        (.error "GitHub delivery acceptance failed: repository-not-enrolled")
      Tx.failIf (m.now.text < db.controlTimeWatermark.text)
        (.error "GitHub delivery acceptance failed: clock-regression")
      let entry ← Tx.ofExcept (directEntry sha256 m normalized)
      commitEntry .recordPullRequestDelivery key payloadDigest m.now entry

/-- `findDirectGitHubDeliveryReceipt`. -/
def findDirectGitHubDeliveryReceipt (db : SourceLedger) (appId deliveryGuid : String) : Bool :=
  db.transactions.any fun t =>
    match t.entry with
    | .direct receipt _ => receipt.appId == appId && receipt.deliveryGuid == deliveryGuid
    | _ => false

/-- The records of an audited delivery: what
`recordAuditedGitHubPullRequestDelivery` builds and checks before it writes. The
contract of the event asks for nothing that the audit's does not. -/
def auditedEntry (m : SourceMoment) (input : GitHubPullRequestDeliveryRepairInput) :
    Except ControlError SourceEntry := do
  let auditRecordId ← m.uuidV7 1
  let observationRecordId ← m.uuidV7 2
  let eventRecordId ← m.uuidV7 3
  let audit : GitHubDeliveryAuditPayload := {
    appId := input.appId
    hookSubjectId := s!"github.com:app:{input.appId}:hook"
    deliveryId := input.deliveryId
    deliveryGuid := input.deliveryGuid
    deliveredAt := input.deliveredAt
    redelivery := input.redelivery
    statusCode := input.statusCode
    action := input.action
    installationId := input.installationId
    repositoryId := input.repositoryId
    responseDigest := input.responseDigest
    auditRecordId
    observationRecordId
    eventRecordId
    observedAt := m.now }
  let observation : GitHubPullRequestObservationPayload := {
    repositoryId := input.repositoryId
    pullRequestId := s!"{input.repositoryId}:pull:{input.pullRequest.number}"
    action := input.action
    installationId := input.installationId
    pullRequest := input.pullRequest
    deliveryGuid := input.deliveryGuid
    acquisition := .deliveryApiRepair
    acquisitionRecordId := auditRecordId
    observationRecordId
    observationDigest := (sha256 (.source input.action input.installationId input.repositoryId
      input.pullRequest)).1
    observedAt := m.now }
  refuseIf (isGitHubDeliveryAuditPayload audit = false)
    (.error "GitHub delivery audit is outside its record contract")
  refuseIf (isGitHubPullRequestObservationPayload observation = false)
    (.error "GitHub repaired pull-request observation is outside its record contract")
  pure (.audited audit observation)

/-- **`recordAuditedGitHubPullRequestDelivery`.** -/
def recordAuditedGitHubPullRequestDelivery (m : SourceMoment)
    (input : GitHubPullRequestDeliveryRepairInput) : SourceTx SourceTransaction := do
  let normalized ← Tx.ofExcept (normalizeGitHubPullRequestDeliveryRepairInput input)
  let key := s!"github-delivery-repair:{normalized.appId}:{normalized.deliveryId}"
  let payloadDigest := (sha256 (.deliveryRepair normalized)).1
  underKey m .recordPullRequestDeliveryRepair key payloadDigest
    (.error "GitHub delivery repair identity was reused") do
      let db ← Tx.read id
      Tx.failIf (db.lastTransactionSequence ≠ normalized.expectedLastTransactionSequence)
        (.error (s!"expected control-plane sequence {normalized.expectedLastTransactionSequence} " ++
          s!"but current sequence is {db.lastTransactionSequence}"))
      Tx.failIf (normalized.repositoryId ∉ db.enrolled)
        (.error "GitHub delivery repair requires a previously enrolled repository")
      Tx.failIf (findDirectGitHubDeliveryReceipt db normalized.appId normalized.deliveryGuid = true)
        (.error "GitHub delivery repair cannot replace an observed direct receipt")
      Tx.failIf (m.now.text < db.controlTimeWatermark.text ∨ m.now.text < normalized.deliveredAt)
        (.error "control-plane clock moved backwards while recording GitHub delivery repair")
      let entry ← Tx.ofExcept (auditedEntry sha256 m normalized)
      commitEntry .recordPullRequestDeliveryRepair key payloadDigest m.now entry

end Commands

end Snowcat
