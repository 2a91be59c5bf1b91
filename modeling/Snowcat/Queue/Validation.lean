import Snowcat.Queue.Store

/-!
# What the store checks before it writes

The checks of the queue store that read nothing but their argument, each
under the name and with the messages of the source, in the order the source
makes them.
-/

namespace Snowcat

/-! ## Principals -/

/-- Whether an actor uses one of the namespaces that decide about work. -/
def isOperatorActor (actor : String) : Bool :=
  let lowered := toLowerCase (trim actor)
  startsWith lowered "operator:" || startsWith lowered "policy:" || startsWith lowered "member:"

/-- `validateOperatorActor`. -/
def validateOperatorActor (actor purpose : String) : Except QueueError String := do
  let identity := trim actor
  refuseIf (identity = "") (.error s!"{purpose} actor is required")
  refuseIf (isOperatorActor actor = false)
    (.error s!"{purpose} actor \"{identity}\" must use the operator:, policy:, or member: principal namespace")
  pure identity

/-- **An accepted operator actor is in a deciding namespace.** -/
theorem isOperatorActor_of_validate {actor purpose identity : String}
    (h : validateOperatorActor actor purpose = .ok identity) : isOperatorActor actor = true := by
  simp only [validateOperatorActor, except_bind_eq_ok, refuseIf_eq_ok] at h
  obtain ⟨_, -, _, hactor, -⟩ := h
  simpa using hactor

/-- `validateWorkerPrincipal`. -/
def validateWorkerPrincipal (worker : String) : Except QueueError String := do
  let identity := trim worker
  refuseIf (identity = "") (.error "worker is required")
  let lowered := toLowerCase identity
  refuseIf (lowered = "system" ∨ startsWith lowered "operator:" ∨ startsWith lowered "policy:" ∨
      startsWith lowered "system:")
    (.error s!"worker identity \"{identity}\" uses a reserved principal namespace (operator:, policy:, system:)")
  pure identity

/-! ## Claims -/

/-- `MAX_CLAIM_LABEL_LENGTH`. -/
def maxClaimLabelLength : ℕ := 120

/-- `validateClaimLabel`, with its default purpose. -/
def validateClaimLabel (label : String) : Except QueueError String := do
  refuseIf (Patterns.claimLabel.test label = false)
    (.error s!"claim label must be 1-{maxClaimLabelLength} characters with no control characters")
  pure label

/-- `validateWorkKinds`. -/
def validateWorkKinds (kinds : List String) (purpose : String) :
    Except QueueError (List String) := do
  let trimmed := kinds.map trim
  refuseEach (fun kind => refuseIf (Patterns.workKind.test kind = false)
    (.error s!"{purpose}: invalid work kind: {kind}")) trimmed
  let unique := sortedUnique trimmed
  refuseIf (unique = []) (.error s!"{purpose}: at least one work kind is required")
  pure unique

/-- `mcpToolNames`. -/
def mcpToolNames : List String :=
  ["list_work", "get_work", "claim_work", "heartbeat_work", "complete_work", "block_work",
    "release_work"]

/-- `validateMcpTools`. -/
def validateMcpTools (tools : List String) (purpose : String) :
    Except QueueError (List String) := do
  let trimmed := tools.map trim
  let expected := joinWith ", " mcpToolNames
  refuseEach (fun tool => refuseIf (tool ∉ mcpToolNames)
    (.error s!"{purpose}: unknown MCP tool: {tool} (expected {expected})")) trimmed
  let unique := sortedUnique trimmed
  refuseIf (unique = []) (.error s!"{purpose}: at least one MCP tool is required")
  pure unique

theorem mem_sortedUnique {values : List String} {v : String} :
    v ∈ sortedUnique values ↔ v ∈ values := by
  rw [sortedUnique, List.mem_mergeSort, List.mem_eraseDups]

/-- **An accepted restriction** holds the trimmed kinds, all of them work
kinds. -/
theorem validateWorkKinds_spec {kinds unique : List String} {purpose : String}
    (h : validateWorkKinds kinds purpose = .ok unique) :
    (∀ k, k ∈ unique ↔ k ∈ kinds.map trim) ∧ (∀ k ∈ unique, Patterns.workKind.test k = true) ∧
      unique ≠ [] := by
  simp only [validateWorkKinds, except_bind_eq_ok, refuseEach_eq_ok, refuseIf_eq_ok,
    except_pure_eq_ok] at h
  obtain ⟨_, hkind, _, hne, rfl⟩ := h
  exact ⟨fun k => mem_sortedUnique, fun k hk => by simpa using hkind k (mem_sortedUnique.mp hk),
    hne⟩

/-- `MAX_LEASE_SECONDS`. -/
def maxLeaseSeconds : ℤ := 60 * 60

/-- `DEFAULT_LEASE_SECONDS`. -/
def defaultLeaseSeconds : ℤ := 15 * 60

/-- `boundedLease`. -/
def boundedLease (seconds : Option JsNumber) : Except QueueError ℤ := do
  let seconds := seconds.getD (.int defaultLeaseSeconds)
  refuseIf (seconds.isInteger = false ∨ seconds.toInt < 30 ∨ maxLeaseSeconds < seconds.toInt)
    (.error s!"leaseSeconds must be an integer between 30 and {maxLeaseSeconds}")
  pure seconds.toInt

/-! ## Texts -/

/-- `MAX_OPERATOR_NOTE_LENGTH`. -/
def maxOperatorNoteLength : ℕ := 4000

/-- `validateOperatorNoteReason`. -/
def validateOperatorNoteReason (reason name : String) : Except QueueError Unit := do
  refuseIf (isBlank reason = true) (.error s!"{name} is required")
  refuseIf (maxOperatorNoteLength < jsLength reason)
    (.error s!"{name} exceeds {maxOperatorNoteLength} characters")

/-- A reason that only has to be there. -/
def validateReason (reason message : String) : Except QueueError Unit :=
  refuseIf (isBlank reason = true) (.error message)

/-- `validateRepository`. -/
def validateRepository (repository : String) : Except QueueError Unit :=
  refuseIf (Patterns.repository.test repository = false)
    (.error s!"repository must be an owner/name slug: {repository}")

/-- `MAX_SOURCE_REF_LENGTH`. -/
def maxSourceRefLength : ℕ := 512

/-- `validateSourceRef`. -/
def validateSourceRef (sourceRef : String) : Except QueueError Unit := do
  refuseIf (isBlank sourceRef = true ∨ sourceRef ≠ trim sourceRef)
    (.error "sourceRef must be a non-empty trimmed string")
  refuseIf (maxSourceRefLength < jsLength sourceRef)
    (.error s!"sourceRef exceeds {maxSourceRefLength} characters")

/-- `MAX_PREDECESSORS`. -/
def maxPredecessors : ℕ := 20

/-- `normalizePredecessors`. -/
def normalizePredecessors (values : Option (List String)) :
    Except QueueError (Option (List String)) :=
  match values with
  | none => pure none
  | some values => do
    refuseIf (maxPredecessors < values.length)
      (.error s!"predecessors exceed the supported maximum of {maxPredecessors}")
    refuseEach (fun value => do
      refuseIf (maxSourceRefLength < jsLength value)
        (.error s!"predecessor exceeds {maxSourceRefLength} characters")
      refuseIf (Patterns.predecessorUrl.test value = false)
        (.error s!"predecessor is not a GitHub issue URL: {value}")) values
    let unique := sortedUnique values
    pure (if unique = [] then none else some unique)

/-- `assertNoPredecessors`. -/
def assertNoPredecessors (predecessors : Option (List String)) (what : String) :
    Except QueueError Unit :=
  refuseIf (predecessors.isSome = true)
    (.error s!"{what} must not carry predecessors: only an imported proposed root declares them")

/-! ## Cures and reviews -/

/-- `validateCure`. -/
def validateCure (cure : PullRequestCure) : Except QueueError Unit := do
  refuseIf (Patterns.pullRequestUrl.test cure.pullRequestUrl = false)
    (.error "cure pullRequestUrl must be a GitHub pull-request URL")
  refuseIf (Patterns.commitSha.test cure.headSha = false)
    (.error "cure headSha must be a 40-hex commit SHA")
  refuseIf (Patterns.sha256Digest.test cure.patchDigest = false)
    (.error "cure patchDigest must be a sha256: digest")
  refuseIf (cure.decay = [] ∨ ¬ cure.decay.Nodup)
    (.error "cure decay must name at least one distinct known reason")

/-- `MAX_REVIEW_BLOCKERS`. -/
def maxReviewBlockers : ℕ := 5

/-- `MAX_REVIEW_ADVISORIES`. -/
def maxReviewAdvisories : ℕ := 3

/-- One round of `validateReviewBlockers`: the fields of a blocker, and that
its fingerprint is new. -/
def validateReviewBlocker (name : String) (blocker : ReviewBlocker) : Except QueueError Unit :=
  refuseEach (fun field => refuseIf (isBlank field.2 = true)
      (.error s!"{name} blocker {field.1} is required"))
    [("fingerprint", blocker.fingerprint), ("location", blocker.location),
      ("contract", blocker.contract), ("impact", blocker.impact),
      ("resolution", blocker.resolution), ("verification", blocker.verification)]

/-- The loop of `validateReviewBlockers`, with the fingerprints it has
seen. -/
def validateBlockerLoop (name : String) (seen : List String) :
    List ReviewBlocker → Except QueueError Unit
  | [] => .ok ()
  | blocker :: rest => do
    validateReviewBlocker name blocker
    refuseIf (blocker.fingerprint ∈ seen)
      (.error s!"{name} blocker fingerprints must be distinct: {blocker.fingerprint}")
    validateBlockerLoop name (blocker.fingerprint :: seen) rest

/-- `validateReviewBlockers`. -/
def validateReviewBlockers (blockers : List ReviewBlocker) (name : String) :
    Except QueueError Unit := do
  refuseIf (maxReviewBlockers < blockers.length)
    (.error s!"{name} may name at most {maxReviewBlockers} blockers")
  validateBlockerLoop name [] blockers

/-- `validateReviewAdvisories`. -/
def validateReviewAdvisories (advisories : List ReviewAdvisory) (name : String) :
    Except QueueError Unit := do
  refuseIf (maxReviewAdvisories < advisories.length)
    (.error s!"{name} may name at most {maxReviewAdvisories} advisories")
  refuseEach (fun advisory => do
    refuseIf (isBlank advisory.fingerprint = true)
      (.error s!"{name} advisory fingerprint is required")
    refuseIf (isBlank advisory.text = true)
      (.error s!"{name} advisory text is required")) advisories

/-- `validateReviewResult`. -/
def validateReviewResult (review : ReviewResult) : Except QueueError Unit := do
  validateReviewBlockers review.blockers "review"
  validateReviewAdvisories review.advisories "review"
  refuseIf (review.decision = .block ∧ review.blockers = [])
    (.error "review decision block requires at least one blocker")
  refuseIf (review.decision = .pass ∧ review.blockers ≠ [])
    (.error "review decision pass must carry no blockers")

/-- `validateReview`. -/
def validateReview (review : PullRequestReview) : Except QueueError Unit := do
  refuseIf (Patterns.pullRequestUrl.test review.pullRequestUrl = false)
    (.error "review pullRequestUrl must be a GitHub pull-request URL")
  refuseIf (Patterns.commitSha.test review.headSha = false)
    (.error "review headSha must be a 40-hex commit SHA")
  refuseIf (∃ digest ∈ review.patchDigest, Patterns.sha256Digest.test digest = false)
    (.error "review patchDigest must be a sha256: digest")
  refuseIf (review.round.isInteger = false ∨ review.round.toInt < 1)
    (.error "review round must be a positive integer")
  validateReviewBlockers review.priorBlockers "review priorBlockers"
  refuseSome (fun blockers => validateReviewBlockers blockers "review") review.blockers
  refuseSome (fun advisories => validateReviewAdvisories advisories "review") review.advisories

/-! ## Results and artifacts -/

/-- `validateVerification`. -/
def validateVerification (verification : ArtifactVerification) : Except QueueError Unit :=
  match verification with
  | .verified o => do
    refuseIf (o.number.isSafeInteger = false ∨ o.number.toInt < 1)
      (.error "verification number is invalid")
    refuseIf (isBlank o.verifiedAt = true) (.error "verification verifiedAt is required")
    match o.handoff with
    | some (.unverified attemptedAt reason) =>
      refuseIf (isBlank attemptedAt = true ∨ isBlank reason = true)
        (.error "unverified handoff needs attemptedAt and reason")
    | some (.rejected checkedAt reason) =>
      refuseIf (isBlank checkedAt = true ∨ isBlank reason = true)
        (.error "rejected handoff needs checkedAt and reason")
    | none => pure ()
  | .unverified attemptedAt reason =>
    refuseIf (isBlank attemptedAt = true ∨ isBlank reason = true)
      (.error "unverified verification needs attemptedAt and reason")

/-- Whether artifacts of this kind can be verified on GitHub. -/
def ArtifactKind.isVerifiable : ArtifactKind → Bool
  | .issue => true
  | .pullRequest => true
  | .release => true
  | _ => false

section Urls

variable (env : Env)

/-- `validateArtifact`. -/
def validateArtifact (artifact : WorkArtifact) : Except QueueError Unit := do
  refuseSome (fun verification => do
    refuseIf (artifact.kind.isVerifiable = false)
      (.error s!"artifact {artifact.kind.text} cannot carry verification")
    validateVerification verification) artifact.verification
  match env.parseUrl artifact.url with
  | none => .error (.error "artifact URLs must be valid HTTPS URLs")
  | some url => do
    refuseIf (url.protocol ≠ "https:") (.error "artifact URLs must use HTTPS")
    refuseIf (url.username ≠ "" ∨ url.password ≠ "")
      (.error "artifact URLs must not contain credentials")

/-- `validateResult`. -/
def validateResult (result : WorkResult) : Except QueueError Unit := do
  refuseIf (isBlank result.summary = true) (.error "result summary is required")
  refuseIf (∃ evidence ∈ result.evidence, isBlank evidence = true)
    (.error "evidence entries must not be empty")
  refuseIf (∃ model ∈ result.model, Patterns.modelName.test model = false)
    (.error "result model must be a short model identifier (letters, digits, . _ : / @ -)")
  refuseEach (validateArtifact env) result.artifacts

/-- `String.prototype.split`, at slashes. -/
def splitAtSlash (s : String) : List String := (s.toList.splitOn '/').map String.ofList

/-- `decodeTagSegment`. -/
def decodeTagSegment (segment : String) : String := (env.decodeURIComponent segment).getD ""

/-- `assertGitHubArtifactScope`. -/
def assertGitHubArtifactScope (repository : String) (artifact : WorkArtifact) :
    Except QueueError Unit :=
  match env.parseUrl artifact.url with
  | none => .error (.error "Invalid URL")
  | some url =>
    let owner := (splitAtSlash repository).getD 0 ""
    let name := (splitAtSlash repository).getD 1 ""
    let segments := splitAtSlash url.pathname
    let release := artifact.kind == .release
    let expectedPath := match artifact.kind with
      | .release => "releases/tag"
      | .issue => "issues"
      | .pullRequest => "pull"
      | _ => "commit"
    let identifier :=
      if release then decodeTagSegment env (segments.getD 5 "") else segments.getD 4 ""
    let validIdentifier := match artifact.kind with
      | .release => Patterns.releaseTag identifier
      | .commit => Patterns.commitSegment.test identifier
      | _ => Patterns.positiveInteger.test identifier
    let matchesRepository :=
      toLowerCase (segments.getD 1 "") == toLowerCase owner &&
        toLowerCase (segments.getD 2 "") == toLowerCase name
    let matchesPath :=
      if release then segments.getD 3 "" == "releases" && segments.getD 4 "" == "tag"
      else segments.getD 3 "" == expectedPath
    let identifierShape := match artifact.kind with
      | .release => "<tag>"
      | .commit => "<7-64 hexadecimal characters>"
      | _ => "<positive integer>"
    refuseIf (toLowerCase url.hostname ≠ "github.com" ∨ url.port ≠ "" ∨ url.search ≠ "" ∨
        url.hash ≠ "" ∨ segments.length ≠ (if release then 6 else 5) ∨
        matchesRepository = false ∨ matchesPath = false ∨ validIdentifier = false)
      (.error s!"artifact {artifact.kind.text} URL must match https://github.com/{repository}/{expectedPath}/{identifierShape}")

end Urls

end Snowcat
