import Mathlib.Data.List.Sort
import Snowcat.Queue.Listing
import Snowcat.Sweep.Boundary
import Snowcat.Sweep.Health
import Snowcat.Sweep.Refresh

/-!
# The review pass

`reviewPullRequests` looks at every draft that a completed item reported in a
repository with the review gate on. A head no completed round has judged gets
the next round; a head the latest round judged gets what the verdict asks
for. A pass releases the pull request. So does a block whose blockers are all
about the description and were all raised before: they are with a human, and
nothing is left for the gate to act on. Any other block is fixed, within the
budget of rounds, or goes to a human.

The store keeps the rounds as items. The pass reads the rounds of one pull
request (`pullRequestReviewItems`) before it acts, and between that read and
the act it waits for GitHub.
-/

namespace Snowcat

/-! ## Rounds -/

/-- `DESCRIPTION_BLOCKER_PREFIX`. -/
def descriptionBlockerPrefix : String := "contract:pr-body:"

/-- Whether a blocker is about the description, and not about the tree. -/
def ReviewBlocker.isDescription (blocker : ReviewBlocker) : Bool :=
  startsWith blocker.fingerprint descriptionBlockerPrefix

/-- The description blockers of `partitionReviewBlockers`. -/
def descriptionBlockers (blockers : List ReviewBlocker) : List ReviewBlocker :=
  blockers.filter ReviewBlocker.isDescription

/-- The tree blockers of `partitionReviewBlockers`. -/
def treeBlockers (blockers : List ReviewBlocker) : List ReviewBlocker :=
  blockers.filter fun blocker => !blocker.isDescription

namespace PullRequestReview

/-- The blockers a verdict names. -/
def named (verdict : PullRequestReview) : List ReviewBlocker := verdict.blockers.getD []

/-- **Every blocker of a verdict is outstanding**: it is about the description,
and the round before raised it. -/
def isOutstanding (verdict : PullRequestReview) : Bool :=
  let prior := (descriptionBlockers verdict.priorBlockers).map ReviewBlocker.fingerprint
  treeBlockers verdict.named = [] && descriptionBlockers verdict.named ≠ [] &&
    (descriptionBlockers verdict.named).all fun blocker => prior.contains blocker.fingerprint

end PullRequestReview

/-- `MAX_REVIEW_ROUNDS`. -/
def maxReviewRounds : ℤ := 3

/-- `REVIEW_KIND`. -/
def reviewKind : String := "pr-review"

/-- `REVIEW_FIX_KIND`. -/
def reviewFixKind : String := "pr-review-fix"

/-- The pull request a URL names in a repository. -/
def pullRequestIdentity (env : Env) (repository url : String) : String :=
  pullRequestArtifactIdentity env repository ⟨.pullRequest, url, none, none⟩

/-- The test of `pullRequestReviewItems`. -/
def isReviewOf (env : Env) (repository url : String) (item : WorkItem) : Bool :=
  item.repository = repository && (item.kind = reviewKind || item.kind = reviewFixKind) &&
    item.review.any fun review =>
      pullRequestIdentity env repository review.pullRequestUrl =
        pullRequestIdentity env repository url

/-- **`pullRequestReviewItems`**, once the repository has been checked. -/
def pullRequestReviewItems (env : Env) (db : Db) (repository url : String) : List WorkItem :=
  (db.items.rows.filter (isReviewOf env repository url)).insertionSort fun a b =>
    a.createdAt ≤ b.createdAt

/-- A round that has been judged. -/
def isJudged (item : WorkItem) : Bool :=
  item.kind = reviewKind && item.status = .completed &&
    (item.review.bind PullRequestReview.decision).isSome

/-- The number of an item's round. -/
def roundNumber (item : WorkItem) : ℤ :=
  ((item.review.map PullRequestReview.round).getD (.int 0)).toInt

/-- The judged rounds of a pull request, by their numbers. -/
def completedReviews (reviews : List WorkItem) : List WorkItem :=
  (reviews.filter isJudged).insertionSort fun a b => roundNumber a ≤ roundNumber b

/-- The latest judged round, and its verdict. -/
def latestVerdict (reviews : List WorkItem) : Option (WorkItem × PullRequestReview) :=
  (completedReviews reviews).getLast?.bind fun latest =>
    latest.review.map fun verdict => (latest, verdict)

/-! ## What the messages say -/

/-- The text of a number. -/
def JsNumber.text : JsNumber → String
  | .int n => s!"{n}"
  | .notInteger => "NaN"

/-- `describeBlockers`. -/
def describeBlockers (blockers : List ReviewBlocker) : String :=
  joinWith " | " (blockers.map fun blocker =>
    s!"[{blocker.fingerprint}] at {blocker.location}: {blocker.contract} — impact: {blocker.impact}; resolution: {blocker.resolution}; verify: {blocker.verification}")

/-- `describeDescriptionBlockersLead`. -/
def describeDescriptionBlockersLead (round : JsNumber) (blockers : List ReviewBlocker) : String :=
  let plural := if blockers.length = 1 then "" else "s"
  let described := describeBlockers blockers
  s!"round {round.text} blocked on {blockers.length} description blocker{plural} for a human to adjudicate: {described}"

/-- What a pass of this kind is told about the platform. -/
structure ReviewOptions where
  /-- `SNOWCAT_REVIEW_GATE_WRITES`. -/
  writes : Bool
  /-- `Date.parse`; none is `NaN`. -/
  parseDate : String → Option Time

section Roots

/-- `reviewRootDefinition`. -/
def reviewRootDefinition (repository : String) (head : PullRequestHead)
    (review : PullRequestReview) (createdBy : String) (previousHeadSha : Option String)
    (boundaries : List PolicyBoundary) : WorkDefinition :=
  let short := shortSha head.headSha
  let number := head.number
  let round := review.round.text
  let originItemId := review.originItemId.filter fun id => id ≠ ""
  let authorModel := review.authorModel.filter fun model => model ≠ ""
  let priorReviewerModel := review.priorReviewerModel.filter fun model => model ≠ ""
  let origin := (originItemId.map fun id => s!"item {id}").getD "a Snowcat worker"
  let previous := ((previousHeadSha.map shortSha).filter fun sha => sha ≠ "").getD
    "the previous round"
  let prior := if review.priorBlockers = [] then "none" else describeBlockers review.priorBlockers
  let models := joinWith " and "
    ((authorModel.map fun model => s!"the author reported model {model}").toList ++
      (priorReviewerModel.map fun model => s!"the previous reviewer reported model {model}").toList)
  let protectedPaths := joinWith "; " (boundaries.map fun boundary =>
    let paths := joinWith ", " boundary.paths
    s!"[{boundary.id}: {paths} — {boundary.decision.text} at minimum tier {boundary.minimumRiskTier}]")
  { kind := reviewKind
    objective :=
      s!"Review {repository}#{number} (head {short}, round {round} of {maxReviewRounds})"
    instructions := joinWith " "
      ([s!"Pull request {head.url} (\"{head.title}\") at head {head.headSha} was opened as a DRAFT for {origin} and waits for an independent review before a human sees it (ADR-0029, ADR-0065)."] ++
        (originItemId.map fun id =>
          s!"Read the origin item with get_work(\"{id}\"): its objective, acceptance criteria, instructions, and sourceRef issue are the contract this pull request claims to satisfy.").toList ++
        [s!"Read the head's check runs first (for example `gh pr checks {number} --repo {repository}` or `gh api repos/{repository}/commits/{head.headSha}/check-runs`) and treat their conclusions as the evidence for any CI-anchored acceptance criterion; the pull request's description is the author's claim from whichever head it was last edited on, never evidence of a check's state, and a run still in progress means wait or return `unable-to-review`, never infer from the body. Then read the pull request's description and its diff at exactly head {short} (for example `gh pr diff {number}` or `gh api repos/{repository}/pulls/{number}/files`); check the head out and run the repository's non-mutating gate (`make verify`; every fleet repository exposes it — its absence is itself a blocker, `defect:makefile:verify-missing`); never run `make check` or another target that formats or rewrites files, because a review grants no write.",
          "Apply ADR-0029's pull-request profile. A blocker is ONLY a concrete correctness or security defect, an unmet acceptance criterion of the origin item, unauthorized or out-of-scope behaviour, false or materially insufficient evidence in the pull request, missing required validation, or a compatibility or contract break. Style preferences, optional improvements, alternative valid designs, speculative future concerns, and 'while you are here' work are advisories at most — never blockers.",
          s!"A blocker whose only cure is an edit to the pull request's description — not the diff — for example a missing or wrong required section, risk tier, or evidence claim in the repository's template, carries the fingerprint prefix `{descriptionBlockerPrefix}` and names the description, not a file, as its location (ADR-0067). Snowcat routes these straight to a human instead of a fix; use the prefix only for a defect a description edit alone would cure. Re-raise a still-uncured description blocker from the prior round honestly, under its same fingerprint: Snowcat will not spend a fix or another round on it — when such already-reported blockers are all that remain, the tree passes and they stay with the human (ADR-0071)."] ++
        (if 1 < review.round.toInt then
          [s!"This is round {round}: examine the prior round's blockers and the diff since head {previous}, not a fresh unrestricted audit. Reuse a prior fingerprint for a blocker that is still open; name a new blocker only when this diff introduced it or made it newly assessable, and say why. Prior blockers: {prior}."]
        else []) ++
        [if authorModel = none ∧ priorReviewerModel = none then
          "If you completed the origin item yourself in this session, release this item so another worker reviews it."
        else
          s!"Cognitive diversity: {models}; review with a different model or provider when your client can choose. If you completed the origin item yourself in this session, release this item so another worker reviews it."] ++
        (if boundaries = [] then []
        else
          [s!"Protected boundaries (ADR-0074) — this repository's governance marks these paths {protectedPaths}. A diff that touches one is judged against that decision and tier; Snowcat routes a touched review-required boundary to a human instead of marking ready."]) ++
        ["You are READ-ONLY on GitHub: do not comment, submit a review, approve, push, edit, or mark the pull request ready; do not create follow-ups. Snowcat acts on your verdict deterministically — a pass marks the pull request ready for a human, a block schedules one bounded fix — and never merges.",
          "Complete with `review` on complete_work: decision pass | block | unable-to-review; at most 5 blockers, each with a stable fingerprint (for example `defect:<path>:<short-slug>`), exact location, the violated acceptance criterion, contract, or concrete counterexample, the material impact, the minimally sufficient resolution, and a verification method; at most 3 advisories. A block needs at least one blocker; a pass carries none. Report the model you ran as result.model. Do not report the pull request as an artifact — it is not yours. If the head moved since this item was created, block_work with that reason."])
    acceptanceCriteria :=
      ["The verdict is supplied as `review` on complete_work — decision, bounded blockers, bounded advisories — and Snowcat accepts it against the head this item names.",
        "Every blocker cites an exact location and the origin acceptance criterion, contract, or concrete counterexample it violates, with a minimal resolution and a verification method.",
        "No GitHub comment, review, approval, push, edit, or ready-for-review change was made.",
        s!"The evidence names the head SHA reviewed ({head.headSha}) and the checks run locally, or why none could be run."]
    allowedActions := [.read, .runTests]
    delegableActions := []
    requiredArtifact := some .none
    executionTarget := some .readOnly
    createdBy }

/-- `reviewFixRootDefinition`. -/
def reviewFixRootDefinition (repository : String) (head : PullRequestHead)
    (review : PullRequestReview) (createdBy : String) : WorkDefinition :=
  let short := shortSha head.headSha
  let number := head.number
  let round := review.round.text
  let fingerprints := joinWith ", " (review.named.map ReviewBlocker.fingerprint)
  let described := describeBlockers review.named
  let reviewItem :=
    ((review.reviewItemId.filter fun id => id ≠ "").map fun id => s!" (review item {id})").getD ""
  let originItemId := review.originItemId.filter fun id => id ≠ ""
  { kind := reviewFixKind
    objective :=
      s!"Fix review blockers on {repository}#{number} (head {short}, round {round}): {fingerprints}"
    instructions := joinWith " "
      ([s!"Pull request {head.url} (\"{head.title}\") at head {head.headSha} was blocked in review round {round} of {maxReviewRounds}{reviewItem} for these blockers: {described}."] ++
        (originItemId.map fun id =>
          s!"The origin item is {id} (get_work shows its acceptance criteria).").toList ++
        ["Address EXACTLY these blockers on the pull request's branch and push; keep the pull request a DRAFT, do not widen scope, do not mark it ready, and never merge, approve, or dismiss a review. If a blocker is wrong, say so in the evidence with the reason rather than silently skipping it, and still complete — the next review round judges.",
          s!"Do not edit the pull request's description — none of these blockers are on it, and no automated actor edits a description to satisfy a review (ADR-0067). If you believe a blocker was mis-fingerprinted `{descriptionBlockerPrefix}` and belongs here on the tree instead, say so in evidence; do not touch the description either way.",
          s!"After your push the head changes and Snowcat schedules the next review round automatically. Run the repository's own checks locally on the new head before completing (`make verify`; every fleet repository exposes it — its absence is itself a blocker, `defect:makefile:verify-missing`), and check the head's check runs (for example `gh pr checks {number} --repo {repository}`) after your push.",
          "Complete reporting the pull request as a pull-request artifact, with evidence naming each fingerprint as addressed (what changed) or disputed (why), the checks run, and the model you ran as result.model. Snowcat refuses a completion whose pull request is open and not a draft."])
    acceptanceCriteria :=
      ["Every blocker fingerprint is named in the evidence as addressed (with the change) or disputed (with the reason).",
        "The pull request remains a draft and its branch carries the new commits (Snowcat enforces the draft on completion).",
        "The repository's own checks pass locally on the new head, or the result names the failing check and why.",
        s!"The pull request {head.url} is reported as a pull-request artifact."]
    allowedActions := [.read, .write, .runTests, .openPr]
    delegableActions := []
    requiredArtifact := some .pullRequest
    executionTarget := some .existingPullRequest
    createdBy }

end Roots

/-! ## What completed work reported -/

/-- `Map.set`: a known key keeps its place. -/
def setEntry {α : Type} (entries : List (String × α)) (key : String) (value : α) :
    List (String × α) :=
  if entries.any (fun entry => entry.1 = key) = true then
    entries.map fun entry => if entry.1 = key then (key, value) else entry
  else entries ++ [(key, value)]

/-- What the newest report of a pull request observed. Reports are ordered by
the instant of the observation, then by the item's last write, and a fix comes
after another item; the source compares the three as one text. -/
structure ReviewObservation where
  url : String
  observedAt : String
  updatedAt : Time
  isFix : Bool
  state : ObservedState
  draft : Bool
  deriving DecidableEq, Repr

/-- `order > observation.order`. -/
def ReviewObservation.isAfter (new old : ReviewObservation) : Bool :=
  if new.observedAt = old.observedAt then
    if new.updatedAt = old.updatedAt then new.isFix && !old.isFix
    else decide (old.updatedAt < new.updatedAt)
  else jsLe old.observedAt new.observedAt

/-- What the reports of completed work say of each pull request. -/
structure ReviewSources where
  origins : List (String × ReviewOrigin)
  observations : List (String × ReviewObservation)
  unresolvedSources : List String
  unresolvedHandoffs : List String
  deriving DecidableEq, Repr

section Sources

variable (env : Env)

/-- The item as the origin of a review. -/
def WorkItem.reviewOrigin (item : WorkItem) : ReviewOrigin where
  repository := item.repository
  priority := item.priority
  originItemId := item.id
  authorModel := (item.result.bind WorkResult.model).filter fun model => model ≠ ""

/-- One report: an artifact of a completed item. -/
def addReport (sources : ReviewSources) (item : WorkItem) (artifact : WorkArtifact) :
    ReviewSources :=
  match artifact.kind, artifact.verification with
  | .pullRequest, some verification =>
    let key := pullRequestArtifactIdentity env item.repository artifact
    match verification with
    | .unverified _ _ => { sources with unresolvedSources := key :: sources.unresolvedSources }
    | .verified o =>
      let new : ReviewObservation :=
        ⟨artifact.url, o.verifiedAt, item.updatedAt, item.kind = reviewFixKind, o.state,
          o.draft = some true⟩
      let observed :=
        { sources with
          unresolvedHandoffs := if o.handoff.isSome = true then key :: sources.unresolvedHandoffs
            else sources.unresolvedHandoffs
          observations :=
            if (sources.observations.lookup key).all (fun old => new.isAfter old) = true then
              setEntry sources.observations key new
            else sources.observations }
      if item.kind = reviewKind ∨ item.kind = reviewFixKind then observed
      else if (sources.origins.lookup key).all (fun old => old.priority < item.priority) = true then
        { observed with origins := setEntry sources.origins key item.reviewOrigin }
      else observed
  | _, _ => sources

/-- The reports of the gated repositories. -/
def reviewSources (gated : List String) (items : List WorkItem) : ReviewSources :=
  let reports : List (WorkItem × WorkArtifact) :=
    (items.filter fun item => gated.contains (toLowerCase item.repository)).flatMap fun item =>
      item.artifacts.map fun artifact => (item, artifact)
  reports.foldl (fun sources report => addReport env sources report.1 report.2) ⟨[], [], [], []⟩

/-- The drafts to inspect, each with its origin: every key the newest
observation shows as an open draft, and nothing is unresolved about. -/
def draftsToReview (sources : ReviewSources) : List (String × ReviewOrigin) :=
  sources.origins.filterMap fun (key, origin) =>
    match sources.observations.lookup key with
    | none => none
    | some observation =>
      if sources.unresolvedSources.contains key = true ∨
          sources.unresolvedHandoffs.contains key = true ∨
          observation.state ≠ .opened ∨ observation.draft = false then none
      else some (observation.url, origin)

end Sources

/-- `repositoryReviewGateSettings`, the slugs of those that are on. -/
def gatedRepositories (db : Db) (repository : Option String) : List String :=
  (((db.repositories.rows.filter fun row => row.enabled && row.reviewGate).map
    RepositoryRow.slug).mergeSort binaryLe).filter fun slug =>
      repository.all fun named => toLowerCase slug = toLowerCase named

/-! ## The pass -/

section Pass

variable {env : Env} (out : Outside)

/-- `readPullRequestLastEditedAt`, of a read that succeeded: when GitHub says
the description was edited. -/
def readPullRequestLastEditedAt (locator : PullRequestLocator) : PassTx env (Option String) := do
  let response ← githubApiJson out (.lastEdited locator.owner locator.name locator.number)
  match response with
  | .response 200 envelope =>
    let repository := (envelope.field "data").bind (Json.field "repository")
    pure (((repository.bind (Json.field "pullRequest")).bind (Json.field "lastEditedAt")).bind
      Json.text?)
  | _ => pure none

/-- `describeDescriptionAdjudication`. -/
def describeDescriptionAdjudication (options : ReviewOptions) (repository url : String)
    (blockers : List ReviewBlocker) (verdict : PullRequestReview) : PassTx env String := do
  let lead := describeDescriptionBlockersLead verdict.round blockers
  match parsePullRequestUrl env repository url, verdict.reviewedAt with
  | some locator, some reviewedAt => do
    let edited ← readPullRequestLastEditedAt out locator
    let after := (edited.bind options.parseDate).any fun editedAt => decide (reviewedAt < editedAt)
    pure (if after = true then s!"{lead} — description changed after review" else lead)
  | _, _ => pure lead

/-- Ask the store for a root of the review gate. -/
def enqueueReview (repository : String) (input : ReviewRootInput) (noun url headSha : String)
    (round : JsNumber) : PassTx env ReviewEntry := do
  let created ← perform (.enqueueReviewRoot repository input)
  match created with
  | .found (some item) => pure (.enqueued item.id input.definition.kind url headSha round)
  | _ =>
    let short := shortSha headSha
    pure (.skipped url s!"head {short} already has a {noun} item")

/-- The fix of a blocked head. -/
def enqueueFix (actor : String) (origin : ReviewOrigin) (url : String) (head : PullRequestHead)
    (latest : WorkItem) (verdict : PullRequestReview) : PassTx env ReviewEntry :=
  let review : PullRequestReview :=
    { pullRequestUrl := url
      headSha := head.headSha
      patchDigest := verdict.patchDigest.filter fun digest => digest ≠ ""
      round := verdict.round
      originItemId := verdict.originItemId.filter fun id => id ≠ ""
      authorModel := verdict.authorModel.filter fun model => model ≠ ""
      priorReviewerModel := none
      priorBlockers := []
      reviewItemId := some latest.id
      reviewerModel := (latest.result.bind WorkResult.model).filter fun model => model ≠ ""
      decision := none
      blockers := some (treeBlockers verdict.named)
      advisories := some (verdict.advisories.getD [])
      reviewedAt := none }
  enqueueReview origin.repository
    { definition :=
        { reviewFixRootDefinition origin.repository head review actor with
          priority := some (.int origin.priority) }
      sourceRef := s!"{reviewFixKind}:{url}@{head.headSha}"
      review } "fix" url head.headSha verdict.round

/-- What a block asks for behind the outstanding description blockers: a fix,
or a human. -/
def blockConsequence (actor : String) (origin : ReviewOrigin) (url : String)
    (head : PullRequestHead) (reviews : List WorkItem) (latest : WorkItem)
    (verdict : PullRequestReview) : PassTx env (List ReviewEntry) :=
  let fixed := reviews.any fun item => item.kind = reviewFixKind && item.status = .completed &&
    (item.review.map PullRequestReview.headSha = some head.headSha)
  if fixed = true then
    pure [.needsHuman url head.headSha verdict.round "a fix completed without a new head"]
  else if maxReviewRounds ≤ verdict.round.toInt then
    let round := verdict.round.text
    pure [.needsHuman url head.headSha verdict.round s!"blocked at round {round} of {maxReviewRounds}"]
  else if treeBlockers verdict.named = [] then pure []
  else do
    let entry ← enqueueFix actor origin url head latest verdict
    pure [entry]

/-- The report of the description blockers of a verdict: they are a human's, at
every round. -/
def reportDescriptionBlockers (options : ReviewOptions) (origin : ReviewOrigin) (url : String)
    (head : PullRequestHead) (verdict : PullRequestReview) : PassTx env (List ReviewEntry) :=
  if descriptionBlockers verdict.named = [] then pure []
  else do
    let reason ← describeDescriptionAdjudication out options origin.repository url
      (descriptionBlockers verdict.named) verdict
    pure [.needsHuman url head.headSha verdict.round reason]

/-- What the latest verdict on a head asks for. -/
def verdictConsequence (options : ReviewOptions) (actor : String) (origin : ReviewOrigin)
    (url : String) (head : PullRequestHead) (reviews : List WorkItem) (latest : WorkItem)
    (verdict : PullRequestReview) : PassTx env (List ReviewEntry) :=
  let released := applyPassConsequence out actor options.writes origin url head verdict.round
    latest.id
  match verdict.decision with
  | some .pass => released
  | some .unableToReview =>
    pure [.needsHuman url head.headSha verdict.round "the reviewer was unable to review"]
  | _ => do
    let reported ← reportDescriptionBlockers out options origin url head verdict
    let entries ← if verdict.isOutstanding = true then released
      else blockConsequence actor origin url head reviews latest verdict
    pure (reported ++ entries)

/-- The next round of a head no round has judged. -/
def enqueueRound (actor : String) (origin : ReviewOrigin) (url : String) (head : PullRequestHead)
    (judged : List WorkItem) : PassTx env (List ReviewEntry) := do
  let round : ℤ := judged.length + 1
  if maxReviewRounds < round then
    pure [.needsHuman url head.headSha (.int round)
      s!"review budget exhausted ({maxReviewRounds} rounds)"]
  else do
    let locator ← Tx.ofOption (parsePullRequestUrl env origin.repository url)
      (.error "Cannot read properties of undefined (reading 'owner')")
    let read ← readPatchDigest out locator
    let patchDigest : Option String := match read with
      | .digest digest => some digest
      | _ => none
    let latest := judged.getLast?
    let verdict := latest.bind WorkItem.review
    let review : PullRequestReview :=
      { pullRequestUrl := url
        headSha := head.headSha
        patchDigest
        round := .int round
        originItemId := some origin.originItemId
        authorModel := origin.authorModel
        priorReviewerModel :=
          ((latest.bind WorkItem.result).bind WorkResult.model).filter fun model => model ≠ ""
        priorBlockers := (verdict.map PullRequestReview.named).getD []
        reviewItemId := none
        reviewerModel := none
        decision := none
        blockers := none
        advisories := none
        reviewedAt := none }
    let authority ← policyAuthorityFor out origin.repository
    let entry ← enqueueReview origin.repository
      { definition :=
          { reviewRootDefinition origin.repository head review actor
              (verdict.map PullRequestReview.headSha) (guardedBoundaries authority) with
            priority := some (.int origin.priority) }
        sourceRef := s!"{reviewKind}:{url}@{head.headSha}"
        review } "review" url head.headSha (.int round)
    pure [entry]

/-- One draft that still is one: what its rounds ask for. -/
def reviewHead (options : ReviewOptions) (actor : String) (origin : ReviewOrigin) (url : String)
    (head : PullRequestHead) (reviews : List WorkItem) : PassTx env (List ReviewEntry) :=
  if reviews.any (fun item => item.status = .queued || item.status = .claimed) = true then
    pure [.skipped url "a review or fix is in flight"]
  else
    match latestVerdict reviews with
    | none => enqueueRound out actor origin url head (completedReviews reviews)
    | some (latest, verdict) =>
      if verdict.headSha = head.headSha then
        verdictConsequence out options actor origin url head reviews latest verdict
      else enqueueRound out actor origin url head (completedReviews reviews)

/-- One draft of the loop. -/
def reviewDraft (options : ReviewOptions) (actor url : String) (origin : ReviewOrigin) :
    PassTx env (List ReviewEntry) := do
  let check ← readPullRequestHead out origin.repository url
  match check with
  | .unavailable reason => pure [.unavailable url reason]
  | .rejected reason => pure [.skipped url reason]
  | .found head =>
    if head.state ≠ .opened then
      let state := head.state.text
      pure [.skipped url s!"pull request is {state}"]
    else if head.draft = false then pure [.skipped url "pull request is not a draft"]
    else do
      Tx.ofExcept (validateRepository origin.repository)
      let reviews ← view fun db => pullRequestReviewItems env db origin.repository url
      reviewHead out options actor origin url head reviews

/-- `knownPullRequestUrls`. -/
def knownPullRequestUrls (db : Db) (repository : String) : List String :=
  let items := db.items.rows.filter fun item => item.repository = repository
  let reported := (items.filter fun item => item.status = .completed).flatMap fun item =>
    (item.artifacts.filter fun artifact => artifact.kind = .pullRequest).map WorkArtifact.url
  let bound := items.flatMap fun item =>
    (item.review.map PullRequestReview.pullRequestUrl).toList ++
      (item.cure.map PullRequestCure.pullRequestUrl).toList
  ((reported ++ bound).map toLowerCase).filter fun url => url ≠ "null" ∧ url ≠ ""

/-- The pull requests of one listing that no item accounts for. -/
def unreportedOf (options : ReviewOptions) (observedAt : Option Time) (hasLiveClaim : Bool)
    (seen : List String) : List ListedPullRequest → List ReviewEntry
  | [] => []
  | pull :: rest =>
    if toLowerCase pull.url ∈ seen then unreportedOf options observedAt hasLiveClaim seen rest
    else
      let isYoung := match pull.createdAt.bind options.parseDate, observedAt with
        | some createdAt, some atTime => decide (atTime - createdAt < maxLeaseSeconds * 1000)
        | _, _ => false
      let entry : ReviewEntry := match pull.createdAt with
        | some createdAt =>
          if (isYoung || hasLiveClaim) = true then
            .unreportedPending pull.url pull.number.toNat createdAt
          else .unreported ⟨pull.url, .int pull.number, pull.draft,
            pull.createdAt.filter fun text => text ≠ ""⟩
        | none => .unreported ⟨pull.url, .int pull.number, pull.draft, none⟩
      entry :: unreportedOf options observedAt hasLiveClaim (toLowerCase pull.url :: seen) rest

/-- One repository of `observeUnreportedPullRequests`. -/
def observeUnreported (options : ReviewOptions) (actor observedAt repository : String) :
    PassTx env (List ReviewEntry) := do
  let pulls := s!"https://github.com/{repository}/pulls"
  let listing ← listOpenPullRequests out repository
  match listing with
  | .unavailable reason => pure [.unavailable pulls reason]
  | .listed open? truncated => do
    let cut : List ReviewEntry := if truncated = true then
      [.skipped pulls "more than 300 open pull requests; the rest were not listed"] else []
    Tx.ofExcept (validateRepository repository)
    let seen ← view fun db => knownPullRequestUrls db repository
    let claimed ← view fun db => listed db
      { status := some .claimed
        repository := some repository
        limit := some 100 }
    let atTime := options.parseDate observedAt
    let hasLiveClaim := claimed.any fun item => item.leaseExpiresAt.any fun expiresAt =>
      atTime.any fun atTime => decide (atTime < expiresAt)
    let entries := unreportedOf options atTime hasLiveClaim seen open?
    let unreported := entries.filterMap fun
      | .unreported pull => some pull
      | _ => none
    let _ ← perform (.recordUnreportedPullRequests repository ⟨observedAt, unreported⟩ actor)
    pure (cut ++ entries)

/-- **`reviewPullRequests`**: how many drafts were inspected, and the entries of
the report. -/
def reviewPullRequests (options : ReviewOptions) (repository : Option String) (limit : ℤ)
    (actor : String) : PassTx env (ℕ × List ReviewEntry) := do
  let gated ← view fun db => gatedRepositories db repository
  if gated = [] then pure (0, [])
  else do
    let items ← selectPendingItems repository limit
    let drafts := draftsToReview (reviewSources env (gated.map toLowerCase) items)
    let reviewed ← Tx.each (fun draft => reviewDraft out options actor draft.1 draft.2) drafts
    let observedAt ← readTime out
    let unreported ← Tx.each (observeUnreported out options actor observedAt) gated
    pure (drafts.length, reviewed.flatten ++ unreported.flatten)

end Pass

end Snowcat
