import Snowcat.Queue.Creation
import Snowcat.Sweep.Health
import Snowcat.Sweep.Refresh

/-!
# The cure pass

`curePullRequests` inspects every open pull request that a completed item
reported, and every open one GitHub lists in a repository with foreign cure
on, and asks the store for a cure of each decayed head. The store creates one
root for each source reference, and the source reference is the URL the pass
has, at the head: the candidates are keyed by the URL as it was reported, the
listing by the URL built from the repository's slug.

A pass asks the store for cures and for nothing else, and always under the
source reference of the cure it asks for (`asksForCures_curePullRequests`).
-/

namespace Snowcat

/-! ## Candidates -/

/-- What a cure is asked for on behalf of. -/
structure CureOrigin where
  repository : String
  priority : ℤ
  /-- The item that reported the pull request; a foreign one has none. -/
  originItemId : Option String
  deriving DecidableEq, Repr

/-- `Map.set` for the candidates: a new URL goes last, a known one takes the
more urgent origin in its place. -/
def addCandidate (candidates : List (String × CureOrigin)) (url : String) (origin : CureOrigin) :
    List (String × CureOrigin) :=
  if candidates.any (fun c => c.1 = url) = true then
    candidates.map fun c =>
      if c.1 = url ∧ c.2.priority < origin.priority then (url, origin) else c
  else candidates ++ [(url, origin)]

/-- Whether an artifact is a pull request that was verified as open. -/
def WorkArtifact.isOpenPullRequest (artifact : WorkArtifact) : Bool :=
  artifact.kind = .pullRequest &&
    match artifact.verification with
    | some (.verified o) => o.state = .opened
    | _ => false

/-- The candidates of the cure pass, in the order of their first report. -/
def cureCandidates (items : List WorkItem) : List (String × CureOrigin) :=
  let reports : List (WorkItem × WorkArtifact) := items.flatMap fun item =>
    (item.artifacts.filter WorkArtifact.isOpenPullRequest).map fun artifact => (item, artifact)
  reports.foldl (fun candidates report =>
    addCandidate candidates report.2.url
      ⟨report.1.repository, report.1.priority, some report.1.id⟩) []

/-! ## The root of a cure -/

/-- The text of a decay. -/
def PullRequestDecay.text : PullRequestDecay → String
  | .behind => "behind"
  | .dirty => "dirty"
  | .failingChecks => "failing-checks"
  | .changesRequested => "changes-requested"
  | .unresolvedThreads => "unresolved-threads"
  | .badTitle => "bad-title"

/-- `describeDecay`. -/
def describeDecay (health : PullRequestHealth) : PullRequestDecay → String
  | .behind => "the head is behind its base branch (mergeable_state behind)"
  | .dirty => "the head conflicts with its base branch (mergeable_state dirty)"
  | .failingChecks =>
    let checks := joinWith ", " health.failingChecks
    s!"failing checks: {checks}"
  | .changesRequested => "a reviewer's latest review requests changes"
  | .unresolvedThreads =>
    let threads := health.unresolvedThreads.getD 0
    s!"{threads} review threads have no reply and are not outdated"
  | .badTitle => "the title fails the repository's Conventional Commits title lint"

/-- `cureRootDefinition`. -/
def cureRootDefinition (repository : String) (health : PullRequestHealth) (createdBy : String)
    (isForeign : Bool) (priority : ℤ) : WorkDefinition :=
  let short := shortSha health.headSha
  let number := health.number
  let url := health.url
  let sha := health.headSha
  let decay := joinWith ", " (health.decay.map PullRequestDecay.text)
  let reasons := joinWith "; " (health.decay.map (describeDecay health))
  { kind := "pr-cure"
    objective := s!"Cure {repository}#{number} (head {short}): {decay}"
    instructions := joinWith " "
      ([s!"Pull request {url} at head {sha} has decayed: {reasons}."] ++
        (if isForeign = true then
          ["This pull request was NOT opened by a Snowcat worker (the repository opted in to curing foreign pull requests): read its description and its author's intent on GitHub before acting."]
        else []) ++
        ["Perform only a MECHANICAL cure — one that leaves the pull request's patch identical: rebase or merge the base branch when that resolves cleanly, retitle to satisfy the repository's title lint, re-run or re-trigger checks, reply to review comments, fix labels or the body. Replying to a review thread, or resolving one whose request a later commit already addressed, is mechanical (it changes no patch); a thread that asks for a code change is not.",
          "Snowcat recomputes the digest of the pull request's patch (its added and removed lines per file) when you complete this item and REFUSES the completion if it changed, so do not edit code, resolve conflicts by hand, change tests, or squash in fixes.",
          "If curing this head requires changing the patch (a conflict that needs edits, a failing check that needs a code or test change, a review or review thread that asks for a change), do NOT push: create exactly one existing-pr-change follow-up that names the exact change and how it will be verified; Snowcat supplies the pr-cure-change kind and inherited binding. Block this item if the change is the maintainer's to make.",
          "Never merge, approve, or dismiss a review. Read the pull request and its checks on GitHub before acting; if the head has moved on since this item was created, block with that reason.",
          "Complete with the pull request reported as a pull-request artifact and evidence: the checks you observed on the new head, the mergeable state, and what you changed (metadata only)."])
    acceptanceCriteria :=
      [s!"The pull request {url} is reported as a pull-request artifact and its patch identity is unchanged (Snowcat enforces this on completion).",
        "The pull request's mergeable state is clean, or the result names exactly what still blocks it and why that is not a mechanical cure.",
        "The checks on the pull request's new head are green, or the result names the failing check and the follow-up or block that carries the fix.",
        "No merge, approval, or review dismissal was performed."]
    allowedActions := [.read, .write, .runTests, .openPr, .createFollowup]
    delegableActions := [.read, .write, .runTests, .openPr]
    requiredArtifact := some .pullRequest
    executionTarget := some .existingPullRequest
    priority := some (.int priority)
    createdBy }

/-- What the pass asks the store for. -/
def cureRootInput (repository : String) (health : PullRequestHealth) (digest : Digest)
    (actor : String) (origin : CureOrigin) : CureRootInput where
  definition := cureRootDefinition repository health actor origin.originItemId.isNone origin.priority
  sourceRef := s!"{health.url}@{health.headSha}"
  cure :=
    { pullRequestUrl := health.url
      headSha := health.headSha
      patchDigest := digest
      decay := health.decay
      originItemId := origin.originItemId }

/-- The contract of a cure has no problem. -/
theorem contractProblem_cure (sourceRef : Option String) (cure : PullRequestCure) :
    contractProblem
      { allowedActions := [.read, .write, .runTests, .openPr, .createFollowup]
        requiredArtifact := .pullRequest
        executionTarget := some .existingPullRequest
        sourceRef
        cure := some cure
        kind := some "pr-cure" } = none := by
  have hkind : endsWith "pr-cure" "-discovery" = false := by decide
  simp [contractProblem, hkind, cureChangeKind, hasPullRequestBinding]

set_option maxRecDepth 4000 in
/-- **The definition of a cure passes its check**, whatever the pull request is
called. -/
theorem validateWorkDefinition_cureRootDefinition {repository createdBy sourceRef : String}
    {health : PullRequestHealth} {isForeign : Bool} {priority : ℤ} {cure : PullRequestCure}
    (hpriority : (JsNumber.int priority).isSafeInteger = true)
    (hcreatedBy : isBlank createdBy = false) :
    validateWorkDefinition (cureRootDefinition repository health createdBy isForeign priority)
      { sourceRef := some sourceRef
        cure := some cure } = .ok () := by
  have hkind : Patterns.workKind.test "pr-cure" = true := by decide
  refine validateWorkDefinition_eq_ok hkind ?_ ?_ ?_ (List.cons_ne_nil _ _) ?_ hcreatedBy
    (assertDeliverable_eq_ok (Option.some_ne_none _) (contractProblem_cure _ cure))
  · intro p hp
    rw [← Option.some.inj hp]
    exact hpriority
  · repeat refine isBlank_append_left ?_
    exact isBlank_ofList_cons (by decide)
  · refine isBlank_joinWith (List.mem_append_left _ (List.mem_append_left _
      (List.mem_singleton_self _))) ?_
    repeat refine isBlank_append_left ?_
    exact isBlank_ofList_cons (by decide)
  · show ∀ criterion ∈ [_, _, _, _], _
    simp only [List.forall_mem_cons]
    refine ⟨?_, isBlank_ofList_cons (by decide), isBlank_ofList_cons (by decide),
      isBlank_ofList_cons (by decide), fun _ h => nomatch h⟩
    repeat refine isBlank_append_left ?_
    exact isBlank_ofList_cons (by decide)

/-- **What a cure is asked for with is valid** when its source reference and
its cure are. -/
theorem valid_cureRootInput {repository actor : String} {health : PullRequestHealth}
    {digest : Digest} {origin : CureOrigin} (hrepository : validateRepository repository = .ok ())
    (href : validateSourceRef s!"{health.url}@{health.headSha}" = .ok ())
    (hcure : validateCure (cureRootInput repository health digest actor origin).cure = .ok ())
    (hpriority : (JsNumber.int origin.priority).isSafeInteger = true)
    (hactor : isBlank actor = false) :
    (cureRootInput repository health digest actor origin).Valid repository where
  repository := hrepository
  sourceRef := href
  cure := hcure
  kind := rfl
  predecessors := rfl
  definition := validateWorkDefinition_cureRootDefinition hpriority hactor

/-! ## The pass -/

/-- **An entry of the cure pass's report**: the list of `CureSweepResult` it
belongs to and what is pushed there, or what it counts. -/
inductive CureEntry where
  | inspected (url : String) (isForeign : Bool)
  | listed (repository : String) (count : ℕ)
  | enqueued (id url headSha : String) (decay : List PullRequestDecay)
  | healthy (url : String)
  | skipped (url reason : String)
  | unavailable (url reason : String)
  | note (url note : String)
  deriving DecidableEq, Repr

section Pass

variable {env : Env} (out : Outside)

/-- Ask the store for the cure of a decayed head. -/
def enqueueCure (origin : CureOrigin) (actor url : String) (health : PullRequestHealth)
    (digest : Digest) : PassTx env CureEntry := do
  let input := cureRootInput origin.repository { health with url } digest actor origin
  let created ← perform (.enqueueCureRoot origin.repository input)
  match created with
  | .found (some item) => pure (.enqueued item.id url health.headSha health.decay)
  | _ =>
    let short := shortSha health.headSha
    pure (.skipped url s!"head {short} already has a cure item")

/-- `inspectCandidate`. -/
def inspectCandidate (actor url : String) (origin : CureOrigin) : PassTx env (List CureEntry) := do
  let check ← inspectPullRequestHealth out origin.repository url
  match check with
  | .unavailable reason => pure [.unavailable url reason]
  | .rejected reason => pure [.skipped url reason]
  | .found health => do
    let notes := health.notes.map fun note => CureEntry.note url note
    if health.state ≠ .opened then
      let state := health.state.text
      pure (notes ++ [.skipped url s!"pull request is {state}"])
    else if health.draft = true then
      pure (notes ++ [.skipped url "draft pull requests are not cured"])
    else if health.decay = [] then pure (notes ++ [.healthy url])
    else
      match health.patchDigest with
      | none =>
        let reason := health.patchUnavailableReason.getD "unknown"
        pure (notes ++ [.skipped url s!"patch identity uncomputable: {reason}"])
      | some digest => do
        let entry ← enqueueCure origin actor url health digest
        pure (notes ++ [entry])

/-- The reported candidates, one after the other. -/
def inspectReported (actor : String) (candidates : List (String × CureOrigin)) :
    PassTx env (List CureEntry) := do
  let entries ← Tx.each (fun candidate => do
    let inspected ← inspectCandidate out actor candidate.1 candidate.2
    pure (.inspected candidate.1 false :: inspected)) candidates
  pure entries.flatten

/-- The pull requests of one listing, with the URLs that have been seen. -/
def inspectListed (actor repository : String) (reported : List String) :
    List ListedPullRequest → PassTx env (List CureEntry × List String)
  | [] => pure ([], reported)
  | pull :: rest =>
    if toLowerCase pull.url ∈ reported then inspectListed actor repository reported rest
    else if pull.draft = true then do
      let (entries, seen) ←
        inspectListed actor repository (toLowerCase pull.url :: reported) rest
      pure (.skipped pull.url "draft pull requests are not cured" :: entries, seen)
    else do
      let inspected ← inspectCandidate out actor pull.url ⟨repository, 0, none⟩
      let (entries, seen) ←
        inspectListed actor repository (toLowerCase pull.url :: reported) rest
      pure (.inspected pull.url true :: inspected ++ entries, seen)

/-- The repositories with foreign cure on, one after the other. -/
def inspectForeign (actor : String) (reported : List String) :
    List String → PassTx env (List CureEntry)
  | [] => pure []
  | repository :: rest => do
    let pulls := s!"https://github.com/{repository}/pulls"
    let listing ← listOpenPullRequests out repository
    match listing with
    | .unavailable reason => do
      let entries ← inspectForeign actor reported rest
      pure (.unavailable pulls reason :: entries)
    | .listed listed truncated => do
      let head : List CureEntry := .listed repository listed.length ::
        (if truncated = true then
          [.skipped pulls "more than 300 open pull requests; the rest were not listed"] else [])
      let (inspected, seen) ← inspectListed out actor repository reported listed
      let entries ← inspectForeign actor seen rest
      pure (head ++ inspected ++ entries)

/-- `repositoryCureSettings`, the slugs of those that are on. -/
def foreignCureRepositories (db : Db) : List String :=
  ((db.repositories.rows.filter fun row => row.enabled && row.cureForeign).map
    RepositoryRow.slug).mergeSort binaryLe

/-- **`curePullRequests`.** -/
def curePullRequests (repository : Option String) (limit : ℤ) (actor : String) :
    PassTx env (List CureEntry) := do
  let items ← selectPendingItems repository limit
  let candidates := cureCandidates items
  let reported ← inspectReported out actor candidates
  let foreign ← view foreignCureRepositories
  let selected := foreign.filter fun slug =>
    repository.all fun r => toLowerCase slug = toLowerCase r
  let entries ← inspectForeign out actor (candidates.map fun c => toLowerCase c.1) selected
  pure (reported ++ entries)

end Pass

/-! ## What a pass asks the store for -/

/-- **The calls of cure passes**: a cure is asked for under the source
reference its pull request and head make. Nobody else asks for one. -/
def Op.AsksForCure : Op → Prop
  | .enqueueCureRoot _ input =>
    input.sourceRef = s!"{input.cure.pullRequestUrl}@{input.cure.headSha}"
  | _ => True

section Calls

variable {env : Env} {out : Outside}

/-- What a pass keeps of the calls taken: it adds only calls that ask for
cures as the pass does. -/
abbrev AsksForCures {α : Type} (x : PassTx env α) : Prop := x.Appends Pass.calls Op.AsksForCure

/-- What the others call while the pass waits is as it should be. -/
class Orderly (out : Outside) : Prop where
  asks : ∀ k, ∀ op ∈ out.meanwhile k, op.AsksForCure

instance asksForCures_githubApiJson [h : Orderly out] (request : GitHubRequest) :
    AsksForCures (githubApiJson out request : PassTx env GitHubJsonResponse) :=
  ⟨fun s => ⟨out.meanwhile s.asks, rfl, h.asks s.asks⟩⟩

instance asksForCures_view {α : Type} (f : Db → α) : AsksForCures (view f : PassTx env α) :=
  Tx.appends_of_eq fun _ => rfl

/-- A loop adds what its rounds add. -/
instance asksForCures_each {α β : Type} {f : α → PassTx env β} [hf : ∀ a, AsksForCures (f a)]
    (as : List α) : AsksForCures (Tx.each f as) := by
  induction as with
  | nil => exact Tx.appends_pure []
  | cons a as ih =>
    unfold Tx.each
    infer_instance

instance asksForCures_readPatchLoop [Orderly out] (locator : PullRequestLocator)
    (files : List PatchFile) (pages : List ℕ) :
    AsksForCures (readPatchLoop out locator files pages : PassTx env PatchRead) := by
  induction pages generalizing files with
  | nil =>
    rw [readPatchLoop]
    infer_instance
  | cons page rest ih =>
    rw [readPatchLoop]
    refine Tx.Appends.then inferInstance fun response => ?_
    split
    · split
      · infer_instance
      · split
        · infer_instance
        · have := ih
          infer_instance
    · infer_instance

instance asksForCures_readUnresolvedThreads [Orderly out] (locator : PullRequestLocator) :
    AsksForCures (readUnresolvedThreads out locator : PassTx env (Except String ℕ)) := by
  refine Tx.Appends.then inferInstance fun response => ?_
  split
  · infer_instance
  · dsimp only
    refine @Tx.appends_ite _ _ _ _ _ _ _ _ _ _ inferInstance ?_
    split <;> infer_instance

instance asksForCures_inspectPullRequestHealth [Orderly out] (repository url : String) :
    AsksForCures (inspectPullRequestHealth out repository url :
      PassTx env (PullCheck PullRequestHealth)) := by
  unfold inspectPullRequestHealth
  split
  · infer_instance
  refine Tx.Appends.then inferInstance fun pull => ?_
  split
  · infer_instance
  · infer_instance
  refine @Tx.appends_ite _ _ _ _ _ _ _ _ _ _ inferInstance ?_
  refine Tx.Appends.then inferInstance fun checks => ?_
  split
  · refine Tx.Appends.then inferInstance fun reviews => ?_
    split
    · refine Tx.Appends.then inferInstance fun threads => ?_
      refine Tx.Appends.then (asksForCures_readPatchLoop _ _ _) fun patch => ?_
      dsimp only
      split <;> infer_instance
    · infer_instance
  · infer_instance

instance asksForCures_listOpenLoop [Orderly out] (repository : String)
    (pulls : List ListedPullRequest) (pages : List ℕ) :
    AsksForCures (listOpenLoop out repository pulls pages : PassTx env OpenPullRequests) := by
  induction pages generalizing pulls with
  | nil =>
    rw [listOpenLoop]
    infer_instance
  | cons page rest ih =>
    rw [listOpenLoop]
    refine Tx.Appends.then inferInstance fun response => ?_
    split
    · split
      · infer_instance
      · split
        · infer_instance
        · have := ih
          infer_instance
    · infer_instance

/-- The pass's own call is one for a cure. -/
instance asksForCures_enqueueCure (origin : CureOrigin) (actor url : String)
    (health : PullRequestHealth) (digest : Digest) :
    AsksForCures (enqueueCure origin actor url health digest : PassTx env CureEntry) := by
  have hcall : AsksForCures (perform (.enqueueCureRoot origin.repository
      (cureRootInput origin.repository { health with url } digest actor origin)) :
        PassTx env Reply) :=
    ⟨fun _ => ⟨[_], rfl, fun _ hop => List.mem_singleton.mp hop ▸ rfl⟩⟩
  refine Tx.Appends.then hcall fun created => ?_
  split <;> infer_instance

instance asksForCures_inspectCandidate [Orderly out] (actor url : String) (origin : CureOrigin) :
    AsksForCures (inspectCandidate out actor url origin : PassTx env (List CureEntry)) := by
  refine Tx.Appends.then inferInstance fun check => ?_
  split
  · infer_instance
  · infer_instance
  · dsimp only
    refine @Tx.appends_ite _ _ _ _ _ _ _ _ _ _ inferInstance ?_
    refine @Tx.appends_ite _ _ _ _ _ _ _ _ _ _ inferInstance ?_
    refine @Tx.appends_ite _ _ _ _ _ _ _ _ _ _ inferInstance ?_
    split <;> infer_instance

instance asksForCures_inspectReported [Orderly out] (actor : String)
    (candidates : List (String × CureOrigin)) :
    AsksForCures (inspectReported out actor candidates : PassTx env (List CureEntry)) := by
  unfold inspectReported
  infer_instance

instance asksForCures_inspectListed [Orderly out] (actor repository : String)
    (reported : List String) (pulls : List ListedPullRequest) :
    AsksForCures (inspectListed out actor repository reported pulls :
      PassTx env (List CureEntry × List String)) := by
  induction pulls generalizing reported with
  | nil =>
    rw [inspectListed]
    infer_instance
  | cons pull rest ih =>
    have := ih
    rw [inspectListed]
    infer_instance

instance asksForCures_inspectForeign [Orderly out] (actor : String) (reported : List String)
    (repositories : List String) :
    AsksForCures (inspectForeign out actor reported repositories :
      PassTx env (List CureEntry)) := by
  induction repositories generalizing reported with
  | nil =>
    rw [inspectForeign]
    infer_instance
  | cons repository rest ih =>
    have := ih
    rw [inspectForeign]
    refine Tx.Appends.then (asksForCures_listOpenLoop _ _ _) fun listing => ?_
    split <;> infer_instance

/-- **A pass asks for cures, and for nothing else.** -/
theorem asksForCures_curePullRequests [Orderly out] (repository : Option String) (limit : ℤ)
    (actor : String) :
    AsksForCures (curePullRequests out repository limit actor : PassTx env (List CureEntry)) := by
  unfold curePullRequests selectPendingItems
  infer_instance

end Calls

end Snowcat
