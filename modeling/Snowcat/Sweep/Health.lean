import Snowcat.Sweep.GitHub

/-!
# The health of a pull request

What the cure pass reads of a pull request before it decides anything: the
record itself, the check runs of its head, its reviews and review threads,
and the identity of its patch. `inspectPullRequestHealth` is the whole
reading; `readPatchDigest` and `listOpenPullRequests` are parts that the
review pass uses too. Nothing here calls the store.
-/

namespace Snowcat

/-! ## Titles -/

/-- The types of a Conventional Commits title. -/
def conventionalCommitTypes : List String :=
  ["build", "chore", "ci", "docs", "feat", "fix", "perf", "refactor", "revert", "style", "test"]

/-- `TITLE_PATTERN`: a type, a scope in parentheses, a colon and a summary of
one line. -/
def Patterns.title : Pattern :=
  let scope : Pattern := .all
    [.lit "(", .one fun c => lowerLetter c || digit c,
      .star (.one fun c => lowerLetter c || digit c || c ∈ ['.', '/', '-']), .lit ")"]
  .all
    [conventionalCommitTypes.foldr (fun type p => .alt (.lit type) p) .never, .alt .empty scope,
      .lit ": ", .plus (.one fun c => c.val ∉ [0x0A, 0x0D, 0x2028, 0x2029])]

/-- `lintPullRequestTitle(title).ok`. -/
def lintPullRequestTitle (title : String) : Bool :=
  trim title ≠ "" && Patterns.title.test (trim title)

/-! ## What was read -/

/-- `PullRequestHealth`. -/
structure PullRequestHealth where
  number : ℕ
  url : String
  headSha : String
  state : PullRequestState
  draft : Bool
  title : String
  mergeableState : Option String
  failingChecks : List String := []
  changesRequested : Bool := false
  unresolvedThreads : Option ℕ := none
  notes : List String := []
  patchDigest : Option Digest := none
  patchUnavailableReason : Option String := none
  decay : List PullRequestDecay := []

/-- The conclusions a check run fails with. -/
def failingConclusions : List String :=
  ["failure", "timed_out", "startup_failure", "action_required"]

/-- The names of the check runs that failed. -/
def failingChecksOf (value : Json) : List String :=
  let runs := ((value.field "check_runs").bind Json.array?).getD []
  (runs.filterMap fun run =>
    if (run.field "status").bind Json.text? = some "completed" ∧
        ∃ conclusion ∈ (run.field "conclusion").bind Json.text?, conclusion ∈ failingConclusions then
      some (((run.field "name").bind Json.text?).getD "unnamed check")
    else none).mergeSort jsLe

/-- The reviews that count, as login and state: a comment does not. -/
def reviewStates (value : Json) : List (String × String) :=
  (value.array?.getD []).filterMap fun review =>
    match ((review.field "user").bind (Json.field "login")).bind Json.text?,
      (review.field "state").bind Json.text? with
    | some login, some state => if state = "COMMENTED" then none else some (login, state)
    | _, _ => none

/-- Whether the latest review of anybody requests changes. -/
def changesRequestedIn (reviews : List (String × String)) : Bool :=
  reviews.any fun review =>
    (reviews.reverse.find? fun r => r.1 = review.1).map Prod.snd = some "CHANGES_REQUESTED"

/-- The decay of an open pull request that is not a draft, in the source's
order. -/
def decayOf (health : PullRequestHealth) : List PullRequestDecay :=
  (if health.mergeableState = some "behind" then [.behind] else []) ++
    (if health.mergeableState = some "dirty" then [.dirty] else []) ++
    (if health.failingChecks ≠ [] then [.failingChecks] else []) ++
    (if health.changesRequested = true then [.changesRequested] else []) ++
    (if 0 < health.unresolvedThreads.getD 0 then [.unresolvedThreads] else []) ++
    (if lintPullRequestTitle health.title = false then [.badTitle] else [])

/-- How the reading of a patch ended. -/
inductive PatchRead where
  | digest (digest : Digest)
  | uncomputable (reason : String)
  | unavailable (reason : String)

/-- The lines of a text. -/
def splitLines (s : String) : List String := (s.toList.splitOn '\n').map String.ofList

/-- The lines of a patch that add or remove. -/
def changedLines (patch : String) : List String :=
  (splitLines patch).filter fun line =>
    (startsWith line "+" && !startsWith line "+++") ||
      (startsWith line "-" && !startsWith line "---")

section Reading

variable {env : Env} (out : Outside)

/-- `Number(value ?? 0)`, of a field. -/
def numberOrZero (value : Json) (key : String) : JsNumber :=
  match value.field key with
  | none => .int 0
  | some .null => .int 0
  | some n => out.number n

/-- One entry of a page of changed files. -/
def patchFile (raw : Json) : PatchRead ⊕ PatchFile :=
  match (raw.field "filename").bind Json.text?, (raw.field "status").bind Json.text? with
  | some filename, some status =>
    let previous := (raw.field "previous_filename").bind Json.text?
    match (raw.field "patch").bind Json.text? with
    | some patch => .inr ⟨filename, status, previous, changedLines patch, none⟩
    | none =>
      match (raw.field "sha").bind Json.text? with
      | some sha =>
        if numberOrZero out raw "additions" = .int 0 ∧ numberOrZero out raw "deletions" = .int 0 then
          .inr ⟨filename, status, previous, [], some sha⟩
        else .inl (.uncomputable s!"patch for {filename} is not available from GitHub (too large)")
      | none => .inl (.uncomputable s!"patch for {filename} is not available from GitHub (too large)")
  | _, _ => .inl (.unavailable "GitHub pull-request file entry was malformed")

/-- The files of a page, up to the first entry that ends the reading. -/
def patchFiles : List Json → PatchRead ⊕ List PatchFile
  | [] => .inr []
  | raw :: rest =>
    match patchFile out raw with
    | .inl ended => .inl ended
    | .inr file =>
      match patchFiles rest with
      | .inl ended => .inl ended
      | .inr files => .inr (file :: files)

/-- The loop of `readPatchDigest` over its pages. -/
def readPatchLoop (locator : PullRequestLocator) (files : List PatchFile) :
    List ℕ → PassTx env PatchRead
  | [] => pure (.uncomputable "more than 300 changed files")
  | page :: rest => do
    let response ← githubApiJson out (.files locator.owner locator.name locator.number page)
    match response with
    | .response 200 value =>
      match value.array? with
      | none => pure (.unavailable "GitHub pull-request files response was not a list")
      | some values =>
        match patchFiles out values with
        | .inl ended => pure ended
        | .inr more =>
          if values.length < 100 then
            pure (.digest (out.digest
              ((files ++ more).mergeSort fun a b => jsLe a.filename b.filename)))
          else readPatchLoop locator (files ++ more) rest
    | _ => pure (.unavailable "GitHub pull-request files unavailable")

/-- **`readPatchDigest`.** -/
def readPatchDigest (locator : PullRequestLocator) : PassTx env PatchRead :=
  readPatchLoop out locator [] [1, 2, 3]

/-- `readUnresolvedThreads`: the count, or why there is none. -/
def readUnresolvedThreads (locator : PullRequestLocator) : PassTx env (Except String ℕ) := do
  let response ← githubApiJson out (.reviewThreads locator.owner locator.name locator.number)
  match response with
  | .unavailable => pure (.error "GitHub GraphQL unavailable")
  | .response status envelope =>
    if status ≠ 200 then pure (.error s!"GitHub GraphQL returned HTTP {status}")
    else
      let pull := ((envelope.field "data").bind (Json.field "repository")).bind
        (Json.field "pullRequest")
      match ((pull.bind (Json.field "reviewThreads")).bind (Json.field "nodes")).bind Json.array? with
      | some nodes =>
        pure (.ok (nodes.countP fun node =>
          (node.field "isResolved").any Json.isFalse && (node.field "isOutdated").any Json.isFalse))
      | none =>
        if graphqlErrors envelope ≠ [] then
          let errors := joinWith "; " (graphqlErrors envelope)
          pure (.error s!"GitHub GraphQL errors: {errors}")
        else pure (.error "GitHub GraphQL response has no reviewThreads")

/-- **`inspectPullRequestHealth`.** -/
def inspectPullRequestHealth (repository url : String) : PassTx env (PullCheck PullRequestHealth) :=
  match parsePullRequestUrl env repository url with
  | none => pure (.rejected s!"{url} is not a {repository} pull-request URL")
  | some locator => do
    let pull ← githubApiJson out (.pull locator.owner locator.name locator.number)
    match checkPull out repository url locator pull with
    | .unavailable reason => pure (.unavailable reason)
    | .rejected reason => pure (.rejected reason)
    | .found record => do
      let health : PullRequestHealth :=
        { number := locator.number
          url
          headSha := toLowerCase record.sha
          state := record.state
          draft := record.draft
          title := record.title
          mergeableState := record.mergeableState }
      if record.state ≠ .opened then pure (.found health)
      else do
        let checks ← githubApiJson out (.checkRuns locator.owner locator.name record.sha)
        match checks with
        | .response 200 checks => do
          let reviews ← githubApiJson out (.reviews locator.owner locator.name locator.number)
          match reviews with
          | .response 200 reviews => do
            let threads ← readUnresolvedThreads out locator
            let patch ← readPatchDigest out locator
            let read : PullRequestHealth :=
              { health with
                failingChecks := failingChecksOf checks
                changesRequested := changesRequestedIn (reviewStates reviews)
                unresolvedThreads := threads.toOption
                notes := match threads with
                  | .ok _ => []
                  | .error reason => [s!"review threads unavailable: {reason}"] }
            let judged : PullRequestHealth :=
              { read with decay := if record.draft = true then [] else decayOf read }
            match patch with
            | .unavailable reason => pure (.unavailable reason)
            | .digest digest => pure (.found { judged with patchDigest := some digest })
            | .uncomputable reason =>
              pure (.found { judged with patchUnavailableReason := some reason })
          | _ => pure (.unavailable "GitHub reviews unavailable")
        | _ => pure (.unavailable "GitHub check runs unavailable")

/-! ## Listings -/

/-- `ListedPullRequest`. -/
structure ListedPullRequest where
  url : String
  number : ℤ
  draft : Bool
  createdAt : Option String
  deriving DecidableEq, Repr

/-- A listing of a repository's open pull requests. -/
inductive OpenPullRequests where
  | listed (pulls : List ListedPullRequest) (truncated : Bool)
  | unavailable (reason : String)

/-- One entry of a listing. -/
def listedPull (repository : String) (raw : Json) : Option ListedPullRequest :=
  match raw.asObject, (raw.field "number").map out.number with
  | some _, some (.int number) =>
    if number < 1 then none
    else
      some
        { url := s!"https://github.com/{repository}/pull/{number}"
          number
          draft := (raw.field "draft").any Json.isTrue
          createdAt := (raw.field "created_at").bind Json.text? }
  | _, _ => none

/-- The entries of a page, when every one of them is well formed. -/
def listedPulls (repository : String) : List Json → Option (List ListedPullRequest)
  | [] => some []
  | raw :: rest =>
    match listedPull out repository raw, listedPulls repository rest with
    | some pull, some pulls => some (pull :: pulls)
    | _, _ => none

/-- The loop of `listOpenPullRequests` over its pages. -/
def listOpenLoop (repository : String) (pulls : List ListedPullRequest) :
    List ℕ → PassTx env OpenPullRequests
  | [] => pure (.listed pulls true)
  | page :: rest => do
    let owner := (splitAtSlash repository).getD 0 ""
    let name := (splitAtSlash repository).getD 1 ""
    let response ← githubApiJson out (.openPulls owner name page)
    match response with
    | .response 200 value =>
      match value.array? with
      | none =>
        pure (.unavailable s!"GitHub open pull-request listing for {repository} was not a list")
      | some values =>
        match listedPulls out repository values with
        | none => pure (.unavailable
            s!"GitHub open pull-request listing entry for {repository} was malformed")
        | some more =>
          if values.length < 100 then pure (.listed (pulls ++ more) false)
          else listOpenLoop repository (pulls ++ more) rest
    | _ => pure (.unavailable s!"GitHub open pull-request listing unavailable for {repository}")

/-- **`listOpenPullRequests`.** -/
def listOpenPullRequests (repository : String) : PassTx env OpenPullRequests :=
  listOpenLoop out repository [] [1, 2, 3]

end Reading

end Snowcat
