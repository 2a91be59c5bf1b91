import Snowcat.Sweep.GitHub

/-!
# Checking an artifact against GitHub

`verifyGitHubArtifact` asks GitHub about one issue, pull request or release
and says what it found: the artifact is there and in this state, GitHub could
not tell, or the artifact is not what was reported. What it found goes into
the queue as the artifact's verification, and the store checks a verification
before it records it. The result of this module is that the check never
refuses one: `verifyGitHubArtifact` completes, and whatever GitHub answered,
its verification is valid.
-/

namespace Snowcat

/-! ## Where an artifact is -/

/-- One part of a repository's slug: `/^[A-Za-z0-9._-]+$/`. -/
def Patterns.slug : Pattern :=
  .plus (.one fun c => alphanumeric c || c == '_' || c == '.' || c == '-')

/-- `ArtifactLocator`. -/
inductive ArtifactLocator where
  | numbered (owner name : String) (number : ℕ)
  | release (owner name tag : String)
  deriving DecidableEq, Repr

namespace ArtifactLocator

/-- The owner the URL names. -/
def owner : ArtifactLocator → String
  | .numbered owner _ _ => owner
  | .release owner _ _ => owner

/-- The repository the URL names. -/
def name : ArtifactLocator → String
  | .numbered _ name _ => name
  | .release _ name _ => name

/-- Whether the URL's slug is another than the repository's. -/
def isForeign (locator : ArtifactLocator) (repository : String) : Bool :=
  toLowerCase locator.owner != toLowerCase ((splitAtSlash repository).getD 0 "") ||
    toLowerCase locator.name != toLowerCase ((splitAtSlash repository).getD 1 "")

end ArtifactLocator

/-- The path of an issue or a pull request in its repository. -/
def ArtifactKind.path : ArtifactKind → String
  | .issue => "issues"
  | _ => "pull"

/-- `parseArtifactUrl`. -/
def parseArtifactUrl (env : Env) (artifact : WorkArtifact) : Option ArtifactLocator :=
  match env.parseUrl artifact.url with
  | none => none
  | some url =>
    let segments := splitAtSlash url.pathname
    let owner := segments.getD 1 ""
    let name := segments.getD 2 ""
    if toLowerCase url.hostname ≠ "github.com" ∨ Patterns.slug.test owner = false ∨
        Patterns.slug.test name = false then none
    else if artifact.kind = .release then
      if segments.length ≠ 6 ∨ segments.getD 3 "" ≠ "releases" ∨ segments.getD 4 "" ≠ "tag" then none
      else ((env.decodeURIComponent (segments.getD 5 "")).filter Patterns.releaseTag).map fun tag =>
        .release owner name tag
    else
      if segments.length ≠ 5 ∨ segments.getD 3 "" ≠ artifact.kind.path ∨
          Patterns.positiveInteger.test (segments.getD 4 "") = false then none
      else some (.numbered owner name (decimal (segments.getD 4 "")))

/-! ## What a check says -/

/-- `ArtifactCheck`. -/
inductive ArtifactCheck where
  | verified (observation : VerifiedObservation)
  | unverified (attemptedAt reason : String)
  | handoffRejected (observation : VerifiedObservation) (reason : String)
  | rejected (reason : String)

/-- **What the store accepts of a check**: an observation it would record,
and a reason that is not blank. -/
def ArtifactCheck.Valid : ArtifactCheck → Prop
  | .verified o => validateVerification (.verified o) = .ok ()
  | .unverified _ _ => True
  | .handoffRejected o _ => validateVerification (.verified o) = .ok ()
  | .rejected _ => True

/-- A field of GitHub's answer, when it is a text. -/
def Json.fieldText (key : String) (value : Json) : Option String :=
  (value.field key).bind Json.text?

/-- A field of GitHub's answer, when it is a safe integer. -/
def Json.fieldInteger (key : String) (value : Json) : Option ℤ :=
  match value.field key with
  | some (.number (.int n)) => if (JsNumber.int n).isSafeInteger = true then some n else none
  | _ => none

/-- `pullRequestVerification`. -/
def pullRequestVerification (record : Json) (number : ℤ) (opened merged : Bool)
    (verifiedAt : String) (handoff : Option Handoff) : VerifiedObservation where
  verifiedAt
  number := .int number
  state := if merged = true then .merged else if opened = true then .opened else .closed
  headSha := (((record.field "head").bind (Json.fieldText "sha"))).filter fun sha =>
    Patterns.commitSegment.test sha
  mergedAt := record.fieldText "merged_at"
  closedAt := record.fieldText "closed_at"
  draft := if (record.field "draft").any Json.isTrue = true ∧ merged = false ∧ opened = true then
    some true else none
  handoff

section Verifier

variable {env : Env} (out : Outside)

/-- `now()` of the verifier. -/
def readTime : PassTx env Text := do
  let asks ← Tx.read Pass.asks
  Tx.update fun s => s.asked none []
  pure (out.time asks)

/-- The answer of `unverified(now(), reason)`. -/
def unverified (reason : String) : PassTx env ArtifactCheck := do
  let attemptedAt ← readTime out
  pure (.unverified attemptedAt reason)

/-- `validatePullRequestHandoff`. -/
def validatePullRequestHandoff (url : String) (record : Json) (evidence : List String) :
    PassTx env PullRequestHandoffCheck :=
  if evidence = [] then
    pure (.rejected ⟨s!"pull request {url} completion reports no evidence", by
      simp [isBlank, isSpace, toString, String.toList_append]⟩)
  else
    match (record.fieldText "body").filter fun body => isBlank body = false with
    | none => pure (.rejected ⟨s!"pull request {url} has an empty body", by
        simp [isBlank, isSpace, toString, String.toList_append]⟩)
    | some body => do
      let asks ← Tx.read Pass.asks
      Tx.update fun s => s.asked none (out.meanwhile asks)
      pure (out.handoff asks body)

/-- The part of `verifyGitHubArtifact` that reads a pull request GitHub has
answered with. -/
def verifyPullRequest (repository url : String) (number : ℤ) (opened : Bool) (record : Json)
    (completionEvidence : Option (List String)) : PassTx env ArtifactCheck :=
  let base := ((record.field "base").bind (Json.field "repo")).bind (Json.fieldText "full_name")
  match base with
  | none => unverified out "GitHub response has no base repository"
  | some fullName =>
    if toLowerCase fullName ≠ toLowerCase repository then
      pure (.rejected s!"pull request {url} targets {fullName}, not {repository}")
    else do
      let merged := (record.field "merged").any Json.isTrue
      let verifiedAt ← readTime out
      let observed (handoff : Option Handoff) : VerifiedObservation :=
        pullRequestVerification record number opened merged verifiedAt handoff
      match if merged = false ∧ opened = true then completionEvidence else none with
      | none => pure (.verified (observed none))
      | some evidence => do
        let handoff ← validatePullRequestHandoff out url record evidence
        match handoff with
        | .rejected reason =>
          pure (.handoffRejected (observed (some (.rejected verifiedAt reason))) reason)
        | .unverified reason => pure (.verified (observed (some (.unverified verifiedAt reason))))
        | .valid => pure (.verified (observed none))

/-- The part of `verifyGitHubArtifact` that reads an issue GitHub has answered
with. -/
def verifyIssue (repository url : String) (number : ℤ) (opened : Bool) (record : Json) :
    PassTx env ArtifactCheck :=
  if (record.field "pull_request").isSome = true then
    pure (.rejected s!"{url} is a pull request; report it as a pull-request artifact")
  else
    match record.fieldText "repository_url" with
    | none => unverified out "GitHub response has no repository"
    | some repositoryUrl =>
      let slug := toLowerCase repository
      if endsWith (toLowerCase repositoryUrl) s!"/repos/{slug}" = false then
        pure (.rejected s!"issue {url} belongs to another repository")
      else do
        let verifiedAt ← readTime out
        pure (.verified
          { verifiedAt
            number := .int number
            state := if opened = true then .opened else .closed
            closedAt := record.fieldText "closed_at" })

/-- `readRelease`. -/
def readRelease (repository url tag : String) (record : Json) : PassTx env ArtifactCheck :=
  match record.asObject, record.fieldText "url" with
  | none, _ => unverified out "GitHub response was not an object"
  | some _, none => unverified out "GitHub response has no repository"
  | some _, some apiUrl =>
    let slug := toLowerCase repository
    if startsWith (toLowerCase apiUrl) s!"https://api.github.com/repos/{slug}/releases/" = false then
      pure (.rejected s!"release {url} belongs to another repository")
    else if record.fieldText "tag_name" ≠ some tag then
      pure (.rejected s!"release tag does not match {url}")
    else
      match (record.fieldInteger "id").filter fun id => 1 ≤ id with
      | none => unverified out "GitHub response has no release id"
      | some id =>
        match record.field "draft" with
        | some (.bool draft) => do
          let verifiedAt ← readTime out
          pure (.verified
            { verifiedAt
              number := .int id
              state := if draft = true then .draft else .published
              tag := some tag
              publishedAt := record.fieldText "published_at" })
        | _ => unverified out "GitHub response has no recognizable state"

/-- `verifyRelease`, and `findDraftRelease` behind it. -/
def verifyRelease (repository url owner name tag : String) : PassTx env ArtifactCheck := do
  let response ← githubApiJson out (.releaseByTag owner name tag)
  match response with
  | .unavailable => unverified out "GitHub API unavailable"
  | .response status value =>
    if status = 404 ∨ status = 410 then
      if out.credentialed = false then
        unverified out s!"GitHub returned {status} without SNOWCAT_GITHUB_TOKEN; private repositories cannot be verified unauthenticated"
      else do
        let listing ← githubApiJson out (.releases owner name)
        match listing with
        | .unavailable => unverified out "GitHub API unavailable"
        | .response status value =>
          if status = 404 ∨ status = 410 then
            pure (.rejected s!"release {url} does not exist on GitHub")
          else if status ≠ 200 then unverified out s!"GitHub API returned HTTP {status}"
          else
            match value.array? with
            | none => unverified out "GitHub release listing was not an array"
            | some entries =>
              match entries.find? fun entry =>
                entry.fieldText "tag_name" = some tag && (entry.field "draft").any Json.isTrue with
              | none => pure (.rejected s!"release {url} does not exist on GitHub")
              | some entry => readRelease out repository url tag entry
    else if status ≠ 200 then unverified out s!"GitHub API returned HTTP {status}"
    else readRelease out repository url tag value

/-- The part of `verifyGitHubArtifact` behind the request for an issue or a
pull request. -/
def verifyNumbered (repository : String) (artifact : WorkArtifact) (locator : ArtifactLocator)
    (number : ℕ) (completionEvidence : Option (List String)) :
    GitHubJsonResponse → PassTx env ArtifactCheck
  | .unavailable => unverified out "GitHub API unavailable"
  | .response status value =>
    let kind := artifact.kind.text
    let url := artifact.url
    if status = 404 ∨ status = 410 then
      if out.credentialed = false then
        unverified out s!"GitHub returned {status} without SNOWCAT_GITHUB_TOKEN; private repositories cannot be verified unauthenticated"
      else pure (.rejected s!"{kind} {url} does not exist on GitHub")
    else if status ≠ 200 then unverified out s!"GitHub API returned HTTP {status}"
    else
      match value.asObject, (value.fieldInteger "number").filter fun n => n = (number : ℤ) with
      | none, _ => unverified out "GitHub response was not an object"
      | some _, none => pure (.rejected s!"{kind} number does not match {url}")
      | some _, some number =>
        let path := artifact.kind.path
        let expectedUrl := if locator.isForeign repository = true then
          s!"https://github.com/{repository}/{path}/{number}" else url
        if (value.fieldText "html_url").map toLowerCase ≠ some (toLowerCase expectedUrl) then
          pure (.rejected s!"{kind} {url} resolves to a different location")
        else
          match (value.fieldText "state").filter fun state => state ∈ ["open", "closed"] with
          | none => unverified out "GitHub response has no recognizable state"
          | some state =>
            if artifact.kind = .pullRequest then
              verifyPullRequest out repository url number (state = "open") value completionEvidence
            else verifyIssue out repository url number (state = "open") value

/-- **`verifyGitHubArtifact`.** -/
def verifyGitHubArtifact (repository : String) (artifact : WorkArtifact)
    (completionEvidence : Option (List String)) (acceptFormerName : Bool) :
    PassTx env ArtifactCheck :=
  let kind := artifact.kind.text
  match parseArtifactUrl env artifact with
  | none => pure (.rejected s!"artifact {kind} URL is not a {repository} {kind} URL")
  | some locator =>
    if locator.isForeign repository = true ∧ acceptFormerName = false then
      pure (.rejected s!"artifact {kind} URL is not a {repository} {kind} URL")
    else
      match locator with
      | .release owner name tag => verifyRelease out repository artifact.url owner name tag
      | .numbered owner name number => do
        let response ← githubApiJson out
          (if artifact.kind = .pullRequest then .pull owner name number
            else .issue owner name number)
        verifyNumbered out repository artifact locator number completionEvidence response

/-! ## The check completes -/

/-- A condition on the pass that no answer ends: it holds once a question has
been answered, whatever was called meanwhile. -/
structure KeptOutside (P : Pass env → Prop) : Prop where
  answered : ∀ s request k, P s → P (s.asked request (out.meanwhile k))
  told : ∀ s, P s → P (s.asked none [])

variable {out} {P : Pass env → Prop}

theorem completes_githubApiJson (hP : KeptOutside out P) (request : GitHubRequest) :
    (githubApiJson out request).Completes P fun _ => True :=
  fun s hs => ⟨_, _, (returns_githubApiJson out).mpr ⟨rfl, rfl⟩, trivial, hP.answered s _ _ hs⟩

theorem completes_readTime (hP : KeptOutside out P) :
    (readTime out).Completes P fun _ => True :=
  fun s hs => ⟨_, s.asked none [], rfl, trivial, hP.told s hs⟩

theorem completes_unverified (hP : KeptOutside out P) (reason : String) :
    (unverified out reason).Completes P ArtifactCheck.Valid :=
  Tx.completes_bind (completes_readTime hP) fun _ _ => Tx.completes_pure trivial

theorem completes_rejected (reason : String) :
    (pure (.rejected reason) : PassTx env ArtifactCheck).Completes P ArtifactCheck.Valid :=
  Tx.completes_pure trivial

theorem completes_validatePullRequestHandoff (hP : KeptOutside out P) (url : String)
    (record : Json) (evidence : List String) :
    (validatePullRequestHandoff out url record evidence).Completes P fun _ => True := by
  unfold validatePullRequestHandoff
  refine Tx.completes_ite (fun _ => Tx.completes_pure trivial) fun _ => ?_
  split
  · exact Tx.completes_pure trivial
  · exact fun s hs => ⟨_, _, rfl, trivial, hP.answered s none _ hs⟩

/-- An observation is valid when its number and its texts are. -/
theorem valid_verified {o : VerifiedObservation} {n : ℤ} (hnumber : o.number = .int n)
    (hsafe : (JsNumber.int n).isSafeInteger = true) (hpos : 1 ≤ n)
    (htime : isBlank o.verifiedAt = false)
    (hhandoff : ∀ h ∈ o.handoff, match h with
      | .unverified at' reason => isBlank at' = false ∧ isBlank reason = false
      | .rejected at' reason => isBlank at' = false ∧ isBlank reason = false) :
    validateVerification (.verified o) = .ok () := by
  have hn : ¬ (o.number.isSafeInteger = false ∨ o.number.toInt < 1) := by
    rw [hnumber, hsafe]
    simpa [JsNumber.toInt] using hpos
  simp only [validateVerification, except_bind_eq_ok, refuseIf_eq_ok]
  refine ⟨(), hn, (), by rw [htime]; simp, ?_⟩
  cases hh : o.handoff with
  | none => rfl
  | some h =>
    have hblank := hhandoff h hh
    cases h with
    | unverified at' reason => exact refuseIf_eq_ok.mpr (by rw [hblank.1, hblank.2]; simp)
    | rejected at' reason => exact refuseIf_eq_ok.mpr (by rw [hblank.1, hblank.2]; simp)

theorem completes_verifyPullRequest (hP : KeptOutside out P) (repository url : String) {number : ℤ}
    (hsafe : (JsNumber.int number).isSafeInteger = true) (hpos : 1 ≤ number) (opened : Bool)
    (record : Json) (completionEvidence : Option (List String)) :
    (verifyPullRequest out repository url number opened record completionEvidence).Completes P
      ArtifactCheck.Valid := by
  have hvalid : ∀ (merged : Bool) (verifiedAt : Text) (handoff : Option Handoff), _ →
      validateVerification (.verified (pullRequestVerification record number opened merged
        verifiedAt handoff)) = .ok () :=
    fun merged verifiedAt handoff h => valid_verified rfl hsafe hpos verifiedAt.2 h
  unfold verifyPullRequest
  dsimp only
  split
  · exact completes_unverified hP _
  · refine Tx.completes_ite (fun _ => completes_rejected _) fun _ => ?_
    refine Tx.completes_bind (completes_readTime hP) fun verifiedAt _ => ?_
    split
    · exact Tx.completes_pure (hvalid _ _ _ fun _ h => by cases h)
    · refine Tx.completes_bind (completes_validatePullRequestHandoff hP _ _ _) fun handoff _ => ?_
      split
      · next reason =>
        exact Tx.completes_pure (hvalid _ _ _ fun _ h =>
          Option.some.inj h ▸ ⟨verifiedAt.2, reason.2⟩)
      · next reason =>
        exact Tx.completes_pure (hvalid _ _ _ fun _ h =>
          Option.some.inj h ▸ ⟨verifiedAt.2, reason.2⟩)
      · exact Tx.completes_pure (hvalid _ _ _ fun _ h => by cases h)

theorem completes_verifyIssue (hP : KeptOutside out P) (repository url : String) {number : ℤ}
    (hsafe : (JsNumber.int number).isSafeInteger = true) (hpos : 1 ≤ number) (opened : Bool)
    (record : Json) :
    (verifyIssue out repository url number opened record).Completes P ArtifactCheck.Valid := by
  unfold verifyIssue
  refine Tx.completes_ite (fun _ => completes_rejected _) fun _ => ?_
  split
  · exact completes_unverified hP _
  · refine Tx.completes_ite (fun _ => completes_rejected _) fun _ => ?_
    exact Tx.completes_bind (completes_readTime hP) fun verifiedAt _ =>
      Tx.completes_pure (valid_verified rfl hsafe hpos verifiedAt.2 fun _ h => by cases h)

/-- An integer field of an answer is a safe one. -/
theorem safe_of_fieldInteger {key : String} {value : Json} {n : ℤ}
    (h : value.fieldInteger key = some n) : (JsNumber.int n).isSafeInteger = true := by
  unfold Json.fieldInteger at h
  split at h
  · split_ifs at h with hsafe
    obtain rfl := Option.some.inj h
    exact hsafe
  · exact nomatch h

theorem completes_readRelease (hP : KeptOutside out P) (repository url tag : String)
    (record : Json) :
    (readRelease out repository url tag record).Completes P ArtifactCheck.Valid := by
  unfold readRelease
  split
  · exact completes_unverified hP _
  · exact completes_unverified hP _
  · refine Tx.completes_ite (fun _ => completes_rejected _) fun _ => ?_
    refine Tx.completes_ite (fun _ => completes_rejected _) fun _ => ?_
    split
    · exact completes_unverified hP _
    · next id hid =>
      obtain ⟨hfield, hpos⟩ := Option.filter_eq_some_iff.mp hid
      split
      · exact Tx.completes_bind (completes_readTime hP) fun verifiedAt _ =>
          Tx.completes_pure (valid_verified rfl (safe_of_fieldInteger hfield)
            (of_decide_eq_true hpos) verifiedAt.2 fun _ h => by cases h)
      · exact completes_unverified hP _

theorem completes_verifyRelease (hP : KeptOutside out P) (repository url owner name tag : String) :
    (verifyRelease out repository url owner name tag).Completes P ArtifactCheck.Valid := by
  refine Tx.completes_bind (completes_githubApiJson hP _) fun response _ => ?_
  split
  · exact completes_unverified hP _
  · refine Tx.completes_ite (fun _ => Tx.completes_ite (fun _ => completes_unverified hP _)
      fun _ => ?_) fun _ => Tx.completes_ite (fun _ => completes_unverified hP _) fun _ =>
        completes_readRelease hP _ _ _ _
    refine Tx.completes_bind (completes_githubApiJson hP _) fun listing _ => ?_
    split
    · exact completes_unverified hP _
    · refine Tx.completes_ite (fun _ => completes_rejected _) fun _ =>
        Tx.completes_ite (fun _ => completes_unverified hP _) fun _ => ?_
      split
      · exact completes_unverified hP _
      · split
        · exact completes_rejected _
        · exact completes_readRelease hP _ _ _ _

/-- A positive integer is at least one. -/
theorem one_le_decimal {s : String} (h : Patterns.positiveInteger.test s = true) :
    1 ≤ decimal s := by
  have hfold : ∀ (cs : List Char) (n : ℕ), 1 ≤ n →
      1 ≤ cs.foldl (fun n c => 10 * n + (c.toNat - '0'.toNat)) n := by
    intro cs
    induction cs with
    | nil => exact fun _ hn => hn
    | cons c cs ih => exact fun n hn => ih (10 * n + (c.toNat - '0'.toNat)) (by omega)
  rw [Pattern.test_iff] at h
  unfold decimal
  generalize s.toList = cs at h
  cases h with
  | seq hfirst _ =>
    cases hfirst with
    | @one _ c hc =>
      have hle : '1' ≤ c := by
        simp only [Patterns.nonzeroDigit, Bool.and_eq_true, decide_eq_true_eq] at hc
        exact hc.1
      have hnat : '1'.toNat ≤ c.toNat := hle
      have h0 : '0'.toNat = 48 := rfl
      have h1 : '1'.toNat = 49 := rfl
      exact hfold _ (10 * 0 + (c.toNat - '0'.toNat)) (by omega)

/-- The number of a locator that a URL gives is positive. -/
theorem one_le_of_parseArtifactUrl {artifact : WorkArtifact} {owner name : String} {number : ℕ}
    (h : parseArtifactUrl env artifact = some (.numbered owner name number)) : 1 ≤ number := by
  unfold parseArtifactUrl at h
  split at h
  · exact nomatch h
  · dsimp only at h
    split at h
    · exact nomatch h
    split at h
    · split at h
      · exact nomatch h
      · obtain ⟨_, _, htag⟩ := Option.map_eq_some_iff.mp h
        exact nomatch htag
    split at h
    · exact nomatch h
    · next hpath =>
      obtain ⟨-, -, rfl⟩ := ArtifactLocator.numbered.inj (Option.some.inj h)
      exact one_le_decimal (by simpa using (not_or.mp (not_or.mp hpath).2).2)

theorem completes_verifyNumbered (hP : KeptOutside out P) (repository : String)
    (artifact : WorkArtifact) (locator : ArtifactLocator) {number : ℕ} (hpos : 1 ≤ number)
    (completionEvidence : Option (List String)) (response : GitHubJsonResponse) :
    (verifyNumbered out repository artifact locator number completionEvidence response).Completes P
      ArtifactCheck.Valid := by
  cases response with
  | unavailable => exact completes_unverified hP _
  | response status value =>
    refine Tx.completes_ite (fun _ => Tx.completes_ite (fun _ => completes_unverified hP _)
      fun _ => completes_rejected _) fun _ =>
        Tx.completes_ite (fun _ => completes_unverified hP _) fun _ => ?_
    split
    · exact completes_unverified hP _
    · exact completes_rejected _
    · next n _ hn =>
      obtain ⟨hfield, hnumber⟩ := Option.filter_eq_some_iff.mp hn
      have hsafe := safe_of_fieldInteger hfield
      have hn : 1 ≤ n := by
        rw [of_decide_eq_true hnumber]
        exact_mod_cast hpos
      refine Tx.completes_ite (fun _ => completes_rejected _) fun _ => ?_
      split
      · exact completes_unverified hP _
      · exact Tx.completes_ite (fun _ => completes_verifyPullRequest hP _ _ hsafe hn _ _ _)
          fun _ => completes_verifyIssue hP _ _ hsafe hn _ _

/-- **The check completes, and what it says the store accepts.** -/
theorem completes_verifyGitHubArtifact (hP : KeptOutside out P) (repository : String)
    (artifact : WorkArtifact) (completionEvidence : Option (List String))
    (acceptFormerName : Bool) :
    (verifyGitHubArtifact out repository artifact completionEvidence acceptFormerName).Completes P
      ArtifactCheck.Valid := by
  unfold verifyGitHubArtifact
  dsimp only
  split
  · exact completes_rejected _
  · next locator hlocator =>
    refine Tx.completes_ite (fun _ => completes_rejected _) fun _ => ?_
    split
    · exact completes_verifyRelease hP _ _ _ _ _
    · exact Tx.completes_bind (completes_githubApiJson hP _) fun _ _ =>
        completes_verifyNumbered hP _ _ _ (one_le_of_parseArtifactUrl hlocator) _ _

end Verifier

end Snowcat
