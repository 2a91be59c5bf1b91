import Snowcat.Sweep.GitHub
import Snowcat.Sweep.Glob

/-!
# Protected boundaries

A draft that passed its review is marked ready, or reported as ready to
mark, by `applyPassConsequence`. Before it does either, it reads the pull
request's changed files and compares their names with the path patterns of
the repository's guarded boundaries; a file inside one of them is a human's
to release.

The result of this module is when that works. Three things can go wrong. The
reading stops after three pages of a hundred files without noticing that
there was a fourth. The regular expression a pattern is compiled to reads
`**` as `.*`, which no line terminator matches, and leaves a `?` as it is.
`boundary_reaches_human` says that nothing else does.
-/

namespace Snowcat

/-! ## What the review pass reports -/

/-- **An entry of the review pass's report**: the list of
`ReviewSweepResult` it belongs to, and what is pushed there. -/
inductive ReviewEntry where
  | enqueued (id kind url headSha : String) (round : JsNumber)
  | markedReady (url headSha reviewItemId : String)
  | readyToMark (url headSha reviewItemId : String)
  | needsHuman (url headSha : String) (round : JsNumber) (reason : String)
  | skipped (url reason : String)
  | unavailable (url reason : String)
  | unreported (pull : UnreportedPullRequest)
  | unreportedPending (url : String) (number : ℕ) (createdAt : String)
  deriving DecidableEq, Repr

/-- Whether the pull request of the entry is released. -/
def ReviewEntry.isReady : ReviewEntry → Bool
  | .markedReady .. => true
  | .readyToMark .. => true
  | _ => false

/-! ## Reading the changed files -/

/-- How the reading of the changed files ended. -/
inductive ChangedFiles where
  | files (filenames : List String)
  | unavailable (reason : String)
  deriving DecidableEq, Repr

/-- The names of one page of files: none when an entry has no name. Asking
`null` for a field throws. -/
def filenamesOf : List Json → Except QueueError (Option (List String))
  | [] => .ok (some [])
  | .null :: _ => .error (.error "Cannot read properties of null (reading 'filename')")
  | raw :: rest =>
    match (raw.field "filename").bind Json.text? with
    | none => .ok none
    | some filename => do
      let filenames ← filenamesOf rest
      pure (filenames.map (filename :: ·))

section Reading

variable {env : Env} (out : Outside)

/-- The loop of `readChangedFilenames` over its pages. -/
def readChangedLoop (locator : PullRequestLocator) (filenames : List String) :
    List ℕ → PassTx env ChangedFiles
  | [] => pure (.files filenames)
  | page :: rest => do
    let response ← githubApiJson out (.files locator.owner locator.name locator.number page)
    match response with
    | .response 200 (.array values) => do
      let names? ← Tx.ofExcept (filenamesOf values)
      match names? with
      | none => pure (.unavailable "GitHub pull-request file entry was malformed")
      | some names =>
        if values.length < 100 then pure (.files (filenames ++ names))
        else readChangedLoop locator (filenames ++ names) rest
    | _ => pure (.unavailable "GitHub pull-request files unavailable")

/-- **`readChangedFilenames`.** -/
def readChangedFilenames (locator : PullRequestLocator) : PassTx env ChangedFiles :=
  readChangedLoop out locator [] [1, 2, 3]

/-! ## The draft mutations -/

/-- `draftMutation`, on GitHub's answer: nothing when it confirms the draft
flag, and the reason otherwise. -/
def draftMutation (field : String) (expectedDraft : Bool) : GitHubJsonResponse → Option String
  | .unavailable => some "GitHub GraphQL unavailable"
  | .response status envelope =>
    if status ≠ 200 then some s!"GitHub GraphQL returned HTTP {status}"
    else
      let pull := ((envelope.field "data").bind (Json.field field)).bind (Json.field "pullRequest")
      let confirms (flag : Json) : Bool := if expectedDraft then flag.isTrue else flag.isFalse
      if (pull.bind (Json.field "isDraft")).any confirms = true then none
      else if graphqlErrors envelope ≠ [] then
        let errors := joinWith "; " (graphqlErrors envelope)
        some s!"GitHub GraphQL errors: {errors}"
      else
        let change := if expectedDraft then "became a draft" else "left draft"
        some s!"GitHub did not confirm the pull request {change}"

/-- `markPullRequestReady`. -/
def markPullRequestReady (nodeId : String) : PassTx env (Option String) := do
  let response ← githubApiJson out (.markReady nodeId)
  pure (draftMutation "markPullRequestReadyForReview" false response)

/-- `convertPullRequestToDraft`. -/
def convertPullRequestToDraft (nodeId : String) : PassTx env (Option String) := do
  let response ← githubApiJson out (.convertToDraft nodeId)
  pure (draftMutation "convertPullRequestToDraft" true response)

/-! ## The pass consequence -/

/-- The item a review round is for: the most urgent completed item that
reported the pull request. -/
structure ReviewOrigin where
  repository : String
  priority : ℤ
  originItemId : String
  authorModel : Option String
  deriving DecidableEq, Repr

/-- The boundaries of an authority that are guarded. -/
def guardedBoundaries (authority : Option PolicyAuthority) : List PolicyBoundary :=
  ((authority.map PolicyAuthority.protectedBoundaries).getD []).filter fun boundary =>
    boundary.decision ≠ .allow

/-- `Array.prototype.some`, of a test that may throw. -/
def someOf {α : Type} (test : α → Except QueueError Bool) : List α → Except QueueError Bool
  | [] => .ok false
  | a :: as => do
    let found ← test a
    if found = true then pure true else someOf test as

/-- Whether the test finds a changed file inside a boundary. -/
def touchesBoundary (filenames : List String) (boundary : PolicyBoundary) :
    Except QueueError Bool :=
  someOf (fun pattern =>
    someOf (fun filename => pathTouchesBoundary filename pattern) filenames) boundary.paths

/-- The guarded boundaries the test finds a changed file inside of. -/
def touchedBoundaries (filenames : List String) :
    List PolicyBoundary → Except QueueError (List PolicyBoundary)
  | [] => .ok []
  | boundary :: rest => do
    let touched ← touchesBoundary filenames boundary
    let others ← touchedBoundaries filenames rest
    pure (if touched = true then boundary :: others else others)

/-- The part of `applyPassConsequence` behind the check of the boundaries:
report the head as ready to mark, or mark it, and convert it back when it
moved meanwhile. -/
def releaseHead (actor : String) (writes : Bool) (origin : ReviewOrigin) (url : String)
    (head : PullRequestHead) (round : JsNumber) (reviewItemId : String) :
    PassTx env (List ReviewEntry) := do
  if writes = false then pure [.readyToMark url head.headSha reviewItemId]
  else
    match head.nodeId.filter (fun id => id ≠ "") with
    | none =>
      pure [.unavailable url "GitHub response has no node id; cannot mark ready"]
    | some nodeId => do
      let failure? ← markPullRequestReady out nodeId
      match failure? with
      | some reason => pure [.unavailable url s!"mark ready failed: {reason}"]
      | none => do
        let after ← readPullRequestHead out origin.repository url
        let moved : Option (String × Option String) := match after with
          | .unavailable reason =>
            some (s!"head could not be re-read after marking ready: {reason}", none)
          | .rejected _ => none
          | .found now =>
            if now.state = .opened ∧ now.headSha ≠ head.headSha then
              let short := shortSha now.headSha
              some (s!"head moved to {short} while being marked ready", some now.headSha)
            else none
        match moved with
        | some (reason, movedTo) => do
          let failure? ← convertPullRequestToDraft out nodeId
          match failure? with
          | none =>
            pure [.needsHuman url (movedTo.getD head.headSha) round
              s!"{reason}; converted back to draft"]
          | some failure =>
            pure [.unavailable url s!"{reason}; converting back to draft failed: {failure} — the pull request is ready with an unreviewed head"]
        | none => do
          let _ ← perform (.recordPullRequestReady origin.originItemId url actor head.headSha
            reviewItemId)
          pure [.markedReady url head.headSha reviewItemId]

/-- **`applyPassConsequence`**, by the entries it pushes. -/
def applyPassConsequence (actor : String) (writes : Bool) (origin : ReviewOrigin) (url : String)
    (head : PullRequestHead) (round : JsNumber) (reviewItemId : String) :
    PassTx env (List ReviewEntry) := do
  let authority ← policyAuthorityFor out origin.repository
  let guarded := guardedBoundaries authority
  match if guarded = [] then none else parsePullRequestUrl env origin.repository url with
  | none => releaseHead out actor writes origin url head round reviewItemId
  | some locator => do
    let files ← readChangedFilenames out locator
    match files with
    | .unavailable reason =>
      pure [.unavailable url
        s!"{reason}; protected boundaries could not be checked (ADR-0074)"]
    | .files filenames => do
      let touched ← Tx.ofExcept (touchedBoundaries filenames guarded)
      if touched = [] then releaseHead out actor writes origin url head round reviewItemId
      else
        let named := joinWith ", " (touched.map fun boundary =>
          s!"{boundary.id} (minimum tier {boundary.minimumRiskTier})")
        pure [.needsHuman url head.headSha round
          s!"the delivered diff touches protected boundary {named}; a human marks ready (ADR-0074)"]

/-! ### What the pass finds out -/

/-- **GitHub pages its answers**: a page it lists has its hundred of the
changed files. It may leave any request unanswered. -/
def Serves (locator : PullRequestLocator) (files : List String) : Prop :=
  ∀ asks page values,
    out.answer asks (.files locator.owner locator.name locator.number (page + 1)) =
        .response 200 (.array values) →
      values.map (fun raw => (raw.field "filename").bind Json.text?) =
        ((files.drop (100 * page)).take 100).map some

/-- The page is not listed. -/
def Unlisted (locator : PullRequestLocator) (page : ℕ) : Prop :=
  ∃ asks, ∀ values,
    out.answer asks (.files locator.owner locator.name locator.number page) ≠
      .response 200 (.array values)

theorem filenamesOf_eq {values : List Json} {names : List String}
    (h : values.map (fun raw => (raw.field "filename").bind Json.text?) = names.map some) :
    filenamesOf values = .ok (some names) := by
  induction values generalizing names with
  | nil =>
    obtain rfl : names = [] := List.map_eq_nil_iff.mp h.symm
    rfl
  | cons raw rest ih =>
    cases names with
    | nil => exact nomatch h
    | cons name names =>
      rw [List.map_cons, List.map_cons, List.cons.injEq] at h
      rw [filenamesOf]
      · rw [h.1]
        show (do let filenames ← filenamesOf rest; pure _) = _
        rw [ih h.2]
        rfl
      · rintro rfl
        exact nomatch h.1

variable {out} {locator : PullRequestLocator} {files : List String}

/-- **The loop reads a page at a time**: behind `n` more pages it has the
files up to there, unless a page was not listed. It never throws. -/
theorem returns_readChangedLoop (hserves : Serves out locator files) (n k : ℕ) (s : Pass env) :
    ∃ r t, (readChangedLoop out locator (files.take (100 * k)) (List.range' (k + 1) n)).Returns
        s r t ∧
      (r = .files (files.take (100 * (k + n))) ∨
        ∃ reason page, r = .unavailable reason ∧ Unlisted out locator page) := by
  induction n generalizing k s with
  | zero => exact ⟨_, s, Tx.returns_pure.mpr ⟨rfl, rfl⟩, Or.inl rfl⟩
  | succ n ih =>
    let request : GitHubRequest := .files locator.owner locator.name locator.number (k + 1)
    let t := s.asked (some request) (out.meanwhile s.asks)
    have hask : (githubApiJson out request).Returns s (out.answer s.asks request) t :=
      (returns_githubApiJson out).mpr ⟨rfl, rfl⟩
    by_cases hlisted : ∃ values, out.answer s.asks request = .response 200 (.array values)
    · obtain ⟨values, hvalues⟩ := hlisted
      have hnames := hserves s.asks k values hvalues
      have htake : files.take (100 * k) ++ (files.drop (100 * k)).take 100 =
          files.take (100 * (k + 1)) := by
        rw [Nat.mul_add_one, List.take_add]
      have hlength : values.length = ((files.drop (100 * k)).take 100).length := by
        rw [← List.length_map (f := fun raw : Json => (raw.field "filename").bind Json.text?),
          hnames, List.length_map]
      rw [hvalues] at hask
      by_cases hshort : values.length < 100
      · -- the page is the last one, so the later pages have no file
        have hall : files.length ≤ 100 * (k + 1) := by
          rw [hlength, List.length_take, List.length_drop] at hshort
          omega
        refine ⟨.files (files.take (100 * (k + 1))), t, ?_, Or.inl ?_⟩
        · refine Tx.returns_bind.mpr ⟨_, t, hask, ?_⟩
          refine Tx.returns_bind.mpr ⟨_, t, Tx.returns_ofExcept.mpr ⟨filenamesOf_eq hnames, rfl⟩, ?_⟩
          show (if values.length < 100 then _ else _ : PassTx env ChangedFiles).Returns t _ t
          rw [if_pos hshort, htake]
          exact Tx.returns_pure.mpr ⟨rfl, rfl⟩
        · rw [List.take_of_length_le hall, List.take_of_length_le (by omega)]
      · obtain ⟨r, u, hu, hr⟩ := ih (k + 1) t
        refine ⟨r, u, ?_, ?_⟩
        · refine Tx.returns_bind.mpr ⟨_, t, hask, ?_⟩
          refine Tx.returns_bind.mpr ⟨_, t, Tx.returns_ofExcept.mpr ⟨filenamesOf_eq hnames, rfl⟩, ?_⟩
          show (if values.length < 100 then _ else _ : PassTx env ChangedFiles).Returns t _ u
          rw [if_neg hshort, htake]
          exact hu
        · rwa [show k + 1 + n = k + (n + 1) by omega] at hr
    · refine ⟨.unavailable "GitHub pull-request files unavailable", t, ?_, Or.inr ?_⟩
      · refine Tx.returns_bind.mpr ⟨_, t, hask, ?_⟩
        split
        · next values hvalues => exact absurd ⟨values, hvalues⟩ hlisted
        · exact Tx.returns_pure.mpr ⟨rfl, rfl⟩
      · exact ⟨_, k + 1, rfl, s.asks, fun values h => hlisted ⟨values, h⟩⟩

/-- Reading the changed files asks for nothing else. -/
theorem appends_readChangedLoop (filenames : List String) (pages : List ℕ) :
    (readChangedLoop out locator filenames pages : PassTx env ChangedFiles).Appends Pass.sent
      (fun request => ∃ page, request = .files locator.owner locator.name locator.number page) := by
  induction pages generalizing filenames with
  | nil =>
    rw [readChangedLoop]
    infer_instance
  | cons page rest ih =>
    have := fun names => ih (filenames ++ names)
    have : Fact (∃ page', GitHubRequest.files locator.owner locator.name locator.number page =
        .files locator.owner locator.name locator.number page') := ⟨page, rfl⟩
    rw [readChangedLoop]
    refine Tx.Appends.then inferInstance fun response => ?_
    split
    · refine Tx.Appends.then inferInstance fun names? => ?_
      cases names? with
      | none => infer_instance
      | some names => infer_instance
    · infer_instance

theorem someOf_eq_false {α : Type} {test : α → Except QueueError Bool} {as : List α} :
    someOf test as = .ok false ↔ ∀ a ∈ as, test a = .ok false := by
  induction as with
  | nil => exact iff_of_true rfl (List.forall_mem_nil _)
  | cons a as ih =>
    rw [someOf, List.forall_mem_cons, ← ih, except_bind_eq_ok]
    constructor
    · rintro ⟨found, hfound, h⟩
      cases found with
      | true => exact nomatch h
      | false => exact ⟨hfound, h⟩
    · exact fun ⟨ha, h⟩ => ⟨false, ha, h⟩

theorem touchedBoundaries_eq_nil {filenames : List String} {boundaries : List PolicyBoundary} :
    touchedBoundaries filenames boundaries = .ok [] ↔
      ∀ b ∈ boundaries, touchesBoundary filenames b = .ok false := by
  induction boundaries with
  | nil => exact iff_of_true rfl (List.forall_mem_nil _)
  | cons b rest ih =>
    rw [touchedBoundaries, List.forall_mem_cons, ← ih]
    simp only [except_bind_eq_ok, except_pure_eq_ok]
    constructor
    · rintro ⟨touched, htouched, others, hothers, heq⟩
      cases touched with
      | true => cases heq
      | false => exact ⟨htouched, (show others = [] from heq) ▸ hothers⟩
    · rintro ⟨hb, hrest⟩
      exact ⟨false, hb, [], hrest, rfl⟩

theorem touchedBoundaries_eq_ok {filenames : List String} {boundaries : List PolicyBoundary} :
    (∃ touched, touchedBoundaries filenames boundaries = .ok touched) ↔
      ∀ b ∈ boundaries, ∃ found, touchesBoundary filenames b = .ok found := by
  induction boundaries with
  | nil => exact iff_of_true ⟨[], rfl⟩ fun _ h => nomatch h
  | cons b rest ih =>
    rw [List.forall_mem_cons, ← ih]
    simp only [touchedBoundaries, except_bind_eq_ok, except_pure_eq_ok]
    constructor
    · rintro ⟨_, found, hfound, others, hothers, _⟩
      exact ⟨⟨found, hfound⟩, others, hothers⟩
    · rintro ⟨⟨found, hfound⟩, others, hothers⟩
      exact ⟨_, found, hfound, others, hothers, rfl⟩

end Reading

/-! ## A protected boundary reaches a human -/

/-- The pass releases the pull request: it reports it as released, or asks
GitHub to mark it ready. -/
def Releases {env : Env} (x : PassTx env (List ReviewEntry)) (s : Pass env) : Prop :=
  (∃ entries t, x.Returns s entries t ∧ ∃ e ∈ entries, e.isReady = true) ∨
    ∃ new id, (x s).2.sent = s.sent ++ new ∧ .markReady id ∈ new

/-- The pass holds the pull request back: it reports it as unavailable, or
as needing a human, and nothing else. -/
def HoldsBack {env : Env} (x : PassTx env (List ReviewEntry)) (s : Pass env) : Prop :=
  ∃ t url, (∃ reason, x.Returns s [.unavailable url reason] t) ∨
    ∃ headSha round reason, x.Returns s [.needsHuman url headSha round reason] t

/-- **A protected boundary reaches a human**, of a pull request with the
changed files `files`, under an authority: whatever the rest of the world is
and does, a release means that no changed file is inside a guarded boundary,
and a pull request whose changed files were not all read is held back. -/
def ReachesHuman (env : Env) (repository url : String) (locator : PullRequestLocator)
    (authority : PolicyAuthority) (files : List String) : Prop :=
  ∀ (out : Outside) (actor : String) (writes : Bool) (origin : ReviewOrigin)
      (head : PullRequestHead) (round : JsNumber) (reviewItemId : String) (s : Pass env),
    origin.repository = repository →
    out.policyAuthority s.asks repository = some authority →
    Serves out locator files →
    (Releases (applyPassConsequence out actor writes origin url head round reviewItemId) s →
      ∀ b ∈ guardedBoundaries (some authority), ∀ pattern ∈ b.paths, ∀ f ∈ files,
        ¬ Inside f pattern) ∧
    ((¬ ∃ t, (readChangedFilenames out locator).Returns (s.asked none []) (.files files) t) →
      HoldsBack (applyPassConsequence out actor writes origin url head round reviewItemId) s)

/-- **The condition.** Of at most three hundred files, none is inside a
guarded boundary unless the test finds one that is. Of more, the test finds
one among the first three hundred. -/
def BoundariesFound (authority : PolicyAuthority) (files : List String) : Prop :=
  (files.length ≤ 300 ∧
    ((∀ b ∈ guardedBoundaries (some authority), touchesBoundary files b = .ok false) →
      ∀ b ∈ guardedBoundaries (some authority), ∀ pattern ∈ b.paths, ∀ f ∈ files,
        ¬ Inside f pattern)) ∨
  ((∀ b ∈ guardedBoundaries (some authority),
      ∃ found, touchesBoundary (files.take 300) b = .ok found) ∧
    ∃ b ∈ guardedBoundaries (some authority), touchesBoundary (files.take 300) b ≠ .ok false)

section Consequence

variable {env : Env} {out : Outside} {locator : PullRequestLocator} {url : String}
variable {authority : PolicyAuthority} {origin : ReviewOrigin} {actor : String} {writes : Bool}
variable {head : PullRequestHead} {round : JsNumber} {reviewItemId : String} {s t : Pass env}

/-- What the pass does once it has read the files, or has not. -/
theorem applyPassConsequence_read (hhook : env.policyAuthority.isSome = true)
    (hauthority : out.policyAuthority s.asks origin.repository = some authority)
    (hguarded : guardedBoundaries (some authority) ≠ [])
    (hlocator : parsePullRequestUrl env origin.repository url = some locator) {r : ChangedFiles}
    (hread : (readChangedFilenames out locator).Returns (s.asked none []) r t) :
    applyPassConsequence out actor writes origin url head round reviewItemId s =
      match r with
      | .unavailable reason =>
        (.ok [.unavailable url s!"{reason}; protected boundaries could not be checked (ADR-0074)"],
          t)
      | .files filenames =>
        match touchedBoundaries filenames (guardedBoundaries (some authority)) with
        | .error e => (.error e, t)
        | .ok [] => releaseHead out actor writes origin url head round reviewItemId t
        | .ok (b :: bs) =>
          (.ok [.needsHuman url head.headSha round
            (let named := joinWith ", " ((b :: bs).map fun boundary =>
              s!"{boundary.id} (minimum tier {boundary.minimumRiskTier})")
            s!"the delivered diff touches protected boundary {named}; a human marks ready (ADR-0074)")],
            t) := by
  have hask : (policyAuthorityFor out origin.repository).Returns s (some authority)
      (s.asked none []) := by
    rw [returns_policyAuthorityFor, if_pos hhook]
    exact ⟨hauthority.symm, rfl⟩
  rw [applyPassConsequence, Tx.bind_of_returns hask]
  simp only [if_neg hguarded, hlocator]
  rw [Tx.bind_of_returns hread]
  cases r with
  | unavailable reason => rfl
  | files filenames =>
    cases htouched : touchedBoundaries filenames (guardedBoundaries (some authority)) with
    | error e =>
      simp only [htouched]
      rfl
    | ok touched =>
      simp only [htouched]
      rw [Tx.bind_of_returns (Tx.returns_ofExcept.mpr ⟨rfl, rfl⟩)]
      cases touched with
      | nil => rfl
      | cons b bs => rfl

/-- A pass that has only read files and reports no release releases
nothing. -/
theorem not_releases {x : PassTx env (List ReviewEntry)} {o : Except QueueError (List ReviewEntry)}
    {new : List GitHubRequest} (hx : x s = (o, t)) (hsent : t.sent = s.sent ++ new)
    (hnew : ∀ request ∈ new,
      ∃ page, request = .files locator.owner locator.name locator.number page)
    (ho : ∀ entries, o = .ok entries → ∀ e ∈ entries, e.isReady = false) : ¬ Releases x s := by
  rintro (⟨entries, u, hreturns, e, he, hready⟩ | ⟨new', id, hsent', hid⟩)
  · have hreturned : o = .ok entries := congrArg Prod.fst (hx.symm.trans hreturns)
    rw [ho entries hreturned e he] at hready
    exact nomatch hready
  · have hsame : s.sent ++ new = s.sent ++ new' := by
      rw [← hsent, ← hsent', hx]
    rw [← List.append_cancel_left hsame] at hid
    obtain ⟨page, hpage⟩ := hnew _ hid
    exact nomatch hpage

/-- What the pass reads: the first three hundred files, or a reason why
not. -/
theorem returns_readChangedFilenames {files : List String} (hserves : Serves out locator files)
    (s : Pass env) :
    ∃ r t, (readChangedFilenames out locator).Returns s r t ∧
      (r = .files (files.take 300) ∨
        ∃ reason page, r = .unavailable reason ∧ Unlisted out locator page) :=
  returns_readChangedLoop hserves 3 0 s

/-- **Where the condition holds, the boundary reaches a human.** -/
theorem reachesHuman_of_boundariesFound {repository : String} {files : List String}
    (hhook : env.policyAuthority.isSome = true)
    (hlocator : parsePullRequestUrl env repository url = some locator)
    (hguarded : guardedBoundaries (some authority) ≠ [])
    (hfound : BoundariesFound authority files) :
    ReachesHuman env repository url locator authority files := by
  intro out actor writes origin head round reviewItemId s horigin hauthority hserves
  rw [← horigin] at hlocator hauthority
  obtain ⟨r, t, hread, hr⟩ := returns_readChangedFilenames hserves (s.asked none [])
  have hrun := @applyPassConsequence_read env out locator url authority origin actor writes head
    round reviewItemId s t hhook hauthority hguarded hlocator r hread
  obtain ⟨new, hsent, hnew⟩ := (appends_readChangedLoop [] [1, 2, 3]).of_returns hread
  rw [Pass.sent_asked, Option.toList_none, List.append_nil] at hsent
  rcases hr with rfl | ⟨reason, page, rfl, -⟩
  · cases htouched : touchedBoundaries (files.take 300) (guardedBoundaries (some authority)) with
    | error e =>
      simp only [htouched] at hrun
      refine ⟨fun h => absurd h (not_releases hrun hsent hnew fun _ h => nomatch h), fun hnot => ?_⟩
      rcases hfound with ⟨hlength, -⟩ | ⟨hok, -⟩
      · rw [List.take_of_length_le hlength] at hread
        exact absurd ⟨t, hread⟩ hnot
      · obtain ⟨touched, h⟩ := touchedBoundaries_eq_ok.mpr hok
        rw [htouched] at h
        exact nomatch h
    | ok touched =>
      simp only [htouched] at hrun
      cases touched with
      | cons b bs =>
        refine ⟨fun h => absurd h (not_releases hrun hsent hnew ?_), fun _ => ?_⟩
        · intro entries h e he
          obtain rfl : [_] = entries := Except.ok.inj h
          rw [List.mem_singleton.mp he]
          rfl
        · exact ⟨t, url, Or.inr ⟨_, _, _, hrun⟩⟩
      | nil =>
        -- nothing found, so the files were no more than the pass read
        have hnone := touchedBoundaries_eq_nil.mp htouched
        rcases hfound with ⟨hlength, hinside⟩ | ⟨-, b, hb, htouches⟩
        · rw [List.take_of_length_le hlength] at hread hnone
          exact ⟨fun _ => hinside hnone, fun hnot => absurd ⟨t, hread⟩ hnot⟩
        · exact absurd (hnone b hb) htouches
  · refine ⟨fun h => absurd h (not_releases hrun hsent hnew ?_), fun _ => ?_⟩
    · intro entries h e he
      obtain rfl : [_] = entries := Except.ok.inj h
      rw [List.mem_singleton.mp he]
      rfl
    · exact ⟨t, url, Or.inl ⟨_, hrun⟩⟩

/-- GitHub lists every page of some files, the hook answers with one
authority, and nobody else calls the store. -/
def Outside.listing (authority : PolicyAuthority) (files : List String) : Outside where
  answer _ request := match request with
    | .files _ _ _ page => .response 200 (.array
        (((files.drop (100 * (page - 1))).take 100).map fun f => .object [("filename", .text f)]))
    | _ => .unavailable
  meanwhile _ := []
  policyAuthority _ _ := some authority
  credentialed := true
  number _ := .int 0
  digest _ := Digest.zero
  time _ := ⟨"2026-01-01T00:00:00.000Z", isBlank_newYear⟩
  handoff _ _ := .valid

theorem serves_listing (authority : PolicyAuthority) (locator : PullRequestLocator)
    (files : List String) : Serves (.listing authority files) locator files := by
  intro asks page values h
  injection h with _ hvalues
  injection hvalues with hvalues
  rw [← hvalues, List.map_map]
  rfl

theorem not_unlisted_listing (authority : PolicyAuthority) (locator : PullRequestLocator)
    (files : List String) (page : ℕ) : ¬ Unlisted (.listing authority files) locator page :=
  fun ⟨_, h⟩ => h _ rfl

/-- **Where the boundary reaches a human, the condition holds**: one world in
which GitHub lists every page shows it. -/
theorem boundariesFound_of_reachesHuman {repository : String} {files : List String}
    (hhook : env.policyAuthority.isSome = true)
    (hlocator : parsePullRequestUrl env repository url = some locator)
    (hguarded : guardedBoundaries (some authority) ≠ [])
    (hreaches : ReachesHuman env repository url locator authority files) :
    BoundariesFound authority files := by
  have hserves := serves_listing authority locator files
  let origin : ReviewOrigin := ⟨repository, 0, "", none⟩
  let head : PullRequestHead := ⟨locator.number, url, none, "", .opened, true, ""⟩
  obtain ⟨hinside, hunread⟩ := hreaches (.listing authority files) "" false origin head (.int 1) ""
    (Pass.start env) rfl rfl hserves
  obtain ⟨r, t, hread, hr⟩ := returns_readChangedFilenames hserves ((Pass.start env).asked none [])
  obtain rfl : r = .files (files.take 300) := hr.resolve_right fun ⟨_, page, _, h⟩ =>
    not_unlisted_listing authority locator files page h
  have hrun := @applyPassConsequence_read env (.listing authority files) locator url authority
    origin "" false head (.int 1) "" (Pass.start env) t hhook rfl hguarded hlocator _ hread
  have hlength : ¬ files.length ≤ 300 → ¬ ∃ u, (readChangedFilenames (.listing authority files)
      locator).Returns ((Pass.start env).asked none []) (.files files) u := by
    rintro hlong ⟨u, hu⟩
    have hsame := congrArg Prod.fst (hread.symm.trans hu)
    have hfiles : files.take 300 = files := ChangedFiles.files.inj (Except.ok.inj hsame)
    exact hlong (List.take_eq_self_iff _ |>.mp hfiles)
  cases htouched : touchedBoundaries (files.take 300) (guardedBoundaries (some authority)) with
  | error e =>
    simp only [htouched] at hrun
    refine Or.inl ?_
    have hshort : files.length ≤ 300 := by
      by_contra hlong
      obtain ⟨u, v, ⟨_, h⟩ | ⟨_, _, _, h⟩⟩ := hunread (hlength hlong)
      · exact nomatch congrArg Prod.fst (hrun.symm.trans h)
      · exact nomatch congrArg Prod.fst (hrun.symm.trans h)
    refine ⟨hshort, fun hnone => ?_⟩
    rw [List.take_of_length_le hshort, touchedBoundaries_eq_nil.mpr hnone] at htouched
    exact nomatch htouched
  | ok touched =>
    cases touched with
    | cons b bs =>
      refine Or.inr ⟨touchedBoundaries_eq_ok.mp ⟨_, htouched⟩, ?_⟩
      by_contra hnone
      push Not at hnone
      rw [touchedBoundaries_eq_nil.mpr hnone] at htouched
      exact nomatch htouched
    | nil =>
      simp only [htouched] at hrun
      have hreleased : Releases (applyPassConsequence (.listing authority files) "" false origin
          url head (.int 1) "") (Pass.start env) :=
        Or.inl ⟨_, t, hrun, _, List.mem_singleton_self _, rfl⟩
      refine Or.inl ⟨?_, fun _ => hinside hreleased⟩
      by_contra hlong
      obtain ⟨u, v, ⟨_, h⟩ | ⟨_, _, _, h⟩⟩ := hunread (hlength hlong)
      · exact nomatch congrArg Prod.fst (hrun.symm.trans h)
      · exact nomatch congrArg Prod.fst (hrun.symm.trans h)

/-- **A protected boundary reaches a human exactly when** the pull request
changes at most three hundred files and the test misses none of those that
are inside, or the test finds one among the first three hundred. -/
theorem boundary_reaches_human {repository : String} {files : List String}
    (hhook : env.policyAuthority.isSome = true)
    (hlocator : parsePullRequestUrl env repository url = some locator)
    (hguarded : guardedBoundaries (some authority) ≠ []) :
    ReachesHuman env repository url locator authority files ↔ BoundariesFound authority files :=
  ⟨boundariesFound_of_reachesHuman hhook hlocator hguarded,
    reachesHuman_of_boundariesFound hhook hlocator hguarded⟩

end Consequence

/-- Up to three hundred files, none with a line terminator in its name, and
no pattern with a `?`: what GitHub and the governance paths hold as a rule. -/
theorem boundariesFound_of_plain {authority : PolicyAuthority} {files : List String}
    (hlength : files.length ≤ 300)
    (hpatterns : ∀ b ∈ guardedBoundaries (some authority), ∀ pattern ∈ b.paths,
      GlobToken.char '?' ∉ globTokens pattern.toList)
    (hfiles : ∀ f ∈ files, ∀ c ∈ f.toList, isLineTerminator c = false) :
    BoundariesFound authority files := by
  refine Or.inl ⟨hlength, fun hnone b hb pattern hpattern f hf => ?_⟩
  have htest := someOf_eq_false.mp (someOf_eq_false.mp (hnone b hb) pattern hpattern) f hf
  rw [pathTouchesBoundary_eq (hpatterns b hb pattern hpattern) fun _ => hfiles f hf, Except.ok.injEq,
    decide_eq_false_iff_not] at htest
  exact htest

/-- An authority that leaves the keys to a human. -/
def PolicyAuthority.keys : PolicyAuthority where
  coreSnapshotId := "s"
  repositoryCommitId := none
  actionCeiling := [.read]
  defaultDecision := .allow
  actionDecisions _ := none
  protectedBoundaries := [⟨"keys", .reviewRequired, "high", ["keys/**"]⟩]

/-- The small environment with that authority. -/
def Env.keys : Env :=
  { Env.sample with policyAuthority := some fun _ _ => some .keys }

/-- A pull request that changes a key is held back. -/
theorem boundary_reaches_human_sample :
    ReachesHuman Env.keys "a/b" "https://github.com/a/b/pull/1" ⟨"a", "b", 1⟩ .keys ["keys/a"] :=
  (@boundary_reaches_human Env.keys ⟨"a", "b", 1⟩ "https://github.com/a/b/pull/1" .keys "a/b"
    ["keys/a"] rfl (by decide +kernel) (by decide)).mpr
    (Or.inr ⟨fun b hb => ⟨true, by revert b; decide +kernel⟩, by decide +kernel⟩)

/-- Three hundred documents and a key. -/
def documentsAndKey : List String :=
  ((List.range 300).map fun n => String.ofList ('d' :: (toString n).toList)) ++ ["keys/a"]

/-- The test finds no key among names that start with another letter. -/
theorem not_touches_keys {files : List String}
    (h : ∀ f ∈ files, ∃ cs, f = String.ofList ('d' :: cs)) :
    ∀ b ∈ guardedBoundaries (some .keys), touchesBoundary files b = .ok false := by
  intro b hb
  obtain rfl : b = ⟨"keys", .reviewRequired, "high", ["keys/**"]⟩ := List.mem_singleton.mp hb
  refine someOf_eq_false.mpr fun pattern hpattern => someOf_eq_false.mpr fun f hf => ?_
  obtain rfl := List.mem_singleton.mp hpattern
  obtain ⟨cs, rfl⟩ := h f hf
  show Except.ok (Pattern.test (.seq (.one (· == 'k')) _) _) = _
  rw [Except.ok.injEq, ← Bool.not_eq_true, Pattern.test_iff, String.toList_ofList,
    ← Pattern.deriv_iff]
  intro hmatches
  cases hmatches with
  | seq hnever _ => exact nomatch hnever

/-- **The boundary does not reach a human** when the key is the three hundred
and first file: the pass reads three pages, finds no key there, and releases
the pull request. -/
theorem not_reachesHuman_fourthPage :
    ¬ ReachesHuman Env.keys "a/b" "https://github.com/a/b/pull/1" ⟨"a", "b", 1⟩ .keys
      documentsAndKey := by
  intro h
  have hfound := boundariesFound_of_reachesHuman rfl (by decide +kernel)
    (by decide) h
  have htake : documentsAndKey.take 300 =
      (List.range 300).map fun n => String.ofList ('d' :: (toString n).toList) := by
    rw [documentsAndKey, List.take_left' (by rw [List.length_map, List.length_range])]
  rcases hfound with ⟨hlength, -⟩ | ⟨-, b, hb, htouches⟩
  · rw [documentsAndKey, List.length_append, List.length_map, List.length_range] at hlength
    exact absurd hlength (by decide)
  · refine htouches (not_touches_keys (fun f hf => ?_) b hb)
    rw [htake] at hf
    obtain ⟨n, -, rfl⟩ := List.mem_map.mp hf
    exact ⟨_, rfl⟩

end Snowcat
