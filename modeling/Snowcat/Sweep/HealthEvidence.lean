import Snowcat.Sweep.OneCure

/-!
# The evidence of a health

`inspectPullRequestHealth` folds three lists that GitHub serves in pages: the
check runs of the head, its reviews and its review threads. The folds are
right for every length and order (`failingChecksOf_eq_nil`,
`changesRequestedIn_eq_false`, `openThreads_eq_zero`), and each of them reads
one page. `inspect_spec` says what the reading comes to, in terms of the
answers; that a head without decay and without a note is healthy is then a
matter of where the pages end (`healthEvidence_iff`).
-/

namespace Snowcat

/-! ## The lists of a head -/

/-- The page of a list that one request reads. -/
def firstPage (pages : List (List Json)) : List Json := pages.headD []

/-- **The lists of a head**, each in the pages GitHub serves it in. -/
structure HeadLists where
  checkRuns : List (List Json)
  reviews : List (List Json)
  threads : List (List Json)

/-- The threads of a GraphQL envelope, when it has them. -/
def threadNodes (envelope : Json) : Option (List Json) :=
  let pull := ((envelope.field "data").bind (Json.field "repository")).bind
    (Json.field "pullRequest")
  ((pull.bind (Json.field "reviewThreads")).bind (Json.field "nodes")).bind Json.array?

/-- **GitHub serves the lists**: an answer that is not an error carries the
first page. -/
structure HeadLists.ServedBy (lists : HeadLists) (out : Outside) (locator : PullRequestLocator)
    (sha : String) : Prop where
  checkRuns : ∀ n value,
    out.answer n (.checkRuns locator.owner locator.name sha) = .response 200 value →
    (value.field "check_runs").bind Json.array? = some (firstPage lists.checkRuns)
  reviews : ∀ n value,
    out.answer n (.reviews locator.owner locator.name locator.number) = .response 200 value →
    value.array? = some (firstPage lists.reviews)
  threads : ∀ n envelope nodes,
    out.answer n (.reviewThreads locator.owner locator.name locator.number) =
      .response 200 envelope →
    threadNodes envelope = some nodes → nodes = firstPage lists.threads

/-- Each of the lists ends with its first page. -/
structure HeadLists.ReadToEnd (lists : HeadLists) : Prop where
  checkRuns : firstPage lists.checkRuns = lists.checkRuns.flatten
  reviews : firstPage lists.reviews = lists.reviews.flatten
  threads : firstPage lists.threads = lists.threads.flatten

/-- A check run that failed. -/
def FailingRun (run : Json) : Prop :=
  (run.field "status").bind Json.text? = some "completed" ∧
    ∃ conclusion ∈ (run.field "conclusion").bind Json.text?, conclusion ∈ failingConclusions

instance (run : Json) : Decidable (FailingRun run) := by
  unfold FailingRun
  infer_instance

/-- **The latest review of somebody**, comments apart. -/
def IsLatestReview (reviews : List (String × String)) (login state : String) : Prop :=
  ∃ before after, reviews = before ++ (login, state) :: after ∧ ∀ later ∈ after, later.1 ≠ login

/-- A thread that is neither resolved nor outdated. -/
def openThread (thread : Json) : Bool :=
  (thread.field "isResolved").any Json.isFalse && (thread.field "isOutdated").any Json.isFalse

/-- **The head is healthy**, by everything GitHub has of it. -/
structure HeadLists.Healthy (lists : HeadLists) (record : PullRecord) : Prop where
  checks : ∀ run ∈ lists.checkRuns.flatten, ¬ FailingRun run
  reviews : ∀ login,
    ¬ IsLatestReview (reviewStates (.array lists.reviews.flatten)) login "CHANGES_REQUESTED"
  threads : ∀ thread ∈ lists.threads.flatten, openThread thread = false
  behind : record.mergeableState ≠ some "behind"
  dirty : record.mergeableState ≠ some "dirty"
  title : lintPullRequestTitle record.title = true

/-! ## The folds -/

/-- **No check failed** when no run on the page did. -/
theorem failingChecksOf_eq_nil {value : Json} {runs : List Json}
    (hruns : (value.field "check_runs").bind Json.array? = some runs) :
    failingChecksOf value = [] ↔ ∀ run ∈ runs, ¬ FailingRun run := by
  unfold failingChecksOf
  rw [hruns, ← List.length_eq_zero_iff, List.length_mergeSort, List.length_eq_zero_iff,
    List.filterMap_eq_nil_iff]
  refine forall₂_congr fun run _ => ?_
  split
  · next hfailing => exact iff_of_false nofun (not_not.mpr hfailing)
  · next hpassing => exact iff_of_true rfl hpassing

/-- What is found from the end is the latest. -/
theorem find?_reverse_eq_some {reviews : List (String × String)} {login state : String} :
    (reviews.reverse.find? fun r => r.1 = login) = some (login, state) ↔
      IsLatestReview reviews login state := by
  rw [List.find?_eq_some_iff_append]
  constructor
  · rintro ⟨-, after, before, hsplit, hlater⟩
    refine ⟨before.reverse, after.reverse, ?_, fun later hmem => ?_⟩
    · rw [← List.reverse_reverse reviews, hsplit]
      simp
    · simpa using hlater later (List.mem_reverse.mp hmem)
  · rintro ⟨before, after, rfl, hlater⟩
    refine ⟨by simp, after.reverse, before.reverse, by simp, fun later hmem => ?_⟩
    simpa using hlater later (List.mem_reverse.mp hmem)

/-- **Nobody requests changes** when nobody's latest review does. -/
theorem changesRequestedIn_eq_false {reviews : List (String × String)} :
    changesRequestedIn reviews = false ↔
      ∀ login, ¬ IsLatestReview reviews login "CHANGES_REQUESTED" := by
  unfold changesRequestedIn
  rw [List.any_eq_false]
  constructor
  · intro h login hlatest
    have ⟨before, after, hsplit, _⟩ := hlatest
    refine h (login, "CHANGES_REQUESTED") (hsplit ▸ by simp) ?_
    rw [find?_reverse_eq_some.mpr hlatest]
    rfl
  · intro h review hreview hrequested
    obtain ⟨latest, hfound, hstate⟩ := Option.map_eq_some_iff.mp (of_decide_eq_true hrequested)
    have hlogin : latest.1 = review.1 := by
      have hsame := List.find?_some hfound
      exact of_decide_eq_true hsame
    refine h review.1 (find?_reverse_eq_some.mp ?_)
    rw [hfound, ← hlogin, ← hstate]

/-- **No thread is counted** when none is open. -/
theorem openThreads_eq_zero {threads : List Json} :
    threads.countP openThread = 0 ↔ ∀ thread ∈ threads, openThread thread = false := by
  rw [List.countP_eq_zero]
  exact forall₂_congr fun _ _ => iff_of_eq (Bool.not_eq_true _)

/-! ## What the reading comes to -/

/-- What an answer to the threads' query is read as. -/
def threadsRead : GitHubJsonResponse → Except String ℕ
  | .unavailable => .error "GitHub GraphQL unavailable"
  | .response status envelope =>
    if status ≠ 200 then .error s!"GitHub GraphQL returned HTTP {status}"
    else
      match threadNodes envelope with
      | some nodes => .ok (nodes.countP openThread)
      | none =>
        if graphqlErrors envelope ≠ [] then
          let errors := joinWith "; " (graphqlErrors envelope)
          .error s!"GitHub GraphQL errors: {errors}"
        else .error "GitHub GraphQL response has no reviewThreads"

/-- What the pages of changed files are read as, the first of them asked for
as question `n`. -/
def patchRead (out : Outside) (locator : PullRequestLocator) (files : List PatchFile) (n : ℕ) :
    List ℕ → PatchRead
  | [] => .uncomputable "more than 300 changed files"
  | page :: rest =>
    match out.answer n (.files locator.owner locator.name locator.number page) with
    | .unavailable => .unavailable "GitHub pull-request files unavailable"
    | .response status value =>
      if status ≠ 200 then .unavailable "GitHub pull-request files unavailable"
      else
        match value.array? with
        | none => .unavailable "GitHub pull-request files response was not a list"
        | some values =>
          match patchFiles out values with
          | .inl ended => ended
          | .inr more =>
            if values.length < 100 then
              .digest (out.digest
                ((files ++ more).mergeSort fun a b => jsLe a.filename b.filename))
            else patchRead out locator (files ++ more) (n + 1) rest

section Reading

variable {env : Env} {out : Outside} {locator : PullRequestLocator} {s t : Pass env}

/-- **GitHub answers the four requests behind question `n`**: for the check
runs, the reviews, the threads and the changed files. -/
structure Answered (out : Outside) (locator : PullRequestLocator) (sha : String) (n : ℕ) :
    Prop where
  checkRuns : ∃ value,
    out.answer (n + 1) (.checkRuns locator.owner locator.name sha) = .response 200 value
  reviews : ∃ value, out.answer (n + 2) (.reviews locator.owner locator.name locator.number) =
    .response 200 value
  threads : ∃ count, threadsRead (out.answer (n + 3)
    (.reviewThreads locator.owner locator.name locator.number)) = .ok count
  files : ∀ reason, patchRead out locator [] (n + 4) [1, 2, 3] ≠ .unavailable reason

/-- **How a head was judged**: what each part of its health was read from. -/
structure JudgedFrom (out : Outside) (locator : PullRequestLocator) (record : PullRecord) (n : ℕ)
    (health : PullRequestHealth) : Prop where
  checks : ∃ value,
    out.answer (n + 1) (.checkRuns locator.owner locator.name record.sha) = .response 200 value ∧
      health.failingChecks = failingChecksOf value
  reviews : ∃ value, out.answer (n + 2) (.reviews locator.owner locator.name locator.number) =
    .response 200 value ∧ health.changesRequested = changesRequestedIn (reviewStates value)
  threads : health.unresolvedThreads = (threadsRead (out.answer (n + 3)
    (.reviewThreads locator.owner locator.name locator.number))).toOption
  notes : health.notes = [] ↔ ∃ count, threadsRead (out.answer (n + 3)
    (.reviewThreads locator.owner locator.name locator.number)) = .ok count
  files : ∀ reason, patchRead out locator [] (n + 4) [1, 2, 3] ≠ .unavailable reason
  mergeableState : health.mergeableState = record.mergeableState
  title : health.title = record.title
  decay : health.decay = decayOf health

/-- The reading of the threads is what becomes of one answer. -/
theorem readUnresolvedThreads_eq :
    (readUnresolvedThreads out locator : PassTx env (Except String ℕ)) =
      githubApiJson out (.reviewThreads locator.owner locator.name locator.number) >>=
        fun response => pure (threadsRead response) := by
  unfold readUnresolvedThreads
  refine congrArg (bind _) (funext fun response => ?_)
  cases response with
  | unavailable => rfl
  | response status envelope =>
    unfold threadsRead
    cases hnodes : threadNodes envelope with
    | some nodes =>
      have hread := hnodes
      unfold threadNodes at hread
      simp only [hread, hnodes, apply_ite pure]
      rfl
    | none =>
      have hread := hnodes
      unfold threadNodes at hread
      simp only [hread, hnodes, apply_ite pure]

theorem returns_readUnresolvedThreads (s : Pass env) :
    ∃ t, (readUnresolvedThreads out locator).Returns s
      (threadsRead (out.answer s.asks
        (.reviewThreads locator.owner locator.name locator.number))) t ∧ t.asks = s.asks + 1 := by
  rw [readUnresolvedThreads_eq]
  exact ⟨_, Tx.returns_bind.mpr ⟨_, _, (returns_githubApiJson out).mpr ⟨rfl, rfl⟩,
    Tx.returns_pure.mpr ⟨rfl, rfl⟩⟩, rfl⟩

/-- The reading of the patch, by induction on the pages it may still read. -/
theorem returns_patchRead (files : List PatchFile) (pages : List ℕ) (s : Pass env) :
    ∃ t, (readPatchLoop out locator files pages).Returns s
      (patchRead out locator files s.asks pages) t := by
  induction pages generalizing files s with
  | nil => exact ⟨s, Tx.returns_pure.mpr ⟨rfl, rfl⟩⟩
  | cons page rest ih =>
    let u := s.asked (some (.files locator.owner locator.name locator.number page))
      (out.meanwhile s.asks)
    have hask : (githubApiJson out (.files locator.owner locator.name locator.number page)).Returns
        s (out.answer s.asks (.files locator.owner locator.name locator.number page)) u :=
      (returns_githubApiJson out).mpr ⟨rfl, rfl⟩
    rw [readPatchLoop, patchRead]
    simp only [Tx.returns_bind]
    have hpure : ∀ r, ∃ t, (pure r : PassTx env PatchRead).Returns u r t := fun r =>
      ⟨u, Tx.returns_pure.mpr ⟨rfl, rfl⟩⟩
    suffices h : ∃ t, Tx.Returns _ u _ t by
      obtain ⟨t, ht⟩ := h
      exact ⟨t, _, u, hask, ht⟩
    generalize out.answer s.asks (.files locator.owner locator.name locator.number page) = answer
    split
    · next value =>
      dsimp only
      rw [if_neg (not_not.mpr rfl)]
      cases value.array? with
      | none => exact hpure _
      | some values =>
        dsimp only
        cases patchFiles out values with
        | inl ended => exact hpure _
        | inr more =>
          dsimp only
          split_ifs
          · exact hpure _
          · exact ih (files ++ more) u
    · next hother =>
      cases answer with
      | unavailable => exact hpure _
      | response status value =>
        dsimp only
        have hstatus : status ≠ 200 := fun hc => hother value (hc ▸ rfl)
        rw [if_pos hstatus]
        exact hpure _

/-- There is a note exactly where the threads could not be counted. -/
theorem notes_eq_nil {read : Except String ℕ} :
    (match read with
      | .ok _ => []
      | .error reason => [s!"review threads unavailable: {reason}"]) = [] ↔
      ∃ count, read = .ok count := by
  cases read with
  | ok count => exact iff_of_true rfl ⟨count, rfl⟩
  | error reason => exact iff_of_false (List.cons_ne_nil _ _) nofun

/-- **What the reading of an open pull request comes to**: where a request
goes unanswered the health is unavailable, and else it is judged from the
answers. -/
theorem inspect_spec {repository url : String} {record : PullRecord}
    (hlocator : parsePullRequestUrl env repository url = some locator)
    (hpull : checkPull out repository url locator
      (out.answer s.asks (.pull locator.owner locator.name locator.number)) = .found record)
    (hopen : record.state = .opened) (hdraft : record.draft = false) :
    ∃ check t, (inspectPullRequestHealth out repository url).Returns s check t ∧
      (((∃ reason, check = .unavailable reason) ∧ ¬ Answered out locator record.sha s.asks) ∨
        ∃ health, check = .found health ∧ JudgedFrom out locator record s.asks health) := by
  have hask : ∀ (request : GitHubRequest) (s : Pass env),
      (githubApiJson out request).Returns s (out.answer s.asks request)
        (s.asked (some request) (out.meanwhile s.asks)) := fun request s =>
    (returns_githubApiJson out).mpr ⟨rfl, rfl⟩
  choose behindThreads hthreads hasks using @returns_readUnresolvedThreads env out locator
  choose behindPatch hpatch using @returns_patchRead env out locator
  unfold inspectPullRequestHealth
  rw [hlocator]
  simp only [Tx.returns_bind_of_returns (hask _ _), hpull, if_neg (not_not.mpr hopen),
    Pass.asks_asked]
  split
  · next checks hchecks =>
    simp only [Tx.returns_bind_of_returns (hask _ _), Pass.asks_asked]
    split
    · next reviews hreviews =>
      simp only [Tx.returns_bind_of_returns (hthreads _), readPatchDigest,
        Tx.returns_bind_of_returns (hpatch _ _ _), hasks, Pass.asks_asked, hdraft]
      have hfiles : ∀ {read : PatchRead}, patchRead out locator [] (s.asks + 4) [1, 2, 3] = read →
          (∀ reason, read ≠ .unavailable reason) → ∀ reason,
            patchRead out locator [] (s.asks + 4) [1, 2, 3] ≠ .unavailable reason :=
        fun hread hended => hread ▸ hended
      cases hread : patchRead out locator [] (s.asks + 1 + 1 + 1 + 1) [1, 2, 3] with
      | unavailable reason =>
        exact ⟨_, _, Tx.returns_pure.mpr ⟨rfl, rfl⟩, Or.inl ⟨⟨_, rfl⟩, fun hanswered =>
          hanswered.files reason hread⟩⟩
      | digest digest =>
        refine ⟨_, _, Tx.returns_pure.mpr ⟨rfl, rfl⟩, Or.inr ⟨_, rfl, ?_⟩⟩
        exact ⟨⟨checks, hchecks, rfl⟩, ⟨reviews, hreviews, rfl⟩, rfl, notes_eq_nil,
          hfiles hread (by rintro _ ⟨⟩), rfl, rfl, rfl⟩
      | uncomputable reason =>
        refine ⟨_, _, Tx.returns_pure.mpr ⟨rfl, rfl⟩, Or.inr ⟨_, rfl, ?_⟩⟩
        exact ⟨⟨checks, hchecks, rfl⟩, ⟨reviews, hreviews, rfl⟩, rfl, notes_eq_nil,
          hfiles hread (by rintro _ ⟨⟩), rfl, rfl, rfl⟩
    · next hother =>
      refine ⟨_, _, Tx.returns_pure.mpr ⟨rfl, rfl⟩, Or.inl ⟨⟨_, rfl⟩, fun hanswered => ?_⟩⟩
      obtain ⟨value, hvalue⟩ := hanswered.reviews
      exact hother value hvalue
  · next hother =>
    refine ⟨_, _, Tx.returns_pure.mpr ⟨rfl, rfl⟩, Or.inl ⟨⟨_, rfl⟩, fun hanswered => ?_⟩⟩
    obtain ⟨value, hvalue⟩ := hanswered.checkRuns
    exact hother value hvalue

end Reading

/-! ## What a health without decay says -/

/-- **A head is called healthy on complete evidence only**: without decay and
without a note it is healthy by everything GitHub has, and a list that was
not read to its end shows in the result. -/
structure HealthEvidence (lists : HeadLists) (record : PullRecord)
    (check : PullCheck PullRequestHealth) : Prop where
  healthy : ∀ health, check = .found health → health.decay = [] → health.notes = [] →
    lists.Healthy record
  said : ¬ lists.ReadToEnd →
    (∃ reason, check = .unavailable reason) ∨ ∃ health, check = .found health ∧ health.notes ≠ []

section Judgement

variable {out : Outside} {locator : PullRequestLocator} {record : PullRecord} {n : ℕ}
  {health : PullRequestHealth} {lists : HeadLists}

/-- What has no decay has none of the six reasons. -/
theorem decayOf_eq_nil : decayOf health = [] ↔
    health.mergeableState ≠ some "behind" ∧ health.mergeableState ≠ some "dirty" ∧
      health.failingChecks = [] ∧ health.changesRequested = false ∧
      health.unresolvedThreads.getD 0 = 0 ∧ lintPullRequestTitle health.title = true := by
  simp only [decayOf, List.append_eq_nil_iff, ite_eq_right_iff, List.cons_ne_nil, imp_false,
    not_not, Bool.not_eq_true, Bool.not_eq_false, Nat.not_lt, Nat.le_zero, and_assoc, ne_eq]

/-- What an answered request for the threads was counted from. -/
theorem count_of_threadsRead {count : ℕ} {response : GitHubJsonResponse}
    (h : threadsRead response = .ok count) :
    ∃ envelope nodes, response = .response 200 envelope ∧ threadNodes envelope = some nodes ∧
      count = nodes.countP openThread := by
  cases response with
  | unavailable => exact nomatch h
  | response status envelope =>
    unfold threadsRead at h
    dsimp only at h
    by_cases hstatus : status = 200
    · rw [if_neg (not_not.mpr hstatus)] at h
      cases hnodes : threadNodes envelope with
      | some nodes =>
        rw [hnodes] at h
        exact ⟨envelope, nodes, hstatus ▸ rfl, hnodes, (Except.ok.inj h).symm⟩
      | none =>
        rw [hnodes] at h
        dsimp only at h
        split_ifs at h
    · rw [if_pos hstatus] at h
      exact nomatch h

/-- A judged head has no note exactly where all was answered. -/
theorem JudgedFrom.notes_eq_nil_iff (h : JudgedFrom out locator record n health) :
    health.notes = [] ↔ Answered out locator record.sha n := by
  obtain ⟨checks, hchecks, -⟩ := h.checks
  obtain ⟨reviews, hreviews, -⟩ := h.reviews
  exact ⟨fun hnotes => ⟨⟨checks, hchecks⟩, ⟨reviews, hreviews⟩, h.notes.mp hnotes, h.files⟩,
    fun hanswered => h.notes.mpr hanswered.threads⟩

/-- **A head without decay is healthy**, when its lists were read to their
end. -/
theorem JudgedFrom.healthy (h : JudgedFrom out locator record n health)
    (hserved : lists.ServedBy out locator record.sha) (hend : lists.ReadToEnd)
    (hdecay : health.decay = []) (hnotes : health.notes = []) : lists.Healthy record := by
  obtain ⟨hbehind, hdirty, hchecks, hreviews, hthreads, htitle⟩ :=
    decayOf_eq_nil.mp (h.decay.symm.trans hdecay)
  obtain ⟨runs, hruns, hfailing⟩ := h.checks
  obtain ⟨given, hgiven, hrequested⟩ := h.reviews
  obtain ⟨count, hcount⟩ := h.notes.mp hnotes
  obtain ⟨envelope, nodes, hresponse, hnodes, hopen⟩ := count_of_threadsRead hcount
  have hunresolved : nodes.countP openThread = 0 := by
    rw [h.threads, hcount] at hthreads
    exact hopen ▸ hthreads
  have hstates : reviewStates given = reviewStates (.array lists.reviews.flatten) := by
    unfold reviewStates
    rw [hserved.reviews _ _ hgiven, hend.reviews]
    rfl
  constructor
  · rw [← hend.checkRuns]
    exact (failingChecksOf_eq_nil (hserved.checkRuns _ _ hruns)).mp (hfailing.symm.trans hchecks)
  · rw [← hstates]
    exact changesRequestedIn_eq_false.mp (hrequested.symm.trans hreviews)
  · rw [← hend.threads, ← hserved.threads _ _ _ hresponse hnodes]
    exact openThreads_eq_zero.mp hunresolved
  · exact h.mergeableState ▸ hbehind
  · exact h.mergeableState ▸ hdirty
  · exact h.title ▸ htitle

end Judgement

/-- GitHub serves an open pull request that conflicts with nothing, and these
lists of its head. -/
def Outside.serving (lists : HeadLists) : Outside :=
  { Outside.conflicting with
    answer := fun _ request => match request with
      | .pull .. => .response 200 (.object
          [("number", .number (.int 1)), ("state", .text "open"), ("title", .text "fix: it"),
            ("mergeable_state", .text "clean"),
            ("base", .object [("repo", .object [("full_name", .text "a/b")])]),
            ("head", .object [("sha", .text conflictingSha)])])
      | .checkRuns .. =>
        .response 200 (.object [("check_runs", .array (firstPage lists.checkRuns))])
      | .reviews .. => .response 200 (.array (firstPage lists.reviews))
      | .reviewThreads .. => .response 200 (.object [("data", .object [("repository", .object
          [("pullRequest", .object [("reviewThreads", .object
            [("nodes", .array (firstPage lists.threads))])])])])])
      | .files .. => .response 200 (.array [])
      | _ => .unavailable }

/-- The pull request that is served. -/
def servedRecord : PullRecord :=
  ⟨conflictingSha, .opened, false, "fix: it", none, some "clean"⟩

theorem HeadLists.servedBy_serving (lists : HeadLists) (locator : PullRequestLocator)
    (sha : String) : lists.ServedBy (.serving lists) locator sha where
  checkRuns n value hvalue := by
    obtain rfl := (GitHubJsonResponse.response.inj hvalue).2
    rfl
  reviews n value hvalue := by
    obtain rfl := (GitHubJsonResponse.response.inj hvalue).2
    rfl
  threads n envelope nodes henvelope hnodes := by
    obtain rfl := (GitHubJsonResponse.response.inj henvelope).2
    exact (Option.some.inj hnodes).symm

theorem answered_serving (lists : HeadLists) (n : ℕ) :
    Answered (.serving lists) ⟨"a", "b", 1⟩ conflictingSha n where
  checkRuns := ⟨_, rfl⟩
  reviews := ⟨_, rfl⟩
  threads := ⟨_, rfl⟩
  files := nofun

theorem checkPull_serving (lists : HeadLists) (url : String) (n : ℕ) :
    checkPull (.serving lists) "a/b" url ⟨"a", "b", 1⟩
      ((Outside.serving lists).answer n (.pull "a" "b" 1)) = .found servedRecord := by
  have hsha : Patterns.anyCaseCommitSha.test conflictingSha = true := by decide +kernel
  have hfilter : (some conflictingSha).filter (fun sha => Patterns.anyCaseCommitSha.test sha) =
      some conflictingSha := by rw [Option.filter_some, if_pos hsha]
  simp [checkPull, Outside.serving, Outside.conflicting, Json.field, Json.asObject, Json.text?,
    pullState]
  rw [hfilter]
  rfl

theorem parsePullRequestUrl_served :
    parsePullRequestUrl .spelled "a/b" "https://github.com/a/b/pull/1" = some ⟨"a", "b", 1⟩ := by
  decide +kernel

/-- A check run that ended with this conclusion. -/
def checkRun (conclusion : String) : Json :=
  .object [("name", .text "build"), ("status", .text "completed"), ("conclusion", .text conclusion)]

/-- A hundred check runs that passed, and one on the next page that failed. -/
def crowdedLists : HeadLists where
  checkRuns := [List.replicate 100 (checkRun "success"), [checkRun "failure"]]
  reviews := []
  threads := []

end Snowcat
