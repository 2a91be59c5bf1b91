import Mathlib
import Snowcat.Lib.Keyed
import Snowcat.Queue.Runs

/-!
# The metrics of a window

The metrics of the queue are computed from two lists: how many items were
created in a window, by repository and status, and what happened in it, in the
order of the ledger. Every number is kept twice, for its repository and for all of
them. Most are counts. The pull requests that completed work reported are not:
each is one sample, merged from all the reports of it (`mergePullRequestSample`).

What the merging makes of the reports of a pull request is said here without it:
the newest observation that was taken, or the newest attempt when none was, and
the first completion that reported it (`Merged`).
-/

namespace Snowcat

namespace Metrics

/-! ## The window -/

/-- How many items of a repository that were created in the window have a status. -/
structure QueueMetricsCreatedRow where
  repository : String
  status : WorkStatus
  count : ℕ
  deriving DecidableEq, Repr

/-- An event in the window, with what its item's result is now. -/
structure QueueMetricsEventRow where
  type : EventType
  repository : String
  workItemId : String
  occurredAt : String
  result : Option WorkResult
  deriving DecidableEq, Repr

/-- **`QueueMetricsWindow`.** -/
structure QueueMetricsWindow where
  since : String
  «until» : String
  repository : Option String
  created : List QueueMetricsCreatedRow
  events : List QueueMetricsEventRow
  deriving DecidableEq, Repr

/-! ## Samples -/

/-- What a pull request was last seen as. -/
inductive PullRequestSampleState where
  | unverified
  | opened
  | closed
  | merged
  deriving DecidableEq, Repr

/-- `PullRequestSample`. -/
structure PullRequestSample where
  state : PullRequestSampleState
  observedAt : String
  reportedAt : String
  completedAt : String
  mergedAt : Option String
  deriving DecidableEq, Repr

/-- The state an artifact is sampled with. -/
def sampleState (verification : Option ArtifactVerification) : PullRequestSampleState :=
  match verification with
  | some (.verified observation) =>
    match observation.state with
    | .merged => .merged
    | .closed => .closed
    | .opened => .opened
    | _ => .unverified
  | _ => .unverified

/-- The sample of a reported pull request. -/
def pullRequestSample (event : QueueMetricsEventRow) (artifact : WorkArtifact) :
    PullRequestSample where
  state := sampleState artifact.verification
  observedAt := match artifact.verification with
    | some (.verified observation) => observation.verifiedAt
    | some (.unverified attemptedAt _) => attemptedAt
    | none => event.occurredAt
  reportedAt := event.occurredAt
  completedAt := event.occurredAt
  mergedAt := match artifact.verification with
    | some (.verified observation) => observation.mergedAt.filter fun mergedAt => mergedAt ≠ ""
    | _ => none

namespace PullRequestSample

/-- Whether the state was observed. -/
def verified (s : PullRequestSample) : Bool := decide (s.state ≠ .unverified)

/-- The text two samples are compared by. -/
def stamp (s : PullRequestSample) : String := s.observedAt ++ "\x00" ++ s.reportedAt

/-- Whether one sample is kept instead of another that is there. -/
def replaces (next existing : PullRequestSample) : Bool :=
  if existing.verified ≠ next.verified then next.verified
  else !jsLe next.stamp existing.stamp

end PullRequestSample

/-- **`mergePullRequestSample`.** -/
def mergePullRequestSample (existing : Option PullRequestSample) (next : PullRequestSample) :
    PullRequestSample :=
  match existing with
  | none => next
  | some existing =>
    { if next.replaces existing = true then next else existing with
      completedAt :=
        if jsLe existing.completedAt next.completedAt = true then existing.completedAt
        else next.completedAt }

/-! ## Accumulators -/

/-- `MetricsAccumulator`. -/
structure MetricsAccumulator where
  created : WorkStatus → ℕ := fun _ => 0
  attempts : ℕ := 0
  completed : ℕ := 0
  completedByDelivery : DeliveryState → ℕ := fun _ => 0
  acceptanceExcluded : ℕ := 0
  pullRequests : List (String × PullRequestSample) := []
  blocked : ℕ := 0
  cancelled : ℕ := 0

/-- `emptyAccumulator`. -/
def emptyAccumulator : MetricsAccumulator := {}

section Accumulate

variable (env : Env)

/-- The pull requests the result of a completed item reports. -/
def reportedPullRequests (event : QueueMetricsEventRow) : List WorkArtifact :=
  ((event.result.map WorkResult.artifacts).getD []).filter fun artifact =>
    artifact.kind = .pullRequest

/-- Their samples, each under the identity of its pull request. -/
def samplesOf (event : QueueMetricsEventRow) : List (String × PullRequestSample) :=
  if event.type = .workCompleted then
    (reportedPullRequests event).map fun artifact =>
      (pullRequestArtifactIdentity env event.repository artifact, pullRequestSample event artifact)
  else []

/-- What a row of `created` adds to an accumulator. -/
def addCreated (acc : MetricsAccumulator) (row : QueueMetricsCreatedRow) : MetricsAccumulator :=
  { acc with
    created := fun status =>
      if status = row.status then acc.created status + row.count else acc.created status }

/-- What an event adds to an accumulator. -/
def addEvent (acc : MetricsAccumulator) (event : QueueMetricsEventRow) : MetricsAccumulator :=
  match event.type with
  | .workClaimed => { acc with attempts := acc.attempts + 1 }
  | .workBlocked => { acc with blocked := acc.blocked + 1 }
  | .workCancelled => { acc with cancelled := acc.cancelled + 1 }
  | .workCompleted =>
    { acc with
      completed := acc.completed + 1
      completedByDelivery := fun delivery =>
        if delivery = deriveDelivery event.result then acc.completedByDelivery delivery + 1
        else acc.completedByDelivery delivery
      acceptanceExcluded :=
        if reportedPullRequests event = [] then acc.acceptanceExcluded + 1
        else acc.acceptanceExcluded
      pullRequests :=
        Keyed.fillFrom mergePullRequestSample acc.pullRequests (samplesOf env event) }
  | _ => acc

/-- The accumulator of some rows. -/
def accumulate (created : List QueueMetricsCreatedRow) (events : List QueueMetricsEventRow) :
    MetricsAccumulator :=
  events.foldl (addEvent env) (created.foldl addCreated emptyAccumulator)

/-- The accumulators of the repositories. -/
def accumulators (created : List QueueMetricsCreatedRow) (events : List QueueMetricsEventRow) :
    List (String × MetricsAccumulator) :=
  Keyed.fillFrom (fun acc event => addEvent env (acc.getD emptyAccumulator) event)
    (Keyed.fill (fun acc row => addCreated (acc.getD emptyAccumulator) row)
      (created.map fun row => (row.repository, row)))
    (events.map fun event => (event.repository, event))

end Accumulate

/-! ## The numbers -/

/-- What is computed in floating point: the finite numbers in their order, the hours
between two times that can be read, a ratio, and the middle of two numbers, each
rounded to three places. -/
structure MetricsNumbers (N : Type) where
  /-- `round3((mergedAt - completed) / HOUR_MS)`. -/
  hours : String → String → Option N
  /-- `round3(accepted / (accepted + closed))`. -/
  ratio : ℕ → ℕ → N
  /-- `round3((sorted[middle - 1] + sorted[middle]) / 2)`. -/
  middle : N → N → N

/-- `TimeToMergeHours`. -/
structure TimeToMergeHours (N : Type) where
  count : ℕ
  median : Option N
  p90 : Option N
  deriving DecidableEq, Repr

/-- The acceptance of the pull requests. -/
structure Acceptance (N : Type) where
  numerator : ℕ
  denominator : ℕ
  rate : Option N
  opened : ℕ
  unavailable : ℕ
  excluded : ℕ
  deriving DecidableEq, Repr

/-- **`RepositoryMetrics`.** -/
structure RepositoryMetrics (N : Type) where
  created : WorkStatus → ℕ
  attempts : ℕ
  completed : ℕ
  completedByDelivery : DeliveryState → ℕ
  accepted : ℕ
  acceptance : Acceptance N
  blocked : ℕ
  cancelled : ℕ
  timeToMergeHours : TimeToMergeHours N

/-- **`QueueMetrics`.** -/
structure QueueMetrics (N : Type) where
  since : String
  «until» : String
  repository : Option String
  all : RepositoryMetrics N
  repositories : List (String × RepositoryMetrics N)

section Numbers

variable {N : Type} [LinearOrder N] (num : MetricsNumbers N)

/-- `summarize`. The rank is `Math.ceil(0.9 * sorted.length)`, at least one. -/
def summarize (samples : List N) : TimeToMergeHours N :=
  let sorted := samples.mergeSort fun a b => a ≤ b
  let half := sorted.length / 2
  { count := sorted.length
    median :=
      if sorted.length % 2 = 1 then sorted[half]?
      else sorted[half - 1]?.bind fun a => sorted[half]?.map fun b => num.middle a b
    p90 := sorted[min sorted.length (max 1 ((9 * sorted.length + 9) / 10)) - 1]? }

/-- How many samples have a state. -/
def countState (pullRequests : List (String × PullRequestSample))
    (state : PullRequestSampleState) : ℕ :=
  pullRequests.countP fun entry => entry.2.state = state

/-- The hours from a completion to its merge, of the pull requests that are merged. -/
def mergeHours (pullRequests : List (String × PullRequestSample)) : List N :=
  pullRequests.filterMap fun entry =>
    if entry.2.state = .merged then
      entry.2.mergedAt.bind fun mergedAt => num.hours entry.2.completedAt mergedAt
    else none

/-- **`finalize`.** -/
def finalize (acc : MetricsAccumulator) : RepositoryMetrics N :=
  let accepted := countState acc.pullRequests .merged
  let closed := countState acc.pullRequests .closed
  { created := acc.created
    attempts := acc.attempts
    completed := acc.completed
    completedByDelivery := acc.completedByDelivery
    accepted
    acceptance :=
      { numerator := accepted
        denominator := accepted + closed
        rate := if accepted + closed = 0 then none else some (num.ratio accepted (accepted + closed))
        opened := countState acc.pullRequests .opened
        unavailable := countState acc.pullRequests .unverified
        excluded := acc.acceptanceExcluded }
    blocked := acc.blocked
    cancelled := acc.cancelled
    timeToMergeHours := summarize num (mergeHours num acc.pullRequests) }

/-- **`computeQueueMetrics`.** -/
def computeQueueMetrics (env : Env) (window : QueueMetricsWindow) : QueueMetrics N where
  since := window.since
  «until» := window.«until»
  repository := window.repository
  all := finalize num (accumulate env window.created window.events)
  repositories :=
    ((accumulators env window.created window.events).mergeSort fun a b => jsLe a.1 b.1).map
      fun entry => (entry.1, finalize num entry.2)

end Numbers

/-! ## What the merging makes of the samples of a pull request -/

namespace PullRequestSample

/-- What samples are ranked by. -/
def rank (s : PullRequestSample) : Bool ×ₗ List ℕ := toLex (s.verified, utf16 s.stamp)

theorem replaces_iff {next existing : PullRequestSample} :
    next.replaces existing = true ↔ existing.rank < next.rank := by
  unfold replaces rank
  rw [Prod.Lex.toLex_lt_toLex]
  by_cases h : existing.verified = next.verified
  · rw [if_neg (not_not.mpr h), Bool.not_eq_true', h]
    simp [jsLe]
  · rw [if_pos h]
    cases hexisting : existing.verified <;> cases hnext : next.verified <;>
      simp_all

/-- What a sample says of its pull request. -/
def observation (s : PullRequestSample) : PullRequestSampleState × String × String × Option String :=
  (s.state, s.observedAt, s.reportedAt, s.mergedAt)

theorem ext_of_observation {s t : PullRequestSample} (h : s.observation = t.observation)
    (hcompleted : s.completedAt = t.completedAt) : s = t := by
  unfold observation at h
  obtain ⟨hstate, h⟩ := Prod.mk.inj h
  obtain ⟨hobserved, h⟩ := Prod.mk.inj h
  obtain ⟨hreported, hmerged⟩ := Prod.mk.inj h
  cases s
  cases t
  simp_all

end PullRequestSample

/-- **What the samples of a pull request come to**: the observation of one that no other outranks,
and the completion of the first. -/
structure Merged (samples : List PullRequestSample) (s : PullRequestSample) : Prop where
  newest : ∃ o ∈ samples, s.observation = o.observation ∧ ∀ other ∈ samples, other.rank ≤ o.rank
  reported : ∃ o ∈ samples, s.completedAt = o.completedAt
  earliest : ∀ other ∈ samples, jsLe s.completedAt other.completedAt = true

/-- **Samples that tie say the same.** -/
def Untied (samples : List PullRequestSample) : Prop :=
  ∀ s ∈ samples, ∀ t ∈ samples, s.rank = t.rank → s.observation = t.observation

variable {samples samples' : List PullRequestSample} {s s' : PullRequestSample}

/-- The samples that do not tie come to one thing. -/
theorem Merged.unique (h : Merged samples s) (h' : Merged samples' s')
    (hsame : ∀ o, o ∈ samples ↔ o ∈ samples') (huntied : Untied samples) : s = s' := by
  obtain ⟨o, ho, hs, hmost⟩ := h.newest
  obtain ⟨o', ho', hs', hmost'⟩ := h'.newest
  refine PullRequestSample.ext_of_observation ?_ ?_
  · have hrank : o.rank = o'.rank :=
      le_antisymm (hmost' o ((hsame o).mp ho)) (hmost o' ((hsame o').mpr ho'))
    rw [hs, hs', huntied o ho o' ((hsame o').mpr ho') hrank]
  · obtain ⟨first, hfirst, hcompleted⟩ := h.reported
    obtain ⟨first', hfirst', hcompleted'⟩ := h'.reported
    refine jsLe_antisymm ?_ ?_
    · rw [hcompleted']
      exact h.earliest first' ((hsame first').mpr hfirst')
    · rw [hcompleted]
      exact h'.earliest first ((hsame first).mp hfirst)

theorem rank_eq_of_observation (h : s.observation = s'.observation) : s.rank = s'.rank := by
  unfold PullRequestSample.observation at h
  obtain ⟨hstate, h⟩ := Prod.mk.inj h
  obtain ⟨hobserved, h⟩ := Prod.mk.inj h
  obtain ⟨hreported, -⟩ := Prod.mk.inj h
  unfold PullRequestSample.rank PullRequestSample.verified PullRequestSample.stamp
  rw [hstate, hobserved, hreported]

/-- One sample more. -/
theorem Merged.next (h : Merged samples s) (next : PullRequestSample) :
    Merged (samples ++ [next]) (mergePullRequestSample (some s) next) := by
  obtain ⟨o, ho, hs, hmost⟩ := h.newest
  have hrank : s.rank = o.rank := rank_eq_of_observation hs
  refine ⟨?_, ?_, ?_⟩
  · by_cases hreplaces : next.replaces s = true
    · refine ⟨next, List.mem_append_right _ (List.mem_singleton_self _), ?_, fun other hother => ?_⟩
      · simp only [mergePullRequestSample, if_pos hreplaces]
        rfl
      · have hlt := PullRequestSample.replaces_iff.mp hreplaces
        rcases List.mem_append.mp hother with hother | hother
        · exact (hmost other hother).trans (hrank ▸ hlt.le)
        · rw [List.mem_singleton.mp hother]
    · refine ⟨o, List.mem_append_left _ ho, ?_, fun other hother => ?_⟩
      · simp only [mergePullRequestSample, if_neg hreplaces]
        exact hs
      · rcases List.mem_append.mp hother with hother | hother
        · exact hmost other hother
        · rw [List.mem_singleton.mp hother, ← hrank]
          exact not_lt.mp fun hlt => hreplaces (PullRequestSample.replaces_iff.mpr hlt)
  · obtain ⟨first, hfirst, hcompleted⟩ := h.reported
    by_cases hle : jsLe s.completedAt next.completedAt = true
    · refine ⟨first, List.mem_append_left _ hfirst, ?_⟩
      simp only [mergePullRequestSample, if_pos hle]
      exact hcompleted
    · refine ⟨next, List.mem_append_right _ (List.mem_singleton_self _), ?_⟩
      simp only [mergePullRequestSample, if_neg hle]
  · intro other hother
    by_cases hle : jsLe s.completedAt next.completedAt = true
    · simp only [mergePullRequestSample, if_pos hle]
      rcases List.mem_append.mp hother with hother | hother
      · exact h.earliest other hother
      · rw [List.mem_singleton.mp hother]
        exact hle
    · simp only [mergePullRequestSample, if_neg hle]
      rcases List.mem_append.mp hother with hother | hother
      · exact jsLe_trans ((jsLe_total _ _).resolve_left hle) (h.earliest other hother)
      · rw [List.mem_singleton.mp hother]
        exact (or_self_iff).mp (jsLe_total _ _)

/-- **The merging is the summary of the samples.** -/
theorem merged_foldl (h : samples ≠ []) :
    ∃ s, samples.foldl (fun acc next => some (mergePullRequestSample acc next)) none = some s ∧
      Merged samples s := by
  induction samples using List.reverseRecOn with
  | nil => exact absurd rfl h
  | append_singleton samples next ih =>
    rw [List.foldl_append]
    by_cases hnil : samples = []
    · subst hnil
      refine ⟨next, rfl, ⟨next, List.mem_singleton_self _, rfl, ?_⟩,
        ⟨next, List.mem_singleton_self _, rfl⟩, ?_⟩
      · intro other hother
        rw [List.mem_singleton.mp hother]
      · intro other hother
        rw [List.mem_singleton.mp hother]
        exact (or_self_iff).mp (jsLe_total _ _)
    · obtain ⟨s, hs, hmerged⟩ := ih hnil
      exact ⟨mergePullRequestSample (some s) next, by rw [hs]; rfl, hmerged.next next⟩

/-! ## Counting -/

section Tally

variable (env : Env)

/-- **The accumulator of some rows, counter by counter.** -/
def tally (created : List QueueMetricsCreatedRow) (events : List QueueMetricsEventRow) :
    MetricsAccumulator where
  created status := ((created.filter fun row => row.status = status).map fun row => row.count).sum
  attempts := events.countP fun event => event.type = .workClaimed
  completed := events.countP fun event => event.type = .workCompleted
  completedByDelivery delivery := events.countP fun event =>
    event.type = .workCompleted ∧ deriveDelivery event.result = delivery
  acceptanceExcluded := events.countP fun event =>
    event.type = .workCompleted ∧ reportedPullRequests event = []
  pullRequests := Keyed.fill mergePullRequestSample (events.flatMap (samplesOf env))
  blocked := events.countP fun event => event.type = .workBlocked
  cancelled := events.countP fun event => event.type = .workCancelled

variable {env} {created created' : List QueueMetricsCreatedRow}
  {events events' : List QueueMetricsEventRow}

theorem foldl_addCreated : created.foldl addCreated emptyAccumulator = tally env created [] := by
  induction created using List.reverseRecOn with
  | nil => rfl
  | append_singleton created row ih =>
    rw [List.foldl_append, ih]
    show addCreated (tally env created []) row = tally env (created ++ [row]) []
    unfold addCreated tally
    congr 1
    funext status
    dsimp only
    rw [List.filter_append, List.map_append, List.sum_append]
    by_cases h : status = row.status
    · rw [if_pos h, List.filter_cons_of_pos (by simp [h])]
      simp
    · rw [if_neg h, List.filter_cons_of_neg (by simp [Ne.symm h])]
      simp

/-- One event more. -/
theorem addEvent_tally (event : QueueMetricsEventRow) :
    addEvent env (tally env created events) event = tally env created (events ++ [event]) := by
  have hfill : Keyed.fill mergePullRequestSample ((events ++ [event]).flatMap (samplesOf env)) =
      Keyed.fillFrom mergePullRequestSample
        (Keyed.fill mergePullRequestSample (events.flatMap (samplesOf env)))
        (samplesOf env event) := by
    rw [List.flatMap_append, List.flatMap_singleton]
    exact List.foldl_append
  have hnone : event.type ≠ .workCompleted → samplesOf env event = [] := fun h => if_neg h
  unfold tally
  rw [hfill]
  simp only [List.countP_append, List.countP_singleton]
  cases htype : event.type
  case workCompleted =>
    simp only [addEvent, htype]
    congr 1
    · funext delivery
      by_cases h : delivery = deriveDelivery event.result
      · rw [if_pos h]
        simp [h]
      · rw [if_neg h]
        simp [Ne.symm h]
    · by_cases h : reportedPullRequests event = []
      · rw [if_pos h]
        simp [h]
      · rw [if_neg h]
        simp [h]
  all_goals
    rw [hnone (by rw [htype]; rintro ⟨⟩)]
    simp only [addEvent, htype]
    simp [Keyed.fillFrom]

/-- **Every counter counts its events**, and the pull requests are filled by their samples. -/
theorem accumulate_eq_tally : accumulate env created events = tally env created events := by
  induction events using List.reverseRecOn with
  | nil => exact foldl_addCreated
  | append_singleton events event ih =>
    rw [accumulate, List.foldl_append]
    show addEvent env (accumulate env created events) event = _
    rw [ih, addEvent_tally]

end Tally

/-! ## The repositories -/

section Repositories

variable {env : Env} {created created' : List QueueMetricsCreatedRow}
  {events events' : List QueueMetricsEventRow} {r : String}

/-- The rows of a repository. -/
def createdIn (r : String) (created : List QueueMetricsCreatedRow) : List QueueMetricsCreatedRow :=
  created.filter fun row => row.repository = r

/-- The events of a repository. -/
def eventsIn (r : String) (events : List QueueMetricsEventRow) : List QueueMetricsEventRow :=
  events.filter fun event => event.repository = r

/-- **The accumulator of a repository** is that of its own rows. -/
theorem lookup_accumulators : (accumulators env created events).lookup r =
    if createdIn r created = [] ∧ eventsIn r events = [] then none
    else some (tally env (createdIn r created) (eventsIn r events)) := by
  unfold accumulators
  rw [Keyed.lookup_fillFrom, Keyed.lookup_fill, List.filter_map, List.filter_map, List.foldl_map,
    List.foldl_map]
  show (eventsIn r events).foldl (fun acc event => some (addEvent env (acc.getD _) event))
    ((createdIn r created).foldl (fun acc row => some (addCreated (acc.getD _) row)) none) = _
  rw [Keyed.foldl_getD, Keyed.foldl_getD, ← accumulate_eq_tally]
  by_cases hcreated : createdIn r created = []
  · rw [if_pos hcreated, hcreated]
    by_cases hevents : eventsIn r events = []
    · rw [if_pos hevents, if_pos ⟨rfl, hevents⟩]
    · rw [if_neg hevents, if_neg fun h => hevents h.2]
      rfl
  · have hnot : ¬ (createdIn r created = [] ∧ eventsIn r events = []) := fun h => hcreated h.1
    rw [if_neg hcreated, if_neg hnot]
    by_cases hevents : eventsIn r events = []
    · rw [if_pos hevents, hevents]
      rfl
    · rw [if_neg hevents]
      rfl

theorem nodup_accumulators : ((accumulators env created events).map Prod.fst).Nodup :=
  Keyed.nodup_fillFrom Keyed.nodup_fill

theorem mem_keys_accumulators : r ∈ (accumulators env created events).map Prod.fst ↔
    r ∈ created.map (fun row => row.repository) ∨ r ∈ events.map fun event => event.repository := by
  unfold accumulators
  rw [Keyed.mem_keys_fillFrom, Keyed.mem_keys_fill, List.map_map, List.map_map]
  rfl

/-- The accumulators, repository by repository. -/
theorem accumulators_eq : accumulators env created events =
    ((accumulators env created events).map Prod.fst).map fun r =>
      (r, tally env (createdIn r created) (eventsIn r events)) := by
  rw [List.map_map]
  refine (List.map_id _).symm.trans (List.map_congr_left fun entry hentry => ?_)
  obtain ⟨r, acc⟩ := entry
  have hlookup := (Keyed.mem_iff_lookup nodup_accumulators).mp hentry
  rw [lookup_accumulators] at hlookup
  by_cases hnone : createdIn r created = [] ∧ eventsIn r events = []
  · rw [if_pos hnone] at hlookup
    cases hlookup
  · rw [if_neg hnone] at hlookup
    exact Prod.ext rfl (Option.some.inj hlookup).symm

end Repositories

/-! ## The order of the rows -/

section Order

variable {N : Type} [LinearOrder N] {num : MetricsNumbers N} {env : Env}
  {created created' : List QueueMetricsCreatedRow} {events events' : List QueueMetricsEventRow}
  {window window' : QueueMetricsWindow}

/-- The samples of a pull request. -/
def samplesUnder (env : Env) (identity : String) (events : List QueueMetricsEventRow) :
    List PullRequestSample :=
  ((events.flatMap (samplesOf env)).filter fun entry => entry.1 = identity).map Prod.snd

/-- What is merged from samples that do not tie does not depend on their order. -/
theorem merge_perm (hperm : samples.Perm samples') (huntied : Untied samples) :
    samples.foldl (fun acc next => some (mergePullRequestSample acc next)) none =
      samples'.foldl (fun acc next => some (mergePullRequestSample acc next)) none := by
  by_cases hnil : samples = []
  · subst hnil
    rw [List.nil_perm.mp hperm]
  · have hnil' : samples' ≠ [] := by
      rintro rfl
      exact hnil (List.perm_nil.mp hperm)
    obtain ⟨s, hs, hmerged⟩ := merged_foldl hnil
    obtain ⟨s', hs', hmerged'⟩ := merged_foldl hnil'
    rw [hs, hs', hmerged.unique hmerged' (fun o => hperm.mem_iff) huntied]

theorem pullRequests_perm (hevents : events.Perm events')
    (huntied : ∀ identity, Untied (samplesUnder env identity events)) :
    (tally env created events).pullRequests.Perm (tally env created' events').pullRequests := by
  refine Keyed.fill_perm fun identity => ?_
  have hperm := ((hevents.flatMap_right (samplesOf env)).filter
    fun entry => entry.1 = identity).map Prod.snd
  have hsame := merge_perm hperm (huntied identity)
  rw [List.foldl_map, List.foldl_map] at hsame
  exact hsame

theorem summarize_perm {hours hours' : List N} (h : hours.Perm hours') :
    summarize num hours = summarize num hours' := by
  have hsorted : ∀ l : List N, (l.mergeSort fun a b => a ≤ b).Pairwise (· ≤ ·) := fun l =>
    (List.pairwise_mergeSort (by simpa using fun _ _ _ => le_trans) (by simpa using le_total)
      l).imp fun h => of_decide_eq_true h
  have hsort : (hours.mergeSort fun a b => a ≤ b) = hours'.mergeSort fun a b => a ≤ b :=
    List.Perm.eq_of_pairwise (fun a b _ _ => le_antisymm) (hsorted hours) (hsorted hours')
      ((List.mergeSort_perm hours _).trans (h.trans (List.mergeSort_perm hours' _).symm))
  unfold summarize
  rw [hsort]

/-- **The numbers of some rows** do not depend on their order. -/
theorem finalize_tally_perm (hcreated : created.Perm created') (hevents : events.Perm events')
    (huntied : ∀ identity, Untied (samplesUnder env identity events)) :
    finalize num (tally env created events) = finalize num (tally env created' events') := by
  have hpulls := @pullRequests_perm env created created' events events' hevents huntied
  have hstate : ∀ state, countState (tally env created events).pullRequests state =
      countState (tally env created' events').pullRequests state :=
    fun state => hpulls.countP_eq _
  have hhours : mergeHours num (tally env created events).pullRequests |>.Perm
      (mergeHours num (tally env created' events').pullRequests) := hpulls.filterMap _
  have hcount : (tally env created events).created = (tally env created' events').created :=
    funext fun status => ((hcreated.filter _).map _).sum_eq
  unfold finalize
  simp only [hstate, summarize_perm hhours, hcount]
  unfold tally
  simp only [hevents.countP_eq]

theorem untied_in {r : String} (huntied : ∀ identity, Untied (samplesUnder env identity events)) :
    ∀ identity, Untied (samplesUnder env identity (eventsIn r events)) := by
  intro identity s hs t ht
  have hsub : samplesUnder env identity (eventsIn r events) ⊆ samplesUnder env identity events :=
    List.map_subset _ (List.filter_subset _ (List.filter_sublist.flatMap _).subset)
  exact huntied identity s (hsub hs) t (hsub ht)

/-- The repositories of a reading, in order. -/
theorem repositories_eq : (computeQueueMetrics num env window).repositories =
    (((accumulators env window.created window.events).map Prod.fst).map fun r =>
      (r, finalize num (tally env (createdIn r window.created) (eventsIn r window.events)))).mergeSort
        fun a b => jsLe a.1 b.1 := by
  show ((accumulators env window.created window.events).mergeSort _).map _ = _
  refine (List.map_mergeSort (s := fun (a b : String × RepositoryMetrics N) => jsLe a.1 b.1)
    fun _ _ _ _ => rfl).trans ?_
  congr 1
  nth_rewrite 1 [accumulators_eq]
  rw [List.map_map]
  rfl

/-- **The order of the rows does not matter**: a window whose rows come in another order has
the same metrics, as long as no two samples of a pull request that tie – both observed or both
not, at the same time, by the same completion – say different things. -/
theorem computeQueueMetrics_perm (num : MetricsNumbers N) (env : Env)
    (window : QueueMetricsWindow) (created : List QueueMetricsCreatedRow)
    (events : List QueueMetricsEventRow) (hcreated : window.created.Perm created)
    (hevents : window.events.Perm events)
    (huntied : ∀ identity, Untied (samplesUnder env identity window.events)) :
    (computeQueueMetrics num env { window with created, events }).all =
        (computeQueueMetrics num env window).all ∧
      (computeQueueMetrics num env { window with created, events }).repositories =
        (computeQueueMetrics num env window).repositories := by
  constructor
  · show finalize num (accumulate env created events) = finalize num (accumulate env _ _)
    rw [accumulate_eq_tally, accumulate_eq_tally]
    exact (finalize_tally_perm hcreated hevents huntied).symm
  · rw [repositories_eq, repositories_eq]
    have hkeys : ((accumulators env window.created window.events).map Prod.fst).Perm
        ((accumulators env created events).map Prod.fst) := by
      refine (List.perm_ext_iff_of_nodup nodup_accumulators nodup_accumulators).mpr fun r => ?_
      rw [mem_keys_accumulators, mem_keys_accumulators, (hcreated.map _).mem_iff,
        (hevents.map _).mem_iff]
    have hentries : ∀ r, finalize num (tally env (createdIn r created) (eventsIn r events)) =
        finalize num (tally env (createdIn r window.created) (eventsIn r window.events)) :=
      fun r => (finalize_tally_perm (hcreated.filter _) (hevents.filter _)
        (untied_in huntied)).symm
    simp only [hentries]
    refine Keyed.mergeSort_eq_of_perm (fun a b c => jsLe_trans) jsLe_total
      (fun a b => jsLe_antisymm) (hkeys.symm.map _) ?_
    rw [List.map_map]
    exact (List.map_id _).symm ▸ nodup_accumulators

/-- A completion that reports a pull request. -/
def sampleCompletion (repository occurredAt : String) (state : ObservedState) :
    QueueMetricsEventRow where
  type := .workCompleted
  repository
  workItemId := "w"
  occurredAt
  result := some ⟨"done", [], [⟨.pullRequest, "https://github.com/a/b/pull/1", none,
    some (.verified ⟨occurredAt, .int 1, state, none, some "3", none, none, none, none, none⟩)⟩],
    none⟩

/-- A window in which the pull request of one repository is reported twice. -/
def sampleWindow : QueueMetricsWindow :=
  ⟨"0", "9", none, [⟨"a/b", .completed, 2⟩, ⟨"c/d", .completed, 1⟩],
    [sampleCompletion "a/b" "1" .opened, sampleCompletion "c/d" "3" .closed,
      sampleCompletion "a/b" "2" .merged]⟩

/-- Numbers that are natural numbers. -/
def sampleNumbers : MetricsNumbers ℕ :=
  ⟨fun _ _ => some 1, fun _ _ => 1, fun a _ => a⟩

/-- The newest observation is the one that counts, in whatever order the completions come. -/
theorem computeQueueMetrics_perm_sample :
    (computeQueueMetrics sampleNumbers Env.sample { sampleWindow with
      created := sampleWindow.created, events := sampleWindow.events.reverse }).all.accepted = 1 := by
  refine (congrArg RepositoryMetrics.accepted (computeQueueMetrics_perm sampleNumbers Env.sample
    sampleWindow sampleWindow.created sampleWindow.events.reverse (.refl _)
    (List.reverse_perm _).symm fun identity s hs t ht hrank => ?_).1).trans (by rfl)
  have hall : ∀ s ∈ (sampleWindow.events.flatMap (samplesOf Env.sample)).map Prod.snd,
      ∀ t ∈ (sampleWindow.events.flatMap (samplesOf Env.sample)).map Prod.snd,
        s.observation = t.observation ∨ s.rank ≠ t.rank := by decide +kernel
  have hsub : samplesUnder Env.sample identity sampleWindow.events ⊆
      (sampleWindow.events.flatMap (samplesOf Env.sample)).map Prod.snd :=
    List.map_subset _ (List.filter_sublist).subset
  exact (hall s (hsub hs) t (hsub ht)).resolve_right (not_not.mpr hrank)

end Order

/-! ## Totals -/

/-- What is counted of the rows of a window. -/
inductive MetricsCounter where
  | created (status : WorkStatus)
  | attempts
  | completed
  | completedByDelivery (delivery : DeliveryState)
  | excluded
  | blocked
  | cancelled
  deriving DecidableEq, Repr

namespace MetricsCounter

/-- What an accumulator has counted. -/
def ofAccumulator (acc : MetricsAccumulator) : MetricsCounter → ℕ
  | created status => acc.created status
  | attempts => acc.attempts
  | completed => acc.completed
  | completedByDelivery delivery => acc.completedByDelivery delivery
  | excluded => acc.acceptanceExcluded
  | blocked => acc.blocked
  | cancelled => acc.cancelled

/-- What is reported to have been counted. -/
def read {N : Type} (m : RepositoryMetrics N) : MetricsCounter → ℕ
  | created status => m.created status
  | attempts => m.attempts
  | completed => m.completed
  | completedByDelivery delivery => m.completedByDelivery delivery
  | excluded => m.acceptance.excluded
  | blocked => m.blocked
  | cancelled => m.cancelled

end MetricsCounter

/-- What is counted of the pull requests. -/
inductive PullRequestCounter where
  | accepted
  | numerator
  | denominator
  | opened
  | unavailable
  | timed
  deriving DecidableEq, Repr

/-- What is reported to have been counted of the pull requests. -/
def PullRequestCounter.read {N : Type} (m : RepositoryMetrics N) : PullRequestCounter → ℕ
  | accepted => m.accepted
  | numerator => m.acceptance.numerator
  | denominator => m.acceptance.denominator
  | opened => m.acceptance.opened
  | unavailable => m.acceptance.unavailable
  | timed => m.timeToMergeHours.count

section Totals

variable {N : Type} [LinearOrder N] {num : MetricsNumbers N} {env : Env}
  {created created' : List QueueMetricsCreatedRow} {events events' : List QueueMetricsEventRow}
  {window : QueueMetricsWindow}

theorem MetricsCounter.read_finalize (c : MetricsCounter) (acc : MetricsAccumulator) :
    c.read (finalize num acc) = c.ofAccumulator acc := by
  cases c <;> rfl

/-- A counter has counted the rows that it counts. -/
theorem MetricsCounter.ofAccumulator_tally (c : MetricsCounter) :
    ∃ (u : QueueMetricsCreatedRow → ℕ) (v : QueueMetricsEventRow → ℕ), ∀ created events,
      c.ofAccumulator (tally env created events) = (created.map u).sum + (events.map v).sum := by
  have hevents : ∀ p : QueueMetricsEventRow → Bool, ∃ (u : QueueMetricsCreatedRow → ℕ)
      (v : QueueMetricsEventRow → ℕ), ∀ (created : List QueueMetricsCreatedRow) events,
      List.countP p events = (created.map u).sum + (events.map v).sum := by
    intro p
    refine ⟨fun _ => 0, fun event => if p event = true then 1 else 0, fun created events => ?_⟩
    rw [Keyed.countP_eq_sum]
    simp
  cases c
  case created status =>
    refine ⟨fun row => if row.status = status then row.count else 0, fun _ => 0,
      fun created events => ?_⟩
    show ((created.filter _).map _).sum = _
    induction created with
    | nil => simp
    | cons row created ih =>
      rw [List.map_cons, List.sum_cons]
      by_cases h : row.status = status
      · rw [List.filter_cons_of_pos (by simp [h]), List.map_cons, List.sum_cons, ih, if_pos h]
        omega
      · rw [List.filter_cons_of_neg (by simp [h]), ih, if_neg h]
        omega
  all_goals exact hevents _

/-- The repositories of the rows. -/
theorem rows_parts : created.Perm (((accumulators env created events).map Prod.fst).flatMap
      fun r => createdIn r created) ∧
    events.Perm (((accumulators env created events).map Prod.fst).flatMap
      fun r => eventsIn r events) :=
  ⟨Keyed.perm_flatMap_filter nodup_accumulators fun _ hrow =>
      mem_keys_accumulators.mpr (Or.inl (List.mem_map_of_mem hrow)),
    Keyed.perm_flatMap_filter nodup_accumulators fun _ hevent =>
      mem_keys_accumulators.mpr (Or.inr (List.mem_map_of_mem hevent))⟩

/-- What is summed over the repositories of a reading. -/
theorem sum_repositories (c : RepositoryMetrics N → ℕ) :
    (((computeQueueMetrics num env window).repositories).map fun entry => c entry.2).sum =
      (((accumulators env window.created window.events).map Prod.fst).map fun r =>
        c (finalize num (tally env (createdIn r window.created)
          (eventsIn r window.events)))).sum := by
  rw [repositories_eq, ((List.mergeSort_perm _ _).map _).sum_eq, List.map_map]
  rfl

/-- The counters of all the rows are the sums of those of the repositories. -/
theorem counters_add_up (c : MetricsCounter) :
    c.read (computeQueueMetrics num env window).all =
      ((computeQueueMetrics num env window).repositories.map fun entry => c.read entry.2).sum := by
  obtain ⟨u, v, hc⟩ := @MetricsCounter.ofAccumulator_tally env c
  obtain ⟨hcreated, hevents⟩ := @rows_parts env window.created window.events
  rw [sum_repositories fun m => c.read m]
  show c.read (finalize num (accumulate env _ _)) = _
  simp only [accumulate_eq_tally, MetricsCounter.read_finalize, hc]
  rw [Keyed.sum_parts hcreated, Keyed.sum_parts hevents, List.sum_map_add]

/-- The identities of the pull requests that some events report. -/
def identities (env : Env) (events : List QueueMetricsEventRow) : List String :=
  (events.flatMap (samplesOf env)).map Prod.fst

/-- **No pull request is reported in two repositories.** -/
def Confined (env : Env) (events : List QueueMetricsEventRow) : Prop :=
  ∀ r r' : String, ∀ identity ∈ identities env (eventsIn r events),
    identity ∈ identities env (eventsIn r' events) → r = r'

/-- A counter of the pull requests has counted those that it counts. -/
theorem PullRequestCounter.read_finalize (c : PullRequestCounter) :
    ∃ w : String × PullRequestSample → ℕ, ∀ acc : MetricsAccumulator,
      c.read (finalize num acc) = (acc.pullRequests.map w).sum := by
  have hcount : ∀ p : String × PullRequestSample → Bool, ∃ w : String × PullRequestSample → ℕ,
      ∀ acc : MetricsAccumulator, acc.pullRequests.countP p = (acc.pullRequests.map w).sum :=
    fun p => ⟨fun entry => if p entry = true then 1 else 0, fun acc => Keyed.countP_eq_sum⟩
  cases c
  case denominator =>
    obtain ⟨w, hw⟩ := hcount fun entry => entry.2.state = .merged
    obtain ⟨w', hw'⟩ := hcount fun entry => entry.2.state = .closed
    refine ⟨fun entry => w entry + w' entry, fun acc => ?_⟩
    rw [List.sum_map_add, ← hw, ← hw']
    rfl
  case timed =>
    obtain ⟨w, hw⟩ := hcount fun entry =>
      (if entry.2.state = .merged then
        entry.2.mergedAt.bind fun mergedAt => num.hours entry.2.completedAt mergedAt
      else none).isSome
    refine ⟨w, fun acc => ?_⟩
    show ((mergeHours num acc.pullRequests).mergeSort _).length = _
    rw [List.length_mergeSort, mergeHours, List.length_filterMap_eq_countP, hw]
  all_goals exact hcount _

/-- The pull requests of all the rows are those of the repositories. -/
theorem pullRequests_parts (hconfined : Confined env events) :
    (tally env created events).pullRequests.Perm
      (((accumulators env created events).map Prod.fst).flatMap fun r =>
        (tally env (createdIn r created) (eventsIn r events)).pullRequests) := by
  have hreported : ∀ identity, identity ∈ identities env events → ∃ event ∈ events,
      identity ∈ (samplesOf env event).map Prod.fst := by
    intro identity h
    obtain ⟨entry, hentry, rfl⟩ := List.mem_map.mp h
    obtain ⟨event, hevent, hentry⟩ := List.mem_flatMap.mp hentry
    exact ⟨event, hevent, List.mem_map_of_mem hentry⟩
  have hown : ∀ event ∈ events, ∀ identity ∈ (samplesOf env event).map Prod.fst,
      identity ∈ identities env (eventsIn event.repository events) := by
    intro event hevent identity h
    obtain ⟨entry, hentry, rfl⟩ := List.mem_map.mp h
    exact List.mem_map_of_mem (List.mem_flatMap.mpr
      ⟨event, List.mem_filter.mpr ⟨hevent, decide_eq_true rfl⟩, hentry⟩)
  refine Keyed.fill_parts nodup_accumulators (fun r _ r' _ => hconfined r r') ?_ ?_
  · intro identity h
    obtain ⟨event, hevent, h⟩ := hreported identity h
    exact ⟨event.repository, mem_keys_accumulators.mpr (Or.inr (List.mem_map_of_mem hevent)),
      hown event hevent identity h⟩
  · intro r _ identity h
    rw [List.filter_flatMap, List.filter_flatMap]
    refine (Keyed.flatMap_filter_of_nil fun event hevent hr => ?_).symm
    refine List.filter_eq_nil_iff.mpr fun entry hentry hidentity => ?_
    rw [decide_eq_true_eq] at hidentity
    subst hidentity
    exact of_decide_eq_false hr
      (hconfined _ r _ (hown event hevent _ (List.mem_map_of_mem hentry)) h)

/-- Every pull request that is reported has one state. -/
theorem states_add_up :
    (finalize num (tally env created events)).acceptance.denominator +
        (finalize num (tally env created events)).acceptance.opened +
        (finalize num (tally env created events)).acceptance.unavailable =
      (identities env events).dedup.length := by
  have hlength : ∀ t : List (String × PullRequestSample),
      countState t .merged + countState t .closed + countState t .opened +
        countState t .unverified = t.length := by
    intro t
    unfold countState
    induction t with
    | nil => rfl
    | cons entry t ih =>
      simp only [List.countP_cons, List.length_cons, ← ih]
      cases entry.2.state <;> simp <;> omega
  refine (hlength _).trans ?_
  rw [← List.length_map Prod.fst]
  refine ((List.perm_ext_iff_of_nodup Keyed.nodup_fill (List.nodup_dedup _)).mpr
    fun identity => ?_).length_eq
  rw [Keyed.mem_keys_fill, List.mem_dedup, identities]

/-- **The totals are totals.** Every event and every created item is counted in one
repository, and for all of them. Every pull request that was reported is counted once for all
of them, as terminal, open or unavailable; and where no pull request is reported in two
repositories, the numbers for all of them are the sums of those of the repositories. -/
theorem computeQueueMetrics_totals (num : MetricsNumbers N) (env : Env)
    (window : QueueMetricsWindow) :
    (∀ c : MetricsCounter, c.read (computeQueueMetrics num env window).all =
      ((computeQueueMetrics num env window).repositories.map fun entry => c.read entry.2).sum) ∧
    (computeQueueMetrics num env window).all.acceptance.denominator +
        (computeQueueMetrics num env window).all.acceptance.opened +
        (computeQueueMetrics num env window).all.acceptance.unavailable =
      (identities env window.events).dedup.length ∧
    (Confined env window.events → ∀ c : PullRequestCounter,
      c.read (computeQueueMetrics num env window).all =
        ((computeQueueMetrics num env window).repositories.map fun entry =>
          c.read entry.2).sum) := by
  have hall : (computeQueueMetrics num env window).all =
      finalize num (tally env window.created window.events) :=
    congrArg (finalize num) accumulate_eq_tally
  refine ⟨counters_add_up, ?_, fun hconfined c => ?_⟩
  · rw [hall]
    exact states_add_up
  · obtain ⟨w, hw⟩ := @PullRequestCounter.read_finalize N _ num c
    rw [sum_repositories fun m => c.read m, hall]
    simp only [hw]
    exact Keyed.sum_parts (pullRequests_parts hconfined)

end Totals

end Metrics

end Snowcat
