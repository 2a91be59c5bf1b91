import Mathlib
import Snowcat.Queue.Metrics
import Snowcat.Queue.Reads
import Snowcat.Queue.Replay

/-!
# What the metrics of a run say

`metricsWindow` reads a window of the ledger, and the metrics are computed from
it. They are read as if they counted items and attempts: so many were completed,
so many times work was taken. What they count is events. An item has one event
of its completion and no more, in whatever way it came there, so the completions
of a window are items; and a claim is ended by one event or is not ended, so the
attempts of a ledger are the ends that it has and the items that are claimed now.
Both are read off the life of an item (`ItemView.next`) and hold in every state
that a run reaches.
-/

namespace Snowcat

namespace Metrics

/-! ## The window of a ledger -/

/-- What the platform makes of the text of a time. -/
structure DateText where
  /-- `new Date(value).getTime()`, `none` for what is not a number. -/
  parse : String → Option Time
  /-- `toISOString`. -/
  iso : Time → String

/-- `METRICS_EVENT_TYPES`. -/
def metricsEventTypes : List EventType := [.workClaimed, .workCompleted, .workBlocked, .workCancelled]

/-- `MAX_METRICS_WINDOW_EVENTS`. -/
def maxMetricsWindowEvents : ℕ := 100000

/-- `DEFAULT_METRICS_WINDOW_HOURS`, in milliseconds. -/
def defaultMetricsWindow : Time := 24 * 60 * 60 * 1000

/-- What is read: a half-open span of time, of one repository or of all. -/
structure Span where
  since : Time
  «until» : Time
  repository : Option String
  deriving DecidableEq, Repr

namespace Span

/-- Whether a time is in the span. -/
def covers (span : Span) (t : Time) : Bool := decide (span.since ≤ t ∧ t < span.«until»)

/-- Whether an item is of a repository that is read. -/
def reads (span : Span) (item : WorkItem) : Bool :=
  span.repository.all fun repository => item.repository = repository

end Span

section Window

variable (p : DateText)

/-- `normalizeTimestamp`. -/
def normalizeTimestamp (value name : String) : Except QueueError Time :=
  match p.parse value with
  | none => .error (.error (name ++
      s!" must be an ISO timestamp (for example 2026-08-19T00:00:00Z), got {value}"))
  | some t => .ok t

/-- `parseMetricsTimestamp`. -/
def parseMetricsTimestamp : String → String → Except QueueError Time := normalizeTimestamp p

/-- What both readers say of a span that is empty. -/
def refuseEmpty (since last : Time) : Except QueueError Unit :=
  refuseIf (last ≤ since)
    (.error s!"since must be before until (got {p.iso since} and {p.iso last})")

/-- **`resolveMetricsWindow`.** -/
def resolveMetricsWindow (since? until? : Option String) (now : Time) :
    Except QueueError (Time × Time) := do
  let «until» ← match until? with
    | none => pure now
    | some value => parseMetricsTimestamp p value "until"
  let since ← match since? with
    | none => pure («until» - defaultMetricsWindow)
    | some value => parseMetricsTimestamp p value "since"
  refuseEmpty p since «until»
  pure (since, «until»)

/-- The items created in a span. -/
def createdItems (db : Db) (span : Span) : List WorkItem :=
  db.items.rows.filter fun item => span.covers item.createdAt && span.reads item

/-- How they are grouped. -/
def createdGroups (db : Db) (span : Span) : List (String × WorkStatus) :=
  (((createdItems db span).map fun item => (item.repository, item.status)).dedup).mergeSort
    fun a b => if a.1 = b.1 then jsLe a.2.text b.2.text else jsLe a.1 b.1

/-- The groups, with how many items are in each. -/
def createdRows (db : Db) (span : Span) : List QueueMetricsCreatedRow :=
  (createdGroups db span).map fun group =>
    ⟨group.1, group.2, (createdItems db span).countP fun item =>
      (item.repository, item.status) = group⟩

/-- The row of an event in a span, with what its item is now. -/
def eventRow (db : Db) (span : Span) (e : WorkEvent) : Option QueueMetricsEventRow :=
  if e.type ∈ metricsEventTypes ∧ span.covers e.occurredAt = true then
    (db.items.find? e.workItemId).bind fun item =>
      if span.reads item = true then
        some ⟨e.type, item.repository, e.workItemId, p.iso e.occurredAt, item.result⟩
      else none
  else none

/-- The events of a span. -/
def eventRows (db : Db) (span : Span) : List QueueMetricsEventRow :=
  db.ledger.events.filterMap (eventRow p db span)

/-- **`metricsWindow`.** -/
def metricsWindow (db : Db) (since «until» : String) (repository : Option String) :
    Except QueueError QueueMetricsWindow := do
  let since ← normalizeTimestamp p since "since"
  let «until» ← normalizeTimestamp p «until» "until"
  refuseEmpty p since «until»
  repository.forM validateRepository
  let span : Span := ⟨since, «until», repository⟩
  let rows := (eventRows p db span).take (maxMetricsWindowEvents + 1)
  refuseIf (maxMetricsWindowEvents < rows.length) (.error
    ("the metrics window carries more than 100000 events; " ++
      "narrow it with --since and --until"))
  pure ⟨p.iso since, p.iso «until», repository, createdRows db span, rows⟩

/-- **`queueMetrics`.** -/
def queueMetrics {N : Type} [LinearOrder N] (num : MetricsNumbers N) (env : Env) (db : Db)
    (since? until? repository : Option String) (now : Time) :
    Except QueueError (QueueMetrics N) := do
  let (since, «until») ← resolveMetricsWindow p since? until? now
  let window ← metricsWindow p db (p.iso since) (p.iso «until») repository
  pure (computeQueueMetrics num env window)

end Window

/-! ## Events and items -/

section Rows

variable {p : DateText} {db : Db} {span : Span}

/-- Whether something is counted: it is in the span, and of a type and with a result that are. -/
def counted (span : Span) (q : EventType → Option WorkResult → Bool) (item : WorkItem)
    (posting : Posting) : Bool :=
  span.reads item && decide (posting.payload.type ∈ metricsEventTypes) &&
    span.covers posting.occurredAt && q posting.payload.type item.result

/-- The events of a ledger, item by item. -/
theorem events_perm (hrecorded : Recorded db) : db.ledger.events.Perm
    ((db.items.rows.map WorkItem.id).flatMap fun id => db.ledger.of id) :=
  Keyed.perm_flatMap_filter db.items.nodup fun e he => by
    obtain ⟨item, hitem⟩ := Option.ne_none_iff_exists'.mp (hrecorded e he)
    exact Table.key_of_find? hitem ▸ List.mem_map_of_mem (Table.mem_of_find? hitem)

/-- **What is counted of the rows of a span is counted of the histories of the items.** -/
theorem countP_eventRows (hrecorded : Recorded db) (q : EventType → Option WorkResult → Bool) :
    (eventRows p db span).countP (fun row => q row.type row.result) =
      (db.items.rows.map fun item =>
        (db.ledger.history item.id).countP (counted span q item)).sum := by
  rw [eventRows, List.countP_filterMap, (events_perm hrecorded).countP_eq, List.countP_flatMap,
    List.map_map]
  refine congrArg List.sum (List.map_congr_left fun item hitem => ?_)
  show (db.ledger.of item.id).countP _ = _
  rw [Ledger.history, List.countP_map]
  refine List.countP_congr fun e he => ?_
  have hfind : db.items.find? e.workItemId = some item :=
    (Ledger.mem_of.mp he).2 ▸ Table.find?_key hitem
  have htype : e.posting.payload.type = e.type := rfl
  have hat : e.posting.occurredAt = e.occurredAt := rfl
  unfold eventRow
  rw [hfind, Option.bind_some]
  simp only [Function.comp_apply, counted, htype, hat]
  by_cases hreads : span.reads item = true
  · by_cases hspan : e.type ∈ metricsEventTypes ∧ span.covers e.occurredAt = true
    · rw [if_pos hreads, if_pos hspan]
      simp [hreads, hspan.1, hspan.2]
    · rw [if_neg hspan]
      have hnot : ¬ (decide (e.type ∈ metricsEventTypes) && span.covers e.occurredAt) = true := by
        simpa using hspan
      simp only [hreads, Bool.true_and, Bool.eq_false_iff.mpr hnot]
      simp
  · rw [if_neg hreads]
    simp [hreads]

/-- What is created in a span is counted with the status that it has. -/
theorem sum_createdRows (status : WorkStatus) :
    (((createdRows db span).filter fun row => row.status = status).map fun row => row.count).sum =
      (createdItems db span).countP fun item => item.status = status := by
  unfold createdRows
  rw [List.filter_map, List.map_map]
  show ((List.filter (fun group => group.2 = status) (createdGroups db span)).map fun group =>
    (createdItems db span).countP fun item => (item.repository, item.status) = group).sum = _
  have hperm : (createdGroups db span).Perm
      ((createdItems db span).map fun item => (item.repository, item.status)).dedup :=
    List.mergeSort_perm _ _
  have hparts : ((createdItems db span).filter fun item => item.status = status).Perm
      (((createdGroups db span).filter fun group => group.2 = status).flatMap fun group =>
        ((createdItems db span).filter fun item => item.status = status).filter fun item =>
          (item.repository, item.status) = group) := by
    refine Keyed.perm_flatMap_filter ((hperm.nodup_iff.mpr (List.nodup_dedup _)).filter _)
      fun item hitem => ?_
    obtain ⟨hitem, hstatus⟩ := List.mem_filter.mp hitem
    exact List.mem_filter.mpr
      ⟨hperm.mem_iff.mpr (List.mem_dedup.mpr (List.mem_map_of_mem hitem)), hstatus⟩
  rw [List.countP_eq_length_filter, hparts.length_eq, List.length_flatMap]
  refine congrArg List.sum (List.map_congr_left fun group hgroup => ?_)
  have hstatus : group.2 = status := of_decide_eq_true (List.mem_filter.mp hgroup).2
  rw [List.countP_eq_length_filter, List.filter_filter]
  refine congrArg List.length (List.filter_congr fun item _ => ?_)
  by_cases h : (item.repository, item.status) = group
  · have hitem : item.status = status := hstatus ▸ congrArg Prod.snd h
    simp [hitem]
  · simp [h]

end Rows

/-! ## The balance of a life -/

/-- Whether an event ends the life of an item that is not to be worked on. -/
def isCancellation (type : EventType) : Bool := type = .workCancelled || type = .workRejected

/-- **What events did to an item**: it was claimed as often as a claim ended, but for the claim it
had before and the one it has now; and it was completed, or cancelled, if it now is and was not
before. -/
structure Balance (v w : ItemView) (ps : List Posting) : Prop where
  attempts : ps.countP (fun p => p.payload.type = .workClaimed) +
      (decide (v.status = .claimed)).toNat =
    ps.countP (fun p => p.payload.type.attemptOutcome.isSome) + (decide (w.status = .claimed)).toNat
  completed : ps.countP (fun p => p.payload.type = .workCompleted) +
    (decide (v.status = .completed)).toNat = (decide (w.status = .completed)).toNat
  cancelled : ps.countP (fun p => isCancellation p.payload.type) +
    (decide (v.status = .cancelled)).toNat = (decide (w.status = .cancelled)).toNat

theorem when_eq_some {c : Prop} [Decidable c] {u w : ItemView} (h : ItemView.when c u = some w) :
    c ∧ u = w := by
  unfold ItemView.when at h
  by_cases hc : c
  · rw [if_pos hc] at h
    exact ⟨hc, Option.some.inj h⟩
  · rw [if_neg hc] at h
    cases h

/-- An event that leaves the status as it is, and says nothing of a claim or of an end. -/
theorem Balance.unchanged {v w : ItemView} {p : Posting} (hstatus : w.status = v.status)
    (hclaimed : p.payload.type ≠ .workClaimed)
    (hends : p.payload.type.attemptOutcome.isSome = false)
    (hcompleted : p.payload.type ≠ .workCompleted)
    (hcancelled : isCancellation p.payload.type = false) : Balance v w [p] := by
  constructor
  · simp [hstatus, hclaimed, hends]
  · simp [hstatus, hcompleted]
  · simp [hstatus, hcancelled]

/-- One event. -/
theorem Balance.next {v w : ItemView} {p : Posting} (h : v.next p = some w) : Balance v w [p] := by
  unfold ItemView.next at h
  cases hp : p.payload <;> rw [hp] at h
  case workQueued | rootProposed | childProposed => cases h
  case workNoted | workPrioritized =>
    obtain rfl := Option.some.inj h
    exact .unchanged rfl (by simp [hp, EventPayload.type]) (by rw [hp]; rfl)
      (by simp [hp, EventPayload.type]) (by rw [hp]; rfl)
  case workClaimed | workCompleted | workBlocked | workReleased | leaseReleased | leaseExpired =>
    obtain ⟨hc, rfl⟩ := when_eq_some h
    constructor <;>
      simp [hp, hc, EventPayload.type, EventType.attemptOutcome, isCancellation, ItemView.free,
        ItemView.noted]
  case workRejected | workCancelled =>
    obtain ⟨hc, rfl⟩ := when_eq_some h
    have hstatus : v.status = .queued ∨ v.status = .blocked := by
      first
        | exact Or.inl hc.1
        | exact hc.imp_left And.left
    constructor <;> rcases hstatus with hstatus | hstatus <;>
      simp [hp, hstatus, EventPayload.type, EventType.attemptOutcome, isCancellation, ItemView.free]
  case workRequeued =>
    obtain ⟨hc, rfl⟩ := when_eq_some h
    constructor <;>
      simp [hp, hc, EventPayload.type, EventType.attemptOutcome, isCancellation, ItemView.free,
        ItemView.noted]
  all_goals
    obtain ⟨hc, rfl⟩ := when_eq_some h
    exact .unchanged rfl (by simp [hp, EventPayload.type]) (by rw [hp]; rfl)
      (by simp [hp, EventPayload.type]) (by rw [hp]; rfl)

theorem Balance.append {u v w : ItemView} {ps qs : List Posting} (h : Balance u v ps)
    (h' : Balance v w qs) : Balance u w (ps ++ qs) := by
  constructor
  · have := h.attempts
    have := h'.attempts
    rw [List.countP_append, List.countP_append]
    omega
  · have := h.completed
    have := h'.completed
    rw [List.countP_append]
    omega
  · have := h.cancelled
    have := h'.cancelled
    rw [List.countP_append]
    omega

/-- **The balance of a run of events.** -/
theorem Balance.run {v w : ItemView} {ps : List Posting}
    (h : ps.foldlM ItemView.next v = some w) : Balance v w ps := by
  induction ps generalizing v with
  | nil =>
    obtain rfl := Option.some.inj h
    constructor <;> simp
  | cons p ps ih =>
    obtain ⟨u, hnext, hrest⟩ := Option.bind_eq_some_iff.mp h
    exact (Balance.next hnext).append (ih hrest)

/-- What the history of an item that replays says of it. -/
structure Settled (item : WorkItem) (hist : List Posting) : Prop where
  attempts : hist.countP (fun p => p.payload.type = .workClaimed) =
    hist.countP (fun p => p.payload.type.attemptOutcome.isSome) +
      (decide (item.rowStatus = .claimed)).toNat
  completed : hist.countP (fun p => p.payload.type = .workCompleted) =
    (decide (item.rowStatus = .completed)).toNat
  cancelled : hist.countP (fun p => isCancellation p.payload.type) =
    (decide (item.rowStatus = .cancelled)).toNat

theorem settled_of_replay {item : WorkItem} {hist : List Posting}
    (h : ItemView.replay hist = some (.ofRow item)) : Settled item hist := by
  cases hist with
  | nil => cases h
  | cons p ps =>
    obtain ⟨v, hfirst, hrest⟩ := Option.bind_eq_some_iff.mp h
    have hv : v.status = .queued ∧
        (p.payload.type = .workQueued ∨ p.payload.type = .workProposed) := by
      unfold ItemView.first at hfirst
      cases htype : p.payload.type <;> rw [htype] at hfirst <;> cases hfirst <;> simp
    have hbalance := Balance.run hrest
    have hattempts := hbalance.attempts
    have hcompleted := hbalance.completed
    have hcancelled := hbalance.cancelled
    obtain ⟨hqueued, htype⟩ := hv
    constructor <;> rcases htype with htype | htype <;> rw [List.countP_cons] <;>
      simp [htype, hqueued, EventType.attemptOutcome, isCancellation, ItemView.ofRow]
        at * <;> assumption

/-- **The history of every item is settled**, in every state that a run reaches. -/
theorem settled_run (env : Env) (ops : List Op) : EveryRow Settled (exec env ops).db :=
  fun item hitem => settled_of_replay (every_row_replays env ops item hitem).2

/-! ## Readings -/

section Readings

variable {p : DateText} {db : Db} {span : Span} {since «until» : String}
  {window : QueueMetricsWindow}

/-- **What a window holds**, when it is answered. -/
theorem metricsWindow_eq_ok (hsince : p.parse since = some span.since)
    (huntil : p.parse «until» = some span.«until») :
    metricsWindow p db since «until» span.repository = .ok window ↔
      span.since < span.«until» ∧ span.repository.forM validateRepository = .ok () ∧
        (eventRows p db span).length ≤ maxMetricsWindowEvents ∧
        window = ⟨p.iso span.since, p.iso span.«until», span.repository, createdRows db span,
          eventRows p db span⟩ := by
  have hlimit : ∀ rows : List QueueMetricsEventRow,
      ¬ maxMetricsWindowEvents < (rows.take (maxMetricsWindowEvents + 1)).length ↔
        rows.length ≤ maxMetricsWindowEvents := by
    intro rows
    rw [List.length_take]
    omega
  unfold metricsWindow normalizeTimestamp refuseEmpty
  rw [hsince, huntil]
  simp only [except_bind_eq_ok, refuseIf_eq_ok, except_pure_eq_ok, Except.ok.injEq,
    exists_eq_left', not_le, hlimit]
  constructor
  · rintro ⟨_, hlt, _, hrepository, _, hlength, rfl⟩
    exact ⟨hlt, hrepository, hlength, by rw [List.take_of_length_le (Nat.le_succ_of_le hlength)]⟩
  · rintro ⟨hlt, hrepository, hlength, rfl⟩
    refine ⟨(), hlt, (), hrepository, (), hlength, ?_⟩
    rw [List.take_of_length_le (Nat.le_succ_of_le hlength)]

/-- What is counted over the whole of a window is what is counted of its rows. -/
theorem read_all {N : Type} [LinearOrder N] {num : MetricsNumbers N} {env : Env}
    (c : MetricsCounter) : c.read (computeQueueMetrics num env window).all =
      c.ofAccumulator (tally env window.created window.events) := by
  show c.read (finalize num (accumulate env _ _)) = _
  rw [accumulate_eq_tally, MetricsCounter.read_finalize]

/-- Whether the completion of an item is in a span that is read. -/
def completedIn (db : Db) (span : Span) (item : WorkItem) : Bool :=
  span.reads item && (db.ledger.history item.id).any fun posting =>
    posting.payload.type = .workCompleted && span.covers posting.occurredAt

/-- What occurs at most once occurs as often as it occurs. -/
theorem countP_once {α : Type} {l : List α} {P Q : α → Bool} (hle : l.countP P ≤ 1)
    (hsub : ∀ a ∈ l, Q a = true → P a = true) : l.countP Q = (l.any Q).toNat := by
  have hcount := (List.countP_mono_left hsub).trans hle
  cases hany : l.any Q
  · refine List.countP_eq_zero.mpr fun a ha hq => ?_
    rw [List.any_eq_true.mpr ⟨a, ha, hq⟩] at hany
    cases hany
  · obtain ⟨a, ha, hq⟩ := List.any_eq_true.mp hany
    exact le_antisymm hcount (List.countP_pos_iff.mpr ⟨a, ha, hq⟩)

/-- The completions of a span that meet a condition are the items that do. -/
theorem countP_completions (hrecorded : Recorded db) (hsettled : EveryRow Settled db)
    (c : Option WorkResult → Bool) :
    (eventRows p db span).countP (fun row => row.type = .workCompleted && c row.result) =
      db.items.rows.countP fun item => completedIn db span item && c item.result := by
  rw [countP_eventRows hrecorded (fun type result => type = .workCompleted && c result),
    Keyed.countP_eq_sum]
  refine congrArg List.sum (List.map_congr_left fun item hitem => ?_)
  have hle : (db.ledger.history item.id).countP (fun posting =>
      posting.payload.type = .workCompleted) ≤ 1 := by
    rw [(hsettled item hitem).completed]
    exact Bool.toNat_le _
  have hcounted : counted span (fun type result => type = .workCompleted && c result) item =
      fun posting => (span.reads item && c item.result) &&
        (posting.payload.type = .workCompleted && span.covers posting.occurredAt) := by
    funext posting
    unfold counted
    by_cases htype : posting.payload.type = .workCompleted
    · rw [htype]
      cases span.reads item <;> cases hc : c item.result <;> simp [metricsEventTypes, hc]
    · simp [htype]
  have hone : ∀ posting ∈ db.ledger.history item.id,
      counted span (fun type result => type = .workCompleted && c result) item posting = true →
        decide (posting.payload.type = .workCompleted) = true := by
    intro posting _ h
    rw [hcounted] at h
    simp only [Bool.and_eq_true] at h
    exact h.2.1
  rw [countP_once hle hone, hcounted, ← List.and_any_distrib_left]
  unfold completedIn
  cases span.reads item <;> cases c item.result <;> simp [Bool.toNat, Bool.cond_eq_ite]

/-- The rows of a type, when every event is in the span. -/
theorem countP_covered (hrecorded : Recorded db)
    (hcovers : ∀ e ∈ db.ledger.events, span.covers e.occurredAt = true) {type : EventType}
    (htype : type ∈ metricsEventTypes) :
    (eventRows p db span).countP (fun row => row.type = type) =
      ((db.items.rows.filter span.reads).map fun item =>
        (db.ledger.history item.id).countP fun posting => posting.payload.type = type).sum := by
  rw [countP_eventRows hrecorded fun t _ => t = type]
  have hitem : ∀ item, (db.ledger.history item.id).countP (counted span (fun t _ => t = type) item) =
      if span.reads item = true then
        (db.ledger.history item.id).countP fun posting => posting.payload.type = type
      else 0 := by
    intro item
    by_cases hreads : span.reads item = true
    · rw [if_pos hreads]
      refine List.countP_congr fun posting hposting => ?_
      obtain ⟨e, he, rfl⟩ := List.mem_map.mp hposting
      have hat : span.covers e.posting.occurredAt = true := hcovers e (Ledger.mem_of.mp he).1
      unfold counted
      rw [hreads, hat]
      by_cases h : e.posting.payload.type = type <;> simp [h, htype]
    · rw [if_neg hreads]
      refine List.countP_eq_zero.mpr fun posting _ h => ?_
      unfold counted at h
      simp only [Bool.and_eq_true] at h
      exact hreads h.1.1.1
  simp only [hitem]
  exact Keyed.sum_filter.symm

end Readings

/-! ## The results -/

section Results

variable {N : Type} [LinearOrder N]

/-- Every event is about an item, in every state that a run reaches. -/
theorem recorded_run (env : Env) (ops : List Op) : Recorded (exec env ops).db :=
  exec_invariant recorded_empty (fun h hm => h.move hm) ops

/-- Texts of times. -/
def sampleDates : DateText :=
  ⟨fun value => if value = "never" then none else some (value.length * 1000), fun _ => "then"⟩

/-- A span that holds all of the small run. -/
def sampleSpan : Span := ⟨0, 20000, none⟩

/-- The window of the small run. -/
def sampleSpanWindow : QueueMetricsWindow :=
  ⟨"then", "then", none, createdRows (exec Env.sample sampleRun).db sampleSpan,
    eventRows sampleDates (exec Env.sample sampleRun).db sampleSpan⟩

theorem sampleSpanWindow_eq : metricsWindow sampleDates (exec Env.sample sampleRun).db ""
    "aaaaaaaaaaaaaaaaaaaa" sampleSpan.repository = .ok sampleSpanWindow :=
  (@metricsWindow_eq_ok sampleDates (exec Env.sample sampleRun).db sampleSpan _ _ _
    (by decide) (by decide)).mpr ⟨by decide, rfl, by decide +kernel, rfl⟩

/-- **Every claim is accounted for.** When a window holds the whole ledger, the attempts it has
are the ends that the ledger has of them – completed, blocked, given back, expired – and the
items that are claimed now; its completions are the items that are completed, and its
cancellations those that are cancelled, but for the proposals that were rejected. -/
theorem metricsWindow_balance (num : MetricsNumbers N) (p : DateText) (env : Env) (ops : List Op)
    (span : Span) (since «until» : String) (window : QueueMetricsWindow)
    (hsince : p.parse since = some span.since) (huntil : p.parse «until» = some span.«until»)
    (hwindow : metricsWindow p (exec env ops).db since «until» span.repository = .ok window)
    (hcovers : ∀ e ∈ (exec env ops).db.ledger.events, span.covers e.occurredAt = true) :
    (computeQueueMetrics num env window).all.attempts =
      (((exec env ops).db.items.rows.filter span.reads).map fun item =>
        ((exec env ops).db.ledger.history item.id).countP fun posting =>
          posting.payload.type.attemptOutcome.isSome).sum +
      (exec env ops).db.items.rows.countP (fun item =>
        span.reads item && decide (item.rowStatus = .claimed)) ∧
    (computeQueueMetrics num env window).all.completed =
      (exec env ops).db.items.rows.countP (fun item =>
        span.reads item && decide (item.rowStatus = .completed)) ∧
    (computeQueueMetrics num env window).all.cancelled +
      (((exec env ops).db.items.rows.filter span.reads).map fun item =>
        ((exec env ops).db.ledger.history item.id).countP fun posting =>
          posting.payload.type = .workRejected).sum =
      (exec env ops).db.items.rows.countP fun item =>
        span.reads item && decide (item.rowStatus = .cancelled) := by
  have hrecorded := recorded_run env ops
  have hsettled := settled_run env ops
  have hcount : ∀ type ∈ metricsEventTypes, window.events.countP (fun row => row.type = type) =
      (((exec env ops).db.items.rows.filter span.reads).map fun item =>
        ((exec env ops).db.ledger.history item.id).countP fun posting =>
          posting.payload.type = type).sum := by
    obtain ⟨-, -, -, rfl⟩ := (metricsWindow_eq_ok hsince huntil).mp hwindow
    exact fun type htype => countP_covered hrecorded hcovers htype
  have hnow : ∀ status : RowStatus, (exec env ops).db.items.rows.countP (fun item =>
        span.reads item && decide (item.rowStatus = status)) =
      (((exec env ops).db.items.rows.filter span.reads).map fun item =>
        (decide (item.rowStatus = status)).toNat).sum := by
    intro status
    rw [Keyed.countP_eq_sum, Keyed.sum_filter]
    refine congrArg List.sum (List.map_congr_left fun item _ => ?_)
    cases span.reads item <;> cases decide (item.rowStatus = status) <;> rfl
  refine ⟨?_, ?_, ?_⟩
  · refine (read_all .attempts).trans ((hcount _ (by decide)).trans ?_)
    rw [hnow, ← List.sum_map_add]
    refine congrArg List.sum (List.map_congr_left fun item hitem => ?_)
    exact (hsettled item (List.mem_filter.mp hitem).1).attempts
  · refine (read_all .completed).trans ((hcount _ (by decide)).trans ?_)
    rw [hnow]
    refine congrArg List.sum (List.map_congr_left fun item hitem => ?_)
    exact (hsettled item (List.mem_filter.mp hitem).1).completed
  · rw [show (computeQueueMetrics num env window).all.cancelled = _ from
      (read_all .cancelled).trans (hcount .workCancelled (by decide)), hnow, ← List.sum_map_add]
    refine congrArg List.sum (List.map_congr_left fun item hitem => ?_)
    rw [← (hsettled item (List.mem_filter.mp hitem).1).cancelled]
    induction (exec env ops).db.ledger.history item.id with
    | nil => rfl
    | cons posting hist ih =>
      rw [List.countP_cons, List.countP_cons, List.countP_cons, ← ih]
      unfold isCancellation
      cases posting.payload.type <;> simp <;> omega

/-- The one attempt of the small run has not ended. -/
theorem metricsWindow_balance_sample :
    (computeQueueMetrics sampleNumbers Env.sample sampleSpanWindow).all.attempts = 0 + 1 :=
  (metricsWindow_balance sampleNumbers sampleDates Env.sample sampleRun sampleSpan ""
    "aaaaaaaaaaaaaaaaaaaa" sampleSpanWindow (by decide) (by decide) sampleSpanWindow_eq
    (by decide +kernel)).1.trans (by decide +kernel)

end Results

end Metrics

end Snowcat
