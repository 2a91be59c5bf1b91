import Snowcat.Queue.Choice
import Snowcat.Queue.Listing
import Snowcat.Surface.Predecessors

/-!
# Up next

The progress page rebuilds from what it lists which items a claim would offer
next: of each status it takes at most a hundred items, leaves out the review
and cure items that stand for others, the cancelled and the delivered of more
than a week ago, and of the queued ones that are left those with a predecessor
that is not met. What the opt-ins and the ledger say of them it does not ask.

Where the queued items fit into one listing, what it shows is the front of a
line: the items that wait for nothing (`isWaiting`), in the order of claims
(`upNext_eq`).
-/

namespace Snowcat

/-- `SATELLITE_KINDS`. -/
def satelliteKinds : List String := ["pr-review", "pr-review-fix", "pr-cure"]

/-- `discoveryKinds`. -/
def discoveryKinds : List String :=
  ["quality-gap-discovery", "ci-gap-discovery", "security-gap-discovery",
    "architecture-gap-discovery", "conformance-gap-discovery", "triage-discovery",
    "dependencies-gap-discovery", "docs-drift-discovery"]

/-- `LIST_LIMIT`. -/
def progressListLimit : ℤ := 100

/-- `UP_NEXT_LIMIT`. -/
def upNextLimit : ℕ := 20

/-- `TERMINAL_AGE_MS`. -/
def terminalAgeMs : ℤ := 7 * 24 * 60 * 60 * 1000

/-- `workStatuses`. -/
def workStatuses : List WorkStatus :=
  [.proposed, .queued, .claimed, .completed, .blocked, .cancelled]

/-- `ORDER BY updated_at DESC, created_at DESC, id DESC`. -/
def recentOrder (a b : WorkItem) : Bool :=
  if a.updatedAt ≠ b.updatedAt then b.updatedAt < a.updatedAt
  else if a.createdAt ≠ b.createdAt then b.createdAt < a.createdAt
  else binaryLe b.id a.id

section Read

variable (db : Db)

/-- `recentlyUpdatedItems`, of one status. -/
def recentlyUpdatedItems (status : WorkStatus) (limit : ℕ) : List WorkItem :=
  ((db.items.rows.filter (({ status := some status } : ListOptions).keeps db)).mergeSort
    recentOrder).take (max 1 limit)

/-- The items of one status. `RECENT_FIRST_STATUSES` are read newest first. -/
def itemsOf (status : WorkStatus) : List WorkItem :=
  if status = .completed ∨ status = .cancelled then recentlyUpdatedItems db status 100
  else listed db { status := some status, limit := some progressListLimit }

/-- `pullRequestArtifact`. -/
def pullRequestArtifact (item : WorkItem) : Option WorkArtifact :=
  ((item.result.map WorkResult.artifacts).getD []).find? fun artifact =>
    artifact.kind = .pullRequest

/-- `isDeliveredDiscovery`. -/
def isDeliveredDiscovery (item : WorkItem) : Bool :=
  item.status = .completed && discoveryKinds.contains item.kind &&
    (pullRequestArtifact item).isNone

/-- `isAgedOut`. -/
def isAgedOut (item : WorkItem) (atTime : Time) : Bool :=
  let terminal := item.status = .cancelled ||
    (item.status = .completed &&
      (item.delivery = some .merged || item.delivery = some .published)) ||
    isDeliveredDiscovery item
  terminal && terminalAgeMs < atTime - item.updatedAt

/-- `primaries`, with no repository filter. -/
def primaries (atTime : Time) : List WorkItem :=
  (workStatuses.flatMap (itemsOf db)).filter fun item =>
    !satelliteKinds.contains item.kind && item.status ≠ .cancelled && !isAgedOut item atTime

/-- `claimable`: the queued primaries without an unmet predecessor, read one
after the other through the cache of the pass. -/
def claimableItems : List WorkItem → PredecessorCache → List WorkItem
  | [], _ => []
  | item :: rest, cache =>
    if item.status = .queued then
      let predecessors := readPredecessors db item cache
      if predecessors.1.all (fun summary => summary.unmet.length = 0) = true then
        item :: claimableItems rest predecessors.2
      else claimableItems rest predecessors.2
    else claimableItems rest cache

/-- **The items of `upNext`**, as `readProgress` lists them with no repository
filter. -/
def upNext (atTime : Time) : List WorkItem :=
  ((claimableItems db (primaries db atTime) []).mergeSort claimOrder).take upNextLimit

end Read

/-! ## A line -/

variable {db : Db} {row : WorkItem} {atTime : Time}

/-- The predecessors of a row are all satisfied. -/
def predecessorsMet (db : Db) (row : WorkItem) : Bool :=
  (row.predecessors.getD []).all fun sourceRef => (evaluatePredecessor db sourceRef).satisfied

/-- **A row waits for nothing** but its turn: it is a queued primary, and its
predecessors are met. -/
def isWaiting (db : Db) (row : WorkItem) : Bool :=
  row.status = .queued && !satelliteKinds.contains row.kind && predecessorsMet db row

/-- What is read of a row's predecessors has nothing unmet in it exactly when
they are all met. -/
theorem unmet_readPredecessors (hrow : row ∈ db.items.rows) {cache : PredecessorCache}
    (hcache : Selection.Faithful (statusesById db) cache) :
    (readPredecessors db row cache).1.all (fun summary => summary.unmet.length = 0) =
      predecessorsMet db row := by
  rw [(readPredecessors_spec hrow hcache).1, predecessorsMet]
  split
  · next hnone =>
    rw [hnone]
    rfl
  · rw [Option.all_some, Bool.eq_iff_iff, decide_eq_true_eq, List.length_eq_zero_iff,
      List.all_eq_true]
    show (List.filter _ _) = [] ↔ _
    rw [List.filter_eq_nil_iff, List.forall_mem_map]
    refine forall₂_congr fun ref _ => ?_
    rw [show (entryOf db row.id (evaluatePredecessor db ref)).status = evaluatePredecessor db ref
      from rfl, Bool.not_eq_true', Bool.not_eq_false]

/-- **The pass keeps what is queued and met.** -/
theorem claimableItems_eq {items : List WorkItem} (hitems : ∀ item ∈ items, item ∈ db.items.rows)
    {cache : PredecessorCache} (hcache : Selection.Faithful (statusesById db) cache) :
    claimableItems db items cache =
      items.filter fun item => item.status = .queued && predecessorsMet db item := by
  induction items generalizing cache with
  | nil => rfl
  | cons item rest ih =>
    obtain ⟨hitem, hrest⟩ := List.forall_mem_cons.mp hitems
    rw [claimableItems]
    by_cases hqueued : item.status = .queued
    · rw [if_pos hqueued]
      dsimp only
      rw [unmet_readPredecessors hitem hcache, ih hrest (readPredecessors_spec hitem hcache).2]
      by_cases hmet : predecessorsMet db item = true
      · rw [if_pos hmet, List.filter_cons_of_pos (by rw [hmet, hqueued]; rfl)]
      · rw [if_neg hmet, List.filter_cons_of_neg (by rw [Bool.eq_false_iff.mpr hmet]; simp)]
    · rw [if_neg hqueued, ih hrest hcache, List.filter_cons_of_neg (by simp [hqueued])]

/-- What is listed of a status has it. -/
theorem mem_itemsOf {status : WorkStatus} (h : row ∈ itemsOf db status) :
    row ∈ db.items.rows ∧ row.status = status := by
  have hkeeps : ∀ {options : ListOptions}, options.status = some status →
      row ∈ db.items.rows ∧ options.keeps db row = true →
      row ∈ db.items.rows ∧ row.status = status := by
    rintro options hstatus ⟨hmem, hkept⟩
    unfold ListOptions.keeps at hkept
    rw [hstatus] at hkept
    simp only [Bool.and_eq_true, Option.all_some, decide_eq_true_eq] at hkept
    exact ⟨hmem, hkept.1.1.1.1⟩
  unfold itemsOf at h
  split at h
  · exact hkeeps rfl (List.mem_filter.mp (List.mem_mergeSort.mp (List.mem_of_mem_take h)))
  · exact hkeeps rfl (mem_of_listed h)

/-- A queued item is never too old. -/
theorem isAgedOut_of_queued (h : row.status = .queued) : isAgedOut row atTime = false := by
  unfold isAgedOut isDeliveredDiscovery
  rw [h]
  rfl

/-- Of the statuses only the queued has queued items. -/
theorem filter_itemsOf {status : WorkStatus} (p : WorkItem → Bool) :
    (itemsOf db status).filter (fun item => item.status = .queued && p item) =
      if status = .queued then (itemsOf db .queued).filter p else [] := by
  split
  · next hqueued =>
    subst hqueued
    refine List.filter_congr fun item hitem => ?_
    rw [(mem_itemsOf hitem).2]
    rfl
  · next hother =>
    refine List.filter_eq_nil_iff.mpr fun item hitem hkept => ?_
    simp only [Bool.and_eq_true, decide_eq_true_eq] at hkept
    exact hother ((mem_itemsOf hitem).2.symm.trans hkept.1)

theorem claimable_primaries (db : Db) (atTime : Time) :
    claimableItems db (primaries db atTime) [] = (itemsOf db .queued).filter (isWaiting db) := by
  have hmem : ∀ item ∈ primaries db atTime, item ∈ db.items.rows := fun item hitem => by
    obtain ⟨status, -, hstatus⟩ := List.mem_flatMap.mp (List.mem_filter.mp hitem).1
    exact (mem_itemsOf hstatus).1
  have hsame : ∀ item : WorkItem, (decide (item.status = .queued) && predecessorsMet db item &&
      (!satelliteKinds.contains item.kind && item.status ≠ .cancelled && !isAgedOut item atTime)) =
      (decide (item.status = .queued) && isWaiting db item) := by
    intro item
    by_cases hqueued : item.status = .queued
    · unfold isWaiting
      rw [isAgedOut_of_queued hqueued, hqueued]
      simp [Bool.and_comm]
    · simp [hqueued]
  rw [claimableItems_eq hmem (Selection.faithful_nil _), primaries, List.filter_filter]
  simp only [hsame]
  rw [List.filter_flatMap]
  simp only [filter_itemsOf]
  exact List.append_nil _

/-- **Up next is the front of the line**, when the queued items fit into one
listing. -/
theorem upNext_eq (hfew : (db.items.rows.filter fun row => row.status = .queued).length ≤ 100) :
    upNext db atTime =
      ((db.items.rows.filter (isWaiting db)).mergeSort claimOrder).take upNextLimit := by
  have hkeeps : (({ status := some .queued, limit := some progressListLimit } : ListOptions).keeps
      db) = fun row : WorkItem => decide (row.status = .queued) := by
    funext row
    simp only [ListOptions.keeps, Option.all_some, Option.all_none, Bool.and_true]
  have hlisted : itemsOf db .queued =
      (db.items.rows.filter fun row => row.status = .queued).mergeSort claimOrder := by
    show (List.mergeSort (List.filter _ _) claimOrder).take _ = _
    rw [hkeeps, List.take_of_length_le]
    rw [List.length_mergeSort]
    exact hfew
  have hwaiting : (db.items.rows.filter fun row => row.status = .queued).filter (isWaiting db) =
      db.items.rows.filter (isWaiting db) := by
    rw [List.filter_filter]
    refine List.filter_congr fun row _ => ?_
    unfold isWaiting
    cases decide (row.status = .queued) <;> simp
  have hsorted := List.pairwise_mergeSort claimOrder_trans claimOrder_total
    (db.items.rows.filter (isWaiting db))
  rw [upNext, claimable_primaries, hlisted,
    Selection.filter_mergeSort claimOrder_trans claimOrder_total, hwaiting,
    List.mergeSort_of_pairwise hsorted]

end Snowcat
