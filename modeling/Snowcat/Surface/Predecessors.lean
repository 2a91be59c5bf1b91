import Snowcat.Lib.DepthFirst
import Snowcat.Queue.Predecessor

/-!
# What a page says of predecessors

The item page and the progress strips show every predecessor an item
declares, with the claim gate's own verdict on it, and mark the unmet ones
that lead back to the item. The reads of one page share a cache, keyed by the
item, of what the store reported; a cache that holds nothing but what the
store reports changes nothing (`readPredecessors_spec`), so that the walk over
the unmet edges is a search of the graph they make.
-/

namespace Snowcat

/-- `PredecessorLabel`. -/
inductive PredecessorLabel where
  | met
  | predecessorCycle
  | notImported
  | cancelled
  | notCompleted
  | notDelivered
  deriving DecidableEq, Repr

/-- `PredecessorEntry`: the verdict of the gate, a label, and whether the edge
is part of a cycle. -/
structure PredecessorEntry where
  status : PredecessorStatus
  label : PredecessorLabel
  cycle : Bool
  deriving DecidableEq, Repr

/-- `PredecessorSummary`. -/
structure PredecessorSummary where
  entries : List PredecessorEntry
  unmet : List PredecessorEntry
  nearest : Option PredecessorEntry
  cycle : Bool
  deriving DecidableEq, Repr

/-- `PredecessorCache`. -/
abbrev PredecessorCache : Type := List (String × List PredecessorStatus)

/-- `CYCLE_WALK_LIMIT`. -/
def cycleWalkLimit : ℕ := 200

section Read

variable (db : Db)

/-- `predecessorStatuses`, by the id of an item. What is asked for here is an
item that was read, or one a verdict on it names. -/
def statusesById (id : String) : List PredecessorStatus :=
  ((db.items.find? id).map (predecessorStatuses db)).getD []

/-- `statusesOf`. -/
def statusesOf (id : String) (cache : PredecessorCache) :
    List PredecessorStatus × PredecessorCache :=
  Selection.consult (statusesById db) id cache

/-- The items an unmet edge leads to. -/
def unmetItems (statuses : List PredecessorStatus) : List String :=
  statuses.filterMap fun status => if status.satisfied = true then none else status.itemId

/-- The loop of **`loopsBack`**, with what it has seen and the frontier, its
last entry first. -/
def loopsBack (start : String) (seen frontier : List String) (cache : PredecessorCache) :
    Bool × PredecessorCache :=
  match frontier with
  | [] => (false, cache)
  | id :: rest =>
    if cycleWalkLimit ≤ seen.length then (false, cache)
    else if id = start then (true, cache)
    else if id ∈ seen then loopsBack start seen rest cache
    else
      loopsBack start (id :: seen) ((unmetItems (statusesOf db id cache).1).reverse ++ rest)
        (statusesOf db id cache).2
termination_by (cycleWalkLimit - seen.length, frontier.length)
decreasing_by
  · exact Prod.Lex.right _ (Nat.lt_succ_self _)
  · refine Prod.Lex.left _ _ ?_
    rw [List.length_cons]
    omega

/-- `labelFor`. -/
def labelFor (status : PredecessorStatus) (cycle : Bool) : PredecessorLabel :=
  if status.satisfied = true then .met
  else if cycle = true then .predecessorCycle
  else if status.itemId = none then .notImported
  else if status.status = some .cancelled then .cancelled
  else if status.status ≠ some .completed then .notCompleted
  else .notDelivered

/-- Whether the edge of a verdict leads back to an item: one that is satisfied
or names no item does not, and no walk is made for it. -/
def edgeLoopsBack (start : String) (status : PredecessorStatus) (cache : PredecessorCache) :
    Bool × PredecessorCache :=
  match status.itemId with
  | none => (false, cache)
  | some itemId =>
    if status.satisfied = true then (false, cache) else loopsBack db start [] [itemId] cache

/-- The entries of an item, one after the other through the cache. -/
def entriesOf (start : String) :
    List PredecessorStatus → PredecessorCache → List PredecessorEntry × PredecessorCache
  | [], cache => ([], cache)
  | status :: rest, cache =>
    let walk := edgeLoopsBack db start status cache
    let entries := entriesOf start rest walk.2
    (⟨status, labelFor status walk.1, walk.1⟩ :: entries.1, entries.2)

/-- What the entries of an item mean together. -/
def summaryOf (entries : List PredecessorEntry) : PredecessorSummary :=
  let unmet := entries.filter fun entry => !entry.status.satisfied
  { entries
    unmet
    nearest := unmet.head?
    cycle := entries.any PredecessorEntry.cycle }

/-- **`readPredecessors`**, and the cache it leaves. -/
def readPredecessors (item : WorkItem) (cache : PredecessorCache) :
    Option PredecessorSummary × PredecessorCache :=
  if item.predecessors.getD [] = [] then (none, cache)
  else
    let statuses := statusesOf db item.id cache
    let entries := entriesOf db item.id statuses.1 statuses.2
    (some (summaryOf entries.1), entries.2)

end Read

/-! ## Without the caches -/

variable {db : Db}

/-- The verdicts on what an item declares. -/
theorem predecessorStatuses_eq (item : WorkItem) :
    predecessorStatuses db item = (item.predecessors.getD []).map (evaluatePredecessor db) := by
  have hgo : ∀ (refs : List String) (cache : List (String × PredecessorStatus)),
      Selection.Faithful (evaluatePredecessor db) cache →
      predecessorStatuses.go db refs cache = refs.map (evaluatePredecessor db) := by
    intro refs
    induction refs with
    | nil => exact fun _ _ => rfl
    | cons ref rest ih =>
      intro cache hcache
      obtain ⟨hanswer, hfaithful⟩ := Selection.consult_spec hcache ref
      rw [predecessorStatuses.go, List.map_cons, ← ih _ hfaithful, ← hanswer]
      rfl
  exact hgo _ [] (Selection.faithful_nil _)

/-- The verdicts on what a row declares. -/
theorem statusesById_of_mem {item : WorkItem} (h : item ∈ db.items.rows) :
    statusesById db item.id = (item.predecessors.getD []).map (evaluatePredecessor db) := by
  unfold statusesById
  rw [Table.find?_key h]
  exact predecessorStatuses_eq item

/-- **The graph of the unmet edges**: what the unmet verdicts on an item lead
to. -/
def unmetEdges (db : Db) (id : String) : List String := unmetItems (statusesById db id)

/-- **The walk is a search of the graph**, whatever the cache it reads
through holds of the store. -/
theorem loopsBack_spec (start : String) (seen frontier : List String) {cache : PredecessorCache}
    (hcache : Selection.Faithful (statusesById db) cache) :
    (loopsBack db start seen frontier cache).1 =
        DepthFirst.search (unmetEdges db) start cycleWalkLimit seen frontier ∧
      Selection.Faithful (statusesById db) (loopsBack db start seen frontier cache).2 := by
  fun_induction loopsBack db start seen frontier cache with
  | case1 => exact ⟨by rw [DepthFirst.search], hcache⟩
  | case2 seen cache id rest hfull =>
    rw [DepthFirst.search, if_pos hfull]
    exact ⟨rfl, hcache⟩
  | case3 seen cache rest hfull =>
    rw [DepthFirst.search, if_neg hfull, if_pos rfl]
    exact ⟨rfl, hcache⟩
  | case4 seen cache id rest hfull hne hseen ih =>
    rw [DepthFirst.search, if_neg hfull, if_neg hne, if_pos hseen]
    exact ih hcache
  | case5 seen cache id rest hfull hne hseen ih =>
    obtain ⟨hanswer, hfaithful⟩ := Selection.consult_spec hcache id
    rw [DepthFirst.search, if_neg hfull, if_neg hne, if_neg hseen, unmetEdges, ← hanswer]
    exact ih hfaithful

/-- Whether the edge of a verdict leads back, without a cache. -/
def leadsBack (db : Db) (start : String) (status : PredecessorStatus) : Bool :=
  match status.itemId with
  | none => false
  | some itemId => !status.satisfied &&
      DepthFirst.search (unmetEdges db) start cycleWalkLimit [] [itemId]

/-- The entry of a verdict, without a cache. -/
def entryOf (db : Db) (start : String) (status : PredecessorStatus) : PredecessorEntry :=
  ⟨status, labelFor status (leadsBack db start status), leadsBack db start status⟩

theorem edgeLoopsBack_spec (start : String) (status : PredecessorStatus) {cache : PredecessorCache}
    (hcache : Selection.Faithful (statusesById db) cache) :
    (edgeLoopsBack db start status cache).1 = leadsBack db start status ∧
      Selection.Faithful (statusesById db) (edgeLoopsBack db start status cache).2 := by
  unfold edgeLoopsBack leadsBack
  cases status.itemId with
  | none => exact ⟨rfl, hcache⟩
  | some itemId =>
    dsimp only
    split
    · next hsatisfied =>
      rw [hsatisfied]
      exact ⟨rfl, hcache⟩
    · next hunmet =>
      rw [Bool.eq_false_iff.mpr hunmet]
      exact loopsBack_spec start [] [itemId] hcache

theorem entriesOf_spec (start : String) (statuses : List PredecessorStatus)
    {cache : PredecessorCache} (hcache : Selection.Faithful (statusesById db) cache) :
    (entriesOf db start statuses cache).1 = statuses.map (entryOf db start) ∧
      Selection.Faithful (statusesById db) (entriesOf db start statuses cache).2 := by
  induction statuses generalizing cache with
  | nil => exact ⟨rfl, hcache⟩
  | cons status rest ih =>
    obtain ⟨hwalk, hfaithful⟩ := edgeLoopsBack_spec start status hcache
    obtain ⟨hrest, hleft⟩ := ih hfaithful
    refine ⟨?_, hleft⟩
    rw [entriesOf, List.map_cons, entryOf, ← hwalk, ← hrest]

/-- **What is read of a row**: an entry for each verdict on what it declares,
whatever the cache of the pass holds of the store. -/
theorem readPredecessors_spec {item : WorkItem} (hitem : item ∈ db.items.rows)
    {cache : PredecessorCache} (hcache : Selection.Faithful (statusesById db) cache) :
    (readPredecessors db item cache).1 =
        (if item.predecessors.getD [] = [] then none
        else some (summaryOf ((item.predecessors.getD []).map
          fun ref => entryOf db item.id (evaluatePredecessor db ref)))) ∧
      Selection.Faithful (statusesById db) (readPredecessors db item cache).2 := by
  unfold readPredecessors
  split
  · exact ⟨rfl, hcache⟩
  · have hread : (statusesOf db item.id cache).1 = statusesById db item.id ∧
        Selection.Faithful (statusesById db) (statusesOf db item.id cache).2 :=
      Selection.consult_spec hcache item.id
    obtain ⟨hentries, hleft⟩ := entriesOf_spec item.id (statusesOf db item.id cache).1 hread.2
    refine ⟨?_, hleft⟩
    dsimp only
    rw [hentries, hread.1, statusesById_of_mem hitem, List.map_map]
    rfl

end Snowcat
