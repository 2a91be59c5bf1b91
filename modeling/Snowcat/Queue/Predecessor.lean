import Snowcat.Lib.Selection
import Snowcat.Queue.Store

/-!
# Predecessors and delivery

What an item waits for. A predecessor is a source reference, and it is
satisfied by stored state alone: some item carries it, is completed, and
every pull request and release it reported was observed delivered. A claim
evaluates many of them and keeps a memo, so that each source reference is
evaluated once.
-/

namespace Snowcat

/-- The delivery of a completed item, as every read shows it. -/
inductive DeliveryState where
  | none
  | unverified
  | opened
  | closed
  | merged
  | published
  deriving DecidableEq, Repr

/-- The state an artifact was observed in, and nothing when no observation
was taken. -/
def WorkArtifact.observed (artifact : WorkArtifact) : Option ObservedState :=
  artifact.verification.bind ArtifactVerification.state?

/-- `deriveDelivery`. -/
def deriveDelivery (result : Option WorkResult) : DeliveryState :=
  let artifacts := (result.map WorkResult.artifacts).getD []
  let releases := (artifacts.filter (fun a => a.kind = .release)).map WorkArtifact.observed
  let states := (artifacts.filter (fun a => a.kind = .pullRequest)).map WorkArtifact.observed
  if releases ≠ [] then
    if some .published ∈ releases then .published
    else if none ∈ releases then .unverified
    else .opened
  else if states = [] then .none
  else if some .merged ∈ states then .merged
  else if none ∈ states then .unverified
  else if some .opened ∈ states then .opened
  else .closed

/-- The delivery a read shows beside an item: a completed item's. -/
def WorkItem.delivery (item : WorkItem) : Option DeliveryState :=
  if item.status = .completed then some (deriveDelivery item.result) else none

/-- The text of an observed state. -/
def ObservedState.text : ObservedState → String
  | .opened => "open"
  | .closed => "closed"
  | .merged => "merged"
  | .published => "published"
  | .draft => "draft"

/-- An artifact that is not observed delivered. -/
structure UndeliveredArtifact where
  kind : String
  url : String
  observed : String
  deriving DecidableEq, Repr

/-- Whether an artifact counts as delivered: a pull request that was observed
merged, a release that was observed published, or one of the kinds nobody
delivers. -/
def WorkArtifact.delivered (artifact : WorkArtifact) : Bool :=
  match artifact.kind with
  | .pullRequest => artifact.observed = some .merged
  | .release => artifact.observed = some .published
  | _ => true

/-- `undeliveredArtifact`. -/
def undeliveredArtifact (item : WorkItem) : Option UndeliveredArtifact :=
  let artifacts := (item.result.map WorkResult.artifacts).getD []
  (artifacts.find? (fun artifact => !artifact.delivered)).map fun artifact =>
    { kind := if artifact.kind = .pullRequest then "pull request" else "release"
      url := artifact.url
      observed := (artifact.observed.map ObservedState.text).getD "unverified" }

/-- The satisfaction of one predecessor. -/
structure PredecessorStatus where
  sourceRef : String
  satisfied : Bool
  reason : Option String := none
  itemId : Option String := none
  status : Option WorkStatus := none
  delivery : Option DeliveryState := none
  deriving DecidableEq, Repr

/-- The items carrying a source reference, newest first. -/
def itemsBySourceRef (db : Db) (sourceRef : String) : List WorkItem :=
  (db.items.rows.filter fun item => item.sourceRef = some sourceRef).mergeSort fun a b =>
    if a.createdAt = b.createdAt then binaryLe a.id b.id else b.createdAt < a.createdAt

/-- Why nothing satisfies a predecessor: the newest candidate's state. -/
def unsatisfiedReason (item : WorkItem) : String :=
  match undeliveredArtifact item with
  | some undelivered =>
    if item.status = .completed then
      s!"work item {item.id} completed, but its {undelivered.kind} {undelivered.url} is observed {undelivered.observed}"
    else s!"work item {item.id} is {item.status.text}, not completed"
  | none => s!"work item {item.id} is {item.status.text}, not completed"

/-- Whether an item satisfies the predecessors that name it. -/
def WorkItem.delivers (item : WorkItem) : Bool :=
  item.status = .completed && (undeliveredArtifact item).isNone

/-- `evaluatePredecessor`. -/
def evaluatePredecessor (db : Db) (sourceRef : String) : PredecessorStatus :=
  match itemsBySourceRef db sourceRef with
  | [] =>
    { sourceRef
      satisfied := false
      reason := some "no work item in this queue carries this source reference" }
  | newest :: others =>
    match (newest :: others).find? WorkItem.delivers with
    | some item =>
      { sourceRef
        satisfied := true
        itemId := some item.id
        status := some item.status
        delivery := item.delivery }
    | none =>
      { sourceRef
        satisfied := false
        reason := some (unsatisfiedReason newest)
        itemId := some newest.id
        status := some newest.status
        delivery := newest.delivery }

/-- `predecessorStatus`: evaluated once for each source reference of a
pass. -/
def predecessorStatus (db : Db) (sourceRef : String) (cache : List (String × PredecessorStatus)) :
    PredecessorStatus × List (String × PredecessorStatus) :=
  Selection.consult (evaluatePredecessor db) sourceRef cache

/-- `predecessorStatuses`: every predecessor of one item, with one cache for
the pass. -/
def predecessorStatuses (db : Db) (item : WorkItem) : List PredecessorStatus :=
  go (item.predecessors.getD []) []
where
  /-- The statuses of the references still to be read. -/
  go : List String → List (String × PredecessorStatus) → List PredecessorStatus
    | [], _ => []
    | sourceRef :: rest, cache =>
      let answer := predecessorStatus db sourceRef cache
      answer.1 :: go rest answer.2

/-! ## What satisfies a predecessor -/

/-- **An item delivers** when it is completed with every pull request
verified merged and every release verified published. -/
theorem delivers_iff {item : WorkItem} :
    item.delivers = true ↔ item.rowStatus = .completed ∧
      ∀ artifact ∈ (item.result.map WorkResult.artifacts).getD [],
        (artifact.kind = .pullRequest → artifact.observed = some .merged) ∧
          (artifact.kind = .release → artifact.observed = some .published) := by
  have hdelivered : ∀ artifact : WorkArtifact, artifact.delivered = true ↔
      (artifact.kind = .pullRequest → artifact.observed = some .merged) ∧
        (artifact.kind = .release → artifact.observed = some .published) := by
    intro artifact
    unfold WorkArtifact.delivered
    cases artifact.kind <;> simp
  unfold WorkItem.delivers undeliveredArtifact
  simp only [Bool.and_eq_true, decide_eq_true_eq, WorkItem.status_eq_completed,
    Option.isNone_map, Option.isNone_iff_eq_none, List.find?_eq_none, Bool.not_eq_true',
    Bool.not_eq_false, hdelivered]

/-- **A predecessor is satisfied** exactly when some item carrying its source
reference delivers. -/
theorem satisfied_evaluatePredecessor {db : Db} {sourceRef : String} :
    (evaluatePredecessor db sourceRef).satisfied = true ↔
      ∃ item ∈ db.items.rows, item.sourceRef = some sourceRef ∧ item.delivers = true := by
  have hmem : ∀ item, item ∈ itemsBySourceRef db sourceRef ↔
      item ∈ db.items.rows ∧ item.sourceRef = some sourceRef := by
    intro item
    simp [itemsBySourceRef, List.mem_mergeSort]
  unfold evaluatePredecessor
  split
  · next hnil =>
    refine ⟨fun h => absurd h (by simp), fun ⟨item, hitem, href, _⟩ => ?_⟩
    exact absurd ((hmem item).mpr ⟨hitem, href⟩) (by simp [hnil])
  · next newest others hrows =>
    split
    · next item hfind =>
      refine ⟨fun _ => ⟨item, ?_⟩, fun _ => rfl⟩
      have hitem := List.mem_of_find?_eq_some hfind
      rw [← hrows, hmem] at hitem
      exact ⟨hitem.1, hitem.2, List.find?_some hfind⟩
    · next hfind =>
      refine ⟨fun h => absurd h (by simp), fun ⟨item, hitem, href, hdelivers⟩ => ?_⟩
      have hrow := (hmem item).mpr ⟨hitem, href⟩
      rw [hrows] at hrow
      exact absurd hdelivers (List.find?_eq_none.mp hfind item hrow)

end Snowcat
