import Mathlib.Data.List.Range
import Snowcat.Lib.Table
import Snowcat.Lib.Transaction
import Snowcat.Queue.Types

/-!
# The queue database and its transactions

The database is the three tables the queue reads and writes:
repositories, work items and the event ledger. What SQLite enforces is
enforced here as well – primary keys by the type of the tables, the other
constraints by `insertRow` – and a ledger's events carry consecutive
sequence numbers by construction.

A transaction reads the clock, random UUIDs and the two hooks through the
environment `Env`. Each reading takes the next tick of one counter, so an
environment is a whole future of answers, and two readings of the same
thing may differ. Nothing is assumed of them here; the results that need a
non-decreasing clock or fresh tokens say so.
-/

namespace Snowcat

/-! ## The tables -/

/-- A pull request no item accounts for. -/
structure UnreportedPullRequest where
  url : String
  number : JsNumber
  draft : Bool
  createdAt : Option String
  deriving DecidableEq, Repr

/-- The last review sweep's finding for one repository. -/
structure UnreportedPullRequestObservation where
  observedAt : String
  pullRequests : List UnreportedPullRequest
  deriving DecidableEq, Repr

/-- What the latest import did with a labeled issue. -/
inductive LabeledIssueObservationOutcome where
  | created
  | existing
  deriving DecidableEq, Repr

/-- One labeled issue the latest import saw. -/
structure LabeledIssueObservation where
  url : String
  title : String
  seenAt : Time
  outcome : LabeledIssueObservationOutcome
  deriving DecidableEq, Repr

/-- The latest import's finding for one repository. -/
structure LabeledIssueObservations where
  issues : List LabeledIssueObservation
  truncated : Bool
  deriving DecidableEq, Repr

/-- **A row of `repositories`.** -/
structure RepositoryRow where
  slug : String
  enabled : Bool
  cureForeign : Bool
  reviewGate : Bool
  createdAt : Time
  updatedAt : Time
  unreportedPullRequests : Option UnreportedPullRequestObservation
  labeledIssueObservations : Option LabeledIssueObservations
  deriving DecidableEq, Repr

/-- An event before the ledger numbers it: who, what and when. -/
structure Posting where
  actor : String
  payload : EventPayload
  occurredAt : Time
  deriving DecidableEq, Repr

/-- The event of a posting about an item, under a sequence number. -/
def Posting.event (p : Posting) (sequence : ℕ) (id : String) : WorkEvent :=
  ⟨sequence, id, p.actor, p.payload, p.occurredAt⟩

/-- What an event says besides its number and its item. -/
def WorkEvent.posting (e : WorkEvent) : Posting := ⟨e.actor, e.payload, e.occurredAt⟩

/-- **The event ledger**: events in the order they were recorded, numbered
from 1. Nothing deletes an event, so the next number is one more than
their count. -/
structure Ledger where
  /-- The events, oldest first. -/
  events : List WorkEvent
  /-- `sequence INTEGER PRIMARY KEY AUTOINCREMENT`. -/
  numbered : events.map WorkEvent.sequence = List.range' 1 events.length

namespace Ledger

/-- The ledger before any event. -/
def empty : Ledger := ⟨[], rfl⟩

/-- Record one event about an item. -/
def post (l : Ledger) (id : String) (p : Posting) : Ledger :=
  ⟨l.events ++ [p.event (l.events.length + 1) id], by
    rw [List.map_append, l.numbered, List.length_append, List.length_singleton,
      List.range'_concat, Nat.mul_comm, Nat.mul_one, Nat.add_comm 1]
    rfl⟩

/-- Record events about an item, in order. -/
def postAll (l : Ledger) (id : String) (ps : List Posting) : Ledger :=
  ps.foldl (fun l p => l.post id p) l

/-- **The item's own ledger**: its events, oldest first. -/
def of (l : Ledger) (id : String) : List WorkEvent :=
  l.events.filter (fun e => e.workItemId = id)

/-- **The item's history**: what its events say, oldest first. -/
def history (l : Ledger) (id : String) : List Posting := (l.of id).map WorkEvent.posting

@[simp] theorem events_post (l : Ledger) (id : String) (p : Posting) :
    (l.post id p).events = l.events ++ [p.event (l.events.length + 1) id] := rfl

@[simp] theorem postAll_nil (l : Ledger) (id : String) : l.postAll id [] = l := rfl

@[simp] theorem postAll_cons (l : Ledger) (id : String) (p : Posting) (ps : List Posting) :
    l.postAll id (p :: ps) = (l.post id p).postAll id ps := rfl

theorem postAll_concat (l : Ledger) (id : String) (ps : List Posting) (p : Posting) :
    l.postAll id (ps ++ [p]) = (l.postAll id ps).post id p :=
  List.foldl_append

theorem mem_of {l : Ledger} {id : String} {e : WorkEvent} :
    e ∈ l.of id ↔ e ∈ l.events ∧ e.workItemId = id := by
  simp [of]

theorem of_post_self (l : Ledger) (id : String) (p : Posting) :
    (l.post id p).of id = l.of id ++ [p.event (l.events.length + 1) id] := by
  simp [of, List.filter_append, Posting.event]

theorem of_post_of_ne (l : Ledger) {id id' : String} (p : Posting) (h : id' ≠ id) :
    (l.post id p).of id' = l.of id' := by
  simp [of, List.filter_append, Posting.event, Ne.symm h]

theorem of_postAll_of_ne (l : Ledger) {id id' : String} (ps : List Posting) (h : id' ≠ id) :
    (l.postAll id ps).of id' = l.of id' := by
  induction ps generalizing l with
  | nil => rfl
  | cons p ps ih => rw [postAll_cons, ih, of_post_of_ne l p h]

/-- **A ledger adds postings about an item** to another: the item's events
are the old ones and, behind them, one for each posting. -/
def Adds (l l' : Ledger) (id : String) (ps : List Posting) : Prop :=
  ∃ new : List WorkEvent, l'.of id = l.of id ++ new ∧ new.map WorkEvent.posting = ps

theorem Adds.refl (l : Ledger) (id : String) : l.Adds l id [] := ⟨[], (List.append_nil _).symm, rfl⟩

theorem Adds.history {l l' : Ledger} {id : String} {ps : List Posting} (h : l.Adds l' id ps) :
    l'.history id = l.history id ++ ps := by
  obtain ⟨new, hof, rfl⟩ := h
  rw [Ledger.history, hof, List.map_append, Ledger.history]

theorem adds_postAll (l : Ledger) (id : String) (ps : List Posting) :
    l.Adds (l.postAll id ps) id ps := by
  induction ps generalizing l with
  | nil => exact Adds.refl l id
  | cons p ps ih =>
    obtain ⟨new, hof, hnew⟩ := ih (l.post id p)
    refine ⟨p.event (l.events.length + 1) id :: new, ?_, ?_⟩
    · rw [postAll_cons, hof, of_post_self, List.append_assoc]
      rfl
    · rw [List.map_cons, hnew]
      rfl

theorem adds_postAll_of_ne (l : Ledger) {id id' : String} (ps : List Posting) (h : id' ≠ id) :
    l.Adds (l.postAll id ps) id' [] :=
  ⟨[], by rw [of_postAll_of_ne l ps h, List.append_nil], rfl⟩

/-- Recording events keeps those there were, in front. -/
theorem prefix_postAll (l : Ledger) (id : String) (ps : List Posting) :
    l.events <+: (l.postAll id ps).events := by
  induction ps generalizing l with
  | nil => exact List.prefix_refl _
  | cons p ps ih => exact (List.prefix_append _ _).trans (ih (l.post id p))

/-- The events of a ledger are numbered in the order they were recorded. -/
theorem pairwise_sequence (l : Ledger) :
    l.events.Pairwise (fun e f => e.sequence < f.sequence) := by
  have h : (l.events.map WorkEvent.sequence).Pairwise (· < ·) := by
    rw [l.numbered]
    exact List.pairwise_lt_range'
  exact List.pairwise_map.mp h

/-- An event that is new in a ledger was not in it before. -/
theorem not_mem_of_append {l l' : Ledger} {new : List WorkEvent} {e : WorkEvent}
    (h : l'.events = l.events ++ new) (he : e ∈ l.events) : e ∉ new := by
  intro hnew
  have hpairwise := l'.pairwise_sequence
  rw [h, List.pairwise_append] at hpairwise
  exact lt_irrefl _ (hpairwise.2.2 e he e hnew)

/-- A new event is numbered behind all the old ones. -/
theorem length_lt_sequence {l l' : Ledger} {new : List WorkEvent} {e : WorkEvent}
    (h : l'.events = l.events ++ new) (he : e ∈ new) : l.events.length < e.sequence := by
  have hnumbered := l'.numbered
  rw [h, List.map_append, l.numbered, List.length_append,
    ← List.range'_append_1, List.append_cancel_left_eq] at hnumbered
  have hmem : e.sequence ∈ new.map WorkEvent.sequence := List.mem_map_of_mem he
  rw [hnumbered, List.mem_range'_1] at hmem
  omega

/-- A ledger that continues another adds to the history of every item. -/
theorem exists_of_append {l l' : Ledger} (h : l.events <+: l'.events) (id : String) :
    ∃ new, l'.of id = l.of id ++ new ∧ ∀ e ∈ new, l.events.length < e.sequence := by
  obtain ⟨new, hnew⟩ := h
  refine ⟨new.filter fun e => e.workItemId = id, ?_, fun e he => ?_⟩
  · rw [of, ← hnew, List.filter_append, of]
  · exact length_lt_sequence hnew.symm (List.mem_filter.mp he).1

/-- An item's events are numbered in the order they were recorded. -/
theorem pairwise_of (l : Ledger) (id : String) :
    (l.of id).Pairwise (fun e f => e.sequence < f.sequence) :=
  l.pairwise_sequence.filter _

end Ledger

/-- **The queue database.** -/
structure Db where
  /-- The opted-in repositories, by slug. -/
  repositories : Table RepositoryRow.slug
  /-- The work items, by id. -/
  items : Table WorkItem.id
  /-- The event ledger. -/
  ledger : Ledger

/-- An empty queue. -/
def Db.empty : Db := ⟨Table.empty, Table.empty, Ledger.empty⟩

/-! ## Transactions -/

/-- A WHATWG URL, by the components the store reads. -/
structure Url where
  protocol : String
  username : String
  password : String
  hostname : String
  port : String
  pathname : String
  search : String
  hash : String
  deriving DecidableEq, Repr

/-- **What the store asks of its surroundings.** The clock, the random
UUIDs and the hooks answer by tick; `parseUrl` and `decodeURIComponent` are
the platform's own, `none` where they throw. -/
structure Env where
  /-- `clock`. -/
  clock : ℕ → Time
  /-- `randomUUID`. -/
  randomUUID : ℕ → String
  /-- The `policyAuthority` hook, when the store was constructed with one. -/
  policyAuthority : Option (ℕ → String → Option PolicyAuthority)
  /-- The `claimEligibility` hook, when the store was constructed with one. -/
  claimEligibility : Option (ℕ → String → Bool)
  /-- `new URL`. -/
  parseUrl : String → Option Url
  /-- `decodeURIComponent`. -/
  decodeURIComponent : String → Option String

/-- The database, and how many answers have been taken from the
environment. -/
structure World where
  db : Db
  ticks : ℕ

/-- What a store operation throws. -/
inductive QueueError where
  /-- `Error`, or what SQLite raises. -/
  | error (message : String)
  /-- `PreconditionMismatchError`. -/
  | preconditionMismatch (id : String) (status : WorkStatus) (updatedAt : Time)
  deriving DecidableEq, Repr

/-- A store computation. -/
abbrev QueueTx : Type → Type := Tx World QueueError

/-- **`transaction`**: what the operation wrote is committed when it
returns and rolled back when it throws. The answers it took from the
environment are gone either way. -/
def transaction {α : Type} (operation : QueueTx α) : QueueTx α :=
  Tx.atomically (fun before reached => { reached with db := before.db }) operation

section Primitives

variable (env : Env)

/-- **The shape of a mutation**: what it checks before it opens its
transaction, and the transaction, which is given what the checks
established. -/
def checked {α β : Type} (checks : Except QueueError α) (operation : α → QueueTx β) :
    QueueTx β := do
  let a ← Tx.ofExcept checks
  transaction (operation a)

/-- Take one answer from the environment. -/
def ask {α : Type} (answer : ℕ → α) : QueueTx α := do
  let tick ← Tx.read World.ticks
  Tx.update fun w => { w with ticks := w.ticks + 1 }
  pure (answer tick)

/-- `this.now()`, and `this.clock().getTime()`. -/
def now : QueueTx Time := ask env.clock

/-- `randomUUID()`. -/
def randomUUID : QueueTx String := ask env.randomUUID

/-- `getRequired`. -/
def getRequired (id : String) : QueueTx WorkItem := do
  let item? ← Tx.read fun w => w.db.items.find? id
  Tx.ofOption item? (.error s!"work item not found: {id}")

/-- `UPDATE work_items SET … WHERE id = ?`. -/
def updateItem (id : String) (f : WorkItem → WorkItem) (hf : ∀ item, (f item).id = item.id) :
    QueueTx Unit :=
  Tx.update fun w => { w with db := { w.db with items := w.db.items.modify id f hf } }

/-- `addEvent`. -/
def addEvent (id actor : String) (payload : EventPayload) : QueueTx Unit := do
  let occurredAt ← now env
  Tx.update fun w =>
    { w with db := { w.db with ledger := w.db.ledger.post id ⟨actor, payload, occurredAt⟩ } }

/-- `INSERT INTO work_items`, with what the database checks: the trigger
`work_items_children_start_proposed`, the foreign keys, the primary key and
the unique index `work_items_source_ref`. -/
def insertRow (item : WorkItem) : QueueTx Unit := do
  Tx.failIf (item.parentId.isSome ∧ item.admitted = true)
    (.error "child work items must be created as proposed (admitted = 0)")
  let db ← Tx.read World.db
  Tx.failIf (db.repositories.find? item.repository = none)
    (.error "FOREIGN KEY constraint failed")
  Tx.failIf (∃ p ∈ item.parentId, db.items.find? p = none)
    (.error "FOREIGN KEY constraint failed")
  Tx.failIf (item.sourceRef.isSome ∧
      ∃ row ∈ db.items.rows, row.repository = item.repository ∧ row.sourceRef = item.sourceRef)
    (.error "UNIQUE constraint failed: work_items.repository, work_items.source_ref")
  if h : db.items.find? item.id = none then
    Tx.update fun w => { w with db := { db with items := db.items.insert item h } }
  else
    Tx.fail (.error "UNIQUE constraint failed: work_items.id")

/-! ### What each of them returns -/

variable {env}

@[simp] theorem returns_transaction {α : Type} {operation : QueueTx α} {w w' : World} {a : α} :
    (transaction operation).Returns w a w' ↔ operation.Returns w a w' :=
  Tx.returns_atomically

@[simp] theorem returns_checked {α β : Type} {checks : Except QueueError α}
    {operation : α → QueueTx β} {w w' : World} {b : β} :
    (checked checks operation).Returns w b w' ↔
      ∃ a, checks = .ok a ∧ (operation a).Returns w b w' := by
  simp only [checked, Tx.returns_bind, Tx.returns_ofExcept, returns_transaction]
  constructor
  · rintro ⟨a, _, ⟨ha, rfl⟩, h⟩
    exact ⟨a, ha, h⟩
  · rintro ⟨a, ha, h⟩
    exact ⟨a, w, ⟨ha, rfl⟩, h⟩

@[simp] theorem returns_ask {α : Type} {answer : ℕ → α} {w w' : World} {a : α} :
    (ask answer).Returns w a w' ↔ a = answer w.ticks ∧ w' = ⟨w.db, w.ticks + 1⟩ := by
  simp only [ask, Tx.returns_bind, Tx.returns_read, Tx.returns_update, Tx.returns_pure]
  constructor
  · rintro ⟨_, _, ⟨rfl, rfl⟩, _, _, rfl, rfl, rfl⟩
    exact ⟨rfl, rfl⟩
  · rintro ⟨rfl, rfl⟩
    exact ⟨_, _, ⟨rfl, rfl⟩, (), _, rfl, rfl, rfl⟩

@[simp] theorem returns_now {w w' : World} {t : Time} :
    (now env).Returns w t w' ↔ t = env.clock w.ticks ∧ w' = ⟨w.db, w.ticks + 1⟩ :=
  returns_ask

@[simp] theorem returns_randomUUID {w w' : World} {s : String} :
    (randomUUID env).Returns w s w' ↔ s = env.randomUUID w.ticks ∧ w' = ⟨w.db, w.ticks + 1⟩ :=
  returns_ask

@[simp] theorem returns_getRequired {id : String} {w w' : World} {item : WorkItem} :
    (getRequired id).Returns w item w' ↔ w.db.items.find? id = some item ∧ w' = w := by
  simp only [getRequired, Tx.returns_bind, Tx.returns_read, Tx.returns_ofOption]
  constructor
  · rintro ⟨_, _, ⟨rfl, rfl⟩, h, rfl⟩
    exact ⟨h, rfl⟩
  · rintro ⟨h, rfl⟩
    exact ⟨_, _, ⟨rfl, rfl⟩, h, rfl⟩

@[simp] theorem returns_updateItem {id : String} {f : WorkItem → WorkItem}
    {hf : ∀ item, (f item).id = item.id} {w w' : World} {u : Unit} :
    (updateItem id f hf).Returns w u w' ↔
      w' = ⟨{ w.db with items := w.db.items.modify id f hf }, w.ticks⟩ :=
  Tx.returns_update

@[simp] theorem returns_addEvent {id actor : String} {payload : EventPayload} {w w' : World}
    {u : Unit} :
    (addEvent env id actor payload).Returns w u w' ↔
      w' = ⟨{ w.db with
        ledger := w.db.ledger.post id ⟨actor, payload, env.clock w.ticks⟩ }, w.ticks + 1⟩ := by
  simp only [addEvent, Tx.returns_bind, returns_now, Tx.returns_update]
  constructor
  · rintro ⟨_, _, ⟨rfl, rfl⟩, rfl⟩
    rfl
  · rintro rfl
    exact ⟨_, _, ⟨rfl, rfl⟩, rfl⟩

/-! ### What each of them throws -/

@[simp] theorem throws_transaction {α : Type} {operation : QueueTx α} {w : World} {e : QueueError} :
    (transaction operation).Throws w e ↔ operation.Throws w e :=
  Tx.throws_atomically

@[simp] theorem throws_checked {α β : Type} {checks : Except QueueError α}
    {operation : α → QueueTx β} {w : World} {e : QueueError} :
    (checked checks operation).Throws w e ↔
      checks = .error e ∨ ∃ a, checks = .ok a ∧ (operation a).Throws w e := by
  simp only [checked, Tx.throws_bind, Tx.throws_ofExcept, Tx.returns_ofExcept, throws_transaction]
  refine or_congr_right (exists_congr fun a => ⟨?_, fun h => ⟨w, ⟨h.1, rfl⟩, h.2⟩⟩)
  rintro ⟨_, ⟨ha, rfl⟩, h⟩
  exact ⟨ha, h⟩

@[simp] theorem throws_ask {α : Type} {answer : ℕ → α} {w : World} {e : QueueError} :
    (ask answer).Throws w e ↔ False := by
  simp [ask]

@[simp] theorem throws_now {w : World} {e : QueueError} : (now env).Throws w e ↔ False := throws_ask

@[simp] theorem throws_randomUUID {w : World} {e : QueueError} :
    (randomUUID env).Throws w e ↔ False := throws_ask

@[simp] theorem throws_getRequired {id : String} {w : World} {e : QueueError} :
    (getRequired id).Throws w e ↔
      w.db.items.find? id = none ∧ e = .error s!"work item not found: {id}" := by
  simp [getRequired]

@[simp] theorem throws_updateItem {id : String} {f : WorkItem → WorkItem}
    {hf : ∀ item, (f item).id = item.id} {w : World} {e : QueueError} :
    (updateItem id f hf).Throws w e ↔ False :=
  Tx.throws_update

@[simp] theorem throws_addEvent {id actor : String} {payload : EventPayload} {w : World}
    {e : QueueError} : (addEvent env id actor payload).Throws w e ↔ False := by
  simp [addEvent]

/-- **An inserted row passed every constraint.** -/
theorem returns_insertRow {item : WorkItem} {w w' : World} {u : Unit}
    (h : (insertRow item).Returns w u w') :
    (item.parentId.isSome → item.admitted = false) ∧
      w.db.repositories.find? item.repository ≠ none ∧
      (∀ p ∈ item.parentId, w.db.items.find? p ≠ none) ∧
      ∃ hid : w.db.items.find? item.id = none,
        w' = ⟨{ w.db with items := w.db.items.insert item hid }, w.ticks⟩ := by
  simp only [insertRow, Tx.returns_bind, Tx.returns_failIf, Tx.returns_read] at h
  obtain ⟨_, _, ⟨htrigger, rfl⟩, _, _, ⟨rfl, rfl⟩, _, _, ⟨hrepository, rfl⟩, _, _,
    ⟨hparent, rfl⟩, _, _, ⟨-, rfl⟩, h⟩ := h
  refine ⟨fun hp => ?_, hrepository, fun p hp hnone => hparent ⟨p, hp, hnone⟩, ?_⟩
  · simpa using fun ha => htrigger ⟨hp, ha⟩
  · split at h
    · next hid => exact ⟨hid, Tx.returns_update.mp h⟩
    · exact absurd h (by simp)

end Primitives

/-! ### What a throw leaves, and what a window of ticks reads -/

/-- The tables are those of the state before. -/
def SameDb (w w' : World) : Prop := w'.db = w.db

theorem SameDb.refl (w : World) : SameDb w w := rfl

theorem keeps_transaction {α : Type} (operation : QueueTx α) :
    (transaction operation).Keeps SameDb :=
  Tx.keeps_atomically (fun w reached => show SameDb w { reached with db := w.db } from rfl)
    operation

/-- **A mutation that throws leaves the tables as they were.** -/
theorem keeps_checked {α β : Type} (checks : Except QueueError α) (operation : α → QueueTx β) :
    (checked checks operation).Keeps SameDb :=
  Tx.keeps_bind_of_still SameDb.refl (Tx.still_ofExcept checks)
    fun a => keeps_transaction (operation a)

/-! ### The ticks only grow -/

instance grows_transaction {α : Type} {operation : QueueTx α}
    [h : operation.Grows World.ticks] : (transaction operation).Grows World.ticks :=
  Tx.grows_atomically (fun _ _ => rfl) h

instance grows_checked {α β : Type} {checks : Except QueueError α}
    {operation : α → QueueTx β} [∀ a, (operation a).Grows World.ticks] :
    (checked checks operation).Grows World.ticks := by
  unfold checked
  infer_instance

/-- Writing the tables takes no tick. -/
theorem grows_update {f : World → World} (h : ∀ w, (f w).ticks = w.ticks) :
    (Tx.update f : QueueTx Unit).Grows World.ticks :=
  ⟨fun w => (h w).ge⟩

instance grows_ask {α : Type} (answer : ℕ → α) : (ask answer).Grows World.ticks :=
  ⟨fun w => Nat.le_succ w.ticks⟩

instance grows_now (env : Env) : (now env).Grows World.ticks := grows_ask _

instance grows_randomUUID (env : Env) : (randomUUID env).Grows World.ticks := grows_ask _

instance grows_getRequired (id : String) : (getRequired id).Grows World.ticks := by
  unfold getRequired
  infer_instance

instance grows_updateItem (id : String) (f : WorkItem → WorkItem)
    (hf : ∀ item, (f item).id = item.id) : (updateItem id f hf).Grows World.ticks :=
  grows_update fun _ => rfl

instance grows_addEvent (env : Env) (id actor : String) (payload : EventPayload) :
    (addEvent env id actor payload).Grows World.ticks :=
  ⟨fun w => Nat.le_succ w.ticks⟩

instance grows_insertRow (item : WorkItem) : (insertRow item).Grows World.ticks := by
  have hwrite : ∀ (db : Db) (h : db.items.find? item.id = none),
      (Tx.update fun w => { w with db := { db with items := db.items.insert item h } } :
        QueueTx Unit).Grows World.ticks :=
    fun _ _ => grows_update fun _ => rfl
  unfold insertRow
  infer_instance

/-- **A reading of the clock** at one of the ticks from `lo` up to `hi`. -/
def Reading (env : Env) (lo hi : ℕ) (t : Time) : Prop := ∃ k, lo ≤ k ∧ k < hi ∧ t = env.clock k

theorem Reading.mono {env : Env} {lo lo' hi hi' : ℕ} {t : Time} (h : Reading env lo hi t)
    (hlo : lo' ≤ lo) (hhi : hi ≤ hi') : Reading env lo' hi' t :=
  h.imp fun _ hk => ⟨le_trans hlo hk.1, lt_of_lt_of_le hk.2.1 hhi, hk.2.2⟩

/-- **A UUID drawn** at one of the ticks from `lo` up to `hi`. -/
def Drawn (env : Env) (lo hi : ℕ) (id : String) : Prop :=
  ∃ k, lo ≤ k ∧ k < hi ∧ id = env.randomUUID k

theorem Drawn.mono {env : Env} {lo lo' hi hi' : ℕ} {id : String} (h : Drawn env lo hi id)
    (hlo : lo' ≤ lo) (hhi : hi ≤ hi') : Drawn env lo' hi' id :=
  h.imp fun _ hk => ⟨le_trans hlo hk.1, lt_of_lt_of_le hk.2.1 hhi, hk.2.2⟩

end Snowcat
