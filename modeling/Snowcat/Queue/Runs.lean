import Snowcat.Queue.Refinement

/-!
# Proving things about runs

The rules behind every result about the queue. A property of the tables
that every move keeps holds after every run (`exec_invariant`); a property
of a row and of what the ledger says about it holds of every row when it
holds of every born row and every write keeps it (`row_invariant`). Both
come from one description of what a move does to the row of one id
(`Move.rowStep`), and every history is put together from the postings of
the writes that made it.
-/

namespace Snowcat

variable {env : Env} {op : Op} {lo hi : ℕ} {db db' : Db}

/-! ## What a move does to one row -/

/-- **A move, seen from one id.** -/
inductive RowStep (env : Env) (op : Op) (lo hi : ℕ) (db db' : Db) (id : String) : Prop
  | stays (hrow : db'.items.find? id = db.items.find? id)
      (hledger : db.ledger.Adds db'.ledger id [])
  | written {item item' : WorkItem} {postings : List Posting}
      (hitem : db.items.find? id = some item) (hitem' : db'.items.find? id = some item')
      (hmove : RowMove env op lo hi item item' postings)
      (hledger : db.ledger.Adds db'.ledger id postings)
  | born {row : WorkItem} {posting : Posting} (hfresh : db.items.find? id = none)
      (hrow : db'.items.find? id = some row) (hbirth : Birth env op lo hi db row posting)
      (hledger : db.ledger.Adds db'.ledger id [posting])
  | renamed {source target actor : String} (hop : op = .renameRepository source target actor)
      (hrow : db'.items.find? id = (db.items.find? id).map (WorkItem.renamed source target))
      (hledger : db.ledger.Adds db'.ledger id [])

/-- A write keeps the id of its row. -/
theorem RowMove.id_eq {item item' : WorkItem} {postings : List Posting}
    (h : RowMove env op lo hi item item' postings) : item'.id = item.id := by
  cases h <;> rfl

theorem Move.rowStep (h : Move env op lo hi db db') (id : String) :
    RowStep env op lo hi db db' id := by
  cases h with
  | @write item item' postings hitem hmove =>
    have hid : item'.id = item.id := hmove.id_eq
    have hstored : db.items.find? item'.id = some item := by rwa [hid]
    by_cases heq : id = item'.id
    · subst heq
      exact .written hstored ((Db.find?_write hstored _).trans (if_pos rfl)) hmove
        (Ledger.adds_postAll ..)
    · exact .stays ((Db.find?_write hstored id).trans (if_neg heq))
        (Ledger.adds_postAll_of_ne _ _ heq)
  | @create row posting hbirth hfresh =>
    by_cases heq : id = row.id
    · subst heq
      exact .born hfresh ((Db.find?_create hfresh _).trans (if_pos rfl)) hbirth
        (Ledger.adds_postAll _ _ [posting])
    · exact .stays ((Db.find?_create hfresh id).trans (if_neg heq))
        (Ledger.adds_postAll_of_ne _ [posting] heq)
  | repositories h => exact .stays rfl (Ledger.Adds.refl _ _)
  | rename hop hmoved hsource =>
    exact .renamed hop (Table.find?_map _ _ (WorkItem.id_renamed _ _) id)
      (Ledger.Adds.refl _ _)

/-! ## Invariants of the tables -/

/-- What every move keeps is kept by a sequence of moves. -/
theorem Moves.keeps {P : Db → Prop}
    (hmove : ∀ {db db' : Db}, P db → Move env op lo hi db db' → P db')
    (h : Moves env op lo hi db db') (hdb : P db) : P db' := by
  induction h with
  | refl => exact hdb
  | tail _ hlast ih => exact hmove ih hlast

/-- **The invariant rule**, for the runs of calls that meet a condition. -/
theorem exec_invariant_on {P : Db → Prop} {C : Op → Prop} (hempty : P Db.empty)
    (hmove : ∀ {op : Op} {lo hi : ℕ} {db db' : Db}, C op → P db → Move env op lo hi db db' → P db')
    {ops : List Op} (hops : ∀ op ∈ ops, C op) : P (exec env ops).db :=
  (queue env).invariant_on (P := fun w => P w.db) hempty
    (fun w op hop hw => (step_moves op w).keeps (hmove hop) hw) hops

/-- The invariant rule, for every run. -/
theorem exec_invariant {P : Db → Prop} (hempty : P Db.empty)
    (hmove : ∀ {op : Op} {lo hi : ℕ} {db db' : Db}, P db → Move env op lo hi db db' → P db')
    (ops : List Op) : P (exec env ops).db :=
  exec_invariant_on (C := fun _ => True) hempty (fun _ => hmove) fun _ _ => trivial

/-- **What no move loses is kept** by every continuation of a run. -/
theorem exec_stable {P Q : Db → Prop} (hQempty : Q Db.empty)
    (hQ : ∀ {op : Op} {lo hi : ℕ} {db db' : Db}, Q db → Move env op lo hi db db' → Q db')
    (hmove : ∀ {op : Op} {lo hi : ℕ} {db db' : Db}, Q db → P db → Move env op lo hi db db' → P db')
    (ops more : List Op) (h : P (exec env ops).db) : P (exec env (ops ++ more)).db :=
  ((queue env).stable (P := fun w => Q w.db ∧ P w.db) (Q := fun w => Q w.db)
    (fun is => exec_invariant hQempty hQ is)
    (fun w op _ h => (step_moves op w).keeps (P := fun db => Q db ∧ P db)
      (fun h hm => ⟨hQ h.1 hm, hmove h.1 h.2 hm⟩) h) ops more
    ⟨exec_invariant hQempty hQ ops, h⟩).2

/-! ## The ledger -/

/-- Every event is about an item there is. -/
def Recorded (db : Db) : Prop := ∀ e ∈ db.ledger.events, db.items.find? e.workItemId ≠ none

/-- No item disappears. -/
theorem Move.keeps_id (h : Move env op lo hi db db') {id : String}
    (hid : db.items.find? id ≠ none) : db'.items.find? id ≠ none := by
  cases h.rowStep id with
  | stays hrow _ => rwa [hrow]
  | written _ hitem' _ _ => exact fun hnone => nomatch hitem'.symm.trans hnone
  | born _ hrow _ _ => exact fun hnone => nomatch hrow.symm.trans hnone
  | renamed _ hrow _ =>
    rw [hrow]
    simpa using hid

/-- No event disappears. -/
theorem Move.prefix_events (h : Move env op lo hi db db') :
    db.ledger.events <+: db'.ledger.events := by
  cases h with
  | write => exact Ledger.prefix_postAll ..
  | create => exact List.prefix_append ..
  | repositories => exact List.prefix_refl _
  | rename => exact List.prefix_refl _

theorem Moves.prefix_events (h : Moves env op lo hi db db') :
    db.ledger.events <+: db'.ledger.events := by
  induction h with
  | refl => exact List.prefix_refl _
  | tail _ hlast ih => exact ih.trans hlast.prefix_events

/-- An item with a history is an item there is. -/
theorem recorded_iff : Recorded db ↔ ∀ id, db.items.find? id = none → db.ledger.history id = [] := by
  constructor
  · intro h id hnone
    rw [Ledger.history, List.map_eq_nil_iff, List.eq_nil_iff_forall_not_mem]
    intro e he
    obtain ⟨hmem, hid⟩ := Ledger.mem_of.mp he
    exact h e hmem (hid ▸ hnone)
  · intro h e he hnone
    have hnil := h e.workItemId hnone
    rw [Ledger.history, List.map_eq_nil_iff] at hnil
    exact List.not_mem_nil (hnil ▸ Ledger.mem_of.mpr ⟨he, rfl⟩)

theorem Recorded.move (h : Recorded db) (hm : Move env op lo hi db db') : Recorded db' := by
  rw [recorded_iff] at h ⊢
  intro id hnone
  cases hm.rowStep id with
  | stays hrow hledger =>
    rw [hledger.history, List.append_nil]
    exact h id (hrow ▸ hnone)
  | written _ hitem' _ _ => exact nomatch hitem'.symm.trans hnone
  | born _ hrow _ _ => exact nomatch hrow.symm.trans hnone
  | renamed _ hrow hledger =>
    rw [hledger.history, List.append_nil]
    rw [hrow, Option.map_eq_none_iff] at hnone
    exact h id hnone

theorem recorded_empty : Recorded Db.empty := fun _ he => nomatch he

/-- A born row's history is its first event. -/
theorem history_of_born {id : String} {posting : Posting} (h : Recorded db)
    (hfresh : db.items.find? id = none)
    (hledger : db.ledger.Adds db'.ledger id [posting]) : db'.ledger.history id = [posting] := by
  rw [hledger.history, recorded_iff.mp h id hfresh]
  rfl

/-! ## Invariants of a row and its history -/

/-- A property of each row and its history. -/
def EveryRow (P : WorkItem → List Posting → Prop) (db : Db) : Prop :=
  ∀ item ∈ db.items.rows, P item (db.ledger.history item.id)

section RowRule

variable {P : WorkItem → List Posting → Prop}

/-- One move keeps a property of rows. -/
theorem EveryRow.move
    (hbirth : ∀ {db : Db} {row : WorkItem} {p : Posting},
      Birth env op lo hi db row p → P row [p])
    (hwrite : ∀ {item item' : WorkItem} {ps hist : List Posting},
      P item hist → RowMove env op lo hi item item' ps → P item' (hist ++ ps))
    (hrename : ∀ {source target : String} {item : WorkItem} {hist : List Posting},
      P item hist → P (item.renamed source target) hist)
    (hrecorded : Recorded db) (h : EveryRow P db) (hm : Move env op lo hi db db') :
    EveryRow P db' := by
  intro item' hitem'
  have hfind' : db'.items.find? item'.id = some item' := Table.find?_key hitem'
  have hP : ∀ {item}, db.items.find? item'.id = some item →
      P item (db.ledger.history item'.id) := fun hfind => by
    have := h _ (Table.mem_of_find? hfind)
    rwa [Table.key_of_find? hfind] at this
  cases hm.rowStep item'.id with
  | stays hrow hledger =>
    rw [hledger.history, List.append_nil]
    exact hP (hrow.symm.trans hfind')
  | written hitem hwritten hmove hledger =>
    obtain rfl := Option.some.inj (hwritten.symm.trans hfind')
    rw [hledger.history]
    exact hwrite (hP hitem) hmove
  | born hfresh hrow hborn hledger =>
    obtain rfl := Option.some.inj (hrow.symm.trans hfind')
    rw [history_of_born hrecorded hfresh hledger]
    exact hbirth hborn
  | renamed _ hrow hledger =>
    rw [hledger.history, List.append_nil]
    rw [hfind'] at hrow
    obtain ⟨item, hitem, rfl⟩ := Option.map_eq_some_iff.mp hrow.symm
    exact hrename (hP hitem)

/-- **The invariant rule for rows**: what is true of a born row and its
first event, and kept by every write and by a rename, is true of every row
and its history in every state of a run of calls that meet the condition
the births and the writes need. -/
theorem row_invariant_on {C : Op → Prop}
    (hbirth : ∀ {op : Op} {lo hi : ℕ} {db : Db} {row : WorkItem} {p : Posting}, C op →
      Birth env op lo hi db row p → P row [p])
    (hwrite : ∀ {op : Op} {lo hi : ℕ} {item item' : WorkItem} {ps hist : List Posting}, C op →
      P item hist → RowMove env op lo hi item item' ps → P item' (hist ++ ps))
    (hrename : ∀ {source target : String} {item : WorkItem} {hist : List Posting},
      P item hist → P (item.renamed source target) hist)
    {ops : List Op} (hops : ∀ op ∈ ops, C op) : EveryRow P (exec env ops).db :=
  (exec_invariant_on (P := fun db => Recorded db ∧ EveryRow P db)
    ⟨recorded_empty, fun _ h => nomatch h⟩
    (fun hop h hm => ⟨h.1.move hm, h.2.move (hbirth hop) (hwrite hop) hrename h.1 hm⟩) hops).2

/-- The invariant rule for rows, for every run. -/
theorem row_invariant
    (hbirth : ∀ {op : Op} {lo hi : ℕ} {db : Db} {row : WorkItem} {p : Posting},
      Birth env op lo hi db row p → P row [p])
    (hwrite : ∀ {op : Op} {lo hi : ℕ} {item item' : WorkItem} {ps hist : List Posting},
      P item hist → RowMove env op lo hi item item' ps → P item' (hist ++ ps))
    (hrename : ∀ {source target : String} {item : WorkItem} {hist : List Posting},
      P item hist → P (item.renamed source target) hist)
    (ops : List Op) : EveryRow P (exec env ops).db :=
  row_invariant_on (C := fun _ => True) (fun _ => hbirth) (fun _ => hwrite) hrename fun _ _ => trivial

end RowRule

/-! ## The steps of a run -/

/-- An entry of a run is a call from the state some prefix of it reached. -/
theorem mem_steps {ops : List Op} {e : Machine.Entry World Op Outcome} (h : e ∈ steps env ops) :
    ∃ pre post, ops = pre ++ e.input :: post ∧ e = (queue env).entry (exec env pre) e.input :=
  (queue env).mem_trace h

/-- A step of a run is the call of its input. -/
theorem next_of_mem_steps {ops : List Op} {e : Machine.Entry World Op Outcome}
    (h : e ∈ steps env ops) : e.next = (e.input.run env e.before).2 := by
  obtain ⟨pre, post, -, he⟩ := mem_steps h
  rw [he]
  rfl

/-- A step of a run is a sequence of moves. -/
theorem moves_of_mem_steps {ops : List Op} {e : Machine.Entry World Op Outcome}
    (h : e ∈ steps env ops) :
    Moves env e.input e.before.ticks e.next.ticks e.before.db e.next.db := by
  rw [next_of_mem_steps h]
  exact step_moves e.input e.before

theorem exec_concat (ops : List Op) (op : Op) :
    exec env (ops ++ [op]) = (op.run env (exec env ops)).2 :=
  (queue env).run_concat ops op

/-- The ticks only move forward on a continuation. -/
theorem ticks_le_exec (ops more : List Op) : (exec env ops).ticks ≤ (exec env (ops ++ more)).ticks :=
  (queue env).stable (P := fun w => (exec env ops).ticks ≤ w.ticks) (Q := fun _ => True)
    (fun _ => trivial) (fun w op _ h => le_trans h ((op_grows env op).le w)) ops more le_rfl

/-- Every continuation of a run continues its ledger. -/
theorem prefix_events_exec (ops more : List Op) :
    (exec env ops).db.ledger.events <+: (exec env (ops ++ more)).db.ledger.events :=
  (queue env).stable (P := fun w => (exec env ops).db.ledger.events <+: w.db.ledger.events)
    (Q := fun _ => True) (fun _ => trivial)
    (fun w op _ h => h.trans (step_moves op w).prefix_events) ops more (List.prefix_refl _)

/-- **The tick windows of different steps of a run are disjoint.** -/
theorem windows_steps {ops : List Op} {e f : Machine.Entry World Op Outcome}
    (he : e ∈ steps env ops) (hf : f ∈ steps env ops) (hne : e ≠ f) :
    e.next.ticks ≤ f.before.ticks ∨ f.next.ticks ≤ e.before.ticks :=
  (queue env).windows_trace (fun w op => (op_grows env op).le w) he hf hne

/-! ## A small run

One environment and one run that the inhabitants of the hypotheses below are
taken from. -/

/-- An environment whose clock moves a second a tick and whose UUIDs are all
different, without hooks. Every HTTPS text is a URL of it. -/
def Env.sample : Env where
  clock k := k * 1000
  randomUUID k := String.ofList (List.replicate (k + 1) 'u')
  policyAuthority := none
  claimEligibility := none
  parseUrl s := if startsWith s "https://" = true then
    some ⟨"https:", "", "", "github.com", "", "/a/b/pull/1", "", ""⟩ else none
  decodeURIComponent := some

/-- The UUIDs of the small run are fresh. -/
theorem Env.sample_injective : Function.Injective Env.sample.randomUUID := by
  intro k l h
  have := congrArg (fun s => s.toList.length) h
  simpa [Env.sample] using this

/-- A read-only root that may propose follow-ups. -/
def WorkDefinition.sample : WorkDefinition where
  kind := "discovery"
  objective := "look around"
  instructions := "read"
  acceptanceCriteria := ["a report"]
  allowedActions := [.read, .createFollowup]
  delegableActions := [.read]
  executionTarget := some .readOnly
  createdBy := "operator:o"

/-- A repository is opted in, a root is seeded, and a worker claims it. -/
def sampleRun : List Op :=
  [.setRepositoryEnabled "a/b" true, .enqueueSeed "a/b" .sample, .claim { worker := "w" }]

end Snowcat
