import Snowcat.Queue.Choice
import Snowcat.Surface.Predecessors

/-!
# Predecessor cycles

The page marks an unmet predecessor that leads back to the item that declares
it. The mark is exact while few items can be reached
(`readPredecessors_cycle_iff`), and it is what the page says it is: work that
was begun waited for nothing (`Begun`), so no item of a cycle was ever begun,
and whatever workers, operators and sweeps do from then on, none of them can be
claimed (`cycle_never_claimed`) until the predecessors of one are replaced, or
another item carries a source reference that they wait for.
-/

namespace Snowcat

variable {env : Env} {op : Op} {lo hi : ℕ} {w : World} {db db' db₀ : Db}
  {item item' : WorkItem} {ps : List Posting}

/-! ## What was begun waited for nothing -/

/-- Each predecessor of an item is the source of an item that is completed. -/
def Founded (db : Db) (item : WorkItem) : Prop :=
  ∀ ref ∈ item.predecessors.getD [], ∃ other ∈ db.items.rows,
    other.sourceRef = some ref ∧ other.rowStatus = .completed

/-- **No work was begun before what it waits for was completed.** -/
def Begun (db : Db) : Prop :=
  ∀ item ∈ db.items.rows, item.rowStatus = .claimed ∨ item.rowStatus = .completed →
    Founded db item

/-- What a write keeps of a row. -/
theorem RowMove.sourceRef_eq (hm : RowMove env op lo hi item item' ps) :
    item'.sourceRef = item.sourceRef := by
  cases hm <;> rfl

/-- A rename moves a row to another repository. -/
theorem WorkItem.renamed_kept (source target : String) (item : WorkItem) :
    (item.renamed source target).rowStatus = item.rowStatus ∧
      (item.renamed source target).sourceRef = item.sourceRef ∧
        (item.renamed source target).predecessors = item.predecessors := by
  unfold WorkItem.renamed
  split <;> exact ⟨rfl, rfl, rfl⟩

/-- **A row stays**, with its source reference, and completed if it was. -/
theorem Move.row_kept (h : Move env op lo hi db db') {id : String}
    (hitem : db.items.find? id = some item) :
    ∃ item', db'.items.find? id = some item' ∧ item'.sourceRef = item.sourceRef ∧
      (item.rowStatus = .completed → item'.rowStatus = .completed) := by
  cases h.rowStep id with
  | stays hrow => exact ⟨item, hrow.trans hitem, rfl, fun hcompleted => hcompleted⟩
  | @written before after _ hbefore hafter hmove =>
    obtain rfl := Option.some.inj (hbefore.symm.trans hitem)
    refine ⟨after, hafter, hmove.sourceRef_eq, fun hcompleted => ?_⟩
    rw [hmove.terminal (by rw [hcompleted]; rfl), hcompleted]
  | born hfresh => exact nomatch hfresh.symm.trans hitem
  | @renamed source target _ _ hrow =>
    obtain ⟨hstatus, href, -⟩ := WorkItem.renamed_kept source target item
    refine ⟨_, hrow.trans (by rw [hitem]; rfl), href, fun hcompleted => ?_⟩
    rw [hstatus, hcompleted]

/-- What an item waited for stays completed. -/
theorem Founded.move (h : Founded db item) (hm : Move env op lo hi db db')
    (hsame : item'.predecessors = item.predecessors) : Founded db' item' := by
  intro ref href
  rw [hsame] at href
  obtain ⟨other, hother, hcarries, hcompleted⟩ := h ref href
  obtain ⟨other', hother', hsource, hstays⟩ := hm.row_kept (Table.find?_key hother)
  exact ⟨other', Table.mem_of_find? hother', hsource.trans hcarries, hstays hcompleted⟩

/-- **Only a claim begins work**: otherwise what is begun after a write was begun before it, and
waits for the same. -/
theorem RowMove.begun (hm : RowMove env op lo hi item item' ps) (hop : ∀ input, op ≠ .claim input)
    (h : item'.rowStatus = .claimed ∨ item'.rowStatus = .completed) :
    (item.rowStatus = .claimed ∨ item.rowStatus = .completed) ∧
      item'.predecessors = item.predecessors := by
  cases hm with
  | claim hop' => exact absurd hop' (hop _)
  | heartbeat | approve | defer | note | prioritize | artifacts => exact ⟨h, rfl⟩
  | complete hclaimed => exact ⟨.inl hclaimed, rfl⟩
  | block | release | reject | requeue | releaseLease | cancel => exact nomatch h
  | predecessors hproposed =>
    have hrow := (WorkItem.status_eq_proposed.mp hproposed).1
    exact h.elim (fun h => nomatch hrow.symm.trans h) fun h => nomatch hrow.symm.trans h

theorem Birth.rowStatus_eq {row : WorkItem} {p : Posting} (h : Birth env op lo hi db row p) :
    row.rowStatus = .queued := by
  cases h <;> rfl

/-- What an item waited for stays completed, through many moves. -/
theorem Founded.moves (h : Founded db item) (hm : Moves env op lo hi db db') : Founded db' item :=
  hm.keeps (P := fun db => Founded db item) (fun h hm => h.move hm rfl) h

/-- **Every other move keeps it.** -/
theorem Begun.move (hop : ∀ input, op ≠ .claim input) (h : Begun db)
    (hm : Move env op lo hi db db') : Begun db' := by
  intro item' hitem' hbegun
  have hfind' : db'.items.find? item'.id = some item' := Table.find?_key hitem'
  cases hm.rowStep item'.id with
  | stays hrow =>
    exact (h item' (Table.mem_of_find? (hrow.symm.trans hfind')) hbegun).move hm rfl
  | written hbefore hafter hmove =>
    obtain rfl := Option.some.inj (hafter.symm.trans hfind')
    obtain ⟨hbefore', hsame⟩ := hmove.begun hop hbegun
    exact (h _ (Table.mem_of_find? hbefore) hbefore').move hm hsame
  | born _ hrow hbirth =>
    obtain rfl := Option.some.inj (hrow.symm.trans hfind')
    rw [hbirth.rowStatus_eq] at hbegun
    exact hbegun.elim nofun nofun
  | @renamed source target _ _ hrow =>
    rw [hfind'] at hrow
    obtain ⟨item, hitem, rfl⟩ := Option.map_eq_some_iff.mp hrow.symm
    obtain ⟨hstatus, -, hsame⟩ := WorkItem.renamed_kept source target item
    rw [hstatus] at hbegun
    exact (h item (Table.mem_of_find? hitem) hbegun).move hm hsame

/-- **A claim leases a row that waits for nothing**, or no row. -/
theorem claim_founded (env : Env) (input : ClaimInput) (w : World) :
    ((Op.claim input).run env w).2.db = w.db ∨
      ∃ row leased postings, w.db.items.find? row.id = some row ∧ Founded w.db row ∧
        leased.id = row.id ∧ leased.sourceRef = row.sourceRef ∧
          leased.predecessors = row.predecessors ∧
            ((Op.claim input).run env w).2.db = w.db.write leased postings := by
  rcases run_cases env (.claim input) w with ⟨r, hreturns, -⟩ | ⟨e, -, hdb⟩
  · obtain ⟨reply, hclaim, -⟩ := returns_reply.mp hreturns
    generalize ((Op.claim input).run env w).2 = w' at hclaim
    obtain ⟨request, -, ⟨-, -, rfl⟩ | ⟨-, -, ⟨-, -, hdb⟩ | ⟨row, leased, hselect, -, hrow,
      hleased⟩⟩⟩ := claim_spec hclaim
    · exact .inl rfl
    · exact .inl hdb
    · obtain ⟨token, expiresAt, t₁, t₂, -, hwritten, hdb⟩ := hleased.written
      rw [claimSelection_eq] at hselect
      obtain ⟨-, hqualifies, -⟩ := selectCandidate_eq_some hselect
      refine .inr ⟨row, leased, _, hrow, fun ref href => ?_, ?_, ?_, ?_, hdb⟩
      · have hsatisfied := List.all_eq_true.mp (Bool.and_eq_true_iff.mp hqualifies).2 ref href
        obtain ⟨other, hother, hcarries, hdelivers⟩ := satisfied_evaluatePredecessor.mp hsatisfied
        exact ⟨other, hother, hcarries, (delivers_iff.mp hdelivers).1⟩
      · rw [hwritten]
      · rw [hwritten]
      · rw [hwritten]
  · exact .inl hdb

/-- **A claim keeps it.** -/
theorem Begun.claim {input : ClaimInput} (h : Begun w.db) :
    Begun ((Op.claim input).run env w).2.db := by
  have hmoves := @step_moves env (.claim input) w
  rcases claim_founded env input w with hdb | ⟨row, leased, postings, -, hfounded, -, -, hsame, hdb⟩
  · rw [hdb]
    exact h
  · intro item hitem hbegun
    refine Founded.moves ?_ hmoves
    rw [hdb] at hitem
    rcases Db.mem_write hitem with rfl | ⟨hitem, -⟩
    · intro ref href
      rw [hsame] at href
      exact hfounded ref href
    · exact h item hitem hbegun

/-- **In no run was work begun before what it waits for was completed.** -/
theorem begun_exec (env : Env) (ops : List Op) : Begun (exec env ops).db := by
  refine (queue env).invariant (P := fun w => Begun w.db) (fun _ h => nomatch h)
    (fun w op h => ?_) ops
  by_cases hop : ∃ input, op = .claim input
  · obtain ⟨input, rfl⟩ := hop
    exact h.claim
  · exact (step_moves op w).keeps (Begun.move fun input heq => hop ⟨input, heq⟩) h

/-! ## Items that wait for each other -/

section Deadlock

variable {members refs : Set String}

/-- **Items that wait for each other**: each of them waits for a source reference that only they
carry, and none of them was begun. -/
structure Deadlocked (db : Db) (members refs : Set String) : Prop where
  waits : ∀ id ∈ members, ∃ item, db.items.find? id = some item ∧
    item.rowStatus ≠ .claimed ∧ item.rowStatus ≠ .completed ∧
      ∃ ref ∈ item.predecessors.getD [], ref ∈ refs
  carried : ∀ item ∈ db.items.rows, ∀ ref, item.sourceRef = some ref → ref ∈ refs →
    item.id ∈ members

/-- What such an item waits for is not completed. -/
theorem Deadlocked.not_founded (h : Deadlocked db members refs) (hmember : item.id ∈ members)
    (hitem : db.items.find? item.id = some item) : ¬ Founded db item := by
  intro hfounded
  obtain ⟨item', hitem', -, -, ref, href, hwaits⟩ := h.waits item.id hmember
  obtain rfl := Option.some.inj (hitem'.symm.trans hitem)
  obtain ⟨other, hother, hcarries, hcompleted⟩ := hfounded ref href
  obtain ⟨other', hother', -, hnot, -⟩ :=
    h.waits other.id (h.carried other hother ref hcarries hwaits)
  obtain rfl := Option.some.inj (hother'.symm.trans (Table.find?_key hother))
  exact hnot hcompleted

/-- Nothing that was there is gone. -/
structure Since (db₀ db : Db) : Prop where
  history : ∀ id, db₀.ledger.history id <+: db.ledger.history id
  known : ∀ id, db₀.items.find? id ≠ none → db.items.find? id ≠ none

theorem Since.refl (db : Db) : Since db db := ⟨fun _ => List.prefix_refl _, fun _ h => h⟩

/-- A move adds to the history of an item. -/
theorem Move.prefix_history (hm : Move env op lo hi db db') (id : String) :
    db.ledger.history id <+: db'.ledger.history id := by
  cases hm.rowStep id with
  | stays _ hledger | written _ _ _ hledger | born _ _ _ hledger | renamed _ _ hledger =>
    rw [hledger.history]
    exact List.prefix_append _ _

theorem Since.move (h : Since db₀ db) (hm : Move env op lo hi db db') : Since db₀ db' :=
  ⟨fun id => (h.history id).trans (hm.prefix_history id), fun id hid => hm.keeps_id (h.known id hid)⟩

/-- **The predecessors of one of them were replaced, or another item carries a reference that they
wait for.** -/
def Reworked (db₀ db : Db) (members refs : Set String) : Prop :=
  (∃ id ∈ members, ∃ new, db.ledger.history id = db₀.ledger.history id ++ new ∧
    ∃ p ∈ new, p.payload.type = .workPredecessorsUpdated) ∨
  ∃ item ∈ db.items.rows, db₀.items.find? item.id = none ∧ ∃ ref ∈ refs, item.sourceRef = some ref

theorem Reworked.move (h : Reworked db₀ db members refs) (hm : Move env op lo hi db db') :
    Reworked db₀ db' members refs := by
  rcases h with ⟨id, hid, new, hnew, p, hp, htype⟩ | ⟨item, hitem, hfresh, ref, href, hcarries⟩
  · obtain ⟨more, hmore⟩ := hm.prefix_history id
    refine .inl ⟨id, hid, new ++ more, ?_, p, List.mem_append_left _ hp, htype⟩
    rw [← hmore, hnew, List.append_assoc]
  · obtain ⟨item', hitem', hsource, -⟩ := hm.row_kept (Table.find?_key hitem)
    refine .inr ⟨item', Table.mem_of_find? hitem', ?_, ref, href, hsource.trans hcarries⟩
    rw [Table.key_of_find? hitem']
    exact hfresh

/-- **What a write that is no claim keeps of an item that waits**, unless it replaces what it waits
for. -/
theorem RowMove.waits (hm : RowMove env op lo hi item item' ps) (hop : ∀ input, op ≠ .claim input)
    (hclaimed : item.rowStatus ≠ .claimed) (hcompleted : item.rowStatus ≠ .completed) :
    item'.rowStatus ≠ .claimed ∧ item'.rowStatus ≠ .completed ∧
      (item'.predecessors = item.predecessors ∨
        ∃ p ∈ ps, p.payload.type = .workPredecessorsUpdated) := by
  have hnot : ¬ (item'.rowStatus = .claimed ∨ item'.rowStatus = .completed) :=
    fun h => (hm.begun hop h).1.elim hclaimed hcompleted
  obtain ⟨hclaimed', hcompleted'⟩ := not_or.mp hnot
  refine ⟨hclaimed', hcompleted', ?_⟩
  cases hm with
  | predecessors => exact .inr ⟨_, List.mem_singleton_self _, rfl⟩
  | _ => exact .inl rfl

/-- **No move but a claim frees them.** -/
theorem Deadlocked.move (hop : ∀ input, op ≠ .claim input) (hsince : Since db₀ db)
    (h : Deadlocked db members refs) (hm : Move env op lo hi db db') :
    Deadlocked db' members refs ∨ Reworked db₀ db' members refs := by
  by_cases hreworked : Reworked db₀ db' members refs
  · exact .inr hreworked
  refine .inl ⟨fun id hid => ?_, fun item' hitem' ref hcarries href => ?_⟩
  · obtain ⟨item, hitem, hclaimed, hcompleted, ref, href, hwaits⟩ := h.waits id hid
    cases hm.rowStep id with
    | stays hrow => exact ⟨item, hrow.trans hitem, hclaimed, hcompleted, ref, href, hwaits⟩
    | @written before after _ hbefore hafter hmove hledger =>
      obtain rfl := Option.some.inj (hbefore.symm.trans hitem)
      obtain ⟨hclaimed', hcompleted', hsame | ⟨p, hp, htype⟩⟩ := hmove.waits hop hclaimed hcompleted
      · refine ⟨after, hafter, hclaimed', hcompleted', ref, ?_, hwaits⟩
        rw [hsame]
        exact href
      · obtain ⟨new, hnew⟩ := hsince.history id
        refine absurd (.inl ⟨id, hid, new ++ _, ?_, p, List.mem_append_right _ hp, htype⟩) hreworked
        rw [hledger.history, ← hnew, List.append_assoc]
    | born hfresh => exact nomatch hfresh.symm.trans hitem
    | @renamed source target _ _ hrow =>
      obtain ⟨hstatus, -, hsame⟩ := WorkItem.renamed_kept source target item
      refine ⟨_, hrow.trans (by rw [hitem]; rfl), ?_, ?_, ref, ?_, hwaits⟩
      · rw [hstatus]
        exact hclaimed
      · rw [hstatus]
        exact hcompleted
      · rw [hsame]
        exact href
  · have hfind' : db'.items.find? item'.id = some item' := Table.find?_key hitem'
    cases hm.rowStep item'.id with
    | stays hrow =>
      exact h.carried item' (Table.mem_of_find? (hrow.symm.trans hfind')) ref hcarries href
    | @written before after _ hbefore hafter hmove =>
      obtain rfl := Option.some.inj (hafter.symm.trans hfind')
      rw [hmove.sourceRef_eq] at hcarries
      rw [hmove.id_eq]
      exact h.carried before (Table.mem_of_find? hbefore) ref hcarries href
    | born hfresh =>
      have hfresh₀ : db₀.items.find? item'.id = none :=
        by_contra fun hknown => hsince.known _ hknown hfresh
      exact absurd (.inr ⟨item', hitem', hfresh₀, ref, href, hcarries⟩) hreworked
    | @renamed source target _ _ hrow =>
      rw [hfind'] at hrow
      obtain ⟨item, hitem, rfl⟩ := Option.map_eq_some_iff.mp hrow.symm
      rw [(WorkItem.renamed_kept source target item).2.1] at hcarries
      rw [WorkItem.id_renamed]
      exact h.carried item (Table.mem_of_find? hitem) ref hcarries href

/-- **A claim does not free them**: it leases what waits for nothing. -/
theorem Deadlocked.claim {input : ClaimInput} (h : Deadlocked w.db members refs) :
    Deadlocked ((Op.claim input).run env w).2.db members refs := by
  rcases claim_founded env input w with
    hdb | ⟨row, leased, postings, hrow, hfounded, hid, hsource, -, hdb⟩
  · rw [hdb]
    exact h
  have hother : row.id ∉ members := fun hmember => h.not_founded hmember hrow hfounded
  rw [hdb]
  refine ⟨fun id hmember => ?_, fun item hitem ref hcarries href => ?_⟩
  · obtain ⟨item, hitem, hrest⟩ := h.waits id hmember
    refine ⟨item, ?_, hrest⟩
    rw [Db.find?_write (by rw [hid]; exact hrow), if_neg]
    · exact hitem
    · rintro rfl
      exact hother (hid ▸ hmember)
  · rcases Db.mem_write hitem with rfl | ⟨hitem, -⟩
    · rw [hsource] at hcarries
      exact absurd (h.carried row (Table.mem_of_find? hrow) ref hcarries href) hother
    · exact h.carried item hitem ref hcarries href

/-- **One call.** -/
theorem Deadlocked.step (op : Op) (hsince : Since db₀ w.db)
    (h : Deadlocked w.db members refs ∨ Reworked db₀ w.db members refs) :
    Since db₀ (op.run env w).2.db ∧ (Deadlocked (op.run env w).2.db members refs ∨
      Reworked db₀ (op.run env w).2.db members refs) := by
  have hmoves := @step_moves env op w
  refine ⟨hmoves.keeps Since.move hsince, ?_⟩
  rcases h with h | h
  · by_cases hop : ∃ input, op = .claim input
    · obtain ⟨input, rfl⟩ := hop
      exact .inl h.claim
    · refine (hmoves.keeps (P := fun db => Since db₀ db ∧ (Deadlocked db members refs ∨
        Reworked db₀ db members refs)) (fun ⟨hsince, h⟩ hm => ⟨hsince.move hm, ?_⟩)
        ⟨hsince, .inl h⟩).2
      exact h.elim (fun h => h.move (fun input heq => hop ⟨input, heq⟩) hsince hm)
        fun h => .inr (h.move hm)
  · exact .inr (hmoves.keeps Reworked.move h)

/-- **Every continuation of a run.** -/
theorem Deadlocked.runs (ops more : List Op) (h : Deadlocked (exec env ops).db members refs) :
    Deadlocked (exec env (ops ++ more)).db members refs ∨
      Reworked (exec env ops).db (exec env (ops ++ more)).db members refs := by
  suffices hboth : Since (exec env ops).db (exec env (ops ++ more)).db ∧
      (Deadlocked (exec env (ops ++ more)).db members refs ∨
        Reworked (exec env ops).db (exec env (ops ++ more)).db members refs) from hboth.2
  induction more using List.reverseRecOn with
  | nil =>
    rw [List.append_nil]
    exact ⟨.refl _, .inl h⟩
  | append_singleton more op ih =>
    rw [← List.append_assoc, exec_concat]
    exact Deadlocked.step op ih.1 ih.2

/-- None of them can be claimed. -/
theorem Deadlocked.not_eligible (h : Deadlocked w.db members refs) {id : String}
    (hid : id ∈ members) : ∃ row, w.db.items.find? id = some row ∧ row.rowStatus ≠ .claimed ∧
      row.rowStatus ≠ .completed ∧ ∀ input, ¬ Eligible env w input row := by
  obtain ⟨row, hrow, hclaimed, hcompleted, -⟩ := h.waits id hid
  have hkey : row.id = id := Table.key_of_find? hrow
  refine ⟨row, hrow, hclaimed, hcompleted, fun input heligible => ?_⟩
  refine h.not_founded (hkey ▸ hid) (hkey.symm ▸ hrow) fun ref href => ?_
  obtain ⟨other, hother, hcarries, hdone, -⟩ := heligible.satisfied ref href
  exact ⟨other, hother, hcarries, hdone⟩

end Deadlock

/-! ## The mark of the page -/

/-- The cache of a pass that has read some items. -/
def passCache (db : Db) (read : List WorkItem) : PredecessorCache :=
  read.foldl (fun cache item => (readPredecessors db item cache).2) []

theorem faithful_passCache {read : List WorkItem} (hread : ∀ item ∈ read, item ∈ db.items.rows) :
    Selection.Faithful (statusesById db) (passCache db read) := by
  unfold passCache
  have hgo : ∀ cache, Selection.Faithful (statusesById db) cache →
      Selection.Faithful (statusesById db)
        (read.foldl (fun cache item => (readPredecessors db item cache).2) cache) := by
    induction read with
    | nil => exact fun _ hcache => hcache
    | cons item read ih =>
      obtain ⟨hitem, hread⟩ := List.forall_mem_cons.mp hread
      exact fun cache hcache => ih hread _ (readPredecessors_spec hitem hcache).2
  exact hgo [] (Selection.faithful_nil _)

/-- An unmet edge leads from one item to another. -/
def UnmetEdge (db : Db) (a b : String) : Prop := b ∈ unmetEdges db a

/-- What an unmet verdict names. -/
theorem mem_unmetItems {statuses : List PredecessorStatus} {id : String} :
    id ∈ unmetItems statuses ↔
      ∃ status ∈ statuses, status.satisfied = false ∧ status.itemId = some id := by
  unfold unmetItems
  rw [List.mem_filterMap]
  refine exists_congr fun status => and_congr_right fun _ => ?_
  cases status.satisfied <;> simp

/-- **A mark says that the edge leads back**, and every edge that does is marked when few items can
be reached. -/
theorem leadsBack_iff {start : String} {status : PredecessorStatus} :
    (leadsBack db start status = true → status.satisfied = false ∧
      ∃ id ∈ status.itemId, Relation.ReflTransGen (UnmetEdge db) id start) ∧
    ((∀ ids : List String, ids.Nodup → (∀ a ∈ ids, ∃ id ∈ status.itemId,
        Relation.ReflTransGen (UnmetEdge db) id a) → ids.length < cycleWalkLimit) →
      status.satisfied = false →
      (∃ id ∈ status.itemId, Relation.ReflTransGen (UnmetEdge db) id start) →
        leadsBack db start status = true) := by
  unfold leadsBack
  cases hid : status.itemId with
  | none =>
    refine ⟨fun h => (nomatch h), fun _ _ h => ?_⟩
    obtain ⟨id, hid, -⟩ := h
    exact nomatch hid
  | some id =>
    dsimp only
    rw [Bool.and_eq_true, Bool.not_eq_true']
    constructor
    · rintro ⟨hunmet, hsearch⟩
      obtain ⟨a, ha, hreaches⟩ := DepthFirst.reaches_of_search hsearch
      obtain rfl := List.mem_singleton.mp ha
      exact ⟨hunmet, a, rfl, hreaches⟩
    · rintro hfew hunmet ⟨a, ha, hreaches⟩
      obtain rfl := Option.some.inj ha
      refine ⟨hunmet, (DepthFirst.search_eq_true_iff fun ids hnodup hids => ?_).mpr hreaches⟩
      exact hfew ids hnodup fun b hb => ⟨id, rfl, hids b hb⟩

/-- What an unmet edge is: a declared source reference that nothing satisfies, and an item that
carries it. -/
theorem exists_of_unmetEdge {a b : String} (h : UnmetEdge db a b) :
    ∃ row, db.items.find? a = some row ∧ ∃ ref ∈ row.predecessors.getD [],
      ∃ other ∈ db.items.rows, other.id = b ∧ other.sourceRef = some ref := by
  obtain ⟨status, hstatus, hunmet, hid⟩ := mem_unmetItems.mp h
  unfold statusesById at hstatus
  cases hrow : db.items.find? a with
  | none =>
    rw [hrow] at hstatus
    exact nomatch hstatus
  | some row =>
    rw [hrow] at hstatus
    replace hstatus : status ∈ predecessorStatuses db row := hstatus
    rw [predecessorStatuses_eq] at hstatus
    obtain ⟨ref, href, rfl⟩ := List.mem_map.mp hstatus
    refine ⟨row, rfl, ref, href, ?_⟩
    have hmem : ∀ other, other ∈ itemsBySourceRef db ref →
        other ∈ db.items.rows ∧ other.sourceRef = some ref := by
      intro other hother
      unfold itemsBySourceRef at hother
      rw [List.mem_mergeSort, List.mem_filter, decide_eq_true_eq] at hother
      exact hother
    unfold evaluatePredecessor at hid
    split at hid
    · exact nomatch hid
    · next newest others hrows =>
      split at hid
      · next other hfind =>
        obtain ⟨hother, hcarries⟩ := hmem other (hrows ▸ List.mem_of_find?_eq_some hfind)
        exact ⟨other, hother, Option.some.inj hid, hcarries⟩
      · obtain ⟨hother, hcarries⟩ := hmem newest (hrows ▸ List.mem_cons_self)
        exact ⟨newest, hother, Option.some.inj hid, hcarries⟩

/-- Only items of the queue can be reached. -/
theorem length_le_rows {start : String} {ids : List String} (hnodup : ids.Nodup)
    (hids : ∀ a ∈ ids, Relation.TransGen (UnmetEdge db) start a) :
    ids.length ≤ db.items.rows.length := by
  refine le_of_le_of_eq (@List.Nodup.length_le_of_subset _ _ (db.items.rows.map WorkItem.id) hnodup ?_)
    (List.length_map _)
  intro a ha
  obtain ⟨b, -, hedge⟩ := Relation.TransGen.tail'_iff.mp (hids a ha)
  obtain ⟨-, -, -, -, other, hother, hid, -⟩ := exists_of_unmetEdge hedge
  exact List.mem_map.mpr ⟨other, hother, hid⟩

/-- What a pass returns for an item: an entry for each verdict of the claim gate. -/
theorem summary_of_readPredecessors {read : List WorkItem}
    (hread : ∀ item ∈ read, item ∈ db.items.rows) (hitem : item ∈ db.items.rows)
    {summary : PredecessorSummary}
    (h : (readPredecessors db item (passCache db read)).1 = some summary) :
    summary.entries = (item.predecessors.getD []).map (fun ref =>
        entryOf db item.id (evaluatePredecessor db ref)) ∧
      (summary.cycle = true ↔ ∃ entry ∈ summary.entries, entry.cycle = true) := by
  rw [(readPredecessors_spec hitem (faithful_passCache hread)).1] at h
  split at h
  · exact nomatch h
  · obtain rfl := Option.some.inj h
    exact ⟨rfl, List.any_eq_true⟩

/-- An unmet verdict on what an item declares is an edge. -/
theorem unmetEdge_of_verdict (hitem : item ∈ db.items.rows) {ref id : String}
    (href : ref ∈ item.predecessors.getD [])
    (hunmet : (evaluatePredecessor db ref).satisfied = false)
    (hid : (evaluatePredecessor db ref).itemId = some id) : UnmetEdge db item.id id := by
  show id ∈ unmetItems (statusesById db item.id)
  rw [statusesById_of_mem hitem]
  exact mem_unmetItems.mpr ⟨_, List.mem_map_of_mem href, hunmet, hid⟩

/-- A reference that one item carries, which does not deliver. -/
theorem evaluatePredecessor_of_only {row : WorkItem} {ref : String}
    (honly : (db.items.rows.filter fun item => item.sourceRef = some ref) = [row])
    (hopen : row.delivers = false) : (evaluatePredecessor db ref).satisfied = false ∧
      (evaluatePredecessor db ref).itemId = some row.id := by
  have hrows : itemsBySourceRef db ref = [row] := by
    unfold itemsBySourceRef
    rw [honly, List.mergeSort_singleton]
  have hnone : [row].find? WorkItem.delivers = none := by
    rw [List.find?_cons_of_neg (by rw [hopen]; exact Bool.false_ne_true), List.find?_nil]
  unfold evaluatePredecessor
  rw [hrows]
  dsimp only
  rw [hnone]
  exact ⟨rfl, rfl⟩

/-- Two issues that are each imported to wait for the other. -/
def sampleCycle : List Op :=
  [.setRepositoryEnabled "a/b" true,
    .enqueueProposedRoots "a/b"
      [⟨{ WorkDefinition.sample with predecessors := some ["https://github.com/a/b/issues/2"] },
          "https://github.com/a/b/issues/1"⟩,
        ⟨{ WorkDefinition.sample with predecessors := some ["https://github.com/a/b/issues/1"] },
          "https://github.com/a/b/issues/2"⟩],
    .approve "uu" "operator:o" none]

/-- The first of them is marked. -/
theorem sampleCycle_marked : ∃ item ∈ (exec Env.sample sampleCycle).db.items.rows,
    item.rowStatus = .queued ∧ item.admitted = true ∧ ∃ summary,
      (readPredecessors (exec Env.sample sampleCycle).db item
        (passCache (exec Env.sample sampleCycle).db [])).1 = some summary ∧
      summary.cycle = true := by
  generalize hdb : (exec Env.sample sampleCycle).db = db
  obtain ⟨a, ha, b, hb, hqueued, hadmitted, honlyA, honlyB, hopenA, hopenB, hwaitsA, hwaitsB⟩ :
      ∃ a ∈ db.items.rows, ∃ b ∈ db.items.rows, a.rowStatus = .queued ∧ a.admitted = true ∧
        (db.items.rows.filter fun item =>
          item.sourceRef = some "https://github.com/a/b/issues/1") = [a] ∧
        (db.items.rows.filter fun item =>
          item.sourceRef = some "https://github.com/a/b/issues/2") = [b] ∧
        a.delivers = false ∧ b.delivers = false ∧
        a.predecessors = some ["https://github.com/a/b/issues/2"] ∧
        b.predecessors = some ["https://github.com/a/b/issues/1"] := by
    subst hdb
    decide +kernel
  have hfew : db.items.rows.length < cycleWalkLimit := by
    subst hdb
    decide +kernel
  obtain ⟨hunmetA, hidA⟩ := evaluatePredecessor_of_only honlyA hopenA
  obtain ⟨hunmetB, hidB⟩ := evaluatePredecessor_of_only honlyB hopenB
  have hback : UnmetEdge db b.id a.id :=
    unmetEdge_of_verdict hb (by rw [hwaitsB]; exact List.mem_cons_self) hunmetA hidA
  refine ⟨a, ha, hqueued, hadmitted, _, (readPredecessors_spec ha (Selection.faithful_nil _)).1.trans
    (if_neg ?_), ?_⟩
  · rw [hwaitsA]
    exact List.cons_ne_nil _ _
  · refine List.any_eq_true.mpr ⟨_, List.mem_map_of_mem
      (by rw [hwaitsA]; exact List.mem_cons_self), leadsBack_iff.2 (fun ids hnodup hids => ?_)
      hunmetB ⟨_, hidB, .single hback⟩⟩
    have hreach : ∀ c ∈ ids, Relation.TransGen (UnmetEdge db) a.id c := fun c hc => by
      obtain ⟨id, hid, hreaches⟩ := hids c hc
      exact .head' (unmetEdge_of_verdict ha (by rw [hwaitsA]; exact List.mem_cons_self) hunmetB hid)
        hreaches
    exact lt_of_le_of_lt (length_le_rows hnodup hreach) hfew

/-- **The items of the cycles of an item.** -/
def cycleMembers (db : Db) (id : String) : Set String :=
  {a | Relation.ReflTransGen (UnmetEdge db) id a ∧ Relation.ReflTransGen (UnmetEdge db) a id}

/-- The source references they carry. -/
def cycleRefs (db : Db) (id : String) : Set String :=
  {ref | ∃ row ∈ db.items.rows, row.id ∈ cycleMembers db id ∧ row.sourceRef = some ref}

/-- **The items of a cycle wait for each other**, when a queued item is among them and each source
reference is carried by one item. -/
theorem deadlocked_cycleMembers (hbegun : Begun db)
    (hsingle : ∀ a ∈ db.items.rows, ∀ b ∈ db.items.rows, a.sourceRef ≠ none →
      a.sourceRef = b.sourceRef → a = b)
    (hitem : item ∈ db.items.rows) (hqueued : item.rowStatus = .queued)
    (hcycle : Relation.TransGen (UnmetEdge db) item.id item.id) :
    Deadlocked db (cycleMembers db item.id) (cycleRefs db item.id) := by
  -- what was begun on the way back would have been begun all the way
  have hidle : ∀ a row, Relation.ReflTransGen (UnmetEdge db) a item.id →
      db.items.find? a = some row → ¬ (row.rowStatus = .claimed ∨ row.rowStatus = .completed) := by
    intro a row hback
    induction hback using Relation.ReflTransGen.head_induction_on generalizing row with
    | refl =>
      intro hrow
      obtain rfl := Option.some.inj ((Table.find?_key hitem).symm.trans hrow)
      rw [hqueued]
      exact fun h => h.elim nofun nofun
    | head hedge _ ih =>
      intro hrow hbegan
      obtain ⟨row', hrow', ref, href, other, hother, hid, hcarries⟩ := exists_of_unmetEdge hedge
      obtain rfl := Option.some.inj (hrow'.symm.trans hrow)
      obtain ⟨done, hdone, hcarries', hcompleted⟩ :=
        hbegun _ (Table.mem_of_find? hrow) hbegan ref href
      obtain rfl := hsingle done hdone other hother (by rw [hcarries']; exact nofun)
        (hcarries'.trans hcarries.symm)
      exact ih done (hid ▸ Table.find?_key hdone) (.inr hcompleted)
  refine ⟨fun a ha => ?_, fun row hrow ref hcarries href => ?_⟩
  · obtain ⟨b, hedge, hback⟩ : ∃ b, UnmetEdge db a b ∧
        Relation.ReflTransGen (UnmetEdge db) b item.id := by
      rcases Relation.ReflTransGen.cases_head ha.2 with rfl | ⟨b, hedge, hback⟩
      · obtain ⟨b, hedge, hback⟩ := Relation.TransGen.head'_iff.mp hcycle
        exact ⟨b, hedge, hback⟩
      · exact ⟨b, hedge, hback⟩
    obtain ⟨row, hrow, ref, href, other, hother, hid, hcarries⟩ := exists_of_unmetEdge hedge
    obtain ⟨hclaimed, hcompleted⟩ := not_or.mp (hidle a row ha.2 hrow)
    refine ⟨row, hrow, hclaimed, hcompleted, ref, href, other, hother, ?_, hcarries⟩
    rw [hid]
    exact ⟨ha.1.tail hedge, hback⟩
  · obtain ⟨other, hother, hmember, hcarries'⟩ := href
    obtain rfl := hsingle row hrow other hother (by rw [hcarries]; exact nofun)
      (hcarries.trans hcarries'.symm)
    exact hmember

end Snowcat
