import Snowcat.Queue.Runs

/-!
# Lineages

A completed item may propose children, and what it may hand down is its
delegation ceiling. Both encodings of a proposal end in the same check
against the parent's ceiling (`delegated_of_checkFollowUp`), a child takes
its parent's repository and root, and `Delegated` composes, so what holds of
a child and its parent holds down every lineage. No write touches any of
these columns again; a rename moves the repository of every row that
carries it, which is the repository of a whole lineage or of none of it.
-/

namespace Snowcat

variable {env : Env} {op : Op} {lo hi : ℕ} {db db' : Db} {item item' : WorkItem}

/-! ## Ceilings -/

/-- **A row is within what another delegates**: its actions and those it may
hand on are under the other's ceiling, in the same repository and
lineage. -/
structure Delegated (child ancestor : WorkItem) : Prop where
  allowed : child.allowedActions ⊆ ancestor.delegableActions
  delegable : child.delegableActions ⊆ ancestor.delegableActions
  repository : child.repository = ancestor.repository
  root : child.rootId = ancestor.rootId

/-- Delegation composes: what a child may do its parent may hand on. -/
theorem Delegated.trans {child parent ancestor : WorkItem} (h : Delegated child parent)
    (h' : Delegated parent ancestor) : Delegated child ancestor where
  allowed := List.Subset.trans h.allowed h'.delegable
  delegable := List.Subset.trans h.delegable h'.delegable
  repository := h.repository.trans h'.repository
  root := h.root.trans h'.root

/-- **A checked follow-up is within its parent's ceiling**, whichever way its
contract was written. -/
theorem delegated_of_checkFollowUp {parent : WorkItem} {worker : String}
    {proposal : FollowUpProposalInput} {followUp : FollowUpInput}
    (h : checkFollowUp parent worker proposal = .ok followUp) (id : String) (createdAt : Time)
    (policy : Option PolicyRecord) :
    Delegated ((followUp.withId parent worker id createdAt).row policy) parent := by
  simp only [checkFollowUp, except_bind_eq_ok] at h
  obtain ⟨_, -, normalized, -, _, -, _, -, _, hallowed, _, hdelegable, hreturned⟩ := h
  obtain rfl := Except.ok.inj hreturned
  exact ⟨subset_of_assertSubset hallowed, subset_of_assertSubset hdelegable, rfl, rfl⟩

/-! ## Parents -/

/-- The parent of a row, as the table has it. -/
def IsParent (db : Db) (child parent : WorkItem) : Prop :=
  ∃ p, child.parentId = some p ∧ db.items.find? p = some parent

/-- **The proper ancestors of a row.** -/
def IsAncestor (db : Db) : WorkItem → WorkItem → Prop := Relation.TransGen (IsParent db)

/-- **The lineages of a table are in order**: a root is its own, a child is
within what its parent delegates, and the edges above every row end at a
root soon enough. -/
structure Lineage (db : Db) : Prop where
  root : ∀ item ∈ db.items.rows, item.parentId = none → item.rootId = item.id
  parent : ∀ item ∈ db.items.rows, ∀ p, item.parentId = some p →
    ∃ parent, db.items.find? p = some parent ∧ Delegated item parent
  depth : ∀ item ∈ db.items.rows, ∃ n, n ≤ maxLineageDepth ∧ Chain db item n

/-- **Ceilings hold down a lineage.** -/
theorem Lineage.delegated (h : Lineage db) {ancestor : WorkItem} (hitem : item ∈ db.items.rows)
    (hancestor : IsAncestor db item ancestor) : Delegated item ancestor := by
  have hdelegated : ∀ {child parent : WorkItem}, child ∈ db.items.rows → IsParent db child parent →
      parent ∈ db.items.rows ∧ Delegated child parent := by
    intro child parent hchild ⟨p, hp, hfind⟩
    obtain ⟨parent', hfind', hdelegated⟩ := h.parent child hchild p hp
    obtain rfl := Option.some.inj (hfind'.symm.trans hfind)
    exact ⟨Table.mem_of_find? hfind, hdelegated⟩
  suffices ancestor ∈ db.items.rows ∧ Delegated item ancestor from this.2
  induction hancestor with
  | single hparent => exact hdelegated hitem hparent
  | tail _ hparent ih =>
    obtain ⟨hmem, hstep⟩ := hdelegated ih.1 hparent
    exact ⟨hmem, ih.2.trans hstep⟩

/-- The chain above a row ends at the root its `rootId` names, in its
repository. -/
theorem Lineage.exists_root (h : Lineage db) (hitem : item ∈ db.items.rows) :
    ∃ root, db.items.find? item.rootId = some root ∧ root.parentId = none ∧
      root.repository = item.repository := by
  obtain ⟨n, -, hchain⟩ := h.depth item hitem
  induction hchain with
  | @root item hnone =>
    exact ⟨item, by rw [h.root item hitem hnone]; exact Table.find?_key hitem, hnone, rfl⟩
  | @step item parent p n hp hparent _ ih =>
    obtain ⟨parent', hparent', hdelegated⟩ := h.parent item hitem p hp
    obtain rfl := Option.some.inj (hparent'.symm.trans hparent)
    obtain ⟨root, hroot, hnone, hrepository⟩ := ih (Table.mem_of_find? hparent)
    exact ⟨root, by rw [hdelegated.root]; exact hroot, hnone,
      hrepository.trans hdelegated.repository.symm⟩

/-- The rows of one lineage are in one repository. -/
theorem Lineage.repository_eq (h : Lineage db) {other : WorkItem} (hitem : item ∈ db.items.rows)
    (hother : other ∈ db.items.rows) (hroot : other.rootId = item.rootId) :
    other.repository = item.repository := by
  obtain ⟨root, hfind, -, hrepository⟩ := h.exists_root hitem
  obtain ⟨root', hfind', -, hrepository'⟩ := h.exists_root hother
  rw [hroot, hfind] at hfind'
  obtain rfl := Option.some.inj hfind'
  rw [← hrepository', hrepository]

/-! ## What moves keep -/

/-- **A row keeps its place**: its kind, its lineage and what it may do, with
its repository moved by `ρ`. -/
structure SamePlace (ρ : String → String) (item item' : WorkItem) : Prop where
  sameId : item'.id = item.id
  parentId : item'.parentId = item.parentId
  rootId : item'.rootId = item.rootId
  kind : item'.kind = item.kind
  allowed : item'.allowedActions = item.allowedActions
  delegable : item'.delegableActions = item.delegableActions
  repository : item'.repository = ρ item.repository

theorem SamePlace.refl (item : WorkItem) : SamePlace id item item :=
  ⟨rfl, rfl, rfl, rfl, rfl, rfl, rfl⟩

/-- **No write moves a row.** -/
theorem RowMove.samePlace {ps : List Posting} (hm : RowMove env op lo hi item item' ps) :
    SamePlace id item item' := by
  cases hm <;> exact ⟨rfl, rfl, rfl, rfl, rfl, rfl, rfl⟩

/-- Where a rename moves a repository. -/
def renamedTo (source target repository : String) : String :=
  if repository = source then target else repository

theorem samePlace_renamed (source target : String) (item : WorkItem) :
    SamePlace (renamedTo source target) item (item.renamed source target) := by
  unfold WorkItem.renamed renamedTo
  split
  · next h => exact ⟨rfl, rfl, rfl, rfl, rfl, rfl, (if_pos h).symm⟩
  · next h => exact ⟨rfl, rfl, rfl, rfl, rfl, rfl, (if_neg h).symm⟩

/-- A table whose rows all kept their place, under one move of the
repositories. -/
def Realigned (ρ : String → String) (db db' : Db) : Prop :=
  ∀ id, Option.Rel (SamePlace ρ) (db.items.find? id) (db'.items.find? id)

theorem Realigned.of_find? {ρ : String → String} (h : Realigned ρ db db') {id : String}
    (hitem : db.items.find? id = some item) :
    ∃ item', db'.items.find? id = some item' ∧ SamePlace ρ item item' := by
  have hid := h id
  rw [hitem] at hid
  generalize db'.items.find? id = found at hid
  cases hid with
  | some hplace => exact ⟨_, rfl, hplace⟩

theorem Realigned.of_mem {ρ : String → String} (h : Realigned ρ db db')
    (hitem' : item' ∈ db'.items.rows) : ∃ item ∈ db.items.rows, SamePlace ρ item item' := by
  have hid := h item'.id
  rw [Table.find?_key hitem'] at hid
  generalize hfound : db.items.find? item'.id = found at hid
  cases hid with
  | some hplace => exact ⟨_, Table.mem_of_find? hfound, hplace⟩

/-- A chain is realigned with its table. -/
theorem Chain.realigned {ρ : String → String} (h : Realigned ρ db db') {n : ℕ}
    (hchain : Chain db item n) (hplace : SamePlace ρ item item') : Chain db' item' n := by
  induction hchain generalizing item' with
  | root hnone => exact .root (hplace.parentId.trans hnone)
  | step hp hparent _ ih =>
    obtain ⟨parent', hparent', hplace'⟩ := h.of_find? hparent
    exact .step (hplace.parentId.trans hp) hparent' (ih hplace')

theorem Lineage.realigned {ρ : String → String} (h : Lineage db) (hr : Realigned ρ db db') :
    Lineage db' where
  root item' hitem' hnone := by
    obtain ⟨item, hitem, hplace⟩ := hr.of_mem hitem'
    rw [hplace.rootId, hplace.sameId]
    exact h.root item hitem (hplace.parentId.symm.trans hnone)
  parent item' hitem' p hp := by
    obtain ⟨item, hitem, hplace⟩ := hr.of_mem hitem'
    obtain ⟨parent, hparent, hdelegated⟩ := h.parent item hitem p (hplace.parentId.symm.trans hp)
    obtain ⟨parent', hparent', hplace'⟩ := hr.of_find? hparent
    refine ⟨parent', hparent', ?_, ?_, ?_, ?_⟩
    · rw [hplace.allowed, hplace'.delegable]
      exact hdelegated.allowed
    · rw [hplace.delegable, hplace'.delegable]
      exact hdelegated.delegable
    · rw [hplace.repository, hplace'.repository, hdelegated.repository]
    · rw [hplace.rootId, hplace'.rootId, hdelegated.root]
  depth item' hitem' := by
    obtain ⟨item, hitem, hplace⟩ := hr.of_mem hitem'
    obtain ⟨n, hn, hchain⟩ := h.depth item hitem
    exact ⟨n, hn, hchain.realigned hr hplace⟩

/-- The lineage of a born row is in order, with the rows there are. -/
theorem Lineage.create {row : WorkItem} {posting : Posting} (h : Lineage db)
    (hbirth : Birth env op lo hi db row posting) (hfresh : db.items.find? row.id = none) :
    Lineage (db.create row hfresh posting) := by
  have hborn : (row.parentId = none → row.rootId = row.id) ∧
      (∀ p, row.parentId = some p → ∃ parent, db.items.find? p = some parent ∧
        Delegated row parent) ∧
      ∃ n, n ≤ maxLineageDepth ∧ Chain (db.create row hfresh posting) row n := by
    cases hbirth with
    | root => exact ⟨fun _ => rfl, fun _ hp => (nomatch hp), 0, Nat.zero_le _, .root rfl⟩
    | @child parent followUp worker id createdAt t policy guard =>
      obtain ⟨proposal, hchecked⟩ := guard.checked
      obtain ⟨n, hn, hchain⟩ := guard.shallow
      refine ⟨fun hnone => (nomatch hnone), fun p hp => ?_, n + 1, hn, ?_⟩
      · obtain rfl := Option.some.inj hp
        exact ⟨parent, guard.stored, delegated_of_checkFollowUp hchecked _ _ _⟩
      · exact .step rfl (Table.find?_insert_of_some hfresh guard.stored) (hchain.create hfresh)
  refine ⟨fun item hitem hnone => ?_, fun item hitem p hp => ?_, fun item hitem => ?_⟩
  · rcases (Db.mem_create hfresh).mp hitem with hitem | rfl
    · exact h.root item hitem hnone
    · exact hborn.1 hnone
  · have hparent : ∃ parent, db.items.find? p = some parent ∧ Delegated item parent := by
      rcases (Db.mem_create hfresh).mp hitem with hitem | rfl
      · exact h.parent item hitem p hp
      · exact hborn.2.1 p hp
    obtain ⟨parent, hfind, hdelegated⟩ := hparent
    exact ⟨parent, Table.find?_insert_of_some hfresh hfind, hdelegated⟩
  · rcases (Db.mem_create hfresh).mp hitem with hitem | rfl
    · obtain ⟨n, hn, hchain⟩ := h.depth item hitem
      exact ⟨n, hn, hchain.create hfresh⟩
    · exact hborn.2.2

/-- **A move realigns the table or creates a row in it.** What it realigns
by is a rename to a repository there was none of, or nothing. -/
inductive PlaceStep (env : Env) (op : Op) (lo hi : ℕ) (db : Db) : Db → Prop
  | realigns {ρ : String → String} {db' : Db} (h : Realigned ρ db db')
      (hρ : (∀ repository, ρ repository = repository) ∨
        ∃ source target, db.repositories.find? target = none ∧ ρ = renamedTo source target) :
      PlaceStep env op lo hi db db'
  | creates {row : WorkItem} {posting : Posting} (hbirth : Birth env op lo hi db row posting)
      (hfresh : db.items.find? row.id = none) :
      PlaceStep env op lo hi db (db.create row hfresh posting)

theorem Move.placeStep (hm : Move env op lo hi db db') : PlaceStep env op lo hi db db' := by
  cases hm with
  | create hbirth hfresh => exact .creates hbirth hfresh
  | @write item item' postings hitem hmove =>
    have hplace := hmove.samePlace
    have hrealigned : Realigned id db (db.write item' postings) := by
      intro other
      rw [Db.find?_write (by rw [hplace.sameId]; exact hitem)]
      split
      · next heq =>
        rw [heq, hplace.sameId, hitem]
        exact .some hplace
      · cases db.items.find? other with
        | none => exact .none
        | some row => exact .some (.refl row)
    exact .realigns hrealigned (Or.inl fun _ => rfl)
  | @repositories repositories =>
    have hrealigned : Realigned id db { db with repositories } := by
      intro other
      show Option.Rel _ (db.items.find? other) (db.items.find? other)
      cases db.items.find? other with
      | none => exact .none
      | some row => exact .some (.refl row)
    exact .realigns hrealigned (Or.inl fun _ => rfl)
  | @rename source target actor moved hfresh _ hmoved =>
    have hrealigned : Realigned (renamedTo source target) db
        (db.rename source target moved hfresh) := by
      intro other
      rw [show (db.rename source target moved hfresh).items.find? other = _ from
        Table.find?_map _ _ (WorkItem.id_renamed source target) other]
      cases db.items.find? other with
      | none => exact .none
      | some row => exact .some (samePlace_renamed source target row)
    exact .realigns hrealigned (Or.inr ⟨source, target, hmoved ▸ hfresh, rfl⟩)

theorem Lineage.move (h : Lineage db) (hm : Move env op lo hi db db') : Lineage db' := by
  cases hm.placeStep with
  | realigns hr => exact h.realigned hr
  | creates hbirth hfresh => exact h.create hbirth hfresh

theorem lineage_empty : Lineage Db.empty :=
  ⟨fun _ h => (nomatch h), fun _ h => (nomatch h), fun _ h => (nomatch h)⟩

/-- **In every reachable state the lineages are in order.** -/
theorem lineage_exec (ops : List Op) : Lineage (exec env ops).db :=
  exec_invariant lineage_empty (fun h hm => h.move hm) ops

/-! ## Continuations -/

/-- **A move keeps every row in its place**, up to a rename. -/
theorem Move.samePlace (hm : Move env op lo hi db db') {id : String}
    (hitem : db.items.find? id = some item) :
    ∃ item' ρ, db'.items.find? id = some item' ∧ SamePlace ρ item item' ∧
      ((∀ repository, ρ repository = repository) ∨
        ∃ source target actor, op = .renameRepository source target actor ∧
          ρ = renamedTo source target) := by
  cases hm.rowStep id with
  | stays hrow _ => exact ⟨item, _, hrow.trans hitem, .refl item, Or.inl fun _ => rfl⟩
  | written hfind hitem' hmove _ =>
    obtain rfl := Option.some.inj (hfind.symm.trans hitem)
    exact ⟨_, _, hitem', hmove.samePlace, Or.inl fun _ => rfl⟩
  | born hfresh _ _ _ => exact nomatch hfresh.symm.trans hitem
  | @renamed source target actor hop hrow _ =>
    rw [hitem] at hrow
    exact ⟨_, _, hrow, samePlace_renamed source target item, Or.inr ⟨source, target, actor, hop, rfl⟩⟩

/-- A row that is in its place, wherever its repository is now. -/
def KeepsPlace (item : WorkItem) (db : Db) : Prop :=
  ∃ later ρ, db.items.find? item.id = some later ∧ SamePlace ρ item later

theorem KeepsPlace.move (h : KeepsPlace item db) (hm : Move env op lo hi db db') :
    KeepsPlace item db' := by
  obtain ⟨later, ρ, hlater, hplace⟩ := h
  obtain ⟨later', ρ', hlater', hplace', -⟩ := hm.samePlace hlater
  exact ⟨later', ρ' ∘ ρ, hlater', hplace'.sameId.trans hplace.sameId,
    hplace'.parentId.trans hplace.parentId, hplace'.rootId.trans hplace.rootId,
    hplace'.kind.trans hplace.kind, hplace'.allowed.trans hplace.allowed, hplace'.delegable.trans hplace.delegable,
    hplace'.repository.trans (congrArg ρ' hplace.repository)⟩

/-- **A row keeps its place** on every continuation of a run. -/
theorem keepsPlace_append {ops : List Op} (more : List Op)
    (hitem : item ∈ (exec env ops).db.items.rows) :
    KeepsPlace item (exec env (ops ++ more)).db :=
  exec_stable (Q := fun _ => True) trivial (fun _ _ => trivial) (fun _ h hm => h.move hm) ops more
    ⟨item, _, Table.find?_key hitem, .refl item⟩

/-- What one call does to the repository of a row: a rename of it, or
nothing. -/
def RepositoryStep (op : Op) (before after : String) : Prop :=
  after = before ∨ ∃ actor, op = .renameRepository before after actor

theorem Moves.repositoryStep (h : Moves env op lo hi db db') {id : String}
    (hitem : db.items.find? id = some item) :
    ∃ later, db'.items.find? id = some later ∧ later.rootId = item.rootId ∧
      RepositoryStep op item.repository later.repository := by
  induction h with
  | refl => exact ⟨item, hitem, rfl, Or.inl rfl⟩
  | tail _ hlast ih =>
    obtain ⟨later, hlater, hroot, hstep⟩ := ih
    obtain ⟨later', ρ, hlater', hplace, hρ⟩ := hlast.samePlace hlater
    refine ⟨later', hlater', hplace.rootId.trans hroot, ?_⟩
    rw [hplace.repository]
    rcases hρ with hsame | ⟨source, target, actor, hop, rfl⟩
    · rw [hsame]
      exact hstep
    · unfold renamedTo
      split
      · next hsource =>
        -- the row carries the old slug, so nothing renamed it before
        refine Or.inr ⟨actor, ?_⟩
        rcases hstep with hsame | ⟨actor', hop'⟩
        · rw [hop, ← hsource, hsame]
        · rw [hop'] at hop
          obtain ⟨rfl, rfl, rfl⟩ := Op.renameRepository.inj hop
          exact hop'
      · exact hstep

/-- **Delegation ceilings hold down every lineage**, in every state of every
run: an item may do, and hand on, only what each of its ancestors delegates,
in the repository and the lineage of all of them; at most four edges are
above it; and none of this ever changes, except that a rename moves a
lineage's repository, and moves it for all of its items together. -/
theorem delegation_ceilings (env : Env) (ops : List Op) (item : WorkItem)
    (hitem : item ∈ (exec env ops).db.items.rows) :
    (∀ ancestor, IsAncestor (exec env ops).db item ancestor →
      item.allowedActions ⊆ ancestor.delegableActions ∧
      item.delegableActions ⊆ ancestor.delegableActions ∧
      item.repository = ancestor.repository ∧ item.rootId = ancestor.rootId) ∧
    (∃ n, n ≤ 4 ∧ Chain (exec env ops).db item n) ∧
    (∀ more : List Op, ∃ later, (exec env (ops ++ more)).db.items.find? item.id = some later ∧
      later.parentId = item.parentId ∧ later.rootId = item.rootId ∧
      later.allowedActions = item.allowedActions ∧
      later.delegableActions = item.delegableActions) ∧
    (∀ op : Op, ∃ later, (exec env (ops ++ [op])).db.items.find? item.id = some later ∧
      (later.repository = item.repository ∨
        ∃ actor, op = .renameRepository item.repository later.repository actor) ∧
      ∀ other ∈ (exec env ops).db.items.rows, other.rootId = item.rootId →
        ∃ other', (exec env (ops ++ [op])).db.items.find? other.id = some other' ∧
          other.repository = item.repository ∧ other'.repository = later.repository) := by
  have h : Lineage (exec env ops).db := lineage_exec ops
  refine ⟨fun ancestor hancestor => ?_, h.depth item hitem, fun more => ?_, fun op => ?_⟩
  · have hdelegated := h.delegated hitem hancestor
    exact ⟨hdelegated.allowed, hdelegated.delegable, hdelegated.repository, hdelegated.root⟩
  · obtain ⟨later, ρ, hlater, hplace⟩ := keepsPlace_append more hitem
    exact ⟨later, hlater, hplace.parentId, hplace.rootId, hplace.allowed, hplace.delegable⟩
  · rw [exec_concat]
    have hmoves : Moves env op _ _ (exec env ops).db (op.run env (exec env ops)).2.db :=
      step_moves op (exec env ops)
    obtain ⟨later, hlater, hroot, hrepository⟩ := hmoves.repositoryStep (Table.find?_key hitem)
    refine ⟨later, hlater, hrepository, fun other hother hsame => ?_⟩
    obtain ⟨other', hother', hroot', -⟩ := hmoves.repositoryStep (Table.find?_key hother)
    refine ⟨other', hother', h.repository_eq hitem hother hsame, ?_⟩
    have h' : Lineage (op.run env (exec env ops)).2.db := by
      rw [← exec_concat]
      exact lineage_exec (ops ++ [op])
    exact h'.repository_eq (Table.mem_of_find? hlater) (Table.mem_of_find? hother')
      (by rw [hroot', hroot, hsame])

/-- The small run goes on: the claimed item is completed, and proposes a
read-only child. -/
def sampleLineage : List Op :=
  sampleRun ++ [.complete
    { id := "uu"
      leaseToken := "uuuuuuu"
      worker := "w"
      result := ⟨"looked around", [], [], none⟩
      followUps := [
        { intent := some .readOnly
          kind := some "survey"
          objective := "look closer"
          instructions := "read"
          acceptanceCriteria := ["a report"] }] }]

/-- In that run the child is within what the root delegates. -/
theorem delegation_ceilings_sample :
    ∃ child ∈ (exec Env.sample sampleLineage).db.items.rows,
      ∃ root ∈ (exec Env.sample sampleLineage).db.items.rows, child.parentId = some root.id ∧
        child.allowedActions ⊆ root.delegableActions ∧ child.rootId = root.rootId := by
  obtain ⟨child, hchild, root, hroot, hparent⟩ :
      ∃ child ∈ (exec Env.sample sampleLineage).db.items.rows,
        ∃ root ∈ (exec Env.sample sampleLineage).db.items.rows, child.parentId = some root.id := by
    decide +kernel
  have hancestor : IsAncestor (exec Env.sample sampleLineage).db child root :=
    .single ⟨root.id, hparent, Table.find?_key hroot⟩
  obtain ⟨hallowed, -, -, hsame⟩ :=
    (delegation_ceilings Env.sample sampleLineage child hchild).1 root hancestor
  exact ⟨child, hchild, root, hroot, hparent, hallowed, hsame⟩

end Snowcat
