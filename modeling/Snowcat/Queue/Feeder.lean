import Snowcat.Queue.Lineage
import Snowcat.Queue.Representation

/-!
# One active lineage per program

The feeder creates a root of a kind only where no lineage of that kind is
active, and it asks inside the transaction that creates it. That one test is
enough for the whole life of the lineage. A lineage that is over stays over:
a terminal status is final, and a child is born to a claimed parent only. No
two repositories ever become one, since a rename needs a slug nobody has. So
two active roots of one kind in one repository would both have been there
when the later one was created – and then it was not created.
-/

namespace Snowcat

variable {env : Env} {op : Op} {lo hi : ℕ} {db db' : Db} {item item' : WorkItem}

/-! ## Repositories are told apart -/

/-- Every item is in a repository there is. -/
def Known (db : Db) : Prop := ∀ item ∈ db.items.rows, db.repositories.find? item.repository ≠ none

theorem Known.move (h : Known db) (hm : Move env op lo hi db db') : Known db' := by
  cases hm with
  | @write item item' postings hitem hmove =>
    intro other hother
    rcases Db.mem_write hother with rfl | ⟨hother, -⟩
    · rw [hmove.samePlace.repository]
      exact h item (Table.mem_of_find? hitem)
    · exact h other hother
  | @create row posting hbirth hfresh =>
    intro other hother
    rcases (Db.mem_create hfresh).mp hother with hother | rfl
    · exact h other hother
    · cases hbirth with
      | root guard => exact guard.known
      | child guard => exact guard.known
  | repositories hknown => exact fun other hother => hknown _ (h other hother)
  | @rename source target actor moved hfresh _ hmoved hsource =>
    intro other hother
    obtain ⟨item, hitem, rfl⟩ := List.mem_map.mp hother
    have hfound : ∀ {slug : String}, (db.repositories.insert moved hfresh).find? slug ≠ none →
        slug ≠ source → ((db.repositories.insert moved hfresh).delete source).find? slug ≠ none := by
      intro slug hslug hne
      obtain ⟨row, hrow⟩ := Option.ne_none_iff_exists'.mp hslug
      rw [Table.find?_delete_of_ne hrow hne]
      exact Option.some_ne_none row
    refine hfound ?_ ?_
    · rw [Table.find?_insert]
      split
      · exact Option.some_ne_none moved
      · next hne =>
        rw [(samePlace_renamed source target item).repository] at hne ⊢
        unfold renamedTo at hne ⊢
        split at hne
        · exact absurd hmoved.symm hne
        · next hother => rw [if_neg hother]; exact h item hitem
    · rw [(samePlace_renamed source target item).repository]
      unfold renamedTo
      split
      · rintro rfl
        exact hsource (hmoved ▸ hfresh)
      · next hne => exact hne

theorem known_empty : Known Db.empty := fun _ h => nomatch h

/-- What a move realigns by keeps repositories apart. -/
theorem Known.repository_eq (h : Known db) {ρ : String → String} {x y : WorkItem}
    (hρ : (∀ repository, ρ repository = repository) ∨
      ∃ source target, db.repositories.find? target = none ∧ ρ = renamedTo source target)
    (hx : x ∈ db.items.rows) (hy : y ∈ db.items.rows) (heq : ρ x.repository = ρ y.repository) :
    x.repository = y.repository := by
  rcases hρ with hsame | ⟨source, target, hfresh, rfl⟩
  · rwa [hsame, hsame] at heq
  · have hne : ∀ {row : WorkItem}, row ∈ db.items.rows → row.repository ≠ target :=
      fun hrow hrow' => h _ hrow (hrow' ▸ hfresh)
    unfold renamedTo at heq
    split at heq <;> split at heq
    · next hx' hy' => rw [hx', hy']
    · exact absurd heq.symm (hne hy)
    · exact absurd heq (hne hx)
    · exact heq

/-! ## Active roots -/

/-- **A root is active** while some item of its lineage is not finished:
proposed, queued, claimed or blocked. -/
def ActiveRoot (db : Db) (id : String) : Prop :=
  ∃ item ∈ db.items.rows, item.rootId = id ∧ item.rowStatus.isTerminal = false

instance (db : Db) (id : String) : Decidable (ActiveRoot db id) :=
  inferInstanceAs (Decidable (∃ item ∈ db.items.rows, _))

/-- A row that is not finished was not finished before. -/
theorem Move.active (hm : Move env op lo hi db db') (hitem : db.items.find? item.id = some item)
    (hitem' : db'.items.find? item.id = some item') (h : item'.rowStatus.isTerminal = false) :
    item.rowStatus.isTerminal = false := by
  by_contra hfinished
  rw [Bool.not_eq_false] at hfinished
  have hkept : Finished item.id item.rowStatus db' :=
    Finished.move ⟨hfinished, item, hitem, rfl⟩ hm
  obtain ⟨-, later, hlater, hstatus⟩ := hkept
  obtain rfl := Option.some.inj (hlater.symm.trans hitem')
  rw [hstatus, hfinished] at h
  exact nomatch h

/-- **No move makes a root active that there was.** A new child is born in the
lineage of its parent, which is claimed. -/
theorem ActiveRoot.of_move (hm : Move env op lo hi db db') {id : String}
    (hid : db.items.find? id ≠ none) (h : ActiveRoot db' id) : ActiveRoot db id := by
  obtain ⟨item', hitem', hroot, hactive⟩ := h
  cases hm.placeStep with
  | realigns hr =>
    obtain ⟨item, hitem, hplace⟩ := hr.of_mem hitem'
    refine ⟨item, hitem, hplace.rootId.symm.trans hroot, ?_⟩
    exact hm.active (Table.find?_key hitem) (hplace.sameId ▸ Table.find?_key hitem') hactive
  | @creates row posting hbirth hfresh =>
    rcases (Db.mem_create hfresh).mp hitem' with hitem' | rfl
    · exact ⟨item', hitem', hroot, hactive⟩
    · cases hbirth with
      | root => exact absurd (hroot ▸ hfresh) hid
      | child guard =>
        refine ⟨_, Table.mem_of_find? guard.stored, hroot, ?_⟩
        rw [guard.claimed]
        rfl

/-- The root of an active lineage is in the repository of its items. -/
theorem ActiveRoot.exists_item (hlineage : Lineage db) {root : WorkItem}
    (hroot : db.items.find? root.id = some root) (h : ActiveRoot db root.id) :
    ∃ item ∈ db.items.rows, item.repository = root.repository ∧
      item.rowStatus.isTerminal = false ∧ db.items.find? item.rootId = some root := by
  obtain ⟨item, hitem, hid, hactive⟩ := h
  obtain ⟨root', hroot', -, hrepository⟩ := hlineage.exists_root hitem
  rw [hid, hroot] at hroot'
  obtain rfl := Option.some.inj hroot'
  exact ⟨item, hitem, hrepository.symm, hactive, by rw [hid]; exact hroot⟩

/-- Where a kind is inactive, no root of it is active. -/
theorem Db.Inactive.not_active {repository kind : String} (h : db.Inactive repository kind)
    (hlineage : Lineage db) {root : WorkItem} (hroot : db.items.find? root.id = some root)
    (hrepository : root.repository = repository) (hkind : root.kind = kind) :
    ¬ ActiveRoot db root.id := by
  intro hactive
  obtain ⟨item, hitem, hsame, hunfinished, hfind⟩ := hactive.exists_item hlineage hroot
  exact h item hitem (hsame.trans hrepository) hunfinished root hfind hkind

/-- A new row that is an active root was created as one. -/
theorem Birth.of_activeRoot (hlineage : Lineage db) {row : WorkItem} {posting : Posting}
    (hbirth : Birth env op lo hi db row posting) (hfresh : db.items.find? row.id = none)
    (h : ActiveRoot (db.create row hfresh posting) row.id) :
    op.isBatch = true → db.Inactive row.repository row.kind := by
  cases hbirth with
  | root guard => exact guard.inactive
  | child guard =>
    -- a child's lineage has another root, so nothing has the child for one
    obtain ⟨root, hroot, -⟩ := hlineage.exists_root (Table.mem_of_find? guard.stored)
    obtain ⟨item, hitem, hid, -⟩ := h
    rcases (Db.mem_create hfresh).mp hitem with hitem | rfl
    · obtain ⟨root', hroot', -⟩ := hlineage.exists_root hitem
      exact nomatch hfresh.symm.trans ((congrArg db.items.find? hid).symm.trans hroot')
    · exact nomatch hfresh.symm.trans ((congrArg db.items.find? hid).symm.trans hroot)

/-! ## One of them -/

/-- **The active roots among some are told apart** by their repository and
their kind. -/
def OneActive (S : String → Prop) (db : Db) : Prop :=
  ∀ x ∈ db.items.rows, ∀ y ∈ db.items.rows, S x.id → S y.id → x.repository = y.repository →
    x.kind = y.kind → ActiveRoot db x.id → ActiveRoot db y.id → x.id = y.id

/-- A move keeps the active roots apart when those it creates among them are
the feeder's. -/
theorem OneActive.move {S : String → Prop} (h : OneActive S db) (hlineage : Lineage db)
    (hknown : Known db) (hm : Move env op lo hi db db')
    (hfed : ∀ id, S id → db.items.find? id = none → op.isBatch = true) : OneActive S db' := by
  intro x' hx' y' hy' hSx hSy hrepository hkind hactivex hactivey
  cases hm.placeStep with
  | realigns hr hρ =>
    obtain ⟨x, hx, hplacex⟩ := hr.of_mem hx'
    obtain ⟨y, hy, hplacey⟩ := hr.of_mem hy'
    rw [hplacex.sameId] at hSx hactivex ⊢
    rw [hplacey.sameId] at hSy hactivey ⊢
    rw [hplacex.repository, hplacey.repository] at hrepository
    rw [hplacex.kind, hplacey.kind] at hkind
    have hthere : ∀ {row : WorkItem}, row ∈ db.items.rows → db.items.find? row.id ≠ none :=
      fun hrow hnone => nomatch (Table.find?_key hrow).symm.trans hnone
    exact h x hx y hy hSx hSy (hknown.repository_eq hρ hx hy hrepository) hkind
      (hactivex.of_move hm (hthere hx)) (hactivey.of_move hm (hthere hy))
  | @creates row posting hbirth hfresh =>
    have hold : ∀ {other : WorkItem}, other ∈ db.items.rows →
        ActiveRoot (db.create row hfresh posting) other.id → ActiveRoot db other.id :=
      fun hother hactive => hactive.of_move hm fun hnone =>
        nomatch (Table.find?_key hother).symm.trans hnone
    -- the new root is created where nothing is active, so the other one is not
    have hnew : ∀ {other : WorkItem}, other ∈ db.items.rows → S row.id →
        other.repository = row.repository → other.kind = row.kind →
        ActiveRoot (db.create row hfresh posting) row.id →
        ¬ ActiveRoot (db.create row hfresh posting) other.id := by
      intro other hother hS hsame hsamekind hactive hother'
      exact (hbirth.of_activeRoot hlineage hfresh hactive (hfed row.id hS hfresh)).not_active
        hlineage (Table.find?_key hother) hsame hsamekind (hold hother hother')
    rcases (Db.mem_create hfresh).mp hx' with hx | rfl <;>
      rcases (Db.mem_create hfresh).mp hy' with hy | rfl
    · exact h x' hx y' hy hSx hSy hrepository hkind (hold hx hactivex) (hold hy hactivey)
    · exact absurd hactivex (hnew hx hSy hrepository hkind hactivey)
    · exact absurd hactivey (hnew hy hSx hrepository.symm hkind.symm hactivex)
    · rfl

/-- A step creates the item of an id. -/
def Creates (e : Machine.Entry World Op Outcome) (id : String) : Prop :=
  e.before.db.items.find? id = none ∧ e.next.db.items.find? id ≠ none

instance (e : Machine.Entry World Op Outcome) (id : String) : Decidable (Creates e id) :=
  inferInstanceAs (Decidable (_ ∧ _))

/-- One step keeps the active roots apart. -/
theorem OneActive.step {S : String → Prop} {w : World} (h : OneActive S w.db)
    (hlineage : Lineage w.db) (hknown : Known w.db) (op : Op)
    (hfed : ∀ id, S id → Creates ((queue env).entry w op) id → op.isBatch = true) :
    OneActive S (op.run env w).2.db := by
  -- of the ids in question the step creates those it does as the feeder's
  let T : String → Prop := fun id => S id ∧ (op.isBatch = true ∨ w.db.items.find? id ≠ none)
  have hkept : OneActive T (op.run env w).2.db ∧ Lineage (op.run env w).2.db ∧
      Known (op.run env w).2.db ∧
      ∀ id, w.db.items.find? id ≠ none → (op.run env w).2.db.items.find? id ≠ none := by
    refine (step_moves op w).keeps (P := fun db => OneActive T db ∧ Lineage db ∧ Known db ∧
      ∀ id, w.db.items.find? id ≠ none → db.items.find? id ≠ none) ?_ ⟨?_, hlineage, hknown, fun _ h => h⟩
    · intro db db' ⟨hone, hlineage, hknown, hthere⟩ hm
      refine ⟨hone.move hlineage hknown hm fun id hT hfresh => ?_, hlineage.move hm, hknown.move hm,
        fun id hid => hm.keeps_id (hthere id hid)⟩
      exact hT.2.resolve_right fun hid => hthere id hid hfresh
    · intro x hx y hy hTx hTy
      exact h x hx y hy hTx.1 hTy.1
  intro x hx y hy hSx hSy
  have hT : ∀ {row : WorkItem}, row ∈ (op.run env w).2.db.items.rows → S row.id → T row.id := by
    intro row hrow hS
    refine ⟨hS, ?_⟩
    by_cases hfresh : w.db.items.find? row.id = none
    · refine Or.inl (hfed row.id hS ⟨hfresh, fun hnone => ?_⟩)
      exact nomatch (Table.find?_key hrow).symm.trans hnone
    · exact Or.inr hfresh
  exact hkept.1 x hx y hy (hT hx hSx) (hT hy hSy)

/-- **The rule for runs**: when the feeder's steps are the only ones that
create the roots in question, their active ones are told apart. -/
theorem oneActive_exec {S : String → Prop} {ops : List Op}
    (hfed : ∀ e ∈ steps env ops, ∀ id, S id → Creates e id → e.input.isBatch = true) :
    OneActive S (exec env ops).db := by
  have hhistory := (queue env).history
    (P := fun trace w => (∀ e ∈ trace, ∀ id, S id → Creates e id → e.input.isBatch = true) →
      OneActive S w.db)
    (fun _ _ hx => nomatch hx)
    (fun is op ih hfed =>
      (ih fun e he => hfed e (List.mem_append_left _ he)).step (lineage_exec is)
        (exec_invariant known_empty (fun h hm => h.move hm) is) op
        (hfed _ (List.mem_append_right _ (List.mem_singleton_self _)))) ops
  exact hhistory hfed

/-- **The roots of a repository and a kind were created by the feeder**: so
was, at the end of the run, every root that is there with this kind,
whatever the repository was called when it was created. -/
def OnlyFed (env : Env) (ops : List Op) (repository kind : String) : Prop :=
  ∀ e ∈ steps env ops, ∀ root ∈ (exec env ops).db.items.rows, root.parentId = none →
    root.repository = repository → root.kind = kind → Creates e root.id → e.input.isBatch = true

instance (ops : List Op) (repository kind : String) : Decidable (OnlyFed env ops repository kind) :=
  inferInstanceAs (Decidable (∀ e ∈ steps env ops, ∀ root ∈ (exec env ops).db.items.rows, _))

/-- **One active lineage per program.** In every state of every run in which
the roots of a repository and a kind are created by the feeder alone, at
most one of them is active; and a lineage that is not active is not active
again, on any continuation. -/
theorem one_active_lineage (env : Env) (ops : List Op) :
    (∀ repository kind : String, OnlyFed env ops repository kind →
      ∀ x ∈ (exec env ops).db.items.rows, ∀ y ∈ (exec env ops).db.items.rows,
        x.parentId = none → y.parentId = none → x.repository = repository →
        y.repository = repository → x.kind = kind → y.kind = kind →
        ActiveRoot (exec env ops).db x.id → ActiveRoot (exec env ops).db y.id → x = y) ∧
    (∀ root ∈ (exec env ops).db.items.rows, ¬ ActiveRoot (exec env ops).db root.id →
      ∀ more : List Op, ¬ ActiveRoot (exec env (ops ++ more)).db root.id) := by
  refine ⟨fun repository kind hfed x hx y hy hxroot hyroot hxrepository hyrepository hxkind hykind
    hxactive hyactive => ?_, fun root hroot hover more => ?_⟩
  · let S : String → Prop := fun id => ∃ root, (exec env ops).db.items.find? id = some root ∧
      root.parentId = none ∧ root.repository = repository ∧ root.kind = kind
    have hone : OneActive S (exec env ops).db := by
      refine oneActive_exec fun e he id ⟨root, hroot, hnone, hrepository, hkind⟩ hcreates => ?_
      obtain rfl := Table.key_of_find? hroot
      exact hfed e he root (Table.mem_of_find? hroot) hnone hrepository hkind hcreates
    have hid := hone x hx y hy ⟨x, Table.find?_key hx, hxroot, hxrepository, hxkind⟩
      ⟨y, Table.find?_key hy, hyroot, hyrepository, hykind⟩ (hxrepository.trans hyrepository.symm)
      (hxkind.trans hykind.symm) hxactive hyactive
    have hfind := Table.find?_key hx
    rw [hid, Table.find?_key hy] at hfind
    exact (Option.some.inj hfind).symm
  · have hthere : (exec env ops).db.items.find? root.id ≠ none :=
      fun hnone => nomatch (Table.find?_key hroot).symm.trans hnone
    refine (exec_stable (P := fun db => db.items.find? root.id ≠ none ∧ ¬ ActiveRoot db root.id)
      (Q := fun _ => True) trivial (fun _ _ => trivial) ?_ ops more ⟨hthere, hover⟩).2
    intro _ _ _ db db' _ ⟨hid, hover⟩ hm
    exact ⟨hm.keeps_id hid, fun hactive => hover (hactive.of_move hm hid)⟩

/-- The feeder creates a root, a worker claims it and completes it. -/
def sampleFeed : List Op :=
  [.setRepositoryEnabled "a/b" true, .enqueueInactiveRootBatch "a/b" [⟨.sample, none⟩] none,
    .claim { worker := "w" },
    .complete
      { id := "uu"
        leaseToken := "uuuuuuu"
        worker := "w"
        result := ⟨"looked around", [], [], none⟩
        followUps := [] }]

/-- The feeder is called once more: the first root is not active again, and
the second one is the only one that is. -/
theorem one_active_lineage_sample :
    ¬ ActiveRoot (exec Env.sample
        (sampleFeed ++ [.enqueueInactiveRootBatch "a/b" [⟨.sample, none⟩] none])).db "uu" ∧
      ∃ x ∈ (exec Env.sample
          (sampleFeed ++ [.enqueueInactiveRootBatch "a/b" [⟨.sample, none⟩] none])).db.items.rows,
        ∀ y ∈ (exec Env.sample
            (sampleFeed ++ [.enqueueInactiveRootBatch "a/b" [⟨.sample, none⟩] none])).db.items.rows,
          y.parentId = none → y.repository = "a/b" → y.kind = "discovery" →
          ActiveRoot (exec Env.sample (sampleFeed ++
            [.enqueueInactiveRootBatch "a/b" [⟨.sample, none⟩] none])).db y.id → x = y := by
  constructor
  · obtain ⟨root, hroot, hid, hover⟩ : ∃ root ∈ (exec Env.sample sampleFeed).db.items.rows,
        root.id = "uu" ∧ ¬ ActiveRoot (exec Env.sample sampleFeed).db root.id := by
      decide +kernel
    rw [← hid]
    exact (one_active_lineage Env.sample sampleFeed).2 root hroot hover _
  · obtain ⟨x, hx, hroot, hrepository, hkind, hactive⟩ : ∃ x ∈ (exec Env.sample (sampleFeed ++
          [.enqueueInactiveRootBatch "a/b" [⟨.sample, none⟩] none])).db.items.rows,
        x.parentId = none ∧ x.repository = "a/b" ∧ x.kind = "discovery" ∧
          ActiveRoot (exec Env.sample (sampleFeed ++
            [.enqueueInactiveRootBatch "a/b" [⟨.sample, none⟩] none])).db x.id := by
      decide +kernel
    refine ⟨x, hx, fun y hy hroot' hrepository' hkind' hactive' => ?_⟩
    exact (one_active_lineage Env.sample _).1 "a/b" "discovery" (by decide +kernel) x hx y hy hroot
      hroot' hrepository hrepository' hkind hkind' hactive hactive'

end Snowcat
