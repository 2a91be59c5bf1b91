import Snowcat.Queue.Runs

/-!
# Stale intent

An operator's decision may carry what it was taken on: the status of the item
and its `updatedAt`. The check compares these two and nothing else, so it is
as good as the stamp: as long as every writer of a row stamps it and the
clock has moved on, equal stamps mean that nothing was written in between
(`unchanged_or_stamped`). A rename is the one writer that does not. It moves
the item to another repository, and a decision about the old one passes.
-/

namespace Snowcat

variable {env : Env} {op : Op} {lo hi : ℕ} {db db' : Db} {item item' : WorkItem}

/-! ## Stamps -/

/-- **Every write stamps its row** with a reading of its own. -/
theorem RowMove.stamped {ps : List Posting} (hm : RowMove env op lo hi item item' ps) :
    Reading env lo hi item'.updatedAt := by
  cases hm <;> assumption

/-- A row is born with a stamp. -/
theorem Birth.stamped {row : WorkItem} {p : Posting} (h : Birth env op lo hi db row p) :
    Reading env lo hi row.updatedAt := by
  cases h with
  | root guard => exact guard.created
  | child guard => exact guard.created

/-- **What a call may have done to a row**, seen from what it left. -/
inductive Touch (env : Env) (op : Op) (lo hi : ℕ) (before : Option WorkItem) (item' : WorkItem) :
    Prop
  | same (hbefore : before = some item')
  | stamped (hstamp : Reading env lo hi item'.updatedAt)
  | renamed {item : WorkItem} {target actor : String} (hbefore : before = some item)
      (hop : op = .renameRepository item.repository target actor)
      (hstamp : item'.updatedAt = item.updatedAt)

theorem updatedAt_renamed (source target : String) (item : WorkItem) :
    (item.renamed source target).updatedAt = item.updatedAt := by
  unfold WorkItem.renamed
  split <;> rfl

/-- **A call leaves a row, stamps it, or renames its repository.** -/
theorem Moves.touch (h : Moves env op lo hi db db') {id : String}
    (hitem' : db'.items.find? id = some item') :
    Touch env op lo hi (db.items.find? id) item' := by
  induction h generalizing item' with
  | refl => exact .same hitem'
  | tail _ hlast ih =>
    cases hlast.rowStep id with
    | stays hrow _ => exact ih (hrow.symm.trans hitem')
    | written _ hwritten hmove _ =>
      obtain rfl := Option.some.inj (hwritten.symm.trans hitem')
      exact .stamped hmove.stamped
    | born _ hrow hbirth _ =>
      obtain rfl := Option.some.inj (hrow.symm.trans hitem')
      exact .stamped hbirth.stamped
    | @renamed source target actor hop hrow _ =>
      rw [hitem'] at hrow
      obtain ⟨item, hitem, rfl⟩ := Option.map_eq_some_iff.mp hrow.symm
      have hstamp := updatedAt_renamed source target item
      cases ih hitem with
      | same hbefore =>
        by_cases hsource : item.repository = source
        · subst hsource
          exact .renamed hbefore hop hstamp
        · refine .same (hbefore.trans ?_)
          unfold WorkItem.renamed
          rw [if_neg hsource]
      | stamped h => exact .stamped (hstamp.symm ▸ h)
      | renamed hbefore hop' hstamp' => exact .renamed hbefore hop' (hstamp.trans hstamp')

/-- **The stamp of every row was read in the past.** -/
theorem stamped_exec (ops : List Op) :
    ∀ item ∈ (exec env ops).db.items.rows, Reading env 0 (exec env ops).ticks item.updatedAt := by
  refine (queue env).invariant
    (P := fun w => ∀ item ∈ w.db.items.rows, Reading env 0 w.ticks item.updatedAt)
    (fun _ h => nomatch h) ?_ ops
  intro w op ih item' hitem'
  have hticks : w.ticks ≤ (op.run env w).2.ticks := (op_grows env op).le w
  cases (step_moves op w).touch (Table.find?_key hitem') with
  | same hbefore => exact (ih _ (Table.mem_of_find? hbefore)).mono le_rfl hticks
  | stamped h => exact h.mono (Nat.zero_le _) le_rfl
  | renamed hbefore _ hstamp =>
    rw [hstamp]
    exact (ih _ (Table.mem_of_find? hbefore)).mono le_rfl hticks

/-! ## The check -/

/-- **The precondition a decision carries**, with the item it is about. -/
def Op.observed : Op → Option (String × MutationPrecondition)
  | .approve id _ precondition => precondition.map fun p => (id, p)
  | .defer id _ _ precondition => precondition.map fun p => (id, p)
  | .note id _ _ precondition => precondition.map fun p => (id, p)
  | .prioritize id _ _ _ precondition => precondition.map fun p => (id, p)
  | .reject id _ _ precondition => precondition.map fun p => (id, p)
  | .requeue id _ _ precondition => precondition.map fun p => (id, p)
  | .releaseLease id _ _ precondition => precondition.map fun p => (id, p)
  | .cancel id _ _ precondition => precondition.map fun p => (id, p)
  | .attachArtifact id _ _ precondition => precondition.map fun p => (id, p)
  | _ => none

/-- **A computation checks a precondition first**: after the checks of its
arguments, and before anything else it does with the item. -/
def ChecksFirst {α : Type} (id : String) (precondition : Option MutationPrecondition)
    (x : QueueTx α) : Prop :=
  ∃ (β : Type) (checks : Except QueueError β) (rest : β → WorkItem → QueueTx α),
    x = checked checks fun b => do
      let item ← getRequired id
      Tx.ofExcept (assertPrecondition item precondition)
      rest b item

theorem ChecksFirst.current {α : Type} {id : String} {precondition : Option MutationPrecondition}
    {x : QueueTx α} (h : ChecksFirst id precondition x) {w w' : World} {a : α}
    (hreturns : x.Returns w a w') :
    ∃ item, w.db.items.find? id = some item ∧ assertPrecondition item precondition = .ok () := by
  obtain ⟨β, checks, rest, rfl⟩ := h
  simp only [returns_checked, Tx.returns_bind, returns_getRequired, Tx.returns_ofExcept] at hreturns
  obtain ⟨_, -, item, _, ⟨hitem, rfl⟩, _, _, ⟨hcheck, -⟩, -⟩ := hreturns
  exact ⟨item, hitem, hcheck⟩

/-- **A decision about an item that is not as observed is refused for that**,
when its arguments are in order. -/
theorem ChecksFirst.refuses {α : Type} {id : String} {precondition : Option MutationPrecondition}
    {x : QueueTx α} (h : ChecksFirst id precondition x) {w : World} {e : QueueError}
    (hitem : w.db.items.find? id = some item)
    (hstale : assertPrecondition item precondition = .error e) :
    ∃ e', x.Throws w e' ∧ (e' = e ∨ ∀ w', x.Throws w' e') := by
  obtain ⟨β, checks, rest, rfl⟩ := h
  cases hchecks : checks with
  | error e' => exact ⟨e', throws_checked.mpr (Or.inl rfl), Or.inr fun w' => throws_checked.mpr (Or.inl rfl)⟩
  | ok b =>
    refine ⟨e, throws_checked.mpr (Or.inr ⟨b, rfl, ?_⟩), Or.inl rfl⟩
    simp only [Tx.throws_bind, returns_getRequired, Tx.throws_ofExcept]
    exact Or.inr ⟨item, w, ⟨hitem, rfl⟩, Or.inl hstale⟩

/-- **Every decision that carries a precondition checks it first.** -/
theorem Op.checksFirst {id : String} {precondition : MutationPrecondition}
    (h : op.observed = some (id, precondition)) :
    ∃ (α : Type) (f : α → Reply) (x : QueueTx α), op.run env = reply f x ∧
      ChecksFirst id (some precondition) x := by
  cases op with
  | approve | defer | note | prioritize | reject | requeue | releaseLease | cancel
    | attachArtifact =>
    obtain ⟨p, rfl, hp⟩ := Option.map_eq_some_iff.mp h
    obtain ⟨rfl, rfl⟩ := Prod.mk.inj hp
    exact ⟨_, _, _, rfl, _, _, _, rfl⟩
  | _ => exact nomatch h

theorem assertPrecondition_some {precondition : MutationPrecondition} :
    assertPrecondition item (some precondition) = .ok () ↔
      item.status = precondition.status ∧ item.updatedAt = precondition.updatedAt := by
  show refuseIf _ _ = .ok () ↔ _
  rw [refuseIf_eq_ok, not_or, not_not, not_not]

theorem assertPrecondition_eq_error {precondition : MutationPrecondition}
    (h : item.updatedAt ≠ precondition.updatedAt) :
    assertPrecondition item (some precondition) =
      .error (.preconditionMismatch item.id item.status item.updatedAt) :=
  if_pos (Or.inr h)

/-! ## Since the item was read -/

/-- A call renames the repository of an item in a state, and is not
refused. -/
def Op.Renames (env : Env) (op : Op) (w : World) (id : String) : Prop :=
  ∃ item, w.db.items.find? id = some item ∧
    (∃ target actor, op = .renameRepository item.repository target actor) ∧
    ∃ r, (op.run env w).1 = .ok r

/-- **A call that does not rename it leaves an item or stamps it.** -/
theorem same_or_stamped {w : World} {id : String} (hrename : ¬ op.Renames env w id)
    (hitem' : (op.run env w).2.db.items.find? id = some item') :
    w.db.items.find? id = some item' ∨
      Reading env w.ticks (op.run env w).2.ticks item'.updatedAt := by
  rcases run_cases env op w with ⟨r, -, hreply⟩ | ⟨e, -, hdb⟩
  · cases (step_moves op w).touch hitem' with
    | same hbefore => exact Or.inl hbefore
    | stamped hstamp => exact Or.inr hstamp
    | renamed hbefore hop _ => exact absurd ⟨_, hbefore, ⟨_, _, hop⟩, r, hreply⟩ hrename
  · rw [hdb] at hitem'
    exact Or.inl hitem'

/-- **The clock advances between the calls of a run**: what a call reads is
after everything the calls before it read. -/
def ClockAdvances (env : Env) (ops : List Op) : Prop :=
  ∀ pre, pre <+: ops → ∀ k l, k < (exec env pre).ticks → (exec env pre).ticks ≤ l →
    l < (exec env ops).ticks → env.clock k < env.clock l

/-- **An item is the one that was read**, in every state since. -/
def Unchanged (env : Env) (pre mid : List Op) (item : WorkItem) : Prop :=
  ∀ mid₁, mid₁ <+: mid → (exec env (pre ++ mid₁)).db.items.find? item.id = some item

/-- **Since it was read an item is unchanged, or it was stamped later**, as
long as no call renamed its repository. -/
theorem unchanged_or_stamped {pre mid : List Op}
    (hitem : (exec env pre).db.items.find? item.id = some item)
    (hrenames : ∀ mid₁ op mid₂, mid = mid₁ ++ op :: mid₂ →
      ¬ op.Renames env (exec env (pre ++ mid₁)) item.id) :
    Unchanged env pre mid item ∨
      ∃ row, (exec env (pre ++ mid)).db.items.find? item.id = some row ∧
        Reading env (exec env pre).ticks (exec env (pre ++ mid)).ticks row.updatedAt := by
  induction mid using List.reverseRecOn with
  | nil =>
    refine Or.inl fun mid₁ hprefix => ?_
    rw [List.prefix_nil.mp hprefix, List.append_nil]
    exact hitem
  | append_singleton mid op ih =>
    have hlast := hrenames mid op [] rfl
    have ih := ih fun mid₁ op' mid₂ hmid =>
      hrenames mid₁ op' (mid₂ ++ [op]) (by rw [hmid, List.append_assoc, List.cons_append])
    rw [← List.append_assoc, exec_concat]
    have hstart : (exec env pre).ticks ≤ (exec env (pre ++ mid)).ticks := ticks_le_exec pre mid
    have hticks : (exec env (pre ++ mid)).ticks ≤ (op.run env (exec env (pre ++ mid))).2.ticks :=
      (op_grows env op).le _
    have hthere : (exec env (pre ++ mid)).db.items.find? item.id ≠ none := by
      rcases ih with hsame | ⟨row, hrow, -⟩
      · rw [hsame mid (List.prefix_refl mid)]
        exact Option.some_ne_none item
      · rw [hrow]
        exact Option.some_ne_none row
    obtain ⟨row', hrow'⟩ := Option.ne_none_iff_exists'.mp
      ((step_moves op (exec env (pre ++ mid))).keeps (P := fun db => db.items.find? item.id ≠ none)
        (fun h hm => hm.keeps_id h) hthere)
    rcases same_or_stamped hlast hrow' with hbefore | hstamp
    · rcases ih with hsame | ⟨row, hrow, hstamp⟩
      · refine Or.inl fun mid₁ hprefix => ?_
        rcases List.prefix_concat_iff.mp hprefix with rfl | hprefix
        · rw [← List.append_assoc, exec_concat, hrow', ← hbefore]
          exact hsame mid (List.prefix_refl mid)
        · exact hsame mid₁ hprefix
      · obtain rfl := Option.some.inj (hrow.symm.trans hbefore)
        exact Or.inr ⟨row, hrow', hstamp.mono le_rfl hticks⟩
    · exact Or.inr ⟨row', hrow', hstamp.mono hstart le_rfl⟩

/-- **Stale intent is not applied.** What a decision that was taken on an
item comes to, later in a run: it is applied only when the item has been the
one that was read in every state since; when it has not, the decision changes
nothing, and what it throws is the mismatch with the item as it is now, or
what its arguments are refused for in any state. -/
def StaleRefused (env : Env) (pre mid : List Op) (op : Op) : Prop :=
  ∀ item ∈ (exec env pre).db.items.rows,
    op.observed = some (item.id, ⟨item.status, item.updatedAt⟩) →
    ((∃ r, (op.run env (exec env (pre ++ mid))).1 = .ok r) → Unchanged env pre mid item) ∧
    (¬ Unchanged env pre mid item →
      (op.run env (exec env (pre ++ mid))).2.db = (exec env (pre ++ mid)).db ∧
      ∃ e, (op.run env (exec env (pre ++ mid))).1 = .error e ∧
        ((∃ row, (exec env (pre ++ mid)).db.items.find? item.id = some row ∧
          e = .preconditionMismatch row.id row.status row.updatedAt) ∨
        ∀ w, (op.run env w).1 = .error e))

/-- The clock of the small environment advances with every tick. -/
theorem clockAdvances_sample (ops : List Op) : ClockAdvances Env.sample ops := by
  intro pre _ k l hk hl _
  show (k : ℤ) * 1000 < (l : ℤ) * 1000
  omega

/-- A repository with one seed. -/
def seededRun : List Op := [.setRepositoryEnabled "a/b" true, .enqueueSeed "a/b" .sample]

/-- A note on the seed as it was created. -/
def seedNote : Op := .note "uu" "operator:o" "still wanted" (some ⟨.queued, 2000⟩)

end Snowcat
