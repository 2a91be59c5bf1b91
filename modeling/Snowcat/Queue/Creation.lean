import Snowcat.Queue.Runs

/-!
# When a root is created

The specifications of the creating operations say what holds once they have
returned. The passes over GitHub need the other half too: a pass that asks
for a root and is refused ends with an exception, in the middle of whatever
it was doing. What can refuse a well-formed root is the repository's opt-in
and the policy binding, and nothing else: a UUID that was not drawn yet is
the id of no row.
-/

namespace Snowcat

variable {env : Env}

/-! ## Ids -/

/-- Every id was drawn, at a tick before `n`. -/
def IdsDrawn (env : Env) (n : ℕ) (db : Db) : Prop := ∀ row ∈ db.items.rows, Drawn env 0 n row.id

theorem IdsDrawn.move {op : Op} {lo hi : ℕ} {db db' : Db} (h : IdsDrawn env hi db)
    (hm : Move env op lo hi db db') : IdsDrawn env hi db' := by
  intro row hrow
  have hfind := Table.find?_key hrow
  have hold : db.items.find? row.id ≠ none → Drawn env 0 hi row.id := fun hne => by
    obtain ⟨old, hold⟩ := Option.ne_none_iff_exists'.mp hne
    have hid : old.id = row.id := Table.key_of_find? hold
    exact hid ▸ h old (Table.mem_of_find? hold)
  cases hm.rowStep row.id with
  | stays hsame =>
    rw [hsame] at hfind
    exact hold (by rw [hfind]; exact Option.some_ne_none row)
  | written hbefore =>
    exact hold (by rw [hbefore]; exact Option.some_ne_none _)
  | @born new posting _ hnew hbirth =>
    obtain rfl := Option.some.inj (hnew.symm.trans hfind)
    cases hbirth with
    | root guard => exact guard.drawn.mono (Nat.zero_le _) le_rfl
    | child guard => exact guard.drawn.mono (Nat.zero_le _) le_rfl
  | renamed _ hnew =>
    rw [hfind] at hnew
    refine hold fun hnone => ?_
    rw [hnone] at hnew
    exact nomatch hnew

theorem idsDrawn_exec (ops : List Op) : IdsDrawn env (exec env ops).ticks (exec env ops).db := by
  refine (queue env).invariant (P := fun w => IdsDrawn env w.ticks w.db) (fun _ h => nomatch h)
    (fun w op h => ?_) ops
  have hle := (op_grows env op).le w
  exact (step_moves op w).keeps IdsDrawn.move fun row hrow => (h row hrow).mono le_rfl hle

/-- **A UUID that was not drawn yet is the id of no row.** -/
theorem find?_randomUUID (hrandom : Function.Injective env.randomUUID) (ops : List Op) {k : ℕ}
    (hk : (exec env ops).ticks ≤ k) : (exec env ops).db.items.find? (env.randomUUID k) = none := by
  by_contra hne
  obtain ⟨row, hrow⟩ := Option.ne_none_iff_exists'.mp hne
  obtain ⟨l, -, hl, hid⟩ := idsDrawn_exec ops row (Table.mem_of_find? hrow)
  have hid' : row.id = env.randomUUID k := Table.key_of_find? hrow
  have := hrandom (hid'.symm.trans hid)
  omega

/-! ## Creation -/

/-- **The policy of a definition can be bound**, whenever it is asked for. -/
def Binds (env : Env) (subject : PolicySubject) : Prop :=
  ∀ w, ∃ policy w', (bindPolicy env subject).Returns w policy w'

/-- Without a hook every definition is bound. -/
theorem binds_of_no_hook (h : env.policyAuthority = none) (subject : PolicySubject) :
    Binds env subject := by
  intro w
  refine ⟨none, w, ?_⟩
  unfold bindPolicy
  rw [h]
  exact Tx.returns_pure.mpr ⟨rfl, rfl⟩

/-- What `bindPolicy` is given for a root. -/
def RootWork.policySubject (root : RootWork) : PolicySubject :=
  (root.withId "" 0).policySubject

/-- **A root is created** in a known repository that has no item of its
source reference, when its policy can be bound. -/
theorem returns_createRoot {root : RootWork} {payload : EventPayload} {w : World}
    (hbinds : Binds env root.policySubject)
    (hknown : w.db.repositories.find? root.repository ≠ none)
    (hunseen : ∀ row ∈ w.db.items.rows, row.repository = root.repository →
      row.sourceRef = root.sourceRef → root.sourceRef = none)
    (hfresh : w.db.items.find? (env.randomUUID w.ticks) = none) :
    ∃ item w', (createRoot env root payload).Returns w item w' := by
  obtain ⟨policy, w₁, hpolicy⟩ := hbinds ⟨w.db, w.ticks + 1 + 1⟩
  obtain ⟨hdb, -, -⟩ := bindPolicy_spec hpolicy
  let work := root.withId (env.randomUUID w.ticks) (env.clock (w.ticks + 1))
  have hinsert : (insertRow (work.row policy)).Returns w₁ ()
      ⟨{ w.db with items := w.db.items.insert (work.row policy) hfresh }, w₁.ticks⟩ := by
    obtain ⟨db, ticks⟩ := w₁
    obtain rfl : db = w.db := hdb
    have hseen : ¬ ((work.row policy).sourceRef.isSome ∧ ∃ row ∈ w.db.items.rows,
        row.repository = (work.row policy).repository ∧
          row.sourceRef = (work.row policy).sourceRef) := by
      rintro ⟨hsome, row, hrow, hrepository, href⟩
      rw [show (work.row policy).sourceRef = root.sourceRef from rfl,
        hunseen row hrow hrepository href] at hsome
      cases hsome
    simp only [insertRow, Tx.returns_bind, Tx.returns_failIf, Tx.returns_read]
    refine ⟨(), _, ⟨fun h => (by cases h.1), rfl⟩, _, _, ⟨rfl, rfl⟩, (), _, ⟨hknown, rfl⟩, (), _,
      ⟨fun h => (by cases h.choose_spec.1), rfl⟩, (), _, ⟨hseen, rfl⟩, ?_⟩
    rw [dif_pos (show w.db.items.find? (work.row policy).id = none from hfresh)]
    exact Tx.returns_update.mpr rfl
  simp only [createRoot, insertWork, Tx.returns_bind, returns_randomUUID, returns_now,
    returns_addEvent, returns_getRequired]
  refine ⟨work.row policy, _, _, _, ⟨rfl, rfl⟩, _, _, ⟨rfl, rfl⟩, (), _,
    ⟨policy, w₁, hpolicy, hinsert⟩, (), _, rfl, ?_, rfl⟩
  exact Table.find?_insert_self hfresh

theorem returns_assertRepositoryEnabled_of_enabled {repository : String} {w : World}
    {row : RepositoryRow} (hvalid : validateRepository repository = .ok ())
    (hrow : w.db.repositories.find? repository = some row) (henabled : row.enabled = true) :
    (assertRepositoryEnabled repository).Returns w () w := by
  simp only [assertRepositoryEnabled, Tx.returns_bind, Tx.returns_ofExcept, Tx.returns_read,
    Tx.returns_failIf]
  exact ⟨(), w, ⟨hvalid, rfl⟩, _, w, ⟨rfl, rfl⟩, fun h => h ⟨row, hrow, henabled⟩, rfl⟩

/-- The root a cure is created as. -/
def CureRootInput.root (repository : String) (input : CureRootInput) : RootWork where
  definition := input.definition
  repository
  admitted := true
  sourceRef := some input.sourceRef
  cure := some input.cure

/-- **What `enqueueCureRoot` checks before it reads anything.** -/
structure CureRootInput.Valid (repository : String) (input : CureRootInput) : Prop where
  repository : validateRepository repository = .ok ()
  sourceRef : validateSourceRef input.sourceRef = .ok ()
  cure : validateCure input.cure = .ok ()
  kind : input.definition.kind = "pr-cure"
  predecessors : input.definition.predecessors = none
  definition : validateWorkDefinition input.definition
    { sourceRef := some input.sourceRef
      cure := some input.cure } = .ok ()

/-- **A cure is created, or it exists**, in a repository that is opted in,
when its policy can be bound. -/
theorem returns_enqueueCureRoot {repository : String} {input : CureRootInput} {w : World}
    {row : RepositoryRow} (hvalid : input.Valid repository)
    (hrow : w.db.repositories.find? repository = some row) (henabled : row.enabled = true)
    (hbinds : Binds env (input.root repository).policySubject)
    (hfresh : w.db.items.find? (env.randomUUID w.ticks) = none) :
    ∃ reply w', (enqueueCureRoot env repository input).Returns w reply w' := by
  have hchecks : (do
      validateRepository repository
      validateSourceRef input.sourceRef
      validateCure input.cure
      refuseIf (input.definition.kind ≠ "pr-cure") (.error "a cure root must have kind pr-cure")
      assertNoPredecessors input.definition.predecessors "a cure root"
      validateWorkDefinition input.definition
        { sourceRef := some input.sourceRef
          cure := some input.cure } : Except QueueError Unit) = .ok () := by
    simp only [except_bind_eq_ok, refuseIf_eq_ok, assertNoPredecessors]
    refine ⟨(), hvalid.repository, (), hvalid.sourceRef, (), hvalid.cure, (),
      not_not_intro hvalid.kind, (), ?_, hvalid.definition⟩
    rw [hvalid.predecessors]
    exact Bool.false_ne_true
  have hopted := returns_assertRepositoryEnabled_of_enabled hvalid.repository hrow henabled
  simp only [enqueueCureRoot, returns_checked, Tx.returns_bind, Tx.returns_read]
  by_cases hseen : sourceRefExists w.db repository input.sourceRef = true
  · refine ⟨none, w, (), hchecks, (), w, hopted, w.db, w, ⟨rfl, rfl⟩, ?_⟩
    rw [if_pos hseen]
    exact Tx.returns_pure.mpr ⟨rfl, rfl⟩
  · have hunseen : ∀ old ∈ w.db.items.rows, old.repository = repository →
        old.sourceRef = some input.sourceRef → some input.sourceRef = none := by
      refine fun old hold hrepository href => absurd (List.any_eq_true.mpr ⟨old, hold, ?_⟩) hseen
      simp only [Bool.and_eq_true, decide_eq_true_eq]
      exact ⟨hrepository, href⟩
    have hknown : w.db.repositories.find? repository ≠ none := by
      rw [hrow]
      exact Option.some_ne_none row
    obtain ⟨item, w', hcreate⟩ := @returns_createRoot env (input.root repository)
      (.workQueued (some ⟨input.cure.pullRequestUrl, input.cure.headSha, input.cure.decay⟩) none) w
      hbinds hknown hunseen hfresh
    refine ⟨some item, w', (), hchecks, (), w, hopted, w.db, w, ⟨rfl, rfl⟩, ?_⟩
    rw [if_neg hseen]
    exact Tx.returns_bind.mpr ⟨item, w', hcreate, Tx.returns_pure.mpr ⟨rfl, rfl⟩⟩

end Snowcat
