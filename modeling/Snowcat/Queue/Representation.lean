import Snowcat.Queue.Runs

/-!
# What the columns of a row say together

Three columns hold the lease, one the result, one the admission, and every
operation writes its own subset of them. They agree with the status column
in every state (`Represented`): a row has a lease exactly while it is
claimed, a result exactly when work on it has stopped, and nothing is
claimed, blocked or completed that was not admitted. And the two terminal
statuses are final (`Finished`), which is a property of what a write may
find and not of what it leaves.
-/

namespace Snowcat

variable {env : Env} {op : Op} {lo hi : ℕ} {item item' : WorkItem} {ps : List Posting}

/-- Whether work in this status has left a result. -/
def RowStatus.isStopped : RowStatus → Bool
  | .queued => false
  | .claimed => false
  | _ => true

/-- **The representation invariant of a row.** -/
structure Represented (item : WorkItem) : Prop where
  leased : item.rowStatus = .claimed →
    item.leaseOwner ≠ none ∧ item.leaseToken ≠ none ∧ item.leaseExpiresAt ≠ none
  unleased : item.rowStatus ≠ .claimed →
    item.leaseOwner = none ∧ item.leaseToken = none ∧ item.leaseExpiresAt = none
  result : item.result.isSome = item.rowStatus.isStopped
  admitted : item.rowStatus = .claimed ∨ item.rowStatus = .blocked ∨
    item.rowStatus = .completed → item.admitted = true

/-- A born row is queued, with no lease and no result. -/
theorem Birth.represented {db : Db} {row : WorkItem} {p : Posting}
    (h : Birth env op lo hi db row p) : Represented row := by
  cases h <;> exact ⟨nofun, fun _ => ⟨rfl, rfl, rfl⟩, rfl, by rintro (h | h | h) <;> cases h⟩

/-- A row that lost its lease, in a status that is not claimed. -/
theorem Represented.unclaimed {status : RowStatus} (hrow : item'.rowStatus = status)
    (hclaimed : status ≠ .claimed)
    (hlease : item'.leaseOwner = none ∧ item'.leaseToken = none ∧ item'.leaseExpiresAt = none)
    (hresult : item'.result.isSome = status.isStopped)
    (hwork : status = .blocked ∨ status = .completed → item'.admitted = true) :
    Represented item' where
  leased h := absurd (hrow.symm.trans h) hclaimed
  unleased _ := hlease
  result := by rw [hresult, hrow]
  admitted h := hwork ((hrow ▸ h).resolve_left hclaimed)

/-- **Every write keeps the representation.** -/
theorem RowMove.represented (hm : RowMove env op lo hi item item' ps) (h : Represented item) :
    Represented item' := by
  cases hm with
  | claim _ _ hclaimable hadmitted =>
    refine ⟨fun _ => ⟨nofun, nofun, nofun⟩, fun hne => absurd rfl hne, ?_, fun _ => hadmitted⟩
    have hstatus : item.rowStatus = .queued ∨ item.rowStatus = .claimed := by
      unfold claimable at hclaimable
      simp only [Bool.or_eq_true, Bool.and_eq_true, decide_eq_true_eq] at hclaimable
      exact hclaimable.imp And.left And.left
    show item.result.isSome = false
    rw [h.result]
    rcases hstatus with hstatus | hstatus <;> rw [hstatus] <;> rfl
  | heartbeat hclaimed =>
    exact ⟨fun _ => ⟨(h.leased hclaimed).1, (h.leased hclaimed).2.1, nofun⟩,
      fun hne => absurd hclaimed hne, h.result, h.admitted⟩
  | complete hclaimed =>
    exact .unclaimed rfl nofun ⟨rfl, rfl, rfl⟩ rfl fun _ => h.admitted (Or.inl hclaimed)
  | block hclaimed =>
    exact .unclaimed rfl nofun ⟨rfl, rfl, rfl⟩ rfl fun _ => h.admitted (Or.inl hclaimed)
  | release hclaimed =>
    exact .unclaimed rfl nofun ⟨rfl, rfl, rfl⟩
      (h.result.trans (by rw [hclaimed]; rfl)) (by rintro (h | h) <;> cases h)
  | approve _ _ hproposed =>
    exact ⟨h.leased, h.unleased, h.result, fun _ => rfl⟩
  | defer hqueued =>
    have hrow : item.rowStatus = .queued := (WorkItem.status_eq_queued.mp hqueued).1
    exact .unclaimed hrow nofun (h.unleased (by rw [hrow]; exact nofun))
      (h.result.trans (congrArg RowStatus.isStopped hrow)) (by rintro (h | h) <;> cases h)
  | note => exact ⟨h.leased, h.unleased, h.result, h.admitted⟩
  | prioritize => exact ⟨h.leased, h.unleased, h.result, h.admitted⟩
  | reject hproposed =>
    have hrow : item.rowStatus = .queued := (WorkItem.status_eq_proposed.mp hproposed).1
    exact .unclaimed rfl nofun (h.unleased (by rw [hrow]; exact nofun)) rfl
      (by rintro (h | h) <;> cases h)
  | requeue =>
    exact .unclaimed rfl nofun ⟨rfl, rfl, rfl⟩ rfl (by rintro (h | h) <;> cases h)
  | releaseLease hclaimed =>
    exact .unclaimed rfl nofun ⟨rfl, rfl, rfl⟩
      (h.result.trans (by rw [hclaimed]; rfl)) (by rintro (h | h) <;> cases h)
  | cancel =>
    exact .unclaimed rfl nofun ⟨rfl, rfl, rfl⟩ rfl (by rintro (h | h) <;> cases h)
  | artifacts hcompleted =>
    refine ⟨h.leased, h.unleased, ?_, h.admitted⟩
    show (item.result.map _).isSome = item.rowStatus.isStopped
    rw [Option.isSome_map, h.result]
  | predecessors => exact ⟨h.leased, h.unleased, h.result, h.admitted⟩

theorem Represented.renamed {source target : String} (h : Represented item) :
    Represented (item.renamed source target) := by
  unfold WorkItem.renamed
  split
  · exact ⟨h.leased, h.unleased, h.result, h.admitted⟩
  · exact h

/-- Every row of every state a run reaches is represented. -/
theorem represented_exec (ops : List Op) :
    EveryRow (fun item _ => Represented item) (exec env ops).db :=
  row_invariant Birth.represented (fun h hm => hm.represented h) Represented.renamed ops

/-! ## Terminal statuses -/

/-- **A terminal status is final**: no write leaves it. -/
theorem RowMove.terminal (hm : RowMove env op lo hi item item' ps)
    (h : item.rowStatus.isTerminal = true) : item'.rowStatus = item.rowStatus := by
  cases hm with
  | claim _ _ hclaimable =>
    unfold claimable at hclaimable
    simp only [Bool.or_eq_true, Bool.and_eq_true, decide_eq_true_eq] at hclaimable
    rcases hclaimable with ⟨hstatus, -⟩ | ⟨hstatus, -⟩ <;> rw [hstatus] at h <;> cases h
  | complete hstatus | block hstatus | release hstatus | requeue hstatus | releaseLease hstatus =>
    rw [hstatus] at h
    cases h
  | reject hstatus =>
    rw [(WorkItem.status_eq_proposed.mp hstatus).1] at h
    cases h
  | cancel hstatus =>
    rcases hstatus with hstatus | hstatus
    · rw [(WorkItem.status_eq_queued.mp hstatus).1] at h
      cases h
    · rw [hstatus] at h
      cases h
  | heartbeat | approve | defer | note | prioritize | artifacts | predecessors => rfl

/-- A row that is in flight after a write was in flight before it. -/
theorem RowMove.active (hm : RowMove env op lo hi item item' ps)
    (h : item'.rowStatus.isTerminal = false) : item.rowStatus.isTerminal = false := by
  by_contra hfinished
  rw [Bool.not_eq_false] at hfinished
  rw [hm.terminal hfinished, hfinished] at h
  exact nomatch h

/-- An item that is in a terminal status. -/
def Finished (id : String) (status : RowStatus) (db : Db) : Prop :=
  status.isTerminal = true ∧ ∃ item, db.items.find? id = some item ∧ item.rowStatus = status

theorem rowStatus_renamed {source target : String} :
    (item.renamed source target).rowStatus = item.rowStatus := by
  unfold WorkItem.renamed
  split <;> rfl

theorem Finished.move {id : String} {status : RowStatus} {db db' : Db} (h : Finished id status db)
    (hm : Move env op lo hi db db') : Finished id status db' := by
  obtain ⟨hterminal, item, hitem, hstatus⟩ := h
  refine ⟨hterminal, ?_⟩
  cases hm.rowStep id with
  | stays hrow _ => exact ⟨item, hrow.trans hitem, hstatus⟩
  | written hfind hitem' hmove _ =>
    obtain rfl := Option.some.inj (hfind.symm.trans hitem)
    exact ⟨_, hitem', (hmove.terminal (hstatus ▸ hterminal)).trans hstatus⟩
  | born hfresh _ _ _ => exact nomatch hfresh.symm.trans hitem
  | renamed _ hrow _ =>
    rw [hitem] at hrow
    exact ⟨_, hrow, rowStatus_renamed.trans hstatus⟩

/-- **A finished item stays finished** on every continuation of a run. -/
theorem finished_append {id : String} {status : RowStatus} {ops : List Op} (more : List Op)
    (h : Finished id status (exec env ops).db) : Finished id status (exec env (ops ++ more)).db :=
  exec_stable (Q := fun _ => True) trivial (fun _ _ => trivial) (fun _ h hm => h.move hm) ops more h

/-- **The columns of a work item agree in every reachable state**: a lease
while it is claimed and only then, a result once work on it has stopped and
only then, admission of everything that was worked on – and a completed or
cancelled item is that for good. -/
theorem workItem_representation (env : Env) (ops : List Op) (item : WorkItem)
    (hitem : item ∈ (exec env ops).db.items.rows) :
    (item.status = .claimed ↔
      item.leaseOwner ≠ none ∧ item.leaseToken ≠ none ∧ item.leaseExpiresAt ≠ none) ∧
    (item.status ≠ .claimed →
      item.leaseOwner = none ∧ item.leaseToken = none ∧ item.leaseExpiresAt = none) ∧
    (item.result ≠ none ↔
      item.status = .completed ∨ item.status = .blocked ∨ item.status = .cancelled) ∧
    (item.status = .claimed ∨ item.status = .blocked ∨ item.status = .completed →
      item.admitted = true) ∧
    (item.status = .completed ∨ item.status = .cancelled → ∀ more : List Op,
      ∃ later, (exec env (ops ++ more)).db.items.find? item.id = some later ∧
        later.status = item.status) := by
  have h := represented_exec ops item hitem
  simp only [ne_eq, WorkItem.status_eq_claimed, WorkItem.status_eq_completed,
    WorkItem.status_eq_blocked, WorkItem.status_eq_cancelled]
  refine ⟨⟨h.leased, fun hlease => ?_⟩, h.unleased, ?_, h.admitted, fun hterminal more => ?_⟩
  · by_contra hne
    exact hlease.1 (h.unleased hne).1
  · rw [← ne_eq, Option.ne_none_iff_isSome, h.result]
    cases item.rowStatus <;> simp [RowStatus.isStopped]
  · have hfinished : Finished item.id item.rowStatus (exec env ops).db :=
      ⟨by rcases hterminal with hs | hs <;> rw [hs] <;> rfl, item, Table.find?_key hitem, rfl⟩
    obtain ⟨-, later, hlater, hstatus⟩ := finished_append more hfinished
    refine ⟨later, hlater, ?_⟩
    rcases hterminal with hs | hs
    · rw [WorkItem.status_eq_completed.mpr hs, WorkItem.status_eq_completed]
      exact hstatus.trans hs
    · rw [WorkItem.status_eq_cancelled.mpr hs, WorkItem.status_eq_cancelled]
      exact hstatus.trans hs

/-- The claimed item of the small run has its lease. -/
theorem workItem_representation_sample :
    ∃ item ∈ (exec Env.sample sampleRun).db.items.rows,
      item.leaseOwner ≠ none ∧ item.leaseToken ≠ none ∧ item.leaseExpiresAt ≠ none := by
  obtain ⟨item, hitem, hclaimed⟩ :
      ∃ item ∈ (exec Env.sample sampleRun).db.items.rows, item.status = .claimed := by
    decide +kernel
  exact ⟨item, hitem, (workItem_representation Env.sample sampleRun item hitem).1.mp hclaimed⟩

end Snowcat
