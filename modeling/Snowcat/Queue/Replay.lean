import Snowcat.Queue.Representation

/-!
# The ledger replays to the rows

A row is overwritten by every operation; its events are kept. The life of an item
is told here in terms of its events alone: which of them may come next, and what is
known of the item after them (`ItemView.next`). Every write of a row posts events
that may come next and tell what it did (`RowMove.replayed`). So the ledger of an
item is always a life that may be lived, and replaying it gives what its row says
(`ledger_replays`): nothing is changed behind the back of the ledger.
-/

namespace Snowcat

variable {env : Env} {op : Op} {lo hi : ℕ} {item item' : WorkItem} {ps : List Posting}

/-! ## The life of an item -/

/-- **What is known of an item** from its events. -/
@[ext] structure ItemView where
  status : RowStatus
  admitted : Bool
  leaseOwner : Option String
  leaseExpiresAt : Option Time
  /-- Why work on it stopped, unless it was completed. -/
  reason : Option String
  /-- Why work on it had stopped before it was queued again. -/
  previousReasons : List String
  /-- Who noted what on it. -/
  notes : List (String × OperatorNoteAction × String)
  deriving DecidableEq, Repr

namespace ItemView

/-- An item that no one has. -/
def free (v : ItemView) (status : RowStatus) : ItemView :=
  { v with status, leaseOwner := none, leaseExpiresAt := none }

/-- An item with one more note. -/
def noted (v : ItemView) (actor : String) (action : OperatorNoteAction) (reason : String) :
    ItemView :=
  { v with notes := v.notes ++ [(actor, action, reason)] }

/-- An event may come when a condition is met. -/
def when (c : Prop) [Decidable c] (v : ItemView) : Option ItemView := if c then some v else none

/-- **The next event of an item**: whether it may come, and what is known then. -/
def next (v : ItemView) (p : Posting) : Option ItemView :=
  match p.payload with
  | .workQueued .. | .rootProposed .. | .childProposed .. => none
  | .workPredecessorsUpdated .. => when (v.status = .queued ∧ v.admitted = false) v
  | .workClaimed leaseExpiresAt _ _ _ =>
    when (v.status = .queued ∧ v.admitted = true)
      { v with
        status := .claimed
        leaseOwner := some p.actor
        leaseExpiresAt := some leaseExpiresAt }
  | .workCompleted .. =>
    when (v.status = .claimed) { v.free .completed with reason := none }
  | .workReviewed .. => when (v.status = .completed) v
  | .workBlocked reason => when (v.status = .claimed) { v.free .blocked with reason := some reason }
  | .workReleased _ => when (v.status = .claimed) (v.free .queued)
  | .leaseReleased reason previousOwner leaseExpiresAt =>
    when (v.status = .claimed ∧ previousOwner = v.leaseOwner ∧
        leaseExpiresAt = v.leaseExpiresAt)
      ((v.free .queued).noted p.actor .releaseLease reason)
  | .workApproved _ =>
    when (v.status = .queued ∧ v.admitted = false) { v with admitted := true }
  | .workDeferred reason =>
    when (v.status = .queued ∧ v.admitted = true)
      ({ v with admitted := false }.noted p.actor .defer reason)
  | .workNoted reason => some (v.noted p.actor .note reason)
  | .workPrioritized _ _ reason => some (v.noted p.actor .prioritize reason)
  | .workRejected reason =>
    when (v.status = .queued ∧ v.admitted = false)
      { v with status := .cancelled, reason := some reason }
  | .workRequeued reason =>
    when (v.status = .blocked)
      { (v.free .queued).noted p.actor .requeue reason with
        reason := none
        previousReasons := v.previousReasons ++ v.reason.toList }
  | .workCancelled reason =>
    when (v.status = .queued ∧ v.admitted = true ∨ v.status = .blocked)
      { v.free .cancelled with reason := some reason }
  | .leaseExpired previousOwner leaseExpiresAt =>
    when (v.status = .claimed ∧ previousOwner = v.leaseOwner ∧
        leaseExpiresAt = v.leaseExpiresAt)
      (v.free .queued)
  | .leaseRenewed leaseExpiresAt =>
    when (v.status = .claimed) { v with leaseExpiresAt := some leaseExpiresAt }
  | .artifactReady .. | .artifactVerified .. | .artifactAttached .. =>
    when (v.status = .completed) v

/-- What is known of an item from its first event. -/
def first (p : Posting) : Option ItemView :=
  match p.payload.type with
  | .workQueued => some ⟨.queued, true, none, none, none, [], []⟩
  | .workProposed => some ⟨.queued, false, none, none, none, [], []⟩
  | _ => none

/-- **The replay of a history.** -/
def replay : List Posting → Option ItemView
  | [] => none
  | p :: ps => (first p).bind fun v => ps.foldlM next v

/-- What a row says. -/
def ofRow (item : WorkItem) : ItemView where
  status := item.rowStatus
  admitted := item.admitted
  leaseOwner := item.leaseOwner
  leaseExpiresAt := item.leaseExpiresAt
  reason := if item.rowStatus = .completed then none else item.result.map WorkResult.summary
  previousReasons := item.previousResults.map WorkResult.summary
  notes := item.operatorNotes.map fun note => (note.actor, note.action, note.reason)

theorem replay_append {hist ps : List Posting} {v : ItemView} (h : replay hist = some v) :
    replay (hist ++ ps) = ps.foldlM next v := by
  cases hist with
  | nil => exact nomatch h
  | cons p hist =>
    obtain ⟨w, hfirst, hrest⟩ := Option.bind_eq_some_iff.mp h
    show (first p).bind (fun v => (hist ++ ps).foldlM next v) = _
    rw [hfirst, Option.bind_some, List.foldlM_append, hrest]
    rfl

theorem foldlM_singleton (v : ItemView) (p : Posting) : [p].foldlM next v = v.next p := by
  show (v.next p).bind some = _
  cases v.next p <;> rfl

theorem foldlM_cons {v w : ItemView} {p : Posting} (h : v.next p = some w) (ps : List Posting) :
    (p :: ps).foldlM next v = ps.foldlM next w := by
  show (v.next p).bind (fun v => ps.foldlM next v) = _
  rw [h, Option.bind_some]

theorem when_pos {c : Prop} [Decidable c] {v : ItemView} (h : c) : when c v = some v := if_pos h

/-- What a row says does not depend on its repository. -/
theorem ofRow_renamed {source target : String} :
    ofRow (item.renamed source target) = ofRow item := by
  unfold WorkItem.renamed
  split <;> rfl

/-- The verdicts posted with a completion tell nothing new. -/
theorem foldlM_reviewed {v : ItemView} (hv : v.status = .completed)
    (h : ∀ p ∈ ps, p.payload.type = .workReviewed) : ps.foldlM next v = some v := by
  induction ps with
  | nil => rfl
  | cons p ps ih =>
    have hp : v.next p = some v := by
      have htype := h p List.mem_cons_self
      unfold next
      cases hpayload : p.payload <;> rw [hpayload] at htype <;>
        first
          | exact when_pos hv
          | exact nomatch htype
    rw [foldlM_cons hp]
    exact ih fun q hq => h q (List.mem_cons_of_mem _ hq)

/-- An event of an artifact tells nothing of its item but that it is completed. -/
theorem next_artifact {v : ItemView} {p : Posting} (hv : v.status = .completed)
    (h : p.payload.type = .artifactReady ∨ p.payload.type = .artifactVerified ∨
      p.payload.type = .artifactAttached) : v.next p = some v := by
  unfold next
  cases hpayload : p.payload <;> rw [hpayload] at h <;>
    first
      | exact when_pos hv
      | exact absurd h (by rintro (h | h | h) <;> cases h)

/-- After the lapse of its lease, if it had one, a claimable item is free. -/
theorem foldlM_expiry {now t : Time} (hclaimable : claimable now item = true)
    (hfree : item.rowStatus ≠ .claimed → item.leaseOwner = none ∧ item.leaseExpiresAt = none) :
    (expiryPostings item t).foldlM next (ofRow item) = some ((ofRow item).free .queued) := by
  unfold expiryPostings
  by_cases hclaimed : item.rowStatus = .claimed
  · rw [if_pos hclaimed, foldlM_singleton]
    exact when_pos ⟨hclaimed, rfl, rfl⟩
  · have hstatus : item.rowStatus = .queued := by
      unfold claimable at hclaimable
      simp only [Bool.or_eq_true, Bool.and_eq_true, decide_eq_true_eq] at hclaimable
      exact hclaimable.elim And.left fun h => absurd h.1 hclaimed
    rw [if_neg hclaimed]
    show some _ = some _
    congr 1
    ext1
    · exact hstatus
    · rfl
    · exact (hfree hclaimed).1
    · exact (hfree hclaimed).2
    all_goals rfl

end ItemView

open ItemView

/-! ## The writes -/

namespace ItemView

/-- Work on an item that is not completed stopped for the reason in its row. -/
theorem reason_ofRow (h : item.rowStatus ≠ .completed) :
    (ofRow item).reason = item.result.map WorkResult.summary := if_neg h

/-- A row that is not completed after a write tells what the row before it told, where the
write left the result alone. -/
theorem reason_eq (h : item.rowStatus ≠ .completed) (h' : item'.rowStatus ≠ .completed)
    (hresult : item'.result = item.result) : (ofRow item).reason = (ofRow item').reason := by
  rw [reason_ofRow h, reason_ofRow h', hresult]

/-- The notes of a row with one more note. -/
theorem notes_withNote {t : Time} {actor reason : String} {action : OperatorNoteAction} :
    ((ofRow item).noted actor action reason).notes =
      (ofRow (item.withNote t actor action reason)).notes := by
  show _ = List.map _ (item.operatorNotes ++ [_])
  rw [List.map_append]
  rfl

/-- A write that posts one event is told by it, when the event may come and gives what
the row says. -/
theorem foldlM_one {v w : ItemView} {p : Posting} {c : Prop} [Decidable c] {u : ItemView}
    (hnext : v.next p = when c u) (hc : c) (hu : u = w) : [p].foldlM next v = some w := by
  rw [foldlM_singleton, hnext, when_pos hc, hu]

end ItemView

/-- **The events of a write tell what it did.** -/
theorem RowMove.replayed (hm : RowMove env op lo hi item item' ps) (h : Represented item) :
    ps.foldlM next (ofRow item) = some (ofRow item') := by
  cases hm with
  | claim _ _ hclaimable hadmitted =>
    rw [List.foldlM_append, foldlM_expiry hclaimable fun hne =>
      ⟨(h.unleased hne).1, (h.unleased hne).2.2⟩]
    have hopen : item.rowStatus ≠ .completed := fun hcompleted => by
      unfold claimable at hclaimable
      rw [hcompleted] at hclaimable
      exact nomatch hclaimable
    refine foldlM_one rfl ⟨rfl, hadmitted⟩ ?_
    ext1
    case reason => exact reason_eq hopen nofun rfl
    all_goals rfl
  | heartbeat hclaimed =>
    refine foldlM_one rfl hclaimed ?_
    ext1
    all_goals rfl
  | @complete worker result review? followUpIds updatedAt t reviewed hclaimed _ hreviewed =>
    have hfirst : next (ofRow item)
          ⟨worker, .workCompleted followUpIds result.artifacts.length result.model, t⟩ =
        some { (ofRow item).free .completed with reason := none } := when_pos hclaimed
    rw [foldlM_cons hfirst, foldlM_reviewed rfl hreviewed]
    congr 1
  | block hclaimed => exact foldlM_one rfl hclaimed rfl
  | release hclaimed =>
    have hopen : item.rowStatus ≠ .completed := fun h => nomatch hclaimed.symm.trans h
    refine foldlM_one rfl hclaimed ?_
    ext1
    case reason => exact reason_eq hopen nofun rfl
    all_goals rfl
  | approve _ _ hproposed =>
    exact foldlM_one rfl (WorkItem.status_eq_proposed.mp hproposed) rfl
  | defer hqueued =>
    refine foldlM_one rfl (WorkItem.status_eq_queued.mp hqueued) ?_
    ext1
    case notes => exact notes_withNote
    all_goals rfl
  | note =>
    rw [foldlM_singleton]
    show some _ = some _
    congr 1
    ext1
    case notes => exact notes_withNote
    all_goals rfl
  | prioritize =>
    rw [foldlM_singleton]
    show some _ = some _
    congr 1
    ext1
    case notes => exact notes_withNote
    all_goals rfl
  | reject hproposed =>
    exact foldlM_one rfl (WorkItem.status_eq_proposed.mp hproposed) rfl
  | requeue hblocked =>
    refine foldlM_one rfl hblocked ?_
    have hopen : item.rowStatus ≠ .completed := fun h => nomatch hblocked.symm.trans h
    ext1
    case notes => exact notes_withNote
    case previousReasons =>
      show _ ++ (ofRow item).reason.toList = List.map _ (item.previousResults ++ _)
      rw [reason_ofRow hopen, List.map_append]
      cases item.result <;> rfl
    all_goals rfl
  | releaseLease hclaimed =>
    refine foldlM_one rfl ⟨hclaimed, rfl, rfl⟩ ?_
    have hopen : item.rowStatus ≠ .completed := fun h => nomatch hclaimed.symm.trans h
    ext1
    case notes => exact notes_withNote
    case reason => exact reason_eq hopen nofun rfl
    all_goals rfl
  | cancel hstatus =>
    exact foldlM_one rfl (hstatus.imp_left WorkItem.status_eq_queued.mp) rfl
  | artifacts hcompleted hpayload =>
    rw [foldlM_singleton, next_artifact hcompleted hpayload]
    congr 1
    ext1
    case reason => exact (if_pos hcompleted).trans (if_pos hcompleted).symm
    all_goals rfl
  | predecessors hproposed =>
    exact foldlM_one rfl (WorkItem.status_eq_proposed.mp hproposed) rfl

/-- The first event of a row tells what it is. -/
theorem Birth.replayed {db : Db} {row : WorkItem} {p : Posting}
    (h : Birth env op lo hi db row p) : ItemView.replay [p] = some (ofRow row) := by
  cases h with
  | @root root id createdAt t policy payload guard hpayload =>
    cases hadmitted : root.admitted <;> rw [hadmitted] at hpayload <;>
      simp only [ItemView.replay, ItemView.first, hpayload, reduceIte, Bool.false_eq_true,
        Option.bind_some] <;>
      exact congrArg some (ItemView.ext rfl hadmitted.symm rfl rfl rfl rfl rfl)
  | child => rfl

/-- The rows of a run are in order, and their histories replay to them. -/
theorem every_row_replays (env : Env) (ops : List Op) :
    EveryRow (fun item hist => Represented item ∧ ItemView.replay hist = some (ofRow item))
      (exec env ops).db := by
  refine row_invariant ?_ ?_ ?_ ops
  · exact fun h => ⟨h.represented, h.replayed⟩
  · intro _ _ _ _ _ _ _ h hm
    refine ⟨hm.represented h.1, ?_⟩
    rw [ItemView.replay_append h.2]
    exact hm.replayed h.1
  · intro _ _ _ _ h
    refine ⟨h.1.renamed, ?_⟩
    rw [ofRow_renamed]
    exact h.2

/-- **The ledger replays to the rows.** In every state a run reaches, the events of an item,
in their order, are a life that may be lived – each may come when it came – and what is
known of the item after the last of them is what its row says: its status, its admission,
who holds its lease and until when, why work on it stopped, why it had stopped before, and
who noted what on it. -/
theorem ledger_replays (env : Env) (ops : List Op) (item : WorkItem)
    (hitem : item ∈ (exec env ops).db.items.rows) :
    ItemView.replay ((exec env ops).db.ledger.history item.id) = some (ofRow item) :=
  (every_row_replays env ops item hitem).2

/-- The events of the small run say who holds the lease. -/
theorem ledger_replays_sample : ∃ item ∈ (exec Env.sample sampleRun).db.items.rows, ∃ v,
    ItemView.replay ((exec Env.sample sampleRun).db.ledger.history item.id) = some v ∧
      v.status = .claimed ∧ v.leaseOwner = some "w" := by
  obtain ⟨item, hitem, hclaimed, howner⟩ : ∃ item ∈ (exec Env.sample sampleRun).db.items.rows,
      item.rowStatus = .claimed ∧ item.leaseOwner = some "w" := by
    decide +kernel
  exact ⟨item, hitem, ofRow item, ledger_replays Env.sample sampleRun item hitem, hclaimed, howner⟩

end Snowcat
