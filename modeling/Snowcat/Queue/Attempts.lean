import Snowcat.Queue.Lifecycle

/-!
# The attempts of an item are its replay

`attempts` reads the newest `2 * limit + 1` lifecycle events of an item and
walks them once. Two things could go wrong with that: the window could cut
an attempt the answer needs, and the walk could pair an end with a claim it
does not belong to. Neither does, because the lifecycle events alternate
(`Snowcat.Queue.Lifecycle`): the walk over any suffix of them reads the
attempts that begin there, and the window holds the newest `limit`
attempts.
-/

namespace Snowcat

open Sessions (newest Alternating Turns endsOpen)

variable {env : Env}

/-! ## The replay -/

/-- How a ledger is read as attempts: `work.claimed` opens one, and the event
that ends the lease closes it. -/
def attemptReader : Sessions.Reader WorkEvent WorkAttempt where
  opens e := e.type = .workClaimed
  closes e := e.type.attemptOutcome.isSome
  start := openAttempt
  finish := WorkAttempt.closedBy
  closed attempt := attempt.outcome.isSome
  closed_start _ := rfl
  closed_finish _ _ hends := hends

/-- **The replay of a ledger**: every claim is an attempt, closed by the next
event that ends a lease. -/
def replay (events : List WorkEvent) : List WorkAttempt := attemptReader.sessions events

/-- An attempt as it is shown at an instant: one that is open on a lease that
is over has expired. -/
def WorkAttempt.shownAt (attempt : WorkAttempt) (item : WorkItem) (atTime : Time) : WorkAttempt :=
  match item.leaseExpiresAt with
  | some expiresAt =>
    if attempt.outcome = none ∧ expiresAt ≤ atTime then attempt.lapsed expiresAt else attempt
  | none => attempt

/-- **The attempts of an item by full replay**, as they are shown at an
instant. -/
def replayedAttempts (db : Db) (id : String) (atTime : Time) : List WorkAttempt :=
  match db.items.find? id with
  | none => []
  | some item => (replay (db.ledger.of id)).map fun attempt => attempt.shownAt item atTime

/-! ## The walk and its window -/

/-- The loop of `attempts` is the walk over a log. -/
theorem recordAttempt_eq : recordAttempt = attemptReader.record := by
  funext attempts e
  unfold recordAttempt Sessions.Reader.record attemptReader
  simp only [decide_eq_true_eq]
  cases attempts.getLast? <;> rfl

/-- The lifecycle events say what the lifecycle postings say. -/
theorem map_posting_lifecycle (db : Db) (id : String) :
    (lifecycle db id).map WorkEvent.posting = leasePostings (db.ledger.history id) := by
  unfold lifecycle leasePostings Ledger.history
  rw [List.filter_map]
  rfl

/-- A lifecycle event opens or ends a lease, and not both. -/
theorem sorted_lifecycle (db : Db) (id : String) : attemptReader.Sorted (lifecycle db id) := by
  intro e he
  have htype : e.type.isLifecycle = true := (List.mem_filter.mp he).2
  show e.type.attemptOutcome.isSome = !decide (e.type = .workClaimed)
  unfold EventType.isLifecycle at htype
  by_cases hclaimed : e.type = .workClaimed
  · rw [hclaimed]
    rfl
  · simpa [hclaimed] using htype

theorem replay_lifecycle (db : Db) (id : String) :
    replay (lifecycle db id) = replay (db.ledger.of id) := by
  refine Sessions.Reader.sessions_filter (fun e he => ?_) _
  unfold EventType.isLifecycle
  simpa [attemptReader] using he

/-- The lifecycle events of an item alternate, and the item is claimed
exactly while the last of them is a claim. -/
theorem lifecycle_exec {ops : List Op} {item : WorkItem} {id : String}
    (hitem : (exec env ops).db.items.find? id = some item) :
    Alternating attemptReader.opens (lifecycle (exec env ops).db id) ∧
      (item.rowStatus = .claimed ↔
        endsOpen attemptReader.opens (lifecycle (exec env ops).db id) = true) := by
  obtain ⟨halternating, hclaimed⟩ := leaseRecorded_exec ops item (Table.mem_of_find? hitem)
  rw [Table.key_of_find? hitem, ← map_posting_lifecycle] at halternating hclaimed
  have hevents := Sessions.alternating_map.mp halternating
  refine ⟨hevents, hclaimed.trans ?_⟩
  unfold endsOpen
  rw [List.getLast?_map, Option.any_map]
  rfl

/-- An item that is not there has no lifecycle events. -/
theorem lifecycle_of_find?_eq_none {ops : List Op} {id : String}
    (h : (exec env ops).db.items.find? id = none) : lifecycle (exec env ops).db id = [] := by
  have hrecorded : Recorded (exec env ops).db :=
    exec_invariant recorded_empty (fun h hm => h.move hm) ops
  have hhistory := recorded_iff.mp hrecorded id h
  rw [Ledger.history, List.map_eq_nil_iff] at hhistory
  rw [lifecycle, hhistory]
  rfl

section Window

variable {db : Db} {id : String} (h : Turns attemptReader.opens (lifecycle db id)) (count : ℕ)
include h

/-- The walk over the newest lifecycle events is their replay. -/
theorem foldl_recordAttempt_newest :
    (newest count (lifecycle db id)).foldl recordAttempt [] =
      replay (newest count (lifecycle db id)) := by
  rw [recordAttempt_eq]
  exact Sessions.Reader.foldl_record (fun e he => sorted_lifecycle db id e (List.mem_of_mem_drop he))
    (List.IsChain.drop h _) (fun _ hb => (nomatch hb))

/-- The window is wide enough. -/
theorem newest_replay_newest :
    newest count (replay (newest (2 * count + 1) (lifecycle db id))) =
      newest count (replay (db.ledger.of id)) := by
  rw [replay, Sessions.Reader.newest_sessions_newest h]
  exact congrArg _ (replay_lifecycle db id)

/-- All attempts of a window are closed, but for the one its last event
opens. -/
theorem replay_newest_eq :
    ∃ ended : List WorkAttempt, (∀ attempt ∈ ended, attempt.outcome.isSome = true) ∧
      replay (newest count (lifecycle db id)) = ended ++
        (((newest count (lifecycle db id)).getLast?.filter attemptReader.opens).map
          openAttempt).toList :=
  Sessions.Reader.sessions_eq_of_turns
    (fun e he => sorted_lifecycle db id e (List.mem_of_mem_drop he)) (List.IsChain.drop h _)

end Window

/-! ## The projection -/

/-- An attempt that was closed is shown as it is. -/
theorem WorkAttempt.shownAt_of_closed {attempt : WorkAttempt} {item : WorkItem} {atTime : Time}
    (h : attempt.outcome.isSome = true) : attempt.shownAt item atTime = attempt := by
  unfold WorkAttempt.shownAt
  split
  · rw [if_neg]
    rintro ⟨hnone, -⟩
    rw [hnone] at h
    cases h
  · rfl

/-- Showing closed attempts changes nothing. -/
theorem map_shownAt_of_closed {attempts : List WorkAttempt} {item : WorkItem} {atTime : Time}
    (h : ∀ attempt ∈ attempts, attempt.outcome.isSome = true) :
    attempts.map (fun attempt => attempt.shownAt item atTime) = attempts := by
  conv_rhs => rw [← List.map_id attempts]
  exact List.map_congr_left fun attempt hmem => WorkAttempt.shownAt_of_closed (h attempt hmem)

/-- What the clock says of the open attempt of a claimed item. -/
theorem returns_judgeOpenAttempt {item : WorkItem} {attempt : WorkAttempt} {w : World}
    (hclaimed : item.rowStatus = .claimed) (hexpires : item.leaseExpiresAt ≠ none)
    (hopen : attempt.outcome = none) :
    (judgeOpenAttempt env item attempt).Returns w (attempt.shownAt item (env.clock w.ticks))
      ⟨w.db, w.ticks + 1⟩ := by
  obtain ⟨expiresAt, hexpiresAt⟩ := Option.ne_none_iff_exists'.mp hexpires
  unfold judgeOpenAttempt WorkAttempt.shownAt
  simp only [hclaimed, hexpiresAt, Tx.returns_bind, returns_now, hopen, true_and]
  refine ⟨_, _, ⟨rfl, rfl⟩, ?_⟩
  split
  · exact Tx.returns_pure.mpr ⟨rfl, rfl⟩
  · exact Tx.returns_pure.mpr ⟨rfl, rfl⟩

/-- A limit in the range passes the check. -/
theorem not_refused_of_limit {limit : ℤ} (hlimit : 1 ≤ limit ∧ limit ≤ maxItemAttempts) :
    ¬ ((JsNumber.int limit).isSafeInteger = false ∨ (JsNumber.int limit).toInt < 1 ∨
      maxItemAttempts < (JsNumber.int limit).toInt) := by
  have hmax : limit ≤ 10 := hlimit.2
  simp only [JsNumber.isSafeInteger, JsNumber.toInt, maxItemAttempts, Bool.and_eq_false_iff,
    decide_eq_false_iff_not]
  omega

/-- **The answer for an item** whose lifecycle events take turns: the newest
attempts of its replay, as the clock shows them. -/
theorem returns_attempts {id : String} {item : WorkItem} {limit : ℤ} {w : World}
    (hlimit : 1 ≤ limit ∧ limit ≤ maxItemAttempts) (hitem : w.db.items.find? id = some item)
    (hturns : Turns attemptReader.opens (lifecycle w.db id))
    (hclaimed : endsOpen attemptReader.opens (lifecycle w.db id) = true →
      item.rowStatus = .claimed ∧ item.leaseExpiresAt ≠ none) :
    ∃ after, after.db = w.db ∧ (attempts env id (.int limit)).Returns w
      (newest limit.toNat (replayedAttempts w.db id (env.clock w.ticks))) after := by
  have hrefused := not_refused_of_limit hlimit
  obtain ⟨ended, hended, hshape⟩ := replay_newest_eq hturns (2 * limit.toNat + 1)
  -- showing the window's attempts and cutting them is showing and cutting all of them
  have hshown : newest limit.toNat (replayedAttempts w.db id (env.clock w.ticks)) =
      newest limit.toNat ((replay (newest (2 * limit.toNat + 1) (lifecycle w.db id))).map
        fun attempt => attempt.shownAt item (env.clock w.ticks)) := by
    rw [← Sessions.map_newest, newest_replay_newest hturns, Sessions.map_newest, replayedAttempts,
      hitem]
  rw [hshown]
  simp only [attempts, Tx.returns_bind, Tx.returns_failIf, Tx.returns_read]
  have hlast : (newest (2 * limit.toNat + 1) (lifecycle w.db id)).getLast? =
      (lifecycle w.db id).getLast? := Sessions.getLast?_newest (Nat.succ_pos _) _
  rw [hlast] at hshape
  cases hopen : (lifecycle w.db id).getLast?.filter attemptReader.opens with
  | none =>
    -- every attempt of the window is closed
    rw [hopen, Option.map_none, Option.toList_none, List.append_nil] at hshape
    refine ⟨w, rfl, (), w, ⟨hrefused, rfl⟩, _, w, ⟨rfl, rfl⟩, ?_⟩
    simp only [hitem, JsNumber.toInt, foldl_recordAttempt_newest hturns, hshape,
      map_shownAt_of_closed hended]
    cases hnewest : ended.getLast? with
    | none =>
      rw [List.getLast?_eq_none_iff.mp hnewest]
      exact Tx.returns_pure.mpr ⟨Sessions.newest_nil _, rfl⟩
    | some attempt =>
      dsimp only
      rw [if_pos (hended attempt (List.mem_of_getLast? hnewest))]
      exact Tx.returns_pure.mpr ⟨rfl, rfl⟩
  | some e =>
    -- the newest attempt is open, and the item is claimed
    rw [hopen, Option.map_some, Option.toList_some] at hshape
    obtain ⟨hstatus, hexpires⟩ := hclaimed (by
      obtain ⟨hmem, hopens⟩ := Option.filter_eq_some_iff.mp hopen
      rw [endsOpen, hmem]
      exact hopens)
    refine ⟨⟨w.db, w.ticks + 1⟩, rfl, (), w, ⟨hrefused, rfl⟩, _, w, ⟨rfl, rfl⟩, ?_⟩
    simp only [hitem, JsNumber.toInt, foldl_recordAttempt_newest hturns, hshape,
      List.getLast?_concat, List.dropLast_concat, List.map_append, map_shownAt_of_closed hended]
    rw [if_neg (show ¬ (openAttempt e).outcome.isSome = true from Bool.false_ne_true)]
    simp only [Tx.returns_bind, Tx.returns_pure]
    exact ⟨_, _, returns_judgeOpenAttempt hstatus hexpires rfl, rfl, rfl⟩

/-- **The projection of attempts is the full replay**: for every limit the
store accepts, in every reachable state, the answer is the newest `limit`
entries of the replay of the item's whole ledger. And the ledger it is
read off is in order: the lifecycle events of an item strictly alternate, and
the item is claimed exactly when the last one is a `work.claimed`. -/
theorem attempts_eq_replay (env : Env) (ops : List Op) (id : String) (limit : ℤ)
    (hlimit : 1 ≤ limit ∧ limit ≤ maxItemAttempts) :
    (∃ after, after.db = (exec env ops).db ∧
      (attempts env id (.int limit)).Returns (exec env ops)
        (newest limit.toNat
          (replayedAttempts (exec env ops).db id (env.clock (exec env ops).ticks))) after) ∧
    Alternating attemptReader.opens (lifecycle (exec env ops).db id) ∧
    (∀ item, (exec env ops).db.items.find? id = some item → (item.status = .claimed ↔
      ∃ e, (lifecycle (exec env ops).db id).getLast? = some e ∧ e.type = .workClaimed)) := by
  cases hitem : (exec env ops).db.items.find? id with
  | none =>
    have hnil := lifecycle_of_find?_eq_none hitem
    refine ⟨⟨exec env ops, rfl, ?_⟩, by rw [hnil]; exact Sessions.alternating_nil, fun _ h => nomatch h⟩
    simp only [attempts, Tx.returns_bind, Tx.returns_failIf, Tx.returns_read, replayedAttempts, hitem]
    refine ⟨(), _, ⟨not_refused_of_limit hlimit, rfl⟩, _, _, ⟨rfl, rfl⟩, ?_⟩
    rw [hitem]
    exact Tx.returns_pure.mpr ⟨Sessions.newest_nil _, rfl⟩
  | some item =>
    obtain ⟨halternating, hclaimed⟩ := lifecycle_exec hitem
    have hrepresented := represented_exec ops item (Table.mem_of_find? hitem)
    refine ⟨returns_attempts hlimit hitem halternating.2 fun hopen => ?_, halternating, ?_⟩
    · exact ⟨hclaimed.mpr hopen, (hrepresented.leased (hclaimed.mpr hopen)).2.2⟩
    · intro item' hitem'
      obtain rfl := Option.some.inj hitem'
      rw [WorkItem.status_eq_claimed, hclaimed, endsOpen, Option.any_eq_true]
      exact exists_congr fun e => and_congr_right fun _ => decide_eq_true_iff

/-- The newest attempt of the item the small run claims. -/
theorem attempts_eq_replay_sample :
    ∃ after, after.db = (exec Env.sample sampleRun).db ∧
      (attempts Env.sample "uu" (.int 1)).Returns (exec Env.sample sampleRun)
        (newest 1 (replayedAttempts (exec Env.sample sampleRun).db "uu"
          (Env.sample.clock (exec Env.sample sampleRun).ticks))) after :=
  (attempts_eq_replay Env.sample sampleRun "uu" 1 ⟨by decide, by decide⟩).1

end Snowcat
