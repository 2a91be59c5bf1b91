import Mathlib.Algebra.Order.Ring.Int
import Mathlib.Data.List.TakeWhile
import Snowcat.Lib.SideBySide
import Snowcat.Queue.Creation
import Snowcat.Queue.Feeder
import Snowcat.Queue.Lease

/-!
# The cooldown of a program that found nothing

A kind whose newest roots all completed without proposing a child is not
asked again before a window is over, and the window doubles with each such
root. The code walks every root of the repository once, kind by kind, and
stops at a kind's first root that is not like that; the window is clamped
arithmetic with an override for the whole call. What the feeder then does is
said here without the walk: the run of a kind's newest roots that found
nothing (`noFindingRun`), when the newest of them completed, and one
comparison with the clock (`CooldownOver`).

Nothing of that reads what a note writes. The order of the roots is that of
their creation and the anchor is an event of the ledger, so the same call
comes to the same outcome with any notes before it.
-/

namespace Snowcat

variable {env : Env} {db : Db} {w w' : World}

/-! ## The definition -/

/-- The roots of a kind in a repository, the newest created first. -/
def rootsNewestFirst (db : Db) (repository kind : String) : List WorkItem :=
  ((db.items.rows.filter fun item => item.repository = repository && item.parentId.isNone &&
    item.kind = kind).reverse).mergeSort fun a b => decide (b.createdAt ≤ a.createdAt)

/-- A root found nothing: it completed and has no child. -/
def foundNothing (db : Db) (root : WorkItem) : Bool :=
  root.rowStatus = .completed && !hasChild db root

/-- **The run of a kind's newest roots that found nothing.** -/
def noFindingRun (db : Db) (repository kind : String) : List WorkItem :=
  (rootsNewestFirst db repository kind).takeWhile (foundNothing db)

/-- The instant of an item's last completion, if the ledger has one. -/
def lastCompletedAt (db : Db) (item : WorkItem) : Option Time :=
  (((db.ledger.of item.id).filter fun e => e.type = .workCompleted).map WorkEvent.occurredAt).max?

/-- **The cooldown of a kind is over** at an instant: no root of it found
nothing last, or there is no cooldown, or the doubled window since the newest
completion has passed. -/
def CooldownOver (db : Db) (repository kind : String) (base : ℤ) (atTime : Time) : Prop :=
  noFindingRun db repository kind = [] ∨ base = 0 ∨
    ∃ newest ∈ (noFindingRun db repository kind).head?, ∃ completed ∈ lastCompletedAt db newest,
      completed + max base (min (base * 2 ^ ((noFindingRun db repository kind).length - 1))
        maxNoFindingCooldownSeconds) * 1000 < atTime

/-! ## The walk -/

/-- The order the walk takes the roots in. -/
def walkOrder (a b : WorkItem) : Bool :=
  if a.kind = b.kind then decide (b.createdAt ≤ a.createdAt) else jsLe a.kind b.kind

/-- The streak the walk has found for a kind. -/
def extended (before : Option NoFinding) : List Time → Option NoFinding
  | [] => before
  | newest :: older =>
    match before with
    | none => some ⟨newest, older.length + 1⟩
    | some entry => some { entry with streak := entry.streak + (older.length + 1) }

theorem lookup_filter_ne {streaks : List (String × NoFinding)} {kind other : String}
    (h : kind ≠ other) :
    (streaks.filter fun e => e.1 ≠ other).lookup kind = streaks.lookup kind := by
  induction streaks with
  | nil => rfl
  | cons e streaks ih =>
    obtain ⟨key, entry⟩ := e
    by_cases hkey : key = other
    · rw [List.filter_cons_of_neg (by simpa using hkey), ih, List.lookup_cons,
        show (kind == key) = false from by simpa [hkey] using h]
    · rw [List.filter_cons_of_pos (by simpa using hkey), List.lookup_cons, List.lookup_cons, ih]

/-- **The walk, seen from one kind**: it reads the roots of that kind up to
the first that found something. -/
theorem lookup_noFindingLoop (streaks : List (String × NoFinding)) (settled : List String)
    (roots : List WorkItem) (kind : String) :
    (noFindingLoop db streaks settled roots).lookup kind =
      if kind ∈ settled then streaks.lookup kind
      else extended (streaks.lookup kind) (((roots.filter fun root => root.kind = kind).takeWhile
        (foundNothing db)).map (completedAt db)) := by
  induction roots generalizing streaks settled with
  | nil => simp [noFindingLoop, extended]
  | cons root rest ih =>
    rw [noFindingLoop]
    by_cases hsettled : root.kind ∈ settled
    · rw [if_pos hsettled, ih]
      by_cases hkind : kind ∈ settled
      · rw [if_pos hkind, if_pos hkind]
      · rw [if_neg hkind, if_neg hkind, List.filter_cons_of_neg]
        simpa using fun heq : root.kind = kind => hkind (heq ▸ hsettled)
    rw [if_neg hsettled]
    by_cases hfound : root.rowStatus ≠ .completed ∨ hasChild db root = true
    · -- the walk of this kind stops here
      have hnothing : foundNothing db root = false := by
        unfold foundNothing
        rcases hfound with hstatus | hchild
        · simp [hstatus]
        · simp [hchild]
      rw [if_pos hfound, ih]
      by_cases heq : root.kind = kind
      · subst heq
        rw [if_pos List.mem_cons_self, if_neg hsettled, List.filter_cons_of_pos (by simp),
          List.takeWhile_cons_of_neg (by simp [hnothing])]
        rfl
      · rw [List.filter_cons_of_neg (by simpa using heq)]
        simp [Ne.symm heq]
    · have hnothing : foundNothing db root = true := by
        rw [not_or, not_not, Bool.not_eq_true] at hfound
        simp [foundNothing, hfound]
      rw [if_neg hfound]
      by_cases heq : root.kind = kind
      · subst heq
        rw [if_neg hsettled, List.filter_cons_of_pos (by simp), List.takeWhile_cons_of_pos hnothing,
          List.map_cons]
        cases hstreak : streaks.lookup root.kind with
        | none =>
          dsimp only
          rw [ih, if_neg hsettled, List.lookup_cons_self]
          cases ((rest.filter fun other => other.kind = root.kind).takeWhile
            (foundNothing db)).map (completedAt db) with
          | nil => rfl
          | cons c cs => simp [extended, Nat.add_comm]
        | some entry =>
          dsimp only
          rw [ih, if_neg hsettled, List.lookup_cons_self]
          cases ((rest.filter fun other => other.kind = root.kind).takeWhile
            (foundNothing db)).map (completedAt db) with
          | nil => rfl
          | cons c cs => simp [extended, Nat.add_comm, Nat.add_left_comm]
      · have hbeq : (kind == root.kind) = false := by simpa using Ne.symm heq
        rw [List.filter_cons_of_neg (by simpa using heq)]
        cases hstreak : streaks.lookup root.kind with
        | none =>
          dsimp only
          rw [ih, List.lookup_cons, hbeq]
        | some entry =>
          dsimp only
          rw [ih, List.lookup_cons, hbeq, lookup_filter_ne (Ne.symm heq)]

theorem walkOrder_trans (a b c : WorkItem) (hab : walkOrder a b = true)
    (hbc : walkOrder b c = true) : walkOrder a c = true := by
  unfold walkOrder at hab hbc ⊢
  by_cases h₁ : a.kind = b.kind
  · rw [if_pos h₁, decide_eq_true_eq] at hab
    by_cases h₂ : b.kind = c.kind
    · rw [if_pos h₂, decide_eq_true_eq] at hbc
      rw [if_pos (h₁.trans h₂), decide_eq_true_eq]
      exact le_trans hbc hab
    · rw [if_neg h₂] at hbc
      rwa [if_neg fun h => h₂ (h₁.symm.trans h), h₁]
  · rw [if_neg h₁] at hab
    by_cases h₂ : b.kind = c.kind
    · rwa [if_neg fun h => h₁ (h.trans h₂.symm), ← h₂]
    · rw [if_neg h₂] at hbc
      by_cases h₃ : a.kind = c.kind
      · exact absurd (jsLe_antisymm hab (h₃ ▸ hbc)) h₁
      · rw [if_neg h₃]
        exact jsLe_trans hab hbc

theorem walkOrder_total (a b : WorkItem) : (walkOrder a b || walkOrder b a) = true := by
  unfold walkOrder
  rw [Bool.or_eq_true]
  by_cases h : a.kind = b.kind
  · rw [if_pos h, if_pos h.symm, decide_eq_true_eq, decide_eq_true_eq]
    exact le_total _ _
  · rw [if_neg h, if_neg (Ne.symm h)]
    exact jsLe_total _ _

/-- The roots of one kind in the walk are its roots, newest first. -/
theorem filter_rootsByKind (repository kind : String) :
    (rootsByKind db repository).filter (fun root => root.kind = kind) =
      rootsNewestFirst db repository kind := by
  have hsorted : rootsByKind db repository =
      ((db.items.rows.filter fun item => item.repository = repository &&
        item.parentId.isNone).reverse).mergeSort walkOrder := rfl
  have hparts : ((db.items.rows.filter fun item => item.repository = repository &&
      item.parentId.isNone).reverse).filter (fun root => root.kind = kind) =
      (db.items.rows.filter fun item => item.repository = repository && item.parentId.isNone &&
        item.kind = kind).reverse := by
    rw [List.filter_reverse, List.filter_filter]
    congr 1
    exact List.filter_congr fun item _ => Bool.and_comm _ _
  rw [hsorted, Selection.filter_mergeSort walkOrder_trans walkOrder_total, hparts]
  refine Selection.mergeSort_congr fun a ha b hb => ?_
  simp only [List.mem_reverse, List.mem_filter, Bool.and_eq_true, decide_eq_true_eq] at ha hb
  unfold walkOrder
  rw [if_pos (ha.2.2.trans hb.2.2.symm)]

/-- **The streak of a kind** is the length of its run, from the newest
completion. -/
theorem lookup_noFindingStreaks (repository kind : String) :
    (noFindingStreaks db repository).lookup kind =
      extended none ((noFindingRun db repository kind).map (completedAt db)) := by
  rw [noFindingStreaks, lookup_noFindingLoop, if_neg List.not_mem_nil, filter_rootsByKind]
  rfl

/-! ## The window -/

/-- The window of a streak. -/
theorem backedOffCooldownSeconds_eq {base : ℤ} (hbase : 0 < base) (n : ℕ) :
    backedOffCooldownSeconds base (n + 1) =
      max base (min (base * 2 ^ n) maxNoFindingCooldownSeconds) := by
  unfold backedOffCooldownSeconds
  cases n with
  | zero =>
    rw [if_pos (Or.inr le_rfl), Int.pow_zero, Int.mul_one]
    exact (max_eq_left (min_le_left _ _)).symm
  | succ n =>
    rw [if_neg (by omega)]
    show max base (min (base * 2 ^ min (n + 1) 60) maxNoFindingCooldownSeconds) = _
    rcases le_total (n + 1) 60 with hsmall | hlarge
    · rw [min_eq_left hsmall]
    · -- the ceiling is far below sixty doublings of a second
      have hceiling : ∀ m, 60 ≤ m → maxNoFindingCooldownSeconds ≤ base * 2 ^ m := by
        intro m hm
        have hpow : (2 : ℤ) ^ 60 ≤ 2 ^ m := pow_le_pow_right₀ (by decide) hm
        have hsecond : (2 : ℤ) ^ m ≤ base * 2 ^ m :=
          le_mul_of_one_le_left (le_trans (by decide) hpow) hbase
        exact le_trans (by decide) (le_trans hpow hsecond)
      rw [min_eq_right hlarge, min_eq_right (hceiling _ hlarge), min_eq_right (hceiling 60 le_rfl)]

/-- Whether a kind is cooling by the streaks that were found. -/
def Cooling (noFinding : List (String × NoFinding)) (kind : String) (base : ℤ) (atTime : Time) :
    Prop :=
  ∃ entry ∈ noFinding.lookup kind, 0 < backedOffCooldownSeconds base entry.streak ∧
    atTime - backedOffCooldownSeconds base entry.streak * 1000 ≤ entry.completedAt

/-- The check reads the clock, when it reads it, once and first. -/
theorem returns_isCooling {noFinding : List (String × NoFinding)} {kind : String} {base : ℤ}
    {cooling : Bool} (h : (isCooling env noFinding kind base).Returns w cooling w') :
    (cooling = true ↔ Cooling noFinding kind base (env.clock w.ticks)) ∧ w'.db = w.db := by
  refine ⟨?_, db_of_isCooling h⟩
  unfold isCooling at h
  unfold Cooling
  split at h
  · next hnone =>
    obtain ⟨rfl, -⟩ := Tx.returns_pure.mp h
    rw [hnone]
    refine iff_of_false Bool.false_ne_true ?_
    rintro ⟨_, hentry, _⟩
    cases hentry
  · next entry hsome =>
    rw [hsome]
    simp only [Option.mem_def, Option.some.injEq, exists_eq_left']
    dsimp only at h
    split at h
    · next hwindow =>
      simp only [Tx.returns_bind, returns_now, Tx.returns_pure] at h
      obtain ⟨_, _, ⟨rfl, -⟩, rfl, -⟩ := h
      rw [decide_eq_true_eq]
      exact (and_iff_right hwindow).symm
    · next hwindow =>
      obtain ⟨rfl, -⟩ := Tx.returns_pure.mp h
      exact iff_of_false Bool.false_ne_true fun hcooling => hwindow hcooling.1

/-- An item that completed has its completion in the ledger. -/
def CompletionsRecorded (db : Db) : Prop :=
  ∀ item ∈ db.items.rows, item.rowStatus = .completed → lastCompletedAt db item ≠ none

theorem completionsRecorded_exec (ops : List Op) : CompletionsRecorded (exec env ops).db := by
  intro item hitem hcompleted hnone
  have honce := @completedOnce_exec env ops item hitem
  rw [CompletedOnce, if_pos hcompleted, completions, Ledger.history, List.countP_map] at honce
  unfold lastCompletedAt at hnone
  rw [List.max?_eq_none_iff, List.map_eq_nil_iff, ← List.length_eq_zero_iff,
    ← List.countP_eq_length_filter] at hnone
  cases honce.symm.trans hnone

/-- A run has roots that completed only. -/
theorem of_mem_noFindingRun {repository kind : String} {root : WorkItem}
    (h : root ∈ noFindingRun db repository kind) :
    root ∈ db.items.rows ∧ root.rowStatus = .completed := by
  have hfound := List.mem_takeWhile_imp h
  have hmem := (List.takeWhile_sublist _).subset h
  simp only [rootsNewestFirst, List.mem_mergeSort, List.mem_reverse, List.mem_filter] at hmem
  simp only [foundNothing, Bool.and_eq_true, decide_eq_true_eq] at hfound
  exact ⟨hmem.1, hfound.1⟩

/-- **A kind is cooling until its cooldown is over.** -/
theorem cooling_iff (hrecorded : CompletionsRecorded db) {repository kind : String} {base : ℤ}
    (hbase : 0 ≤ base) {noFinding : List (String × NoFinding)}
    (hstreaks : 0 < base → noFinding = noFindingStreaks db repository) (atTime : Time) :
    ¬ Cooling noFinding kind base atTime ↔ CooldownOver db repository kind base atTime := by
  rcases eq_or_lt_of_le hbase with rfl | hpos
  · refine iff_of_true ?_ (Or.inr (Or.inl rfl))
    rintro ⟨entry, -, hwindow, -⟩
    exact absurd hwindow (by simp [backedOffCooldownSeconds])
  unfold Cooling CooldownOver
  rw [hstreaks hpos, lookup_noFindingStreaks]
  cases hrun : noFindingRun db repository kind with
  | nil => exact iff_of_true (fun ⟨_, hentry, _⟩ => nomatch hentry) (Or.inl rfl)
  | cons newest older =>
    obtain ⟨hmem, hcompleted⟩ := of_mem_noFindingRun (hrun ▸ List.mem_cons_self)
    obtain ⟨completed, hlast⟩ := Option.ne_none_iff_exists'.mp (hrecorded newest hmem hcompleted)
    have hanchor : completedAt db newest = completed := by
      show (lastCompletedAt db newest).getD newest.updatedAt = completed
      rw [hlast]
      rfl
    have hwindow : 0 < max base (min (base * 2 ^ older.length) maxNoFindingCooldownSeconds) :=
      lt_of_lt_of_le hpos (le_max_left _ _)
    simp only [List.map_cons, extended, List.length_map, Option.mem_def, Option.some.injEq,
      exists_eq_left', hanchor, backedOffCooldownSeconds_eq hpos, List.head?_cons, hlast, reduceCtorEq,
      List.length_cons, Nat.add_sub_cancel, false_or, hpos.ne', true_and, hwindow, not_le]
    exact Int.lt_sub_right_iff_add_lt

/-! ## A call of the feeder -/

/-- **A candidate's turn**: its base cooldown, the instant it came up, and the
root that was created for it, if one was. -/
structure Turn where
  candidate : BatchCandidate
  base : ℤ
  atTime : Time
  made : Option WorkItem

/-- The kind a turn is about. -/
def Turn.kind (turn : Turn) : String := turn.candidate.definition.kind

/-- What was created on a turn: a new root of the kind. -/
structure Turn.Made (db db' : Db) (repository : String) (turn : Turn) (item : WorkItem) : Prop where
  root : item.parentId = none
  place : item.repository = repository
  kind : item.kind = turn.kind
  new : db.items.find? item.id = none
  stored : db'.items.find? item.id = some item

/-- **The turns of the loop.** A turn creates a root exactly where the kind is
not active, no earlier turn created one, and it is not cooling. -/
structure Turns (env : Env) (w w' : World) (repository : String)
    (noFinding : List (String × NoFinding)) (activeKinds : List String) (turns : List Turn) :
    Prop where
  decided : ∀ pre turn post, turns = pre ++ turn :: post → (turn.made.isSome = true ↔
    turn.kind ∉ activeKinds ∧ (∀ earlier ∈ pre, earlier.made.isSome = true → earlier.kind ≠ turn.kind) ∧
      ¬ Cooling noFinding turn.kind turn.base turn.atTime)
  read : ∀ turn ∈ turns, ∃ k, w.ticks ≤ k ∧ k ≤ w'.ticks ∧ turn.atTime = env.clock k
  made : ∀ turn ∈ turns, ∀ item ∈ turn.made, turn.Made w.db w'.db repository item
  kept : ∀ id row, w.db.items.find? id = some row → w'.db.items.find? id = some row

theorem Turns.nil {repository : String} {noFinding : List (String × NoFinding)}
    {activeKinds : List String} : Turns env w w repository noFinding activeKinds [] where
  decided pre turn post h := by simp at h
  read _ h := nomatch h
  made _ h := nomatch h
  kept _ _ h := h

/-- A turn on which nothing is created. -/
theorem Turns.cons_none {repository : String} {noFinding : List (String × NoFinding)}
    {activeKinds : List String} {turns : List Turn} {w₁ : World} {candidate : BatchCandidate}
    {base : ℤ} (h : Turns env w₁ w' repository noFinding activeKinds turns) (hdb : w₁.db = w.db)
    (hticks : w.ticks ≤ w₁.ticks) (hend : w₁.ticks ≤ w'.ticks)
    (hnot : candidate.definition.kind ∈ activeKinds ∨
      Cooling noFinding candidate.definition.kind base (env.clock w.ticks)) :
    Turns env w w' repository noFinding activeKinds
      (⟨candidate, base, env.clock w.ticks, none⟩ :: turns) where
  decided pre turn post heq := by
    cases pre with
    | nil =>
      obtain ⟨rfl, -⟩ := List.cons.inj heq
      refine iff_of_false nofun ?_
      rintro ⟨hactive, -, hcooling⟩
      exact hnot.elim hactive hcooling
    | cons first pre =>
      obtain ⟨rfl, hrest⟩ := List.cons.inj heq
      rw [h.decided pre turn post hrest, List.forall_mem_cons]
      simp
  read turn hturn := by
    rcases List.mem_cons.mp hturn with rfl | hturn
    · exact ⟨w.ticks, le_rfl, le_trans hticks hend, rfl⟩
    · obtain ⟨k, hlo, hhi, hread⟩ := h.read turn hturn
      exact ⟨k, le_trans hticks hlo, hhi, hread⟩
  made turn hturn item hitem := by
    rcases List.mem_cons.mp hturn with rfl | hturn
    · exact nomatch hitem
    · exact hdb ▸ h.made turn hturn item hitem
  kept id row hrow := h.kept id row (hdb ▸ hrow)

/-- A turn on which a root is created. -/
theorem Turns.cons_some {repository : String} {noFinding : List (String × NoFinding)}
    {activeKinds : List String} {turns : List Turn} {w₁ : World} {candidate : BatchCandidate}
    {base : ℤ} {item : WorkItem}
    (h : Turns env w₁ w' repository noFinding (candidate.definition.kind :: activeKinds) turns)
    (hticks : w.ticks ≤ w₁.ticks) (hend : w₁.ticks ≤ w'.ticks)
    (hactive : candidate.definition.kind ∉ activeKinds)
    (hcooling : ¬ Cooling noFinding candidate.definition.kind base (env.clock w.ticks))
    (hkept : ∀ id row, w.db.items.find? id = some row → w₁.db.items.find? id = some row)
    (hnew : w.db.items.find? item.id = none) (hstored : w₁.db.items.find? item.id = some item)
    (hroot : item.parentId = none) (hplace : item.repository = repository)
    (hkind : item.kind = candidate.definition.kind) :
    Turns env w w' repository noFinding activeKinds
      (⟨candidate, base, env.clock w.ticks, some item⟩ :: turns) where
  decided pre turn post heq := by
    cases pre with
    | nil =>
      obtain ⟨rfl, -⟩ := List.cons.inj heq
      exact iff_of_true rfl ⟨hactive, fun _ he => (nomatch he), hcooling⟩
    | cons first pre =>
      obtain ⟨rfl, hrest⟩ := List.cons.inj heq
      rw [h.decided pre turn post hrest, List.forall_mem_cons, List.mem_cons, not_or]
      constructor
      · rintro ⟨⟨hne, hnot⟩, hearlier, hcool⟩
        exact ⟨hnot, ⟨fun _ => Ne.symm hne, hearlier⟩, hcool⟩
      · rintro ⟨hnot, ⟨hne, hearlier⟩, hcool⟩
        exact ⟨⟨Ne.symm (hne rfl), hnot⟩, hearlier, hcool⟩
  read turn hturn := by
    rcases List.mem_cons.mp hturn with rfl | hturn
    · exact ⟨w.ticks, le_rfl, le_trans hticks hend, rfl⟩
    · obtain ⟨k, hlo, hhi, hread⟩ := h.read turn hturn
      exact ⟨k, le_trans hticks hlo, hhi, hread⟩
  made turn hturn made hmade := by
    rcases List.mem_cons.mp hturn with rfl | hturn
    · obtain rfl := Option.some.inj hmade
      exact ⟨hroot, hplace, hkind, hnew, h.kept _ _ hstored⟩
    · obtain ⟨hroot, hplace, hkind, hfresh, hstored⟩ := h.made turn hturn made hmade
      refine ⟨hroot, hplace, hkind, ?_, hstored⟩
      by_contra hthere
      obtain ⟨row, hrow⟩ := Option.ne_none_iff_exists'.mp hthere
      exact nomatch hfresh.symm.trans (hkept _ _ hrow)
  kept id row hrow := h.kept id row (hkept id row hrow)

/-- A created root is new, and every other row is what it was. -/
theorem made_of_createRoot {root : RootWork} {payload : EventPayload} {item : WorkItem}
    (h : (createRoot env root payload).Returns w item w') :
    item.parentId = none ∧ item.repository = root.repository ∧ item.kind = root.definition.kind ∧
      w.db.items.find? item.id = none ∧ w'.db.items.find? item.id = some item ∧
      ∀ id row, w.db.items.find? id = some row → w'.db.items.find? id = some row := by
  obtain ⟨id, createdAt, policy, t, hfresh, rfl, hdb, -⟩ := createRoot_spec h
  have hfind : ∀ other, w'.db.items.find? other =
      if other = id then some ((root.withId id createdAt).row policy)
      else w.db.items.find? other := by
    intro other
    rw [hdb]
    exact Db.find?_create hfresh other
  refine ⟨rfl, rfl, rfl, hfresh, (hfind id).trans (if_pos rfl), fun other row hrow => ?_⟩
  rw [hfind, if_neg, hrow]
  rintro rfl
  exact nomatch hfresh.symm.trans hrow

/-- **The loop takes the candidates turn by turn.** -/
theorem inactiveRootLoop_spec {repository : String} {noFinding : List (String × NoFinding)}
    {activeKinds : List String} {candidates : List (BatchCandidate × ℤ)} {result : BatchResult}
    (h : (inactiveRootLoop env repository noFinding activeKinds candidates).Returns w result w') :
    ∃ turns : List Turn, turns.map (fun turn => (turn.candidate, turn.base)) = candidates ∧
      result.created = turns.filterMap Turn.made ∧
      Turns env w w' repository noFinding activeKinds turns := by
  induction candidates generalizing activeKinds w result with
  | nil =>
    obtain ⟨rfl, rfl⟩ := Tx.returns_pure.mp h
    exact ⟨[], rfl, rfl, .nil⟩
  | cons c rest ih =>
    obtain ⟨candidate, cooldown⟩ := c
    simp only [inactiveRootLoop, Tx.returns_bind, Tx.returns_ofExcept] at h
    obtain ⟨_, w₁, ⟨-, rfl⟩, _, w₂, ⟨-, rfl⟩, h⟩ := h
    split at h
    · next hactive =>
      simp only [Tx.returns_bind, Tx.returns_pure] at h
      obtain ⟨reached, _, hloop, rfl, rfl⟩ := h
      obtain ⟨turns, hmap, hcreated, hturns⟩ := ih hloop
      exact ⟨⟨candidate, cooldown, env.clock w₂.ticks, none⟩ :: turns,
        by rw [List.map_cons, hmap], hcreated, hturns.cons_none rfl le_rfl
          (ticks_le_of_returns hloop) (Or.inl hactive)⟩
    · next hactive =>
      simp only [Tx.returns_bind] at h
      obtain ⟨cooling, w₃, hcooling, h⟩ := h
      obtain ⟨hiff, hdb⟩ := returns_isCooling hcooling
      have hticks := ticks_le_of_returns hcooling
      split at h
      · next htrue =>
        simp only [Tx.returns_bind, Tx.returns_pure] at h
        obtain ⟨reached, _, hloop, rfl, rfl⟩ := h
        obtain ⟨turns, hmap, hcreated, hturns⟩ := ih hloop
        exact ⟨⟨candidate, cooldown, env.clock w₂.ticks, none⟩ :: turns,
          by rw [List.map_cons, hmap], hcreated, hturns.cons_none hdb hticks
            (ticks_le_of_returns hloop) (Or.inr (hiff.mp htrue))⟩
      · next hfalse =>
        simp only [Tx.returns_bind, Tx.returns_pure] at h
        obtain ⟨item, w₄, hroot, reached, _, hloop, rfl, rfl⟩ := h
        obtain ⟨turns, hmap, hcreated, hturns⟩ := ih hloop
        obtain ⟨hparent, hplace, hkind, hnew, hstored, hkept⟩ := made_of_createRoot hroot
        rw [hdb] at hnew hkept
        exact ⟨⟨candidate, cooldown, env.clock w₂.ticks, some item⟩ :: turns,
          by rw [List.map_cons, hmap], congrArg (item :: ·) hcreated,
          hturns.cons_some (le_trans hticks (ticks_le_of_returns hroot)) (ticks_le_of_returns hloop)
            hactive (fun hcool => hfalse (hiff.mpr hcool)) hkept hnew hstored hparent hplace hkind⟩

/-- A batch of checks that all pass. -/
theorem forall₂_of_each {α β : Type} {f : α → Except QueueError β} {as : List α} {bs : List β}
    (h : (Tx.each (fun a => Tx.ofExcept (f a)) as).Returns w bs w') :
    List.Forall₂ (fun a b => f a = .ok b) as bs ∧ w' = w := by
  induction as generalizing bs with
  | nil =>
    obtain ⟨rfl, rfl⟩ := Tx.returns_each_nil.mp h
    exact ⟨.nil, rfl⟩
  | cons a as ih =>
    simp only [Tx.each, Tx.returns_bind, Tx.returns_ofExcept, Tx.returns_pure] at h
    obtain ⟨b, _, ⟨hb, rfl⟩, bs', _, hrest, rfl, rfl⟩ := h
    obtain ⟨hall, rfl⟩ := ih hrest
    exact ⟨.cons hb hall, rfl⟩

/-- A base cooldown is not negative. -/
theorem nonneg_of_cooldownOf {override : Option JsNumber} {candidate : BatchCandidate} {base : ℤ}
    (h : cooldownOf override candidate = .ok base) : 0 ≤ base := by
  simp only [cooldownOf, except_bind_eq_ok, refuseIf_eq_ok, except_pure_eq_ok, not_or] at h
  obtain ⟨_, ⟨-, hneg⟩, rfl⟩ := h
  exact not_lt.mp hneg

theorem mem_activeRootKinds_iff {repository kind : String} :
    kind ∉ activeRootKinds db repository ↔ db.Inactive repository kind := by
  refine ⟨inactive_of_not_mem_activeRootKinds, fun hinactive hmem => ?_⟩
  obtain ⟨item, hitem, hkind⟩ := List.mem_filterMap.mp (mem_sortedUnique.mp hmem)
  obtain ⟨root, hroot, rfl⟩ := Option.map_eq_some_iff.mp hkind
  simp only [List.mem_filter, Bool.and_eq_true, decide_eq_true_eq, Bool.not_eq_true'] at hitem
  exact hinactive item hitem.1 hitem.2.1 hitem.2.2 root hroot rfl

/-- **What a call of the feeder decides**, candidate by candidate: a root is
created exactly where no lineage of the kind is active, counting those of the
call, and the cooldown of the kind is over. -/
structure FedByCooldown (env : Env) (w w' : World) (repository : String)
    (override : Option JsNumber) (candidates : List BatchCandidate) (created : List WorkItem)
    (turns : List Turn) : Prop where
  candidates : turns.map Turn.candidate = candidates
  base : ∀ turn ∈ turns, cooldownOf override turn.candidate = .ok turn.base
  read : ∀ turn ∈ turns, ∃ k, w.ticks ≤ k ∧ k ≤ w'.ticks ∧ turn.atTime = env.clock k
  created : created = turns.filterMap Turn.made
  made : ∀ turn ∈ turns, ∀ item ∈ turn.made, turn.Made w.db w'.db repository item
  decided : ∀ pre turn post, turns = pre ++ turn :: post → (turn.made.isSome = true ↔
    (w.db.Inactive repository turn.kind ∧
      ∀ earlier ∈ pre, earlier.made.isSome = true → earlier.kind ≠ turn.kind) ∧
    CooldownOver w.db repository turn.kind turn.base turn.atTime)

theorem fedByCooldown_of_returns (hrecorded : CompletionsRecorded w.db) {repository : String}
    {override : Option JsNumber} {candidates : List BatchCandidate} {result : BatchResult}
    (h : (enqueueInactiveRootBatch env repository candidates override).Returns w result w') :
    ∃ turns, FedByCooldown env w w' repository override candidates result.created turns := by
  simp only [enqueueInactiveRootBatch, Tx.returns_bind, Tx.returns_ofExcept, returns_transaction,
    Tx.returns_read] at h
  obtain ⟨_, w₁, ⟨-, rfl⟩, cooldowns, w₂, hcooldowns, _, w₃, henabled, _, _, ⟨rfl, rfl⟩, hloop⟩ := h
  obtain ⟨hbases, rfl⟩ := forall₂_of_each hcooldowns
  obtain rfl := returns_assertRepositoryEnabled henabled
  obtain ⟨turns, hmap, hcreated, hturns⟩ := inactiveRootLoop_spec hloop
  have hzip : ∀ turn ∈ turns, (turn.candidate, turn.base) ∈ candidates.zip cooldowns := fun turn hturn =>
    hmap ▸ List.mem_map_of_mem hturn
  have hbase : ∀ turn ∈ turns, cooldownOf override turn.candidate = .ok turn.base := fun turn hturn =>
    (List.forall₂_iff_zip.mp hbases).2 (hzip turn hturn)
  refine ⟨turns, ?_, hbase, hturns.read, hcreated, hturns.made, fun pre turn post hpost => ?_⟩
  · have hfirst := congrArg (List.map Prod.fst) hmap
    rw [List.map_map, List.map_fst_zip hbases.length_eq.le] at hfirst
    exact hfirst
  · have hturn : turn ∈ turns := by
      rw [hpost]
      exact List.mem_append_right _ List.mem_cons_self
    rw [hturns.decided pre turn post hpost, mem_activeRootKinds_iff,
      cooling_iff hrecorded (nonneg_of_cooldownOf (hbase turn hturn)) fun hpos =>
        if_pos ⟨turn.base, (List.of_mem_zip (hzip turn hturn)).2, hpos⟩, and_assoc]

/-! ## When a call goes through -/

/-- **A batch that the feeder accepts**: the repository is opted in, and every
candidate has a cooldown, a definition that passes, no predecessors and a
policy that can be bound. -/
structure AcceptsBatch (env : Env) (db : Db) (repository : String) (override : Option JsNumber)
    (candidates : List BatchCandidate) : Prop where
  valid : validateRepository repository = .ok ()
  enabled : ∃ row, db.repositories.find? repository = some row ∧ row.enabled = true
  cooldown : ∀ c ∈ candidates, ∃ base, cooldownOf override c = .ok base
  checked : ∀ c ∈ candidates, validateWorkDefinition c.definition = .ok () ∧
    c.definition.predecessors = none
  binds : ∀ c ∈ candidates, Binds env
    ({ definition := c.definition, repository, admitted := true } : RootWork).policySubject

theorem returns_isCooling_of (noFinding : List (String × NoFinding)) (kind : String) (base : ℤ)
    (w : World) : ∃ cooling w', (isCooling env noFinding kind base).Returns w cooling w' := by
  unfold isCooling
  split
  · exact ⟨_, _, Tx.returns_pure.mpr ⟨rfl, rfl⟩⟩
  · dsimp only
    split
    · simp only [Tx.returns_bind, returns_now, Tx.returns_pure]
      exact ⟨_, _, _, _, ⟨rfl, rfl⟩, rfl, rfl⟩
    · exact ⟨_, _, Tx.returns_pure.mpr ⟨rfl, rfl⟩⟩

/-- A created root's id was drawn on the way. -/
theorem IdsDrawn.createRoot {root : RootWork} {payload : EventPayload} {item : WorkItem}
    (h : IdsDrawn env w.ticks w.db) (hroot : (createRoot env root payload).Returns w item w') :
    IdsDrawn env w'.ticks w'.db := by
  obtain ⟨id, createdAt, policy, t, hfresh, -, hdb, hdrawn, -⟩ := createRoot_spec hroot
  have hticks := ticks_le_of_returns hroot
  intro row hrow
  rw [hdb] at hrow
  rcases (Db.mem_create hfresh).mp hrow with hrow | rfl
  · exact (h row hrow).mono le_rfl hticks
  · exact hdrawn.mono (Nat.zero_le _) le_rfl

theorem returns_inactiveRootLoop (hrandom : Function.Injective env.randomUUID) {repository : String}
    (noFinding : List (String × NoFinding)) (activeKinds : List String)
    (candidates : List (BatchCandidate × ℤ))
    (hchecked : ∀ c ∈ candidates, validateWorkDefinition c.1.definition = .ok () ∧
      c.1.definition.predecessors = none)
    (hbinds : ∀ c ∈ candidates, Binds env
      ({ definition := c.1.definition, repository, admitted := true } : RootWork).policySubject)
    (hknown : w.db.repositories.find? repository ≠ none) (hdrawn : IdsDrawn env w.ticks w.db) :
    ∃ result w', (inactiveRootLoop env repository noFinding activeKinds candidates).Returns w
      result w' := by
  induction candidates generalizing w activeKinds with
  | nil => exact ⟨_, _, Tx.returns_pure.mpr ⟨rfl, rfl⟩⟩
  | cons c rest ih =>
    obtain ⟨candidate, cooldown⟩ := c
    obtain ⟨⟨hdefinition, hnone⟩, hrest⟩ := List.forall_mem_cons.mp hchecked
    obtain ⟨hbind, hbindrest⟩ := List.forall_mem_cons.mp hbinds
    have hassert : assertNoPredecessors candidate.definition.predecessors "a seed root" = .ok () := by
      rw [hnone]
      rfl
    simp only [inactiveRootLoop, Tx.returns_bind, Tx.returns_ofExcept]
    suffices ∃ result w', Tx.Returns _ w result w' by
      obtain ⟨result, w', h⟩ := this
      exact ⟨result, w', (), w, ⟨hdefinition, rfl⟩, (), w, ⟨hassert, rfl⟩, h⟩
    split
    · obtain ⟨result, w', hloop⟩ := ih activeKinds hrest hbindrest hknown hdrawn
      exact ⟨_, w', Tx.returns_bind.mpr ⟨result, w', hloop, Tx.returns_pure.mpr ⟨rfl, rfl⟩⟩⟩
    · obtain ⟨cooling, w₁, hcooling⟩ :=
        @returns_isCooling_of env noFinding candidate.definition.kind cooldown w
      have hdb := db_of_isCooling hcooling
      have hdrawn₁ : IdsDrawn env w₁.ticks w₁.db := by
        rw [hdb]
        exact fun row hrow => (hdrawn row hrow).mono le_rfl (ticks_le_of_returns hcooling)
      have hknown₁ : w₁.db.repositories.find? repository ≠ none := by rwa [hdb]
      suffices ∃ result w', Tx.Returns _ w₁ result w' by
        obtain ⟨result, w', h⟩ := this
        exact ⟨result, w', Tx.returns_bind.mpr ⟨cooling, w₁, hcooling, h⟩⟩
      split
      · obtain ⟨result, w', hloop⟩ := ih activeKinds hrest hbindrest hknown₁ hdrawn₁
        exact ⟨_, w', Tx.returns_bind.mpr ⟨result, w', hloop, Tx.returns_pure.mpr ⟨rfl, rfl⟩⟩⟩
      · have hfresh : w₁.db.items.find? (env.randomUUID w₁.ticks) = none := by
          by_contra hne
          obtain ⟨row, hrow⟩ := Option.ne_none_iff_exists'.mp hne
          obtain ⟨l, -, hl, hid⟩ := hdrawn₁ row (Table.mem_of_find? hrow)
          have hid' : row.id = env.randomUUID w₁.ticks := Table.key_of_find? hrow
          have := hrandom (hid'.symm.trans hid)
          omega
        obtain ⟨item, w₂, hroot⟩ := @returns_createRoot env
          { definition := candidate.definition, repository, admitted := true } (.workQueued none none)
          w₁ hbind hknown₁ (fun _ _ _ _ => rfl) hfresh
        have hknown₂ : w₂.db.repositories.find? repository ≠ none := by
          obtain ⟨_, _, _, _, hnew, -, hcreated, -⟩ := createRoot_spec hroot
          rw [hcreated]
          exact hknown₁
        obtain ⟨result, w', hloop⟩ := ih (candidate.definition.kind :: activeKinds) hrest hbindrest
          hknown₂ (hdrawn₁.createRoot hroot)
        exact ⟨_, w', Tx.returns_bind.mpr ⟨item, w₂, hroot, Tx.returns_bind.mpr
          ⟨result, w', hloop, Tx.returns_pure.mpr ⟨rfl, rfl⟩⟩⟩⟩

/-- **A batch that is accepted goes through.** -/
theorem returns_enqueueInactiveRootBatch (hrandom : Function.Injective env.randomUUID)
    (hdrawn : IdsDrawn env w.ticks w.db) {repository : String} {override : Option JsNumber}
    {candidates : List BatchCandidate} (h : AcceptsBatch env w.db repository override candidates) :
    ∃ result w', (enqueueInactiveRootBatch env repository candidates override).Returns w result w' := by
  obtain ⟨row, hrow, henabled⟩ := h.enabled
  have hcooldowns : ∀ cs : List BatchCandidate, (∀ c ∈ cs, ∃ base, cooldownOf override c = .ok base) →
      ∃ bases, (Tx.each (fun c => Tx.ofExcept (cooldownOf override c)) cs).Returns w bases w := by
    intro cs hcs
    induction cs with
    | nil => exact ⟨[], Tx.returns_each_nil.mpr ⟨rfl, rfl⟩⟩
    | cons c cs ih =>
      obtain ⟨⟨base, hbase⟩, hrest⟩ := List.forall_mem_cons.mp hcs
      obtain ⟨bases, hbases⟩ := ih hrest
      refine ⟨base :: bases, ?_⟩
      simp only [Tx.each, Tx.returns_bind, Tx.returns_ofExcept, Tx.returns_pure]
      exact ⟨base, w, ⟨hbase, rfl⟩, bases, w, hbases, rfl, rfl⟩
  obtain ⟨cooldowns, hbases⟩ := hcooldowns candidates h.cooldown
  have hzip : ∀ c ∈ candidates.zip cooldowns, c.1 ∈ candidates := fun c hc => (List.of_mem_zip hc).1
  obtain ⟨result, w', hloop⟩ := returns_inactiveRootLoop hrandom
    (if ∃ seconds ∈ cooldowns, 0 < seconds then noFindingStreaks w.db repository else [])
    (activeRootKinds w.db repository) (candidates.zip cooldowns) (fun c hc => h.checked c.1 (hzip c hc))
    (fun c hc => h.binds c.1 (hzip c hc)) (by rw [hrow]; exact Option.some_ne_none row) hdrawn
  refine ⟨result, w', ?_⟩
  simp only [enqueueInactiveRootBatch, Tx.returns_bind, Tx.returns_ofExcept, returns_transaction,
    Tx.returns_read]
  exact ⟨(), w, ⟨h.valid, rfl⟩, cooldowns, w, hbases, (), w,
    returns_assertRepositoryEnabled_of_enabled h.valid hrow henabled, w.db, w, ⟨rfl, rfl⟩, hloop⟩

/-! ## What a note does not touch -/

/-- An item without what a note writes. -/
def WorkItem.unnoted (item : WorkItem) : WorkItem :=
  { item with operatorNotes := [], updatedAt := 0 }

theorem WorkItem.id_unnoted (item : WorkItem) : item.unnoted.id = item.id := rfl

/-- The tables without what notes wrote in the rows. -/
def Db.unnoted (db : Db) : Db :=
  { db with items := db.items.map WorkItem.unnoted WorkItem.id_unnoted }

theorem find?_unnoted (id : String) :
    db.unnoted.items.find? id = (db.items.find? id).map WorkItem.unnoted :=
  Table.find?_map db.items WorkItem.unnoted WorkItem.id_unnoted id

/-- The completions of an item. -/
def completedInstants (db : Db) (id : String) : List Time :=
  ((db.ledger.of id).filter fun e => e.type = .workCompleted).map WorkEvent.occurredAt

/-- An event that is no completion leaves them. -/
theorem completedInstants_post {id : String} {p : Posting} (hp : p.payload.type ≠ .workCompleted)
    (other : String) : completedInstants { db with ledger := db.ledger.post id p } other =
      completedInstants db other := by
  unfold completedInstants
  by_cases hid : other = id
  · subst hid
    have hnone : (p.event (db.ledger.events.length + 1) other).type ≠ .workCompleted := hp
    rw [Ledger.of_post_self, List.filter_append, List.filter_cons_of_neg (by simpa using hnone),
      List.filter_nil, List.append_nil]
  · rw [Ledger.of_post_of_ne _ _ hid]

/-- **Two states put the same question to the feeder**: they differ in their
notes, in the stamps of their rows and in events that are no completions. -/
structure SameQuestion (w w' : World) : Prop where
  ticks : w.ticks = w'.ticks
  repositories : w.db.repositories = w'.db.repositories
  rows : w.db.unnoted.items.rows = w'.db.unnoted.items.rows
  completed : ∀ id, completedInstants w.db id = completedInstants w'.db id
  recorded : CompletionsRecorded w.db
  recorded' : CompletionsRecorded w'.db

theorem hasChild_unnoted (item : WorkItem) : hasChild db.unnoted item.unnoted = hasChild db item := by
  show (db.items.rows.map WorkItem.unnoted).any _ = _
  rw [List.any_map]
  rfl

theorem foundNothing_unnoted (item : WorkItem) :
    foundNothing db.unnoted item.unnoted = foundNothing db item := by
  unfold foundNothing
  rw [hasChild_unnoted]
  rfl

theorem noFindingRun_unnoted (repository kind : String) :
    noFindingRun db.unnoted repository kind =
      (noFindingRun db repository kind).map WorkItem.unnoted := by
  have hroots : rootsNewestFirst db.unnoted repository kind =
      (rootsNewestFirst db repository kind).map WorkItem.unnoted := by
    unfold rootsNewestFirst
    rw [@List.map_mergeSort _ _ (fun a b => decide (b.createdAt ≤ a.createdAt))
      (fun a b => decide (b.createdAt ≤ a.createdAt)) WorkItem.unnoted _ fun _ _ _ _ => rfl]
    show List.mergeSort (((db.items.rows.map WorkItem.unnoted).filter _).reverse) _ = _
    rw [List.filter_map, ← List.map_reverse]
    rfl
  unfold noFindingRun
  rw [hroots, List.takeWhile_map, show foundNothing db.unnoted ∘ WorkItem.unnoted = foundNothing db from
    funext foundNothing_unnoted]

theorem noFindingRun_congr {db' : Db} (h : db.items.rows = db'.items.rows) (repository kind : String) :
    noFindingRun db repository kind = noFindingRun db' repository kind := by
  have hfound : foundNothing db = foundNothing db' := by
    funext item
    simp only [foundNothing, hasChild, h]
  simp only [noFindingRun, rootsNewestFirst, h, hfound]

theorem activeRootKinds_unnoted (repository : String) :
    activeRootKinds db.unnoted repository = activeRootKinds db repository := by
  unfold activeRootKinds
  refine congrArg sortedUnique ?_
  show ((db.items.rows.map WorkItem.unnoted).filter _).filterMap _ = _
  rw [List.filter_map, List.filterMap_map]
  refine congrArg (List.filterMap · _) (funext fun item => ?_)
  show (db.unnoted.items.find? item.rootId).map WorkItem.kind = _
  rw [find?_unnoted, Option.map_map]
  rfl

theorem activeRootKinds_congr {db' : Db} (h : db.items.rows = db'.items.rows) (repository : String) :
    activeRootKinds db repository = activeRootKinds db' repository := by
  simp only [activeRootKinds, Table.find?, h]

section SameQuestion

variable {s t : World}

theorem SameQuestion.activeRootKinds (h : SameQuestion s t) (repository : String) :
    activeRootKinds s.db repository = Snowcat.activeRootKinds t.db repository := by
  rw [← activeRootKinds_unnoted, activeRootKinds_congr h.rows, activeRootKinds_unnoted]

/-- The completions of a run are where its cooldown starts. -/
theorem map_completedAt_noFindingRun (h : CompletionsRecorded db) (repository kind : String) :
    (noFindingRun db repository kind).map (completedAt db) =
      (noFindingRun db.unnoted repository kind).map fun root =>
        (completedInstants db root.id).max?.getD 0 := by
  rw [noFindingRun_unnoted, List.map_map]
  refine List.map_congr_left fun root hroot => ?_
  obtain ⟨hmem, hcompleted⟩ := of_mem_noFindingRun hroot
  obtain ⟨completed, hlast⟩ := Option.ne_none_iff_exists'.mp (h root hmem hcompleted)
  show (lastCompletedAt db root).getD root.updatedAt = (lastCompletedAt db root).getD 0
  rw [hlast]
  rfl

theorem SameQuestion.lookup_noFindingStreaks (h : SameQuestion s t) (repository kind : String) :
    (noFindingStreaks s.db repository).lookup kind =
      (noFindingStreaks t.db repository).lookup kind := by
  rw [Snowcat.lookup_noFindingStreaks, Snowcat.lookup_noFindingStreaks,
    map_completedAt_noFindingRun h.recorded, map_completedAt_noFindingRun h.recorded',
    noFindingRun_congr h.rows]
  simp only [h.completed]

/-- A condition on the rows that no note touches is the same in both. -/
theorem SameQuestion.exists_row (h : SameQuestion s t) (P : WorkItem → Prop)
    (hP : ∀ item, P item.unnoted ↔ P item) :
    (∃ row ∈ s.db.items.rows, P row) ↔ ∃ row ∈ t.db.items.rows, P row := by
  have hmapped : ∀ db : Db, (∃ row ∈ db.items.rows, P row) ↔ ∃ row ∈ db.unnoted.items.rows, P row := by
    intro db
    constructor
    · rintro ⟨row, hrow, hp⟩
      exact ⟨row.unnoted, List.mem_map_of_mem hrow, (hP row).mpr hp⟩
    · rintro ⟨_, hmem, hp⟩
      obtain ⟨row, hrow, rfl⟩ := List.mem_map.mp hmem
      exact ⟨row, hrow, (hP row).mp hp⟩
  rw [hmapped s.db, hmapped t.db, h.rows]

theorem SameQuestion.find?_eq_none (h : SameQuestion s t) (id : String) :
    s.db.items.find? id = none ↔ t.db.items.find? id = none := by
  have hsame := h.exists_row (fun row => row.id = id) fun _ => Iff.rfl
  have hfind : ∀ db : Db, db.items.find? id = none ↔ ¬ ∃ row ∈ db.items.rows, row.id = id := by
    intro db
    unfold Table.find?
    rw [List.find?_eq_none]
    simp
  rw [hfind, hfind, hsame]

end SameQuestion

/-! ## The same question, the same answer -/

section Alike

open Tx (Alike alike_pure alike_bind alike_ofExcept alike_ofOption alike_failIf alike_each)

variable (env)

/-- **A binding asks and decides**: it runs alike wherever asking does. -/
theorem alike_bindPolicy_of_ask {r : World → World → Prop}
    (hask : ∀ {α : Type} (answer : ℕ → α), Alike r (ask answer) (ask answer))
    (subject : PolicySubject) : Alike r (bindPolicy env subject) (bindPolicy env subject) := by
  unfold bindPolicy
  split
  · exact alike_pure _
  refine alike_bind (hask _) fun answer => alike_bind (alike_ofOption _ _) fun authority =>
    alike_bind (alike_ofExcept _) fun _ => ?_
  split
  · refine alike_bind ?_ fun authorization => alike_pure _
    refine alike_bind (hask _) fun atTime => ?_
    dsimp only
    split
    · exact alike_pure _
    · exact alike_bind (alike_ofOption _ _) fun standing => alike_bind (alike_ofExcept _)
        fun outside => alike_bind (alike_failIf Iff.rfl _) fun _ => alike_pure _
  · exact alike_pure _

theorem alike_ask {α : Type} (answer : ℕ → α) : Alike SameQuestion (ask answer) (ask answer) :=
  fun _ _ h => ⟨congrArg (fun k => Except.ok (answer k)) h.ticks,
    ⟨congrArg (· + 1) h.ticks, h.repositories, h.rows, h.completed, h.recorded, h.recorded'⟩⟩

theorem alike_now : Alike SameQuestion (now env) (now env) := alike_ask _

theorem alike_bindPolicy (subject : PolicySubject) :
    Alike SameQuestion (bindPolicy env subject) (bindPolicy env subject) :=
  alike_bindPolicy_of_ask env alike_ask subject

theorem alike_assertRepositoryEnabled (repository : String) :
    Alike SameQuestion (assertRepositoryEnabled repository) (assertRepositoryEnabled repository) := by
  refine alike_bind (alike_ofExcept _) fun _ => Tx.alike_read fun s t h => ?_
  rw [h.repositories]
  exact alike_failIf Iff.rfl _ s t h

/-- An inserted root that is not completed. -/
theorem SameQuestion.insert {s t : World} (h : SameQuestion s t) {item : WorkItem}
    (hs : s.db.items.find? item.id = none) (ht : t.db.items.find? item.id = none)
    (hopen : item.rowStatus ≠ .completed) :
    SameQuestion { s with db := { s.db with items := s.db.items.insert item hs } }
      { t with db := { t.db with items := t.db.items.insert item ht } } := by
  have hrecorded : ∀ {db : Db} (hfresh : db.items.find? item.id = none), CompletionsRecorded db →
      CompletionsRecorded { db with items := db.items.insert item hfresh } := by
    intro db hfresh hdb other hother hcompleted
    rcases (Table.mem_insert hfresh).mp hother with hother | rfl
    · exact hdb other hother hcompleted
    · exact absurd hcompleted hopen
  refine ⟨h.ticks, h.repositories, ?_, h.completed, hrecorded hs h.recorded, hrecorded ht h.recorded'⟩
  show (s.db.items.rows ++ [item]).map WorkItem.unnoted = (t.db.items.rows ++ [item]).map WorkItem.unnoted
  rw [List.map_append, List.map_append]
  exact congrArg (· ++ _) h.rows

/-- A recorded event that is no completion. -/
theorem SameQuestion.post {s t : World} (h : SameQuestion s t) (id : String) {p : Posting}
    (hp : p.payload.type ≠ .workCompleted) :
    SameQuestion { s with db := { s.db with ledger := s.db.ledger.post id p } }
      { t with db := { t.db with ledger := t.db.ledger.post id p } } := by
  have hrecorded : ∀ {db : Db}, CompletionsRecorded db →
      CompletionsRecorded { db with ledger := db.ledger.post id p } := by
    intro db hdb item hitem hcompleted
    show (completedInstants { db with ledger := db.ledger.post id p } item.id).max? ≠ none
    rw [completedInstants_post hp]
    exact hdb item hitem hcompleted
  exact ⟨h.ticks, h.repositories, h.rows,
    fun other => by rw [completedInstants_post hp, completedInstants_post hp, h.completed],
    hrecorded h.recorded, hrecorded h.recorded'⟩

theorem alike_insertRow {item : WorkItem} (hopen : item.rowStatus ≠ .completed) :
    Alike SameQuestion (insertRow item) (insertRow item) := by
  refine alike_bind (alike_failIf Iff.rfl _) fun _ => Tx.alike_read fun s t h => ?_
  have hparent : (∃ p ∈ item.parentId, s.db.items.find? p = none) ↔
      ∃ p ∈ item.parentId, t.db.items.find? p = none :=
    exists_congr fun p => and_congr_right fun _ => h.find?_eq_none p
  have hsource : (item.sourceRef.isSome ∧ ∃ row ∈ s.db.items.rows,
      row.repository = item.repository ∧ row.sourceRef = item.sourceRef) ↔
      item.sourceRef.isSome ∧ ∃ row ∈ t.db.items.rows,
        row.repository = item.repository ∧ row.sourceRef = item.sourceRef :=
    and_congr_right fun _ => h.exists_row (fun row => row.repository = item.repository ∧
      row.sourceRef = item.sourceRef) fun _ => Iff.rfl
  refine alike_bind (alike_failIf (by rw [h.repositories]) _) (fun _ => alike_bind
    (alike_failIf hparent _) fun _ => alike_bind (alike_failIf hsource _) fun _ => ?_) s t h
  by_cases hs : s.db.items.find? item.id = none
  · have ht := (h.find?_eq_none item.id).mp hs
    rw [dif_pos hs, dif_pos ht]
    refine Tx.alike_update fun s' t' h' => ?_
    obtain ⟨-, hrepositories, hrows, hcompleted, hrecorded, hrecorded'⟩ := h.insert hs ht hopen
    exact ⟨h'.ticks, hrepositories, hrows, hcompleted, hrecorded, hrecorded'⟩
  · rw [dif_neg hs, dif_neg fun ht => hs ((h.find?_eq_none item.id).mpr ht)]
    exact Tx.alike_fail _

theorem alike_addEvent (id actor : String) {payload : EventPayload}
    (hpayload : payload.type ≠ .workCompleted) :
    Alike SameQuestion (addEvent env id actor payload) (addEvent env id actor payload) :=
  alike_bind (alike_now env) fun _ => Tx.alike_update fun _ _ h => h.post id hpayload

/-- A row that was inserted is read back behind its first event. -/
theorem readBack {item : WorkItem} (hnew : db.items.find? item.id = none) (ticks : ℕ)
    (actor : String) (payload : EventPayload) :
    (addEvent env item.id actor payload >>= fun _ => getRequired item.id)
        ⟨{ db with items := db.items.insert item hnew }, ticks⟩ =
      (.ok item, ⟨{ db with
        items := db.items.insert item hnew
        ledger := db.ledger.post item.id ⟨actor, payload, env.clock ticks⟩ }, ticks + 1⟩) := by
  rw [Tx.bind_of_returns (a := ()) (returns_addEvent.mpr rfl)]
  exact returns_getRequired.mpr ⟨Table.find?_insert_self hnew, rfl⟩

/-- A root is created alike: the row that is read back is the one inserted. -/
theorem alike_createRoot (root : RootWork) {payload : EventPayload}
    (hpayload : payload.type ≠ .workCompleted) :
    Alike SameQuestion (createRoot env root payload) (createRoot env root payload) := by
  refine alike_bind (alike_ask _) fun id => alike_bind (alike_now env) fun createdAt => ?_
  unfold insertWork
  rw [Tx.bind_assoc]
  refine alike_bind (alike_bindPolicy env _) fun policy =>
    Tx.alike_bind_of (alike_insertRow nofun) fun s t u v _ hs ht h => ?_
  obtain ⟨-, -, -, hfresh, rfl⟩ := returns_insertRow hs
  obtain ⟨-, -, -, hfresh', rfl⟩ := returns_insertRow ht
  have hs := readBack env hfresh s.ticks root.definition.createdBy payload
  have ht := readBack env hfresh' t.ticks root.definition.createdBy payload
  refine ⟨(congrArg Prod.fst hs).trans (congrArg Prod.fst ht).symm, ?_⟩
  refine (congrArg₂ SameQuestion (congrArg Prod.snd hs) (congrArg Prod.snd ht)).mpr ?_
  have hposted := h.post id (p := ⟨root.definition.createdBy, payload, env.clock s.ticks⟩) hpayload
  have hticks : s.ticks = t.ticks := h.ticks
  rw [← hticks]
  exact ⟨congrArg (· + 1) rfl, hposted.repositories, hposted.rows, hposted.completed,
    hposted.recorded, hposted.recorded'⟩

theorem alike_isCooling {noFinding noFinding' : List (String × NoFinding)} {kind : String}
    (h : noFinding.lookup kind = noFinding'.lookup kind) (base : ℤ) :
    Alike SameQuestion (isCooling env noFinding kind base) (isCooling env noFinding' kind base) := by
  unfold isCooling
  rw [h]
  cases noFinding'.lookup kind with
  | none => exact alike_pure _
  | some entry =>
    dsimp only
    split
    · exact alike_bind (alike_now env) fun _ => alike_pure _
    · exact alike_pure _

theorem alike_inactiveRootLoop (repository : String) {noFinding noFinding' : List (String × NoFinding)}
    (h : ∀ kind, noFinding.lookup kind = noFinding'.lookup kind) {activeKinds activeKinds' : List String}
    (hkinds : activeKinds = activeKinds') (candidates : List (BatchCandidate × ℤ)) :
    Alike SameQuestion (inactiveRootLoop env repository noFinding activeKinds candidates)
      (inactiveRootLoop env repository noFinding' activeKinds' candidates) := by
  subst hkinds
  induction candidates generalizing activeKinds with
  | nil => exact alike_pure _
  | cons c rest ih =>
    obtain ⟨candidate, cooldown⟩ := c
    refine alike_bind (alike_ofExcept _) fun _ => alike_bind (alike_ofExcept _) fun _ => ?_
    split
    · exact alike_bind ih fun _ => alike_pure _
    · refine alike_bind (alike_isCooling env (h _) _) fun cooling => ?_
      split
      · exact alike_bind ih fun _ => alike_pure _
      · exact alike_bind (alike_createRoot env _ nofun) fun _ => alike_bind ih fun _ =>
          alike_pure _

/-- **The same question gets the same answer.** -/
theorem alike_enqueueInactiveRootBatch (repository : String) (candidates : List BatchCandidate)
    (override : Option JsNumber) :
    Alike SameQuestion (enqueueInactiveRootBatch env repository candidates override)
      (enqueueInactiveRootBatch env repository candidates override) := by
  refine alike_bind (alike_ofExcept _) fun _ =>
    alike_bind (alike_each (fun _ => alike_ofExcept _) _) fun cooldowns => ?_
  refine Tx.alike_atomically ?_ fun s t u v hst huv =>
    ⟨huv.ticks, hst.repositories, hst.rows, hst.completed, hst.recorded, hst.recorded'⟩
  refine alike_bind (alike_assertRepositoryEnabled repository) fun _ =>
    Tx.alike_read fun s t h => ?_
  have hkinds := h.activeRootKinds repository
  have hlookup : ∀ kind,
      (if ∃ seconds ∈ cooldowns, 0 < seconds then noFindingStreaks s.db repository else []).lookup kind =
        (if ∃ seconds ∈ cooldowns, 0 < seconds then noFindingStreaks t.db repository else []).lookup
          kind := by
    intro kind
    split
    · exact h.lookup_noFindingStreaks repository kind
    · rfl
  exact alike_inactiveRootLoop env repository hlookup hkinds _ s t h

end Alike

/-! ## Notes in between -/

/-- A call is a note. -/
def Op.IsNote (op : Op) : Prop := ∃ id actor reason precondition, op = .note id actor reason precondition

/-- A note writes notes and stamps, and an event that is no completion. -/
theorem keeps_of_note {op : Op} (hop : op.IsNote) (w : World) :
    (op.run env w).2.db.repositories = w.db.repositories ∧
      (op.run env w).2.db.unnoted.items.rows = w.db.unnoted.items.rows ∧
      ∀ other, completedInstants (op.run env w).2.db other = completedInstants w.db other := by
  obtain ⟨id, actor, reason, precondition, rfl⟩ := hop
  rcases run_cases env (.note id actor reason precondition) w with ⟨r, hreturns, -⟩ | ⟨e, -, hdb⟩
  · generalize ((Op.note id actor reason precondition).run env w).2 = w' at hreturns ⊢
    obtain ⟨reply, hnote, -⟩ := returns_reply.mp hreturns
    obtain ⟨_, -, hdecided⟩ := returns_checked.mp hnote
    obtain ⟨item, -, -, -, -, rfl⟩ := decideOn_spec hdecided
    refine ⟨rfl, ?_, completedInstants_post nofun⟩
    show (w.db.items.rows.map fun row => if row.id = id then _ else row).map WorkItem.unnoted =
      w.db.items.rows.map WorkItem.unnoted
    rw [List.map_map]
    refine List.map_congr_left fun row _ => ?_
    show (if row.id = id then _ else row).unnoted = row.unnoted
    split <;> rfl
  · rw [hdb]
    exact ⟨rfl, rfl, fun _ => rfl⟩

/-- **Notes leave the question.** -/
theorem sameQuestion_of_notes (ops notes : List Op) (hnotes : ∀ op ∈ notes, op.IsNote) (ticks : ℕ) :
    SameQuestion ⟨(exec env (ops ++ notes)).db, ticks⟩ ⟨(exec env ops).db, ticks⟩ := by
  suffices h : (exec env (ops ++ notes)).db.repositories = (exec env ops).db.repositories ∧
      (exec env (ops ++ notes)).db.unnoted.items.rows = (exec env ops).db.unnoted.items.rows ∧
      ∀ id, completedInstants (exec env (ops ++ notes)).db id =
        completedInstants (exec env ops).db id from
    ⟨rfl, h.1, h.2.1, h.2.2, completionsRecorded_exec _, completionsRecorded_exec _⟩
  induction notes using List.reverseRecOn with
  | nil =>
    rw [List.append_nil]
    exact ⟨rfl, rfl, fun _ => rfl⟩
  | append_singleton notes op ih =>
    obtain ⟨hrepositories, hrows, hcompleted⟩ := ih fun op hop => hnotes op (List.mem_append_left _ hop)
    obtain ⟨hrepositories', hrows', hcompleted'⟩ := @keeps_of_note env _
      (hnotes op (List.mem_append_right _ (List.mem_singleton_self op))) (exec env (ops ++ notes))
    have hstep : exec env (ops ++ (notes ++ [op])) = (op.run env (exec env (ops ++ notes))).2 := by
      rw [← List.append_assoc]
      exact (queue env).run_concat _ op
    rw [hstep]
    exact ⟨hrepositories'.trans hrepositories, hrows'.trans hrows,
      fun id => (hcompleted' id).trans (hcompleted id)⟩

/-- **The no-finding cooldown follows its definition.** In every state of
every run, for every repository, list of candidates and override: a call
that goes through creates a root for a candidate exactly where no lineage of
the kind is active in the repository, counting the candidates created before
it in the call, and the cooldown of the kind is over when its turn comes; a
call that does not creates nothing, and a batch that is accepted goes
through. Any notes before the call leave its outcome as it is. -/
theorem cooldown_by_definition (env : Env) (ops : List Op) (repository : String)
    (candidates : List BatchCandidate) (override : Option JsNumber) :
    (∀ result, ((Op.enqueueInactiveRootBatch repository candidates override).run env
        (exec env ops)).1 = .ok (.batch result) →
      ∃ turns, FedByCooldown env (exec env ops)
        ((Op.enqueueInactiveRootBatch repository candidates override).run env (exec env ops)).2
        repository override candidates result.created turns) ∧
    (∀ e, ((Op.enqueueInactiveRootBatch repository candidates override).run env
        (exec env ops)).1 = .error e →
      ((Op.enqueueInactiveRootBatch repository candidates override).run env
        (exec env ops)).2.db = (exec env ops).db) ∧
    (Function.Injective env.randomUUID →
      AcceptsBatch env (exec env ops).db repository override candidates →
      ∃ result, ((Op.enqueueInactiveRootBatch repository candidates override).run env
        (exec env ops)).1 = .ok (.batch result)) ∧
    ∀ notes : List Op, (∀ op ∈ notes, op.IsNote) → ∀ ticks,
      ((Op.enqueueInactiveRootBatch repository candidates override).run env
          ⟨(exec env (ops ++ notes)).db, ticks⟩).1 =
        ((Op.enqueueInactiveRootBatch repository candidates override).run env
          ⟨(exec env ops).db, ticks⟩).1 := by
  refine ⟨fun result hresult => ?_, fun e he => ?_, fun hrandom haccepts => ?_,
    fun notes hnotes ticks => ?_⟩
  · rcases run_cases env (.enqueueInactiveRootBatch repository candidates override) (exec env ops) with
      ⟨r, hreturns, hr⟩ | ⟨e, he, -⟩
    · obtain ⟨reached, hbatch, rfl⟩ := returns_reply.mp hreturns
      obtain rfl : reached = result := Reply.batch.inj (Except.ok.inj (hr.symm.trans hresult))
      exact fedByCooldown_of_returns (completionsRecorded_exec ops) hbatch
    · exact nomatch he.symm.trans hresult
  · rcases run_cases env (.enqueueInactiveRootBatch repository candidates override) (exec env ops) with
      ⟨r, -, hr⟩ | ⟨_, -, hdb⟩
    · exact nomatch hr.symm.trans he
    · exact hdb
  · obtain ⟨result, w', hbatch⟩ :=
      returns_enqueueInactiveRootBatch hrandom (idsDrawn_exec ops) haccepts
    have hreply : ((Op.enqueueInactiveRootBatch repository candidates override).run env).Returns
      (exec env ops) (.batch result) w' := returns_reply.mpr ⟨result, hbatch, rfl⟩
    exact ⟨result, congrArg Prod.fst hreply⟩
  · have halike : Tx.Alike SameQuestion
        ((Op.enqueueInactiveRootBatch repository candidates override).run env)
        ((Op.enqueueInactiveRootBatch repository candidates override).run env) :=
      Tx.alike_bind (alike_enqueueInactiveRootBatch env repository candidates override) fun _ =>
        Tx.alike_pure _
    exact (halike _ _ (sameQuestion_of_notes ops notes hnotes ticks)).1

/-- The feeder's first root found nothing, and was noted since: it is asked
about again within the hour, and nothing is created. -/
theorem cooldown_by_definition_sample : ∃ turns,
    FedByCooldown Env.sample (exec Env.sample sampleFeed)
      ((Op.enqueueInactiveRootBatch "a/b" [⟨.sample, none⟩] (some (.int 3600))).run Env.sample
        (exec Env.sample sampleFeed)).2 "a/b" (some (.int 3600)) [⟨.sample, none⟩] [] turns ∧
    ((Op.enqueueInactiveRootBatch "a/b" [⟨.sample, none⟩] (some (.int 3600))).run Env.sample
      ⟨(exec Env.sample (sampleFeed ++ [.note "uu" "operator:ada" "quiet here" none])).db,
        (exec Env.sample sampleFeed).ticks⟩).1 = .ok (.batch ⟨[], [], ["discovery"]⟩) := by
  have hresult : ((Op.enqueueInactiveRootBatch "a/b" [⟨.sample, none⟩] (some (.int 3600))).run
      Env.sample (exec Env.sample sampleFeed)).1 = .ok (.batch ⟨[], [], ["discovery"]⟩) := by
    decide +kernel
  obtain ⟨hfed, -, -, hnotes⟩ := cooldown_by_definition Env.sample sampleFeed "a/b"
    [⟨.sample, none⟩] (some (.int 3600))
  obtain ⟨turns, hturns⟩ := hfed _ hresult
  refine ⟨turns, hturns, (hnotes [.note "uu" "operator:ada" "quiet here" none] ?_ _).trans hresult⟩
  exact fun op hop => ⟨_, _, _, _, List.mem_singleton.mp hop⟩

end Snowcat
