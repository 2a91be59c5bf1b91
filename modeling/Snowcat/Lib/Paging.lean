import Mathlib

/-!
# Paging by a key

Rows that are ordered by a key, no two of them with the same one, are read
in pages: a page is what comes behind a cursor, cut at a limit, and the next
cursor is the key of its last row. Whatever the limits are, the rows that
are left behind a page are the rows that were left before it, without the
page (`after_behind`). So the pages put together are the rows themselves,
each once and in their order (`flatMap_pageAt`), and a page that its limit
did not cut leaves nothing (`after_eq_nil_of_length_lt`).
-/

namespace Paging

variable {α κ : Type} [LinearOrder κ] (key : α → κ)

/-- **Rows in the order of their keys**, no two of them with the same key. -/
def Ordered (rows : List α) : Prop := rows.Pairwise fun a b => key a < key b

/-- The rows behind a cursor. -/
def after (cursor : κ) (rows : List α) : List α := rows.filter fun row => cursor < key row

/-- **A page**: the rows behind a cursor, cut at a limit. -/
def page (cursor : κ) (limit : ℕ) (rows : List α) : List α := (after key cursor rows).take limit

/-- The cursor behind a page: the key of its last row. -/
def behind (cursor : κ) (page : List α) : κ := (page.getLast?.map key).getD cursor

/-- The cursor that each read of a sequence starts from. -/
def cursorAt (rows : List α) (start : κ) (limits : ℕ → ℕ) : ℕ → κ
  | 0 => start
  | k + 1 => behind key (cursorAt rows start limits k)
      (page key (cursorAt rows start limits k) (limits k) rows)

/-- The page that each read of a sequence finds. -/
def pageAt (rows : List α) (start : κ) (limits : ℕ → ℕ) (k : ℕ) : List α :=
  page key (cursorAt key rows start limits k) (limits k) rows

/-- How many rows the first reads of a sequence may have found. -/
def allowed (limits : ℕ → ℕ) (n : ℕ) : ℕ := ((List.range n).map limits).sum

variable {key} {rows : List α} {cursor start : κ} {limit : ℕ} {limits : ℕ → ℕ}

theorem Ordered.after (h : Ordered key rows) : Ordered key (after key cursor rows) := h.filter _

/-- A later cursor finds its rows among those of an earlier one. -/
theorem after_after {later : κ} (h : cursor ≤ later) :
    after key later (after key cursor rows) = after key later rows := by
  unfold Paging.after
  rw [List.filter_filter]
  refine List.filter_congr fun row _ => ?_
  rw [← Bool.decide_and, decide_eq_decide]
  exact and_iff_left_of_imp fun hlater => h.trans_lt hlater

theorem after_append_of_le {before later : List α} (hbefore : ∀ row ∈ before, key row ≤ cursor)
    (hlater : ∀ row ∈ later, cursor < key row) : after key cursor (before ++ later) = later := by
  unfold Paging.after
  rw [List.filter_append, List.filter_eq_nil_iff.mpr, List.filter_eq_self.mpr, List.nil_append]
  · exact fun row hrow => decide_eq_true (hlater row hrow)
  · intro row hrow
    rw [decide_eq_true_eq, not_lt]
    exact hbefore row hrow

/-- **A page leaves the rows it did not show.** -/
theorem after_behind (h : Ordered key rows) :
    after key (behind key cursor (page key cursor limit rows)) rows =
      (after key cursor rows).drop limit := by
  generalize hfound : after key cursor rows = found
  have hordered : Ordered key found := hfound ▸ h.after
  have hcursor : ∀ row ∈ found, cursor < key row := fun row hrow => by
    rw [← hfound] at hrow
    exact of_decide_eq_true (List.mem_filter.mp hrow).2
  unfold page behind
  rw [hfound]
  rcases List.eq_nil_or_concat (found.take limit) with hnil | ⟨shown, last, hshown⟩
  · rw [hnil]
    rcases List.take_eq_nil_iff.mp hnil with rfl | rfl
    · exact hfound
    · rw [List.drop_nil]
      exact hfound
  · rw [List.concat_eq_append] at hshown
    have hsplit : found = (shown ++ [last]) ++ found.drop limit := by
      rw [← hshown, List.take_append_drop]
    have hlast : last ∈ found := by
      rw [hsplit]
      exact List.mem_append_left _ (List.mem_append_right _ (List.mem_singleton_self last))
    rw [hshown, List.getLast?_append_of_ne_nil _ (List.cons_ne_nil last []), List.getLast?_singleton,
      Option.map_some, Option.getD_some, ← after_after (hcursor last hlast).le, hfound]
    rw [hsplit] at hordered
    obtain ⟨hleft, -, hacross⟩ := List.pairwise_append.mp hordered
    obtain ⟨-, -, hbelow⟩ := List.pairwise_append.mp hleft
    have hrest : after key (key last) ((shown ++ [last]) ++ found.drop limit) =
        found.drop limit := by
      refine after_append_of_le (fun row hrow => ?_) fun row hrow => ?_
      · rcases List.mem_append.mp hrow with hrow | hrow
        · exact (hbelow row hrow last (List.mem_singleton_self last)).le
        · exact (List.mem_singleton.mp hrow) ▸ le_refl _
      · exact hacross last (List.mem_append_right _ (List.mem_singleton_self last)) row hrow
    rwa [← hsplit] at hrest

theorem allowed_succ (limits : ℕ → ℕ) (n : ℕ) :
    allowed limits (n + 1) = allowed limits n + limits n := by
  unfold allowed
  rw [List.range_succ, List.map_append, List.sum_append, List.map_singleton, List.sum_singleton]

theorem le_allowed (h : ∀ k, 1 ≤ limits k) (n : ℕ) : n ≤ allowed limits n := by
  induction n with
  | zero => exact Nat.zero_le _
  | succ n ih =>
    rw [allowed_succ]
    exact Nat.add_le_add ih (h n)

/-- **What the reads of a sequence leave**, whatever their limits are. -/
theorem after_cursorAt (h : Ordered key rows) (k : ℕ) :
    after key (cursorAt key rows start limits k) rows =
      (after key start rows).drop (allowed limits k) := by
  induction k with
  | zero => rfl
  | succ k ih =>
    rw [cursorAt, after_behind h, ih, List.drop_drop, allowed_succ]

theorem pageAt_eq (h : Ordered key rows) (k : ℕ) :
    pageAt key rows start limits k =
      ((after key start rows).drop (allowed limits k)).take (limits k) := by
  rw [pageAt, page, after_cursorAt h]

/-- **The pages put together are the rows**, as far as the limits allow. -/
theorem flatMap_pageAt (h : Ordered key rows) (n : ℕ) :
    (List.range n).flatMap (pageAt key rows start limits) =
      (after key start rows).take (allowed limits n) := by
  induction n with
  | zero => rw [List.range_zero, List.flatMap_nil, allowed, List.range_zero, List.map_nil,
      List.sum_nil, List.take_zero]
  | succ n ih =>
    rw [List.range_succ, List.flatMap_append, ih, List.flatMap_singleton, pageAt_eq h,
      allowed_succ, List.take_add]

/-- **A page that its limit did not cut leaves nothing.** -/
theorem after_eq_nil_of_length_lt (h : Ordered key rows) {k : ℕ}
    (hshort : (pageAt key rows start limits k).length < limits k) :
    after key (cursorAt key rows start limits (k + 1)) rows = [] := by
  rw [pageAt_eq h, List.length_take, List.length_drop] at hshort
  rw [after_cursorAt h, allowed_succ, List.drop_eq_nil_iff]
  omega

/-- A page is empty only where nothing is left. -/
theorem pageAt_eq_nil_iff (h : Ordered key rows) (hlimits : ∀ k, 1 ≤ limits k) (k : ℕ) :
    pageAt key rows start limits k = [] ↔
      (after key start rows).length ≤ allowed limits k := by
  rw [pageAt_eq h, List.take_eq_nil_iff, List.drop_eq_nil_iff]
  have hpositive := hlimits k
  omega

/-- **Some page is empty**, and before the first empty one the pages have shown
every row. -/
theorem exists_pageAt_eq_nil (h : Ordered key rows) (hlimits : ∀ k, 1 ≤ limits k) :
    ∃ n, pageAt key rows start limits n = [] ∧
      (∀ k < n, pageAt key rows start limits k ≠ []) ∧
      (List.range n).flatMap (pageAt key rows start limits) = after key start rows := by
  have hends : ∃ n, pageAt key rows start limits n = [] :=
    ⟨(after key start rows).length, (pageAt_eq_nil_iff h hlimits _).mpr (le_allowed hlimits _)⟩
  classical
  refine ⟨Nat.find hends, Nat.find_spec hends, fun k hk => Nat.find_min hends hk, ?_⟩
  rw [flatMap_pageAt h, List.take_of_length_le]
  exact (pageAt_eq_nil_iff h hlimits _).mp (Nat.find_spec hends)

end Paging
