import Mathlib.Data.List.Forall2
import Mathlib.Data.List.Nodup
import Mathlib.Data.List.Sort

/-!
# Joining on a key

Tables are lists of rows. Joined on a key that no two rows share, a row meets the
one row of its key (`filter_key`); where every row meets one row, the join has as
many rows as the table it starts from, one for each (`forall₂_flatMap`). Rows that
may stand next to each other, and next to the rows of a table, are inserted one
after another without any being refused (`foldlM_insert`).
-/

namespace Join

variable {α β γ κ : Type}

/-- The only row with a property. -/
theorem filter_eq_singleton {p : α → Bool} {rows : List α} {row : α} (hnodup : rows.Nodup)
    (hrow : row ∈ rows) (hp : p row = true) (honly : ∀ other ∈ rows, p other = true → other = row) :
    rows.filter p = [row] := by
  refine List.perm_singleton.mp ((List.perm_ext_iff_of_nodup (hnodup.filter p)
    (List.nodup_singleton row)).mpr fun other => ?_)
  rw [List.mem_filter, List.mem_singleton]
  constructor
  · exact fun h => honly other h.1 h.2
  · rintro rfl
    exact ⟨hrow, hp⟩

/-- **Joining on a key picks out one row.** -/
theorem filter_key [DecidableEq κ] {key : α → κ} {rows : List α} {row : α}
    (hkeys : (rows.map key).Nodup) (hrow : row ∈ rows) :
    rows.filter (fun other => key other = key row) = [row] :=
  filter_eq_singleton (hkeys.of_map key) hrow (decide_eq_true rfl) fun _ hother h =>
    List.inj_on_of_nodup_map hkeys hother hrow (of_decide_eq_true h)

/-- The rows of some keys of a table are its rows with a property, when these are their keys. -/
theorem flatMap_filter_key [DecidableEq κ] {key : α → κ} {rows : List α} {p : α → Bool}
    (hkeys : (rows.map key).Nodup) :
    ((rows.filter p).map key).flatMap (fun k => rows.filter fun row => key row = k) =
      rows.filter p := by
  rw [List.flatMap_map, List.flatMap_congr
    (fun row hrow => filter_key hkeys (List.mem_of_mem_filter hrow)), List.flatMap_singleton']

/-- **Where every row meets one row**, the join has one row for each. -/
theorem forall₂_flatMap {f : α → List β} {R : α → β → Prop} {rows : List α}
    (h : ∀ row ∈ rows, ∃ met, f row = [met] ∧ R row met) :
    List.Forall₂ R rows (rows.flatMap f) := by
  induction rows with
  | nil => exact .nil
  | cons row rows ih =>
    obtain ⟨hrow, hrows⟩ := List.forall_mem_cons.mp h
    obtain ⟨met, hmet, hR⟩ := hrow
    rw [List.flatMap_cons, hmet]
    exact .cons hR (ih hrows)

/-- What the rows of a join say of the rows they start from. -/
theorem map_eq_of_forall₂ {f : α → γ} {g : β → γ} {as : List α} {bs : List β}
    (h : List.Forall₂ (fun a b => g b = f a) as bs) : bs.map g = as.map f := by
  induction h with
  | nil => rfl
  | cons hab _ ih => rw [List.map_cons, List.map_cons, hab, ih]

/-- **Rows that may stand together are all inserted.** -/
theorem foldlM_insert {ε τ ρ : Type} {insert : τ → ρ → Except ε τ} {rowsOf : τ → List ρ}
    {append : τ → List ρ → τ} {R : ρ → ρ → Prop} (hnil : ∀ t, append t [] = t)
    (hcons : ∀ t row rows, append (append t [row]) rows = append t (row :: rows))
    (hrows : ∀ t row, rowsOf (append t [row]) = rowsOf t ++ [row])
    (hinsert : ∀ t row, (∀ old ∈ rowsOf t, R old row) → insert t row = .ok (append t [row]))
    {t : τ} {rows : List ρ} (hold : ∀ old ∈ rowsOf t, ∀ row ∈ rows, R old row)
    (hnew : rows.Pairwise R) : rows.foldlM insert t = .ok (append t rows) := by
  induction rows generalizing t with
  | nil =>
    rw [hnil]
    rfl
  | cons row rows ih =>
    obtain ⟨hrow, hnew⟩ := List.pairwise_cons.mp hnew
    rw [List.foldlM_cons, hinsert t row fun old h => hold old h row List.mem_cons_self]
    show rows.foldlM insert (append t [row]) = _
    rw [← hcons t row rows]
    refine ih (fun old h other hother => ?_) hnew
    rw [hrows] at h
    rcases List.mem_append.mp h with h | h
    · exact hold old h other (List.mem_cons_of_mem _ hother)
    · rw [List.mem_singleton.mp h]
      exact hrow other hother

end Join
