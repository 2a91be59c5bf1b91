import Mathlib.Data.List.Nodup

/-!
# Tables with a primary key

A table is a list of rows, in the order they were inserted, no two of
which carry the same key: the key's uniqueness is a field, so a table that
breaks it cannot be written down. A row is looked up by its key, inserted
under a key no row has, and rewritten in place by a function that keeps
keys.
-/

/-- **A table**: rows with pairwise distinct keys. -/
structure Table {κ ρ : Type} (key : ρ → κ) where
  /-- The rows, in insertion order. -/
  rows : List ρ
  /-- The primary key. -/
  nodup : (rows.map key).Nodup

namespace Table

variable {κ ρ : Type} [DecidableEq κ] {key : ρ → κ}

/-- The table with no rows. -/
def empty : Table key := ⟨[], List.nodup_nil⟩

/-- The row of a key. -/
def find? (t : Table key) (k : κ) : Option ρ := t.rows.find? (fun r => key r = k)

/-- Rewrite every row, keeping its key. -/
def map (t : Table key) (f : ρ → ρ) (hf : ∀ r, key (f r) = key r) : Table key :=
  ⟨t.rows.map f, by
    rw [List.map_map, show key ∘ f = key from funext hf]
    exact t.nodup⟩

/-- Rewrite the row of a key. -/
def modify (t : Table key) (k : κ) (f : ρ → ρ) (hf : ∀ r, key (f r) = key r) : Table key :=
  t.map (fun r => if key r = k then f r else r) (fun r => by
    split
    · exact hf r
    · rfl)

/-- Replace the row that carries the key of a row. -/
def replace (t : Table key) (r : ρ) : Table key :=
  t.map (fun r' => if key r' = key r then r else r') (fun r' => by
    split
    · next h => exact h.symm
    · rfl)

/-- Insert a row under a key that no row has yet. -/
def insert (t : Table key) (r : ρ) (h : t.find? (key r) = none) : Table key :=
  ⟨t.rows ++ [r], by
    rw [List.map_append]
    refine List.Nodup.append t.nodup (List.nodup_singleton _) ?_
    intro k hk hk'
    obtain ⟨r', hr', rfl⟩ := List.mem_map.mp hk
    have hkey : key r' = key r := List.mem_singleton.mp hk'
    have := List.find?_eq_none.mp h r' hr'
    simp [hkey] at this⟩

/-- Delete the row of a key. -/
def delete (t : Table key) (k : κ) : Table key :=
  ⟨t.rows.filter (fun r => key r ≠ k), t.nodup.sublist (List.filter_sublist.map key)⟩

/-! ## Looking a row up -/

/-- **The row of a key** is the row of the table that carries it. -/
theorem find?_eq_some {t : Table key} {k : κ} {r : ρ} :
    t.find? k = some r ↔ r ∈ t.rows ∧ key r = k := by
  constructor
  · intro h
    exact ⟨List.mem_of_find?_eq_some h, by simpa using List.find?_some h⟩
  · rintro ⟨hr, rfl⟩
    unfold find?
    have hsome : (t.rows.find? (fun r' => key r' = key r)).isSome := by
      rw [List.find?_isSome]
      exact ⟨r, hr, by simp⟩
    obtain ⟨r', hr'⟩ := Option.isSome_iff_exists.mp hsome
    have hmem := List.mem_of_find?_eq_some hr'
    have hkey : key r' = key r := by simpa using List.find?_some hr'
    rw [hr', List.inj_on_of_nodup_map t.nodup hmem hr hkey]

theorem find?_eq_none {t : Table key} {k : κ} :
    t.find? k = none ↔ ∀ r ∈ t.rows, key r ≠ k := by
  simp [find?]

theorem find?_key {t : Table key} {r : ρ} (h : r ∈ t.rows) : t.find? (key r) = some r :=
  find?_eq_some.mpr ⟨h, rfl⟩

theorem key_of_find? {t : Table key} {k : κ} {r : ρ} (h : t.find? k = some r) : key r = k :=
  (find?_eq_some.mp h).2

theorem mem_of_find? {t : Table key} {k : κ} {r : ρ} (h : t.find? k = some r) : r ∈ t.rows :=
  (find?_eq_some.mp h).1

omit [DecidableEq κ] in
@[simp] theorem rows_empty : (empty : Table key).rows = [] := rfl

/-! ## Rewriting rows -/

omit [DecidableEq κ] in
@[simp] theorem rows_map (t : Table key) (f : ρ → ρ) (hf : ∀ r, key (f r) = key r) :
    (t.map f hf).rows = t.rows.map f := rfl

theorem find?_map (t : Table key) (f : ρ → ρ) (hf : ∀ r, key (f r) = key r) (k : κ) :
    (t.map f hf).find? k = (t.find? k).map f := by
  unfold find?
  rw [rows_map, List.find?_map]
  exact congrArg (fun o => Option.map f o)
    (congrArg (fun p => List.find? p t.rows) (funext fun r => by simp [hf r]))

theorem mem_modify {t : Table key} {k : κ} {f : ρ → ρ} {hf : ∀ r, key (f r) = key r} {r : ρ} :
    r ∈ (t.modify k f hf).rows ↔
      (∃ r₀ ∈ t.rows, key r₀ = k ∧ r = f r₀) ∨ (r ∈ t.rows ∧ key r ≠ k) := by
  unfold modify
  rw [rows_map, List.mem_map]
  constructor
  · rintro ⟨r₀, hr₀, h⟩
    by_cases hk : key r₀ = k
    · exact Or.inl ⟨r₀, hr₀, hk, by rw [← h, if_pos hk]⟩
    · rw [if_neg hk] at h
      subst h
      exact Or.inr ⟨hr₀, hk⟩
  · rintro (⟨r₀, hr₀, hk, rfl⟩ | ⟨hr, hk⟩)
    · exact ⟨r₀, hr₀, if_pos hk⟩
    · exact ⟨r, hr, if_neg hk⟩

/-- The rewritten row is found under its key. -/
theorem find?_modify_self {t : Table key} {k : κ} {f : ρ → ρ} {hf : ∀ r, key (f r) = key r}
    {r : ρ} (h : t.find? k = some r) : (t.modify k f hf).find? k = some (f r) := by
  have hk := key_of_find? h
  rw [modify, find?_map, h]
  exact congrArg some (if_pos hk)

/-- Every other row is found as it was. -/
theorem find?_modify_of_ne {t : Table key} {k k' : κ} {f : ρ → ρ}
    {hf : ∀ r, key (f r) = key r} (h : k' ≠ k) : (t.modify k f hf).find? k' = t.find? k' := by
  rw [modify, find?_map]
  cases hk : t.find? k' with
  | none => rfl
  | some r =>
    have hr := key_of_find? hk
    exact congrArg some (if_neg (fun e => h (hr ▸ e)))

/-- **Rewriting the row of a key** is replacing it by what it is rewritten
to. -/
theorem modify_eq_replace {t : Table key} {k : κ} {f : ρ → ρ} {hf : ∀ r, key (f r) = key r}
    {r : ρ} (h : t.find? k = some r) : t.modify k f hf = t.replace (f r) := by
  have hk := key_of_find? h
  have hrows : (t.modify k f hf).rows = (t.replace (f r)).rows := by
    unfold modify replace
    rw [rows_map, rows_map]
    refine List.map_congr_left fun r' hr' => ?_
    show (if key r' = k then f r' else r') = if key r' = key (f r) then f r else r'
    rw [hf r, hk]
    by_cases hr : key r' = k
    · rw [if_pos hr, if_pos hr,
        List.inj_on_of_nodup_map t.nodup hr' (mem_of_find? h) (hr.trans hk.symm)]
    · rw [if_neg hr, if_neg hr]
  cases ht : t.modify k f hf
  cases ht' : t.replace (f r)
  rw [ht, ht'] at hrows
  subst hrows
  rfl

/-- The replaced row is found under its key. -/
theorem find?_replace_self {t : Table key} {r r' : ρ} (h : t.find? (key r') = some r) :
    (t.replace r').find? (key r') = some r' := by
  rw [replace, find?_map, h]
  exact congrArg some (if_pos (key_of_find? h))

theorem find?_replace_of_ne {t : Table key} {r : ρ} {k : κ} (h : k ≠ key r) :
    (t.replace r).find? k = t.find? k := by
  rw [replace, find?_map]
  cases hk : t.find? k with
  | none => rfl
  | some r' =>
    have hr := key_of_find? hk
    exact congrArg some (if_neg (fun e => h (hr ▸ e)))

/-- Looking up a key after a replacement. -/
theorem find?_replace {t : Table key} {r r' : ρ} (h : t.find? (key r) = some r') (k : κ) :
    (t.replace r).find? k = if k = key r then some r else t.find? k := by
  by_cases hk : k = key r
  · subst hk
    rw [if_pos rfl, find?_replace_self h]
  · rw [if_neg hk, find?_replace_of_ne hk]

/-- A row of the table after a replacement is the new one, or an old one of
another key. -/
theorem mem_replace {t : Table key} {r r' : ρ} (h : r' ∈ (t.replace r).rows) :
    r' = r ∨ (r' ∈ t.rows ∧ key r' ≠ key r) := by
  unfold replace at h
  rw [rows_map] at h
  obtain ⟨r₀, hr₀, heq⟩ := List.mem_map.mp h
  by_cases hk : key r₀ = key r
  · rw [if_pos hk] at heq
    exact Or.inl heq.symm
  · rw [if_neg hk] at heq
    subst heq
    exact Or.inr ⟨hr₀, hk⟩

/-! ## Inserting and deleting -/

@[simp] theorem rows_insert (t : Table key) (r : ρ) (h : t.find? (key r) = none) :
    (t.insert r h).rows = t.rows ++ [r] := rfl

theorem mem_insert {t : Table key} {r r' : ρ} (h : t.find? (key r) = none) :
    r' ∈ (t.insert r h).rows ↔ r' ∈ t.rows ∨ r' = r := by
  rw [rows_insert, List.mem_append, List.mem_singleton]

/-- A row that was there is found as it was. -/
theorem find?_insert_of_some {t : Table key} {r r' : ρ} (h : t.find? (key r) = none) {k : κ}
    (hk : t.find? k = some r') : (t.insert r h).find? k = some r' :=
  find?_eq_some.mpr ⟨(mem_insert h).mpr (Or.inl (mem_of_find? hk)), key_of_find? hk⟩

/-- The inserted row is found under its key. -/
theorem find?_insert_self {t : Table key} {r : ρ} (h : t.find? (key r) = none) :
    (t.insert r h).find? (key r) = some r :=
  find?_eq_some.mpr ⟨(mem_insert h).mpr (Or.inr rfl), rfl⟩

/-- Looking up a key after an insertion. -/
theorem find?_insert {t : Table key} {r : ρ} (h : t.find? (key r) = none) (k : κ) :
    (t.insert r h).find? k = if k = key r then some r else t.find? k := by
  by_cases hk : k = key r
  · subst hk
    rw [if_pos rfl, find?_insert_self]
  · rw [if_neg hk]
    cases hfind : t.find? k with
    | some r' => exact find?_insert_of_some h hfind
    | none =>
      rw [find?_eq_none]
      intro r' hr'
      rcases (mem_insert h).mp hr' with hr' | rfl
      · exact find?_eq_none.mp hfind r' hr'
      · exact Ne.symm hk

theorem mem_delete {t : Table key} {k : κ} {r : ρ} :
    r ∈ (t.delete k).rows ↔ r ∈ t.rows ∧ key r ≠ k := by
  simp [delete]

/-- Another row is found as before a deletion. -/
theorem find?_delete_of_ne {t : Table key} {k k' : κ} {r : ρ} (h : t.find? k' = some r)
    (hk : k' ≠ k) : (t.delete k).find? k' = some r := by
  refine find?_eq_some.mpr ⟨mem_delete.mpr ⟨mem_of_find? h, ?_⟩, key_of_find? h⟩
  rwa [key_of_find? h]

end Table
