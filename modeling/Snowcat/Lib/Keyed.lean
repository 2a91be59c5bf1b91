import Mathlib

/-!
# Tables that are filled by key

A table has one entry for each key. It is filled by rows that each have a key:
the first row of a key makes its entry, and every later one rewrites it
(`fill`). The entry of a key is what its own rows make of it, in their order
(`lookup_fill`). So where the order of the rows of a key does not matter, the
order of the rows does not (`fill_perm`); and where the rows of a key are all in
one part, the tables of the parts make up the table of the whole (`fill_parts`).
-/

namespace Keyed

variable {κ α β γ : Type} [DecidableEq κ] {k k' : κ} {f : Option β → α → β}
  {g : Option β → β} {t t' : List (κ × β)} {rows rows' : List (κ × α)}

/-- Rewrite the entry of a key, or make one. -/
def put (k : κ) (g : Option β → β) : List (κ × β) → List (κ × β)
  | [] => [(k, g none)]
  | (k', b) :: rest => if k' = k then (k', g (some b)) :: rest else (k', b) :: put k g rest

/-- Fill a table. -/
def fillFrom (f : Option β → α → β) (t : List (κ × β)) (rows : List (κ × α)) : List (κ × β) :=
  rows.foldl (fun t row => put row.1 (fun b => f b row.2) t) t

/-- **The table that some rows fill.** -/
def fill (f : Option β → α → β) (rows : List (κ × α)) : List (κ × β) := fillFrom f [] rows

/-! ## Entries -/

theorem lookup_put : (put k g t).lookup k' = if k' = k then some (g (t.lookup k)) else
    t.lookup k' := by
  induction t with
  | nil =>
    by_cases h : k' = k
    · rw [put, h, List.lookup_cons_self, if_pos rfl]
      rfl
    · rw [put, List.lookup_cons, if_neg h, beq_false_of_ne h]
  | cons entry t ih =>
    obtain ⟨k₀, b⟩ := entry
    rw [put]
    by_cases hk₀ : k₀ = k
    · subst hk₀
      rw [if_pos rfl, List.lookup_cons_self]
      by_cases h : k' = k₀
      · rw [h, List.lookup_cons_self, if_pos rfl]
      · rw [List.lookup_cons, List.lookup_cons, if_neg h, beq_false_of_ne h]
    · rw [if_neg hk₀, List.lookup_cons, ih]
      by_cases h : k' = k₀
      · subst h
        rw [beq_self_eq_true, List.lookup_cons_self]
        exact (if_neg hk₀).symm
      · rw [beq_false_of_ne h, List.lookup_cons, List.lookup_cons, beq_false_of_ne h,
          beq_false_of_ne (Ne.symm hk₀)]

theorem mem_keys_put {x : κ} : x ∈ (put k g t).map Prod.fst ↔ x = k ∨ x ∈ t.map Prod.fst := by
  induction t with
  | nil => simp [put]
  | cons entry t ih =>
    obtain ⟨k₀, b⟩ := entry
    rw [put]
    by_cases hk₀ : k₀ = k
    · subst hk₀
      simp
    · rw [if_neg hk₀, List.map_cons, List.mem_cons, ih, List.map_cons, List.mem_cons, or_left_comm]

theorem nodup_put (h : (t.map Prod.fst).Nodup) : ((put k g t).map Prod.fst).Nodup := by
  induction t with
  | nil => exact List.nodup_singleton k
  | cons entry t ih =>
    obtain ⟨k₀, b⟩ := entry
    rw [put]
    by_cases hk₀ : k₀ = k
    · rw [if_pos hk₀]
      exact h
    · rw [List.map_cons, List.nodup_cons] at h
      rw [if_neg hk₀, List.map_cons, List.nodup_cons, mem_keys_put]
      exact ⟨not_or.mpr ⟨hk₀, h.1⟩, ih h.2⟩

/-! ## Tables -/

theorem nodup_fillFrom (h : (t.map Prod.fst).Nodup) : ((fillFrom f t rows).map Prod.fst).Nodup := by
  induction rows generalizing t with
  | nil => exact h
  | cons row rows ih => exact ih (nodup_put h)

/-- Each key has one entry. -/
theorem nodup_fill : ((fill f rows).map Prod.fst).Nodup := nodup_fillFrom List.nodup_nil

theorem mem_keys_fillFrom :
    k ∈ (fillFrom f t rows).map Prod.fst ↔ k ∈ t.map Prod.fst ∨ k ∈ rows.map Prod.fst := by
  induction rows generalizing t with
  | nil =>
    rw [List.map_nil, fillFrom]
    simp
  | cons row rows ih =>
    show k ∈ (fillFrom f (put row.1 _ t) rows).map Prod.fst ↔ _
    rw [ih, mem_keys_put, List.map_cons, List.mem_cons, or_comm (a := k = row.1), or_assoc]

/-- The keys of a table are those of the rows. -/
theorem mem_keys_fill : k ∈ (fill f rows).map Prod.fst ↔ k ∈ rows.map Prod.fst := by
  rw [fill, mem_keys_fillFrom, List.map_nil]
  exact or_iff_right List.not_mem_nil

theorem lookup_fillFrom : (fillFrom f t rows).lookup k =
    (rows.filter fun row => row.1 = k).foldl (fun b row => some (f b row.2)) (t.lookup k) := by
  induction rows generalizing t with
  | nil => rfl
  | cons row rows ih =>
    show (fillFrom f (put row.1 _ t) rows).lookup k = _
    rw [ih, lookup_put]
    by_cases h : row.1 = k
    · rw [if_pos h.symm, List.filter_cons_of_pos (by simp [h]), List.foldl_cons, h]
    · rw [if_neg (Ne.symm h), List.filter_cons_of_neg (by simp [h])]

/-- **The entry of a key** is what its rows make of it. -/
theorem lookup_fill : (fill f rows).lookup k =
    (rows.filter fun row => row.1 = k).foldl (fun b row => some (f b row.2)) none :=
  lookup_fillFrom

/-- A table of one entry for each key has the entries it is asked for. -/
theorem mem_iff_lookup (h : (t.map Prod.fst).Nodup) {b : β} : (k, b) ∈ t ↔ t.lookup k = some b := by
  induction t with
  | nil => simp
  | cons entry t ih =>
    obtain ⟨k₀, b₀⟩ := entry
    rw [List.map_cons, List.nodup_cons] at h
    rw [List.mem_cons, List.lookup_cons]
    by_cases hk : k = k₀
    · subst hk
      rw [beq_self_eq_true]
      constructor
      · rintro (heq | hmem)
        · rw [(Prod.mk.inj heq).2]
        · exact absurd (List.mem_map_of_mem hmem) h.1
      · intro heq
        rw [Option.some.inj heq]
        exact Or.inl rfl
    · rw [beq_false_of_ne hk, ih h.2]
      exact or_iff_right fun heq => hk (Prod.mk.inj heq).1

/-- **Tables that answer alike** have the same entries. -/
theorem perm_of_lookup (h : (t.map Prod.fst).Nodup) (h' : (t'.map Prod.fst).Nodup)
    (hsame : ∀ k, t.lookup k = t'.lookup k) : t.Perm t' := by
  refine (List.perm_ext_iff_of_nodup (h.of_map _) (h'.of_map _)).mpr fun entry => ?_
  obtain ⟨k, b⟩ := entry
  rw [mem_iff_lookup h, mem_iff_lookup h', hsame]

/-- **The order of the rows** does not matter where that of the rows of a key does not. -/
theorem fill_perm (hsame : ∀ k,
    (rows.filter fun row => row.1 = k).foldl (fun b row => some (f b row.2)) none =
      (rows'.filter fun row => row.1 = k).foldl (fun b row => some (f b row.2)) none) :
    (fill f rows).Perm (fill f rows') :=
  perm_of_lookup nodup_fill nodup_fill fun k => by rw [lookup_fill, lookup_fill, hsame]

/-! ## Parts -/

/-- **The tables of the parts make up the table of the whole**, where each key has its rows in one
part. -/
theorem fill_parts {parts : List γ} {rowsOf : γ → List (κ × α)} (hparts : parts.Nodup)
    (hkeys : ∀ p ∈ parts, ∀ q ∈ parts, ∀ k, k ∈ (rowsOf p).map Prod.fst →
      k ∈ (rowsOf q).map Prod.fst → p = q)
    (hcover : ∀ k ∈ rows.map Prod.fst, ∃ p ∈ parts, k ∈ (rowsOf p).map Prod.fst)
    (hrows : ∀ p ∈ parts, ∀ k ∈ (rowsOf p).map Prod.fst,
      (rows.filter fun row => row.1 = k) = (rowsOf p).filter fun row => row.1 = k) :
    (fill f rows).Perm (parts.flatMap fun p => fill f (rowsOf p)) := by
  have hnodup : ((parts.flatMap fun p => fill f (rowsOf p)).map Prod.fst).Nodup := by
    rw [List.map_flatMap]
    refine List.nodup_flatMap.mpr ⟨fun p _ => nodup_fill, hparts.imp_of_mem ?_⟩
    intro p q hp hq hne k hkp hkq
    exact hne (hkeys p hp q hq k (mem_keys_fill.mp hkp) (mem_keys_fill.mp hkq))
  refine (List.perm_ext_iff_of_nodup (nodup_fill.of_map _) (hnodup.of_map _)).mpr fun entry => ?_
  obtain ⟨k, b⟩ := entry
  rw [List.mem_flatMap]
  constructor
  · intro h
    obtain ⟨p, hp, hk⟩ := hcover k (mem_keys_fill.mp (List.mem_map_of_mem h))
    rw [mem_iff_lookup nodup_fill, lookup_fill, hrows p hp k hk] at h
    exact ⟨p, hp, (mem_iff_lookup nodup_fill).mpr (lookup_fill.trans h)⟩
  · rintro ⟨p, hp, h⟩
    have hk : k ∈ (rowsOf p).map Prod.fst := mem_keys_fill.mp (List.mem_map_of_mem h)
    rw [mem_iff_lookup nodup_fill, lookup_fill, ← hrows p hp k hk] at h
    exact (mem_iff_lookup nodup_fill).mpr (lookup_fill.trans h)

/-- The rows of some keys, part by part, are the rows. -/
theorem perm_flatMap_filter [DecidableEq γ] {part : α → γ} {parts : List γ} {as : List α}
    (hparts : parts.Nodup) (hcover : ∀ a ∈ as, part a ∈ parts) :
    as.Perm (parts.flatMap fun p => as.filter fun a => part a = p) := by
  induction parts generalizing as with
  | nil =>
    cases as with
    | nil => exact .refl []
    | cons a as => exact absurd (hcover a List.mem_cons_self) List.not_mem_nil
  | cons p parts ih =>
    obtain ⟨hp, hparts⟩ := List.nodup_cons.mp hparts
    have hrest := @ih (as.filter fun a => !decide (part a = p)) hparts fun a ha => by
      obtain ⟨ha, hne⟩ := List.mem_filter.mp ha
      exact (List.mem_cons.mp (hcover a ha)).resolve_left (by simpa using hne)
    rw [List.flatMap_cons]
    refine (List.filter_append_perm _ _).symm.trans ((hrest.trans (.of_eq ?_)).append_left _)
    refine List.flatMap_congr fun q hq => ?_
    rw [List.filter_filter]
    refine List.filter_congr fun a _ => ?_
    by_cases h : part a = q
    · have hne : q ≠ p := by
        rintro rfl
        exact hp hq
      simp [h, hne]
    · simp [h]

/-! ## Rows that add up -/

/-- What rows make of an entry that stands for another where there is none. -/
theorem foldl_getD {add : β → α → β} {e : β} {as : List α} {o : Option β} :
    as.foldl (fun o a => some (add (o.getD e) a)) o =
      if as = [] then o else some (as.foldl add (o.getD e)) := by
  induction as generalizing o with
  | nil => rfl
  | cons a as ih =>
    rw [List.foldl_cons, ih, if_neg (List.cons_ne_nil a as), List.foldl_cons, Option.getD_some]
    by_cases has : as = []
    · rw [if_pos has, has]
      rfl
    · rw [if_neg has]

omit [DecidableEq κ] in
/-- Two sorts of one table by key are the same, whatever the order of its entries. -/
theorem mergeSort_eq_of_perm {le : κ → κ → Bool}
    (htrans : ∀ a b c, le a b = true → le b c = true → le a c = true)
    (htotal : ∀ a b, le a b = true ∨ le b a = true)
    (hantisymm : ∀ a b, le a b = true → le b a = true → a = b)
    (hperm : t.Perm t') (hnodup : (t.map Prod.fst).Nodup) :
    t.mergeSort (fun a b => le a.1 b.1) = t'.mergeSort fun a b => le a.1 b.1 := by
  have hsorted : ∀ l : List (κ × β), (l.mergeSort fun a b => le a.1 b.1).Pairwise
      fun a b => le a.1 b.1 = true :=
    List.pairwise_mergeSort (fun a b c => htrans a.1 b.1 c.1)
      fun a b => (Bool.or_eq_true _ _).mpr (htotal a.1 b.1)
  refine List.Perm.eq_of_pairwise (fun a b ha hb hab hba => ?_) (hsorted t) (hsorted t')
    ((List.mergeSort_perm t _).trans (hperm.trans (List.mergeSort_perm t' _).symm))
  refine List.inj_on_of_nodup_map hnodup (List.mem_mergeSort.mp ha) ?_ (hantisymm _ _ hab hba)
  exact hperm.mem_iff.mpr (List.mem_mergeSort.mp hb)

/-! ## Sums over parts -/

omit [DecidableEq κ] in
/-- A sum is the sum of the sums of the parts. -/
theorem sum_parts {as : List α} {parts : List γ} {rowsOf : γ → List α} {w : α → ℕ}
    (h : as.Perm (parts.flatMap rowsOf)) :
    (as.map w).sum = (parts.map fun p => ((rowsOf p).map w).sum).sum := by
  rw [(h.map w).sum_eq, List.map_flatMap, List.flatMap_def, List.sum_flatten, List.map_map]
  rfl

omit [DecidableEq κ] in
/-- Counting is summing. -/
theorem countP_eq_sum {p : α → Bool} {as : List α} :
    as.countP p = (as.map fun a => if p a = true then 1 else 0).sum := by
  induction as with
  | nil => rfl
  | cons a as ih =>
    rw [List.countP_cons, ih, List.map_cons, List.sum_cons]
    exact Nat.add_comm _ _

omit [DecidableEq κ] in
/-- A sum over some is the sum in which the others are nothing. -/
theorem sum_filter {q : α → Bool} {w : α → ℕ} {as : List α} :
    ((as.filter q).map w).sum = (as.map fun a => if q a = true then w a else 0).sum := by
  induction as with
  | nil => rfl
  | cons a as ih =>
    rw [List.map_cons, List.sum_cons, ← ih]
    by_cases hq : q a = true
    · rw [List.filter_cons_of_pos hq, if_pos hq, List.map_cons, List.sum_cons]
    · rw [List.filter_cons_of_neg hq, if_neg hq, Nat.zero_add]

omit [DecidableEq κ] in
/-- What each row yields in one of two ways. -/
theorem filterMap_halves {f g h : α → Option β} {as : List α}
    (heach : ∀ a, f a = g a ∧ h a = none ∨ f a = h a ∧ g a = none) :
    (as.filterMap f).Perm (as.filterMap g ++ as.filterMap h) := by
  induction as with
  | nil => exact .refl []
  | cons a as ih =>
    rw [List.filterMap_cons, List.filterMap_cons, List.filterMap_cons]
    rcases heach a with ⟨hf, hnone⟩ | ⟨hf, hnone⟩
    · rw [hf, hnone]
      cases g a with
      | none => exact ih
      | some b => exact ih.cons b
    · rw [hf, hnone]
      cases h a with
      | none => exact ih
      | some b => exact (ih.cons b).trans List.perm_middle.symm

omit [DecidableEq κ] in
/-- What yields nothing may be left out. -/
theorem flatMap_filter_of_nil {q : α → Bool} {f : α → List β} {as : List α}
    (h : ∀ a ∈ as, q a = false → f a = []) : (as.filter q).flatMap f = as.flatMap f := by
  induction as with
  | nil => rfl
  | cons a as ih =>
    have hrest := ih fun b hb => h b (List.mem_cons_of_mem a hb)
    by_cases hq : q a = true
    · rw [List.filter_cons_of_pos hq, List.flatMap_cons, List.flatMap_cons, hrest]
    · rw [List.filter_cons_of_neg hq, List.flatMap_cons, hrest,
        h a List.mem_cons_self (Bool.eq_false_iff.mpr hq), List.nil_append]

end Keyed
