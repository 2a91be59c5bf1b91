import Mathlib.Data.List.Sort

/-!
# The newest entry of a ledger

A ledger numbers its entries, and its readers look for the newest one with
some property. `IsNewest` says which one that is, whatever order the ledger
is kept in; a reader sorts the entries and takes the first it finds
(`find?_newestFirst`).

Two facts carry the readers through the life of a ledger: an entry behind
all others is the newest of its properties and changes nothing for the rest
(`isNewest_concat`), and a ledger that drops entries but keeps the newest one
still has the same newest one (`isNewest_of_keeps`).
-/

namespace Newest

variable {α β : Type} {seq : α → ℕ} {p : α → Bool} {l l' : List α} {a b x : α}

/-- **The newest entry with a property.** -/
structure IsNewest (seq : α → ℕ) (p : α → Bool) (l : List α) (a : α) : Prop where
  mem : a ∈ l
  holds : p a = true
  newest : ∀ b ∈ l, p b = true → seq b ≤ seq a

/-- The entries of a ledger, the newest first. -/
def newestFirst (seq : α → ℕ) (l : List α) : List α :=
  l.insertionSort fun a b => seq b ≤ seq a

/-! ## Which entry is the newest -/

/-- A property that some entry has, has a newest entry. -/
theorem exists_isNewest (h : ∃ a ∈ l, p a = true) : ∃ a, IsNewest seq p l a := by
  induction l with
  | nil =>
    obtain ⟨a, ha, -⟩ := h
    exact absurd ha List.not_mem_nil
  | cons x l ih =>
    by_cases hl : ∃ a ∈ l, p a = true
    · obtain ⟨a, ha⟩ := ih hl
      by_cases hx : p x = true ∧ seq a ≤ seq x
      · refine ⟨x, List.mem_cons_self, hx.1, fun b hb hpb => ?_⟩
        rcases List.mem_cons.mp hb with rfl | hb
        · exact le_rfl
        · exact le_trans (ha.newest b hb hpb) hx.2
      · refine ⟨a, List.mem_cons_of_mem _ ha.mem, ha.holds, fun b hb hpb => ?_⟩
        rcases List.mem_cons.mp hb with rfl | hb
        · exact le_of_not_ge fun hle => hx ⟨hpb, hle⟩
        · exact ha.newest b hb hpb
    · obtain ⟨a, ha, hpa⟩ := h
      have hax : a = x := (List.mem_cons.mp ha).resolve_right fun ha => hl ⟨a, ha, hpa⟩
      refine ⟨x, List.mem_cons_self, hax ▸ hpa, fun b hb hpb => ?_⟩
      rcases List.mem_cons.mp hb with rfl | hb
      · exact le_rfl
      · exact absurd ⟨b, hb, hpb⟩ hl

/-- The newest entry depends on what is in the ledger only. -/
theorem isNewest_congr (h : ∀ a, a ∈ l ↔ a ∈ l') : IsNewest seq p l a ↔ IsNewest seq p l' a := by
  constructor
  · exact fun ha => ⟨(h a).mp ha.mem, ha.holds, fun b hb => ha.newest b ((h b).mpr hb)⟩
  · exact fun ha => ⟨(h a).mpr ha.mem, ha.holds, fun b hb => ha.newest b ((h b).mp hb)⟩

/-- **A ledger that keeps the newest entry** still has the same newest entry. -/
theorem isNewest_of_keeps (hsub : ∀ b ∈ l', b ∈ l) (hkeep : ∀ b, IsNewest seq p l b → b ∈ l') :
    IsNewest seq p l' a ↔ IsNewest seq p l a := by
  constructor
  · intro ha
    obtain ⟨b, hb⟩ : ∃ b, IsNewest seq p l b := exists_isNewest ⟨a, hsub a ha.mem, ha.holds⟩
    have hba : seq b ≤ seq a := ha.newest b (hkeep b hb) hb.holds
    exact ⟨hsub a ha.mem, ha.holds, fun c hc hpc => le_trans (hb.newest c hc hpc) hba⟩
  · exact fun ha => ⟨hkeep a ha, ha.holds, fun b hb => ha.newest b (hsub b hb)⟩

/-- **An entry behind all others**: it is the newest one with a property that it has,
and none of the others notices it. -/
theorem isNewest_concat (hx : ∀ b ∈ l, seq b < seq x) :
    IsNewest seq p (l ++ [x]) a ↔ if p x = true then a = x else IsNewest seq p l a := by
  by_cases hpx : p x = true
  · rw [if_pos hpx]
    constructor
    · intro ha
      rcases List.mem_append.mp ha.mem with hal | hax
      · have hle := ha.newest x (List.mem_append_right _ (List.mem_singleton_self x)) hpx
        exact absurd (hx a hal) (not_lt_of_ge hle)
      · exact List.mem_singleton.mp hax
    · rintro rfl
      refine ⟨List.mem_append_right _ (List.mem_singleton_self a), hpx, fun b hb _ => ?_⟩
      rcases List.mem_append.mp hb with hb | hb
      · exact (hx b hb).le
      · rw [List.mem_singleton.mp hb]
  · rw [if_neg hpx]
    constructor
    · intro ha
      refine ⟨?_, ha.holds, fun b hb => ha.newest b (List.mem_append_left _ hb)⟩
      rcases List.mem_append.mp ha.mem with hal | hax
      · exact hal
      · exact absurd (List.mem_singleton.mp hax ▸ ha.holds) hpx
    · intro ha
      refine ⟨List.mem_append_left _ ha.mem, ha.holds, fun b hb hpb => ?_⟩
      rcases List.mem_append.mp hb with hb | hb
      · exact ha.newest b hb hpb
      · exact absurd (List.mem_singleton.mp hb ▸ hpb) hpx

/-! ## Reading the newest entry -/

/-- The first entry with a property, of a ledger in its order, is the newest one. -/
theorem find?_of_pairwise (h : l.Pairwise fun a b => seq b < seq a) :
    l.find? p = some a ↔ IsNewest seq p l a := by
  induction l with
  | nil => exact ⟨nofun, fun ha => absurd ha.mem List.not_mem_nil⟩
  | cons x l ih =>
    obtain ⟨hx, hl⟩ := List.pairwise_cons.mp h
    rw [List.find?_cons]
    cases hpx : p x with
    | true =>
      constructor
      · intro hxa
        obtain rfl : x = a := Option.some.inj hxa
        refine ⟨List.mem_cons_self, hpx, fun b hb _ => ?_⟩
        rcases List.mem_cons.mp hb with rfl | hb
        · exact le_rfl
        · exact (hx b hb).le
      · intro ha
        rcases List.mem_cons.mp ha.mem with rfl | hal
        · rfl
        · exact absurd (hx a hal) (not_lt_of_ge (ha.newest x List.mem_cons_self hpx))
    | false =>
      refine (ih hl).trans ⟨fun ha => ?_, fun ha => ?_⟩
      · refine ⟨List.mem_cons_of_mem _ ha.mem, ha.holds, fun b hb hpb => ?_⟩
        rcases List.mem_cons.mp hb with rfl | hb
        · exact absurd (hpb.symm.trans hpx) (by decide)
        · exact ha.newest b hb hpb
      · refine ⟨?_, ha.holds, fun b hb => ha.newest b (List.mem_cons_of_mem _ hb)⟩
        rcases List.mem_cons.mp ha.mem with rfl | hal
        · exact absurd (ha.holds.symm.trans hpx) (by decide)
        · exact hal

@[simp] theorem mem_newestFirst : a ∈ newestFirst seq l ↔ a ∈ l :=
  (List.perm_insertionSort _ l).mem_iff

/-- The entries of a ledger whose numbers are distinct, the newest first. -/
theorem pairwise_newestFirst (h : (l.map seq).Nodup) :
    (newestFirst seq l).Pairwise fun a b => seq b < seq a := by
  have hsorted : (newestFirst seq l).Pairwise fun a b => seq b ≤ seq a :=
    List.pairwise_insertionSort _ l
  have hdistinct : ((newestFirst seq l).map seq).Nodup :=
    ((List.perm_insertionSort _ l).map seq).nodup_iff.mpr h
  rw [List.Nodup, List.pairwise_map] at hdistinct
  exact (hsorted.and hdistinct).imp fun h => lt_of_le_of_ne h.1 (Ne.symm h.2)

/-- **Reading the newest entry** with a property. -/
theorem find?_newestFirst (h : (l.map seq).Nodup) :
    (newestFirst seq l).find? p = some a ↔ IsNewest seq p l a :=
  (find?_of_pairwise (pairwise_newestFirst h)).trans (isNewest_congr fun _ => mem_newestFirst)

/-- An entry behind all others is read first. -/
theorem newestFirst_concat (h : (l.map seq).Nodup) (hx : ∀ b ∈ l, seq b < seq x) :
    newestFirst seq (l ++ [x]) = x :: newestFirst seq l := by
  have hdistinct : ((l ++ [x]).map seq).Nodup := by
    rw [List.map_append, List.map_singleton]
    refine List.Nodup.append h (List.nodup_singleton _) ?_
    rw [List.disjoint_singleton]
    intro hmem
    obtain ⟨b, hb, hseq⟩ := List.mem_map.mp hmem
    exact absurd (hx b hb) (hseq ▸ lt_irrefl _)
  have hsorted : (x :: newestFirst seq l).Pairwise fun a b => seq b < seq a :=
    List.pairwise_cons.mpr ⟨fun b hb => hx b (mem_newestFirst.mp hb), pairwise_newestFirst h⟩
  refine List.Perm.eq_of_pairwise (fun a b _ _ hab hba => absurd hab (not_lt_of_gt hba))
    (pairwise_newestFirst hdistinct) hsorted ?_
  calc (newestFirst seq (l ++ [x])).Perm (l ++ [x]) := List.perm_insertionSort _ _
    _ |>.Perm (x :: l) := List.perm_append_singleton x l
    _ |>.Perm (x :: newestFirst seq l) := ((List.perm_insertionSort _ l).symm).cons x

end Newest
