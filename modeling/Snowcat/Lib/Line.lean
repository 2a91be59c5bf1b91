import Mathlib.Data.List.Nodup
import Mathlib.Data.List.Sort
import Mathlib.Order.Nat

/-!
# Places in line

A list sorted by an order that ties leaves its ties in the order they were in,
so every element has a place: behind those the order puts before it, and
behind those it ties with that were before it in the list (`Before`). The
first places of the sorted list go to the elements that few others are before
(`mem_take_mergeSort_iff`).

Two lines that differ in whom they let in agree on the first places exactly
when everybody there is let into both (`take_filter_eq_take_iff`).
-/

namespace Line

variable {α : Type} {le : α → α → Bool} {as : List α} {a b : α}

/-- **One element stands before another** in the line a list makes: the order
puts it there, or they tie and it is before the other in the list. -/
def Before (le : α → α → Bool) (as : List α) (b a : α) : Prop :=
  le b a = true ∧ (le a b = true → [b, a].Sublist as)

instance [DecidableEq α] (le : α → α → Bool) (as : List α) (b a : α) :
    Decidable (Before le as b a) := inferInstanceAs (Decidable (_ ∧ (_ → _)))

/-- Of two elements of a list one is before the other. -/
theorem pair_sublist_or (ha : a ∈ as) (hb : b ∈ as) (hne : a ≠ b) :
    [b, a].Sublist as ∨ [a, b].Sublist as := by
  induction as with
  | nil => exact nomatch ha
  | cons c rest ih =>
    rcases List.mem_cons.mp ha with rfl | harest
    · have hbrest := (List.mem_cons.mp hb).resolve_left (Ne.symm hne)
      exact Or.inr ((List.singleton_sublist.mpr hbrest).cons_cons a)
    · rcases List.mem_cons.mp hb with rfl | hbrest
      · exact Or.inl ((List.singleton_sublist.mpr harest).cons_cons b)
      · exact (ih harest hbrest).imp (.cons c) (.cons c)

/-- Where an element stands in a list without repetitions, it does not stand
again. -/
theorem not_pair_sublist {before after : List α} (h : (before ++ a :: after).Nodup)
    (hb : b ∈ before) : ¬ [a, b].Sublist (before ++ a :: after) := by
  intro hsub
  have hrest : ∀ {as : List α}, (∀ x ∈ as, x ≠ a) → [a, b].Sublist (as ++ a :: after) →
      [b].Sublist after := by
    intro as
    induction as with
    | nil =>
      intro _ hsub
      rcases List.cons_sublist_cons'.mp hsub with hsub | ⟨-, hsub⟩
      · exact (List.sublist_cons_self a [b]).trans hsub
      · exact hsub
    | cons c rest ih =>
      intro hne hsub
      obtain ⟨hc, hne⟩ := List.forall_mem_cons.mp hne
      rcases List.cons_sublist_cons'.mp hsub with hsub | ⟨hsame, -⟩
      · exact ih hne hsub
      · exact absurd hsame.symm hc
  have hdisjoint := (List.nodup_append.mp h).2.2
  have hafter := List.singleton_sublist.mp
    (hrest (fun x hx => hdisjoint x hx a List.mem_cons_self) hsub)
  exact hdisjoint b hb b (List.mem_cons_of_mem _ hafter) rfl

/-- Elements that are kept stand in line as they did. -/
theorem before_filter_iff {p : α → Bool} (hb : p b = true) (ha : p a = true) :
    Before le (as.filter p) b a ↔ Before le as b a := by
  refine and_congr_right fun _ => imp_congr_right fun _ => ⟨?_, ?_⟩
  · exact fun h => h.trans List.filter_sublist
  · intro h
    have hkept := h.filter p
    rwa [List.filter_cons_of_pos hb, List.filter_cons_of_pos ha, List.filter_nil] at hkept

section Sorted

variable (htrans : ∀ a b c, le a b = true → le b c = true → le a c = true)
  (htotal : ∀ a b, (le a b || le b a) = true)
include htrans htotal

/-- **Who stands before an element** of the sorted list. -/
theorem before_iff_of_mergeSort (hnodup : as.Nodup) {before after : List α}
    (h : as.mergeSort le = before ++ a :: after) (hb : b ∈ as) : Before le as b a ↔ b ∈ before := by
  have hsorted : (before ++ a :: after).Pairwise fun x y => le x y = true :=
    h ▸ List.pairwise_mergeSort htrans htotal as
  have hnodup' : (before ++ a :: after).Nodup :=
    h ▸ (List.mergeSort_perm as le).nodup_iff.mpr hnodup
  have ha : a ∈ as := List.mem_mergeSort.mp (h ▸ List.mem_append_right _ List.mem_cons_self)
  have hstable : ∀ {x y : α}, le x y = true → [x, y].Sublist as →
      [x, y].Sublist (before ++ a :: after) := fun hle hsub =>
    h ▸ List.pair_sublist_mergeSort htrans htotal hle hsub
  constructor
  · rintro ⟨hle, htie⟩
    have hmem : b ∈ before ++ a :: after := h ▸ List.mem_mergeSort.mpr hb
    rcases List.mem_append.mp hmem with hmem | hmem
    · exact hmem
    exfalso
    rcases List.mem_cons.mp hmem with rfl | hmem
    · -- an element is not before itself
      have hsub := htie hle
      exact absurd (hsub.nodup hnodup) (by simp)
    · have hle' : le a b = true :=
        (List.pairwise_cons.mp (List.pairwise_append.mp hsorted).2.1).1 b hmem
      obtain ⟨front, back, rfl⟩ := List.append_of_mem hmem
      have hsplit : before ++ a :: (front ++ b :: back) = (before ++ a :: front) ++ b :: back := by
        rw [List.append_assoc, List.cons_append]
      rw [hsplit] at hstable hnodup'
      exact not_pair_sublist hnodup' (List.mem_append_right _ List.mem_cons_self)
        (hstable hle (htie hle'))
  · intro hmem
    have hle : le b a = true :=
      (List.pairwise_append.mp hsorted).2.2 b hmem a List.mem_cons_self
    refine ⟨hle, fun hle' => ?_⟩
    have hne : a ≠ b := fun heq =>
      (List.nodup_append.mp hnodup').2.2 b hmem a List.mem_cons_self heq.symm
    rcases pair_sublist_or ha hb hne with hsub | hsub
    · exact hsub
    · exact absurd (hstable hle' hsub) (not_pair_sublist hnodup' hmem)

/-- **What is found first** in the sorted list is what passes and no other that
passes is before. -/
theorem find?_mergeSort_eq_some_iff (hnodup : as.Nodup) {p : α → Bool} :
    (as.mergeSort le).find? p = some a ↔
      a ∈ as ∧ p a = true ∧ ∀ b ∈ as, p b = true → ¬ Before le as b a := by
  constructor
  · intro hfound
    obtain ⟨hpass, before, after, h, hbefore⟩ := List.find?_eq_some_iff_append.mp hfound
    refine ⟨List.mem_mergeSort.mp (List.mem_of_find?_eq_some hfound), hpass, fun b hb hpb hstands => ?_⟩
    have hmem := (before_iff_of_mergeSort htrans htotal hnodup h hb).mp hstands
    have hfails := hbefore b hmem
    rw [hpb] at hfails
    exact nomatch hfails
  · rintro ⟨ha, hpass, hfirst⟩
    obtain ⟨before, after, h⟩ := List.append_of_mem ((@List.mem_mergeSort _ le _ _).mpr ha)
    refine List.find?_eq_some_iff_append.mpr ⟨hpass, before, after, h, fun b hb => ?_⟩
    have hbas : b ∈ as := List.mem_mergeSort.mp (h ▸ List.mem_append_left _ hb)
    rw [Bool.not_eq_true', ← Bool.not_eq_true]
    exact fun hpb => hfirst b hbas hpb
      ((before_iff_of_mergeSort htrans htotal hnodup h hbas).mpr hb)

/-- **The first places** go to the elements that few others are before. -/
theorem mem_take_mergeSort_iff [DecidableEq α] (hnodup : as.Nodup) (ha : a ∈ as) (n : ℕ) :
    a ∈ (as.mergeSort le).take n ↔
      (as.filter fun b => decide (Before le as b a)).length < n := by
  have hmem : a ∈ as.mergeSort le := List.mem_mergeSort.mpr ha
  obtain ⟨before, after, h⟩ := List.append_of_mem hmem
  have hnodup' : (before ++ a :: after).Nodup :=
    h ▸ (List.mergeSort_perm as le).nodup_iff.mpr hnodup
  have hcount : (as.filter fun b => decide (Before le as b a)).length = before.length := by
    have hperm := (List.mergeSort_perm as le).symm.filter fun b => decide (Before le as b a)
    rw [hperm.length_eq, h, List.filter_append]
    have hbefore : before.filter (fun b => decide (Before le as b a)) = before := by
      refine List.filter_eq_self.mpr fun b hb => decide_eq_true ?_
      have hbas : b ∈ as := List.mem_mergeSort.mp (h ▸ List.mem_append_left _ hb)
      exact (before_iff_of_mergeSort htrans htotal hnodup h hbas).mpr hb
    have hafter : (a :: after).filter (fun b => decide (Before le as b a)) = [] := by
      refine List.filter_eq_nil_iff.mpr fun b hb hbefore => ?_
      have hbas : b ∈ as := List.mem_mergeSort.mp (h ▸ List.mem_append_right _ hb)
      have hb' := (before_iff_of_mergeSort htrans htotal hnodup h hbas).mp (of_decide_eq_true hbefore)
      exact (List.nodup_append.mp hnodup').2.2 b hb' b hb rfl
    rw [hbefore, hafter, List.append_nil]
  rw [hcount, h, List.take_append, List.mem_append]
  constructor
  · rintro (hmem | hmem)
    · exact absurd rfl ((List.nodup_append.mp hnodup').2.2 a (List.mem_of_mem_take hmem) a
        List.mem_cons_self)
    · by_contra hfew
      rw [Nat.sub_eq_zero_of_le (not_lt.mp hfew), List.take_zero] at hmem
      exact nomatch hmem
  · intro hlt
    obtain ⟨k, hk⟩ := Nat.exists_eq_add_of_lt hlt
    rw [hk, show before.length + k + 1 - before.length = k + 1 by omega]
    exact Or.inr List.mem_cons_self

end Sorted

/-- **Two lines agree on the first places** exactly when everybody there is
let into both. -/
theorem take_filter_eq_take_iff {p : α → Bool} (n : ℕ) :
    (as.filter p).take n = as.take n ↔ ∀ a ∈ as.take n, p a = true := by
  constructor
  · intro h a ha
    rw [← h] at ha
    exact (List.mem_filter.mp (List.mem_of_mem_take ha)).2
  · intro h
    induction as generalizing n with
    | nil => rfl
    | cons a rest ih =>
      cases n with
      | zero => rfl
      | succ n =>
        rw [List.take_succ_cons] at h ⊢
        obtain ⟨ha, hrest⟩ := List.forall_mem_cons.mp h
        rw [List.filter_cons_of_pos ha, List.take_succ_cons, ih n hrest]

end Line
