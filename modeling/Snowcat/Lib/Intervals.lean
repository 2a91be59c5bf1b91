import Mathlib

/-!
# Chains of intervals

Half-open intervals of a linear order, each starting where the one before
it ends. Such a chain covers what lies between its first start and its last
end, and covers it once (`Stretch.countP_contains`).
-/

/-- **A stretch**: an interval without its end. -/
structure Stretch (τ : Type) where
  from_ : τ
  through : τ

namespace Stretch

variable {τ : Type} [LinearOrder τ]

/-- Whether a point lies in an interval. -/
def contains (t : τ) (i : Stretch τ) : Bool := i.from_ ≤ t && t < i.through

/-- **One interval continues another.** -/
def Meets (i j : Stretch τ) : Prop := i.through = j.from_

/-- The chain never goes back. -/
theorem le_of_chain {i : Stretch τ} {is : List (Stretch τ)} (hchain : (i :: is).IsChain Meets)
    (hforward : ∀ j ∈ i :: is, j.from_ ≤ j.through) :
    i.from_ ≤ ((i :: is).getLast (List.cons_ne_nil _ _)).through := by
  induction is generalizing i with
  | nil => exact hforward i List.mem_cons_self
  | cons j is ih =>
    obtain ⟨hmeets, hrest⟩ := List.isChain_cons_cons.mp hchain
    have hlast := ih hrest fun k hk => hforward k (List.mem_cons_of_mem _ hk)
    rw [List.getLast_cons (List.cons_ne_nil _ _)]
    calc i.from_ ≤ i.through := hforward i List.mem_cons_self
      _ = j.from_ := hmeets
      _ ≤ _ := hlast

/-- **A chain of intervals covers every point between its ends once**, and no
other point. -/
theorem countP_contains {i : Stretch τ} {is : List (Stretch τ)}
    (hchain : (i :: is).IsChain Meets) (hforward : ∀ j ∈ i :: is, j.from_ ≤ j.through) (t : τ) :
    (i :: is).countP (contains t) =
      if i.from_ ≤ t ∧ t < ((i :: is).getLast (List.cons_ne_nil _ _)).through then 1 else 0 := by
  induction is generalizing i with
  | nil =>
    rw [List.countP_singleton, List.getLast_singleton]
    simp only [contains, Bool.and_eq_true, decide_eq_true_eq]
  | cons j is ih =>
    obtain ⟨hmeets, hrest⟩ := List.isChain_cons_cons.mp hchain
    have hforward' : ∀ k ∈ j :: is, k.from_ ≤ k.through := fun k hk =>
      hforward k (List.mem_cons_of_mem _ hk)
    have hlast := le_of_chain hrest hforward'
    rw [List.countP_cons, ih hrest hforward', List.getLast_cons (List.cons_ne_nil _ _)]
    simp only [contains, Bool.and_eq_true, decide_eq_true_eq]
    have hi := hforward i List.mem_cons_self
    rw [Meets] at hmeets
    rw [hmeets] at hi ⊢
    -- before the chain, in its first interval, and behind that
    rcases lt_or_ge t i.from_ with hbefore | hfrom
    · rw [if_neg fun h => absurd h.1 (not_le.mpr (lt_of_lt_of_le hbefore hi)),
        if_neg fun h => absurd h.1 (not_le.mpr hbefore),
        if_neg fun h => absurd h.1 (not_le.mpr hbefore)]
    · rcases lt_or_ge t j.from_ with hfirst | hrest
      · rw [if_neg fun h => absurd h.1 (not_le.mpr hfirst), if_pos ⟨hfrom, hfirst⟩,
          if_pos ⟨hfrom, lt_of_lt_of_le hfirst hlast⟩]
      · have hnot : ¬ (i.from_ ≤ t ∧ t < j.from_) := fun h => absurd h.2 (not_lt.mpr hrest)
        rw [if_neg hnot, Nat.add_zero]
        simp only [hrest, hfrom, true_and]

end Stretch
