import Mathlib.Data.List.Basic
import Mathlib.Data.List.Sort

/-!
# Searching a sorted list, with a memo

Two things a search may do without changing its answer. It may sort the
candidates and stop at the first that qualifies: what it stops at is
preferred to everything else that qualifies (`find?_mergeSort_eq_some`).
And it may remember what it has evaluated: a memo whose entries all say
what the function says (`Faithful`) can be consulted in its place, and the
search through the memo is the search without it
(`findRecalled_eq_find?`).

A list sorted once answers for its parts: what is kept of it is in the order
it would be sorted in alone (`filter_mergeSort`). And one sorted by a key
answers how many of its elements pass a bound by a single one of them
(`lt_length_filter_iff`).
-/

namespace Selection

variable {α κ β : Type}

/-! ## Memos -/

/-- **A memo is faithful** when each of its entries is the function's own
answer. -/
def Faithful (f : κ → β) (memo : List (κ × β)) : Prop := ∀ e ∈ memo, e.2 = f e.1

theorem faithful_nil (f : κ → β) : Faithful f [] := fun _ h => nomatch h

section Recall

variable [BEq κ] [LawfulBEq κ]

/-- The answer for a key, from the memo when it has one; otherwise evaluated
and remembered. -/
def consult (f : κ → β) (k : κ) (memo : List (κ × β)) : β × List (κ × β) :=
  match memo.lookup k with
  | some b => (b, memo)
  | none => (f k, (k, f k) :: memo)

/-- Whether the answers for all keys pass, asked in order up to the first
that does not. -/
def everyRecalled (f : κ → β) (p : β → Bool) :
    List κ → List (κ × β) → Bool × List (κ × β)
  | [], memo => (true, memo)
  | k :: ks, memo =>
    let answer := consult f k memo
    if p answer.1 = true then everyRecalled f p ks answer.2 else (false, answer.2)

/-- The first candidate whose keys all pass, with one memo for the whole
search. -/
def findRecalled (f : κ → β) (p : β → Bool) (keys : α → List κ) :
    List α → List (κ × β) → Option α
  | [], _ => none
  | a :: as, memo =>
    let answer := everyRecalled f p (keys a) memo
    if answer.1 = true then some a else findRecalled f p keys as answer.2

theorem mem_of_lookup {memo : List (κ × β)} {k : κ} {b : β} (h : memo.lookup k = some b) :
    (k, b) ∈ memo := by
  induction memo with
  | nil => simp at h
  | cons e memo ih =>
    obtain ⟨k', b'⟩ := e
    rw [List.lookup_cons] at h
    split at h
    · next hk =>
      obtain rfl : k = k' := eq_of_beq hk
      obtain rfl := Option.some.inj h
      exact List.mem_cons_self
    · exact List.mem_cons_of_mem _ (ih h)

/-- **A faithful memo answers as the function does**, and stays faithful. -/
theorem consult_spec {f : κ → β} {memo : List (κ × β)} (h : Faithful f memo) (k : κ) :
    (consult f k memo).1 = f k ∧ Faithful f (consult f k memo).2 := by
  unfold consult
  split
  · next b hb => exact ⟨h _ (mem_of_lookup hb), h⟩
  · exact ⟨rfl, fun e he => (List.mem_cons.mp he).elim (fun heq => heq ▸ rfl) (h e)⟩

theorem everyRecalled_spec {f : κ → β} (p : β → Bool) {memo : List (κ × β)}
    (h : Faithful f memo) (ks : List κ) :
    (everyRecalled f p ks memo).1 = ks.all (fun k => p (f k)) ∧
      Faithful f (everyRecalled f p ks memo).2 := by
  induction ks generalizing memo with
  | nil => exact ⟨rfl, h⟩
  | cons k ks ih =>
    obtain ⟨hanswer, hfaithful⟩ := consult_spec h k
    simp only [everyRecalled, hanswer]
    by_cases hp : p (f k) = true
    · simp only [hp, if_true, List.all_cons, Bool.true_and]
      exact ih hfaithful
    · simp only [hp, Bool.false_eq_true, if_false, List.all_cons, Bool.false_and]
      exact ⟨trivial, hfaithful⟩

/-- **The memo changes no answer of the search.** -/
theorem findRecalled_eq_find? {f : κ → β} (p : β → Bool) (keys : α → List κ)
    {memo : List (κ × β)} (h : Faithful f memo) (as : List α) :
    findRecalled f p keys as memo = as.find? (fun a => (keys a).all (fun k => p (f k))) := by
  induction as generalizing memo with
  | nil => rfl
  | cons a as ih =>
    obtain ⟨hanswer, hfaithful⟩ := everyRecalled_spec p h (keys a)
    simp only [findRecalled, hanswer, List.find?_cons]
    by_cases hp : (keys a).all (fun k => p (f k)) = true
    · simp [hp]
    · rw [if_neg hp, ih hfaithful]
      simp [hp]

end Recall

/-! ## The first of a sorted list -/

section Sorted

variable {le : α → α → Bool}

/-- **The first that qualifies is preferred** to every other that does. -/
theorem find?_mergeSort_eq_some
    (htrans : ∀ a b c, le a b = true → le b c = true → le a c = true)
    (htotal : ∀ a b, (le a b || le b a) = true) {as : List α} {p : α → Bool} {a : α}
    (h : (as.mergeSort le).find? p = some a) :
    a ∈ as ∧ p a = true ∧ ∀ b ∈ as, p b = true → le a b = true := by
  refine ⟨List.mem_mergeSort.mp (List.mem_of_find?_eq_some h), List.find?_some h, ?_⟩
  intro b hb hpb
  obtain ⟨-, before, after, heq, hbefore⟩ := List.find?_eq_some_iff_append.mp h
  have hsorted : (before ++ a :: after).Pairwise (fun x y => le x y = true) :=
    heq ▸ List.pairwise_mergeSort htrans htotal as
  have hmem : b ∈ before ++ a :: after := heq ▸ List.mem_mergeSort.mpr hb
  rcases List.mem_append.mp hmem with hb | hb
  · exact absurd hpb (by simpa using hbefore b hb)
  · rcases List.mem_cons.mp hb with rfl | hb
    · simpa using htotal b b
    · exact (List.pairwise_cons.mp (List.pairwise_append.mp hsorted).2.1).1 b hb

/-- The head of a sorted list is its first. -/
theorem head?_eq_find? (as : List α) : as.head? = as.find? fun _ => true := by
  cases as <;> rfl

theorem find?_mergeSort_eq_none {as : List α} {p : α → Bool} :
    (as.mergeSort le).find? p = none ↔ ∀ a ∈ as, p a = false := by
  simp [List.find?_eq_none]

end Sorted

/-! ## Sorting once, asking of a part -/

/-- A list in two halves is told by what tells its elements apart. -/
theorem append_inj_of_halves {p : α → Bool} {xs ys xs' ys' : List α} (h : xs ++ ys = xs' ++ ys')
    (hxs : ∀ a ∈ xs, p a = true) (hys : ∀ a ∈ ys, p a = false) (hxs' : ∀ a ∈ xs', p a = true)
    (hys' : ∀ a ∈ ys', p a = false) : xs = xs' ∧ ys = ys' := by
  have hleft : ∀ {as bs : List α}, (∀ a ∈ as, p a = true) → (∀ a ∈ bs, p a = false) →
      (as ++ bs).filter p = as := by
    intro as bs has hbs
    rw [List.filter_append, List.filter_eq_self.mpr has,
      List.filter_eq_nil_iff.mpr fun a ha => by rw [hbs a ha]; exact nofun, List.append_nil]
  have heq : xs = xs' := by rw [← hleft hxs hys, h, hleft hxs' hys']
  subst heq
  exact ⟨rfl, List.append_cancel_left h⟩

section Sorted

variable {le : α → α → Bool}

/-- **A part of a sorted list is the part, sorted.** The order of what is
kept does not depend on what is not, ties included. -/
theorem filter_mergeSort (htrans : ∀ a b c, le a b = true → le b c = true → le a c = true)
    (htotal : ∀ a b, (le a b || le b a) = true) (p : α → Bool) (as : List α) :
    (as.mergeSort le).filter p = (as.filter p).mergeSort le := by
  induction as with
  | nil => simp
  | cons a as ih =>
    obtain ⟨before, after, hsorted, hrest, hbefore⟩ := List.mergeSort_cons htrans htotal a as
    rw [hrest, List.filter_append] at ih
    rw [hsorted, List.filter_append]
    by_cases hp : p a = true
    · rw [List.filter_cons_of_pos hp, List.filter_cons_of_pos hp]
      obtain ⟨before', after', hsorted', hrest', hbefore'⟩ :=
        List.mergeSort_cons htrans htotal a (as.filter p)
      have hafter : ∀ {as before after : List α}, as.mergeSort le = before ++ a :: after →
          ∀ b ∈ after, le a b = true := by
        intro as before after heq b hb
        have hpairwise : (before ++ a :: after).Pairwise (fun x y => le x y = true) :=
          heq ▸ List.pairwise_mergeSort htrans htotal as
        exact (List.pairwise_cons.mp (List.pairwise_append.mp hpairwise).2.1).1 b hb
      obtain ⟨hfirst, hlast⟩ := @append_inj_of_halves _ (fun b => !le a b) _ _ _ _
        (ih.trans hrest') (fun b hb => hbefore b (List.mem_filter.mp hb).1)
        (fun b hb => by rw [hafter hsorted b (List.mem_filter.mp hb).1]; rfl) hbefore'
        (fun b hb => by rw [hafter hsorted' b hb]; rfl)
      rw [hsorted', hfirst, hlast]
    · rw [List.filter_cons_of_neg hp, List.filter_cons_of_neg hp, ih]

/-- Sorting asks for the order of its own elements only. -/
theorem mergeSort_congr {le' : α → α → Bool} {as : List α}
    (h : ∀ a ∈ as, ∀ b ∈ as, le a b = le' a b) : as.mergeSort le = as.mergeSort le' := by
  have hmap := @List.map_mergeSort α α le le' id as h
  rwa [List.map_id, List.map_id] at hmap

end Sorted

/-- **The element at a place decides a count.** In a list from the largest
key down, more than `n` elements pass a bound exactly when the one at place
`n` does. -/
theorem lt_length_filter_iff [LinearOrder κ] {key : α → κ} {as : List α}
    (h : as.Pairwise fun a b => key b ≤ key a) (n : ℕ) (bound : κ) :
    n < (as.filter fun a => decide (bound < key a)).length ↔ ∃ a, as[n]? = some a ∧ bound < key a := by
  induction as generalizing n with
  | nil => simp
  | cons a as ih =>
    obtain ⟨hle, hrest⟩ := List.pairwise_cons.mp h
    by_cases hpass : bound < key a
    · rw [List.filter_cons_of_pos (by simpa using hpass), List.length_cons]
      cases n with
      | zero => simpa using hpass
      | succ n => rw [Nat.succ_lt_succ_iff, ih hrest, List.getElem?_cons_succ]
    · -- nothing behind the first one passes either
      have hnone : ∀ b ∈ a :: as, ¬ bound < key b := by
        intro b hb
        rcases List.mem_cons.mp hb with rfl | hb
        · exact hpass
        · exact not_lt.mpr (le_trans (hle b hb) (not_lt.mp hpass))
      have hnil : ((a :: as).filter fun b => decide (bound < key b)) = [] :=
        List.filter_eq_nil_iff.mpr fun b hb => by simpa using hnone b hb
      rw [hnil]
      refine iff_of_false (Nat.not_lt_zero n) ?_
      rintro ⟨b, hb, hlt⟩
      exact hnone b (List.mem_of_getElem? hb) hlt

/-! ## A list of answers -/

/-- An answer in a list of answers was given to one of the questions. -/
theorem mem_of_mapM {f : α → Option β} {as : List α} {bs : List β}
    (h : as.mapM f = some bs) {b : β} (hb : b ∈ bs) : ∃ a ∈ as, f a = some b := by
  induction as generalizing bs with
  | nil =>
    obtain rfl : [] = bs := by simpa using h
    exact nomatch hb
  | cons a as ih =>
    simp only [List.mapM_cons, Option.bind_eq_bind, Option.bind_eq_some_iff, Option.pure_def,
      Option.some.injEq] at h
    obtain ⟨b', ha, bs', hrest, rfl⟩ := h
    rcases List.mem_cons.mp hb with rfl | hb
    · exact ⟨a, List.mem_cons_self, ha⟩
    · obtain ⟨a', ha', hfa⟩ := ih hrest hb
      exact ⟨a', List.mem_cons_of_mem _ ha', hfa⟩

/-- A question has its answer in a list of answers. -/
theorem exists_mem_of_mapM {f : α → Option β} {as : List α} {bs : List β}
    (h : as.mapM f = some bs) {a : α} (ha : a ∈ as) : ∃ b ∈ bs, f a = some b := by
  induction as generalizing bs with
  | nil => exact nomatch ha
  | cons a' as ih =>
    simp only [List.mapM_cons, Option.bind_eq_bind, Option.bind_eq_some_iff, Option.pure_def,
      Option.some.injEq] at h
    obtain ⟨b', hb', bs', hrest, rfl⟩ := h
    rcases List.mem_cons.mp ha with rfl | ha
    · exact ⟨b', List.mem_cons_self, hb'⟩
    · obtain ⟨b, hb, hfa⟩ := ih hrest ha
      exact ⟨b, List.mem_cons_of_mem _ hb, hfa⟩

/-- Questions that are all answered have a list of answers. -/
theorem exists_mapM {f : α → Option β} {as : List α} (h : ∀ a ∈ as, ∃ b, f a = some b) :
    ∃ bs, as.mapM f = some bs := by
  induction as with
  | nil => exact ⟨[], rfl⟩
  | cons a as ih =>
    obtain ⟨b, hb⟩ := h a List.mem_cons_self
    obtain ⟨bs, hbs⟩ := ih fun a' ha' => h a' (List.mem_cons_of_mem _ ha')
    exact ⟨b :: bs, by rw [List.mapM_cons, hb, hbs]; rfl⟩

/-- The answers are the function's own. -/
theorem mapM_eq_map {f : α → Option β} {g : α → β} {as : List α}
    (h : ∀ a ∈ as, f a = some (g a)) : as.mapM f = some (as.map g) := by
  induction as with
  | nil => rfl
  | cons a as ih =>
    rw [List.mapM_cons, h a List.mem_cons_self, ih fun b hb => h b (List.mem_cons_of_mem _ hb)]
    rfl

end Selection
