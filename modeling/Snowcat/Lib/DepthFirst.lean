import Mathlib.Data.List.Nodup
import Mathlib.Order.Nat
import Mathlib.Logic.Relation

/-!
# A bounded depth-first search

A search for a goal over the edges of a graph, with a stack of what is left to
visit and a list of what was visited, which gives up once it has visited a
given number of vertices. It finds the goal only along a path
(`reaches_of_search`). Where fewer vertices can be reached than it may visit,
it finds the goal along any (`search_eq_true_iff`): what was visited has all
its edges to what was visited or is left, so a path out of it passes through
what is left.
-/

namespace DepthFirst

variable {α : Type} [DecidableEq α]

section Search

variable (next : α → List α) (goal : α) (limit : ℕ)

/-- **The search**, from what was visited and the stack of what is left. -/
def search (seen frontier : List α) : Bool :=
  match frontier with
  | [] => false
  | a :: rest =>
    if limit ≤ seen.length then false
    else if a = goal then true
    else if a ∈ seen then search seen rest
    else search (a :: seen) ((next a).reverse ++ rest)
termination_by (limit - seen.length, frontier.length)
decreasing_by
  · exact Prod.Lex.right _ (Nat.lt_succ_self _)
  · refine Prod.Lex.left _ _ ?_
    rw [List.length_cons]
    omega

end Search

variable {next : α → List α} {goal : α} {limit : ℕ} {seen frontier : List α}

/-- There is a path along the edges. -/
def Reaches (next : α → List α) : α → α → Prop := Relation.ReflTransGen fun a b => b ∈ next a

omit [DecidableEq α] in
theorem Reaches.cases_head {a b : α} (h : Reaches next a b) :
    a = b ∨ ∃ c ∈ next a, Reaches next c b := Relation.ReflTransGen.cases_head h

/-- **What the search finds is reached** from what was left to visit. -/
theorem reaches_of_search (h : search next goal limit seen frontier = true) :
    ∃ a ∈ frontier, Reaches next a goal := by
  fun_induction search next goal limit seen frontier with
  | case1 => exact nomatch h
  | case2 => exact nomatch h
  | case3 seen rest => exact ⟨goal, List.mem_cons_self, .refl⟩
  | case4 seen a rest _ _ _ ih =>
    obtain ⟨b, hb, hreaches⟩ := ih h
    exact ⟨b, List.mem_cons_of_mem _ hb, hreaches⟩
  | case5 seen a rest _ _ _ ih =>
    obtain ⟨b, hb, hreaches⟩ := ih h
    rcases List.mem_append.mp hb with hb | hb
    · exact ⟨a, List.mem_cons_self, .head (List.mem_reverse.mp hb) hreaches⟩
    · exact ⟨b, List.mem_cons_of_mem _ hb, hreaches⟩

/-- **What was visited** is not the goal, and has all its edges to what was
visited or is left. -/
structure Explored (next : α → List α) (goal : α) (seen frontier : List α) : Prop where
  other : goal ∉ seen
  edges : ∀ a ∈ seen, ∀ b ∈ next a, b ∈ seen ∨ b ∈ frontier

omit [DecidableEq α] in
/-- A path out of what was visited passes through what is left. -/
theorem Explored.exists_left (h : Explored next goal seen frontier) {a : α} (ha : a ∈ seen)
    (hreaches : Reaches next a goal) : ∃ b ∈ frontier, b ∉ seen ∧ Reaches next b goal := by
  induction hreaches using Relation.ReflTransGen.head_induction_on with
  | refl => exact absurd ha h.other
  | @head a c hac hc ih =>
    by_cases hseen : c ∈ seen
    · exact ih hseen
    · exact ⟨c, (h.edges a ha c hac).resolve_left hseen, hseen, hc⟩

/-- **The search finds what can be reached**, among fewer vertices than it may
visit: a set of vertices that edges do not leave, and that holds what was
visited and what is left. -/
theorem search_of_reaches {within : α → Prop} (hclosed : ∀ a, within a → ∀ b ∈ next a, within b)
    (hfew : ∀ vertices : List α, vertices.Nodup → (∀ a ∈ vertices, within a) →
      vertices.length < limit)
    (hseen : ∀ a ∈ seen, within a) (hfrontier : ∀ a ∈ frontier, within a) (hnodup : seen.Nodup)
    (hexplored : Explored next goal seen frontier)
    (h : ∃ a ∈ frontier, Reaches next a goal) : search next goal limit seen frontier = true := by
  fun_induction search next goal limit seen frontier with
  | case1 =>
    obtain ⟨a, ha, -⟩ := h
    exact nomatch ha
  | case2 seen a rest hfull => exact absurd (hfew seen hnodup hseen) (not_lt.mpr hfull)
  | case3 => rfl
  | case4 seen a rest _ _ ha ih =>
    have hexplored' : Explored next goal seen rest := by
      refine ⟨hexplored.other, fun b hb c hc => ?_⟩
      rcases hexplored.edges b hb c hc with hc | hc
      · exact Or.inl hc
      · rcases List.mem_cons.mp hc with rfl | hc
        · exact Or.inl ha
        · exact Or.inr hc
    refine ih hseen (List.forall_mem_cons.mp hfrontier).2 hnodup hexplored' ?_
    obtain ⟨b, hb, hreaches⟩ := h
    rcases List.mem_cons.mp hb with rfl | hb
    · obtain ⟨c, hc, -, hreaches⟩ := hexplored'.exists_left ha hreaches
      exact ⟨c, hc, hreaches⟩
    · exact ⟨b, hb, hreaches⟩
  | case5 seen a rest _ hne ha ih =>
    obtain ⟨hwithin, hrest⟩ := List.forall_mem_cons.mp hfrontier
    refine ih (List.forall_mem_cons.mpr ⟨hwithin, hseen⟩) (List.forall_mem_append.mpr
      ⟨fun b hb => hclosed a hwithin b (List.mem_reverse.mp hb), hrest⟩)
      (List.nodup_cons.mpr ⟨ha, hnodup⟩) ⟨?_, ?_⟩ ?_
    · rw [List.mem_cons, not_or]
      exact ⟨Ne.symm hne, hexplored.other⟩
    · refine List.forall_mem_cons.mpr ⟨fun b hb => ?_, fun b hb c hc => ?_⟩
      · exact Or.inr (List.mem_append_left _ (List.mem_reverse.mpr hb))
      · rcases hexplored.edges b hb c hc with hc | hc
        · exact Or.inl (List.mem_cons_of_mem _ hc)
        · rcases List.mem_cons.mp hc with rfl | hc
          · exact Or.inl List.mem_cons_self
          · exact Or.inr (List.mem_append_right _ hc)
    · obtain ⟨b, hb, hreaches⟩ := h
      rcases List.mem_cons.mp hb with rfl | hb
      · obtain ⟨c, hc, hreaches⟩ := hreaches.cases_head.resolve_left hne
        exact ⟨c, List.mem_append_left _ (List.mem_reverse.mpr hc), hreaches⟩
      · exact ⟨b, List.mem_append_right _ hb, hreaches⟩

/-- **The search from a vertex finds the goal exactly along a path**, when
fewer vertices can be reached from it than the search may visit. -/
theorem search_eq_true_iff {a : α}
    (hfew : ∀ vertices : List α, vertices.Nodup → (∀ b ∈ vertices, Reaches next a b) →
      vertices.length < limit) :
    search next goal limit [] [a] = true ↔ Reaches next a goal := by
  constructor
  · intro h
    obtain ⟨b, hb, hreaches⟩ := reaches_of_search h
    exact List.mem_singleton.mp hb ▸ hreaches
  · intro h
    refine search_of_reaches (fun b hb c hc => hb.tail hc) hfew (List.forall_mem_nil _)
      (List.forall_mem_singleton.mpr .refl) List.nodup_nil ⟨List.not_mem_nil, List.forall_mem_nil _⟩
      ⟨a, List.mem_singleton_self a, h⟩

end DepthFirst
