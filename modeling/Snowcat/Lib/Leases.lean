import Mathlib

/-!
# A desk that leases one run at a time

A desk grants a run a lease with an expiry, and takes the completion of the
run in flight, which also says when the next run may be granted. A run
whose lease has run out may be superseded by the next grant, and then its
completion is not taken.

A `Desk.Reaches` is a log of grants and completions that a desk has taken.
`Desk.Reaches.exclusive` reads off the log alone what the desk is for: no
grant falls into an unexpired lease of a run that has not completed, and
only the run granted last completes, and once.
-/

namespace Leases

variable {ρ τ ο : Type}

/-- An entry of the log of a desk. -/
inductive Entry (ρ τ ο : Type) where
  /-- A run was granted a lease. -/
  | granted (run : ρ) (now expires : τ)
  /-- The completion of a run was taken. -/
  | completed (run : ρ) (now : τ) (outcome : ο)

namespace Entry

/-- The run an entry grants. -/
def grant? : Entry ρ τ ο → Option ρ
  | .granted run _ _ => some run
  | .completed .. => none

/-- The run an entry completes. -/
def completion? : Entry ρ τ ο → Option ρ
  | .granted .. => none
  | .completed run _ _ => some run

/-- The outcome an entry brings. -/
def outcome? : Entry ρ τ ο → Option ο
  | .granted .. => none
  | .completed _ _ outcome => some outcome

end Entry

/-- The runs granted, in order. -/
def grants (log : List (Entry ρ τ ο)) : List ρ := log.filterMap Entry.grant?

/-- The runs completed, in order. -/
def completions (log : List (Entry ρ τ ο)) : List ρ := log.filterMap Entry.completion?

/-- The outcomes of the completions, in order. -/
def outcomes (log : List (Entry ρ τ ο)) : List ο := log.filterMap Entry.outcome?

section Append

variable (log : List (Entry ρ τ ο)) (run : ρ) (now expires : τ) (outcome : ο)

@[simp] theorem grants_granted :
    grants (log ++ [.granted run now expires]) = grants log ++ [run] := by
  rw [grants, List.filterMap_append]
  rfl

@[simp] theorem grants_completed :
    grants (log ++ [.completed run now outcome]) = grants log := by
  rw [grants, List.filterMap_append]
  exact List.append_nil _

@[simp] theorem completions_granted :
    completions (log ++ [.granted run now expires]) = completions log := by
  rw [completions, List.filterMap_append]
  exact List.append_nil _

@[simp] theorem completions_completed :
    completions (log ++ [.completed run now outcome]) = completions log ++ [run] := by
  rw [completions, List.filterMap_append]
  rfl

@[simp] theorem outcomes_granted :
    outcomes (log ++ [.granted run now expires]) = outcomes log := by
  rw [outcomes, List.filterMap_append]
  exact List.append_nil _

@[simp] theorem outcomes_completed :
    outcomes (log ++ [.completed run now outcome]) = outcomes log ++ [outcome] := by
  rw [outcomes, List.filterMap_append]
  rfl

end Append

/-- **Leases that exclude one another**, said of the log alone. -/
structure Exclusive [LE τ] (log : List (Entry ρ τ ο)) : Prop where
  /-- When a run is granted, every run granted before has completed or its
  lease has run out. -/
  granted : ∀ pre run now expires post, log = pre ++ .granted run now expires :: post →
    ∀ run' now' expires', .granted run' now' expires' ∈ pre →
      run' ∈ completions pre ∨ expires' ≤ now
  /-- Only the run granted last completes, and it has not completed
  before. -/
  completed : ∀ pre run now outcome post, log = pre ++ .completed run now outcome :: post →
    (grants pre).getLast? = some run ∧ run ∉ completions pre

/-- What a desk keeps of a run in flight. -/
structure Flight (ρ τ : Type) where
  /-- The run. -/
  run : ρ
  /-- When it was granted. -/
  started : τ
  /-- When its lease runs out. -/
  expires : τ

/-- **A desk**: the run in flight, and when the next one may be granted. -/
structure Desk (ρ τ : Type) where
  /-- The run in flight. -/
  flight : Option (Flight ρ τ)
  /-- The next scheduled time. -/
  next : τ

namespace Desk

variable [LinearOrder τ] {d e f : Desk ρ τ} {log : List (Entry ρ τ ο)} {x : Entry ρ τ ο}

/-- **What a desk does**: it grants a run when none holds an unexpired
lease and the next one is due, and it takes the completion of the run in
flight. -/
inductive Step : Desk ρ τ → Entry ρ τ ο → Desk ρ τ → Prop
  | granted {d : Desk ρ τ} {run : ρ} {now expires : τ}
      (hfree : ∀ f ∈ d.flight, f.expires ≤ now) (hdue : d.next ≤ now) (hlease : now ≤ expires) :
      Step d (.granted run now expires) { d with flight := some ⟨run, now, expires⟩ }
  | completed {d : Desk ρ τ} {f : Flight ρ τ} {now next : τ} {outcome : ο}
      (hflight : d.flight = some f) (hstarted : f.started ≤ now) (hnext : now ≤ next) :
      Step d (.completed f.run now outcome) ⟨none, next⟩

/-- A run is granted no earlier than it was due. -/
theorem Step.due {run : ρ} {now expires : τ} (h : Step d (.granted run now expires : Entry ρ τ ο) e) :
    d.next ≤ now := by
  cases h with
  | granted _ hdue => exact hdue

/-- The next run is due no earlier than the completion that says so. -/
theorem Step.next {run : ρ} {now : τ} {outcome : ο}
    (h : Step d (.completed run now outcome : Entry ρ τ ο) e) : now ≤ e.next := by
  cases h with
  | completed _ _ hnext => exact hnext

/-- The log a desk has taken. -/
inductive Reaches (start : Desk ρ τ) : List (Entry ρ τ ο) → Desk ρ τ → Prop
  | nil : Reaches start [] start
  | concat {log : List (Entry ρ τ ο)} {x : Entry ρ τ ο} {d e : Desk ρ τ}
      (h : Reaches start log d) (hstep : Step d x e) : Reaches start (log ++ [x]) e

/-- **What the desk knows of its log**: the run in flight is the one granted
last and has not completed; every other run granted has completed, or its
lease ran out before the run in flight was granted, or before the next may
be. -/
structure Knows (log : List (Entry ρ τ ο)) (d : Desk ρ τ) : Prop where
  /-- The run in flight is the one granted last. -/
  last : ∀ f ∈ d.flight, (grants log).getLast? = some f.run
  /-- The run in flight has not completed. -/
  running : ∀ f ∈ d.flight, f.run ∉ completions log
  /-- A lease begins before it ends. -/
  lease : ∀ f ∈ d.flight, f.started ≤ f.expires
  /-- Only what was granted completes. -/
  subset : completions log ⊆ grants log
  /-- A lease that was granted is the one in flight, or it is over. -/
  settled : ∀ run now expires, .granted run now expires ∈ log → run ∈ completions log ∨
    (∀ f ∈ d.flight, (run = f.run ∧ expires = f.expires) ∨ expires ≤ f.started) ∧
    (d.flight = none → expires ≤ d.next)

theorem knows_nil (h : d.flight = none) : Knows ([] : List (Entry ρ τ ο)) d where
  last f hf := by rw [h] at hf; exact nomatch hf
  running f hf := by rw [h] at hf; exact nomatch hf
  lease f hf := by rw [h] at hf; exact nomatch hf
  subset := List.nil_subset _
  settled _ _ _ hmem := nomatch hmem

/-- When the desk can grant, every run granted before has completed or its
lease has run out. -/
theorem Knows.free (h : Knows log d) {now : τ} (hfree : ∀ f ∈ d.flight, f.expires ≤ now)
    (hdue : d.next ≤ now) {run' : ρ} {now' expires' : τ}
    (hmem : .granted run' now' expires' ∈ log) : run' ∈ completions log ∨ expires' ≤ now := by
  rcases h.settled run' now' expires' hmem with hdone | ⟨hflight, hnone⟩
  · exact Or.inl hdone
  · right
    cases hf : d.flight with
    | none => exact le_trans (hnone hf) hdue
    | some f =>
      rcases hflight f hf with ⟨-, rfl⟩ | hbefore
      · exact hfree f hf
      · exact le_trans hbefore (le_trans (h.lease f hf) (hfree f hf))

/-- One step keeps what the desk knows, when a grant is to a fresh run. -/
theorem Knows.step (h : Knows log d) (hstep : Step d x e)
    (hfresh : ∀ run ∈ x.grant?, run ∉ grants log) : Knows (log ++ [x]) e := by
  cases hstep with
  | @granted run now expires hfree hdue hlease =>
    have hrun : run ∉ completions log := fun hmem => hfresh run rfl (h.subset hmem)
    refine ⟨?_, ?_, ?_, ?_, ?_⟩
    · rintro f ⟨⟩
      rw [grants_granted, List.getLast?_concat]
    · rintro f ⟨⟩
      rwa [completions_granted]
    · rintro f ⟨⟩
      exact hlease
    · rw [completions_granted, grants_granted]
      exact fun r hr => List.mem_append_left _ (h.subset hr)
    · intro run' now' expires' hmem
      rw [completions_granted]
      rcases List.mem_append.mp hmem with hmem | hmem
      · rcases h.free hfree hdue hmem with hdone | hle
        · exact Or.inl hdone
        · exact Or.inr ⟨fun f hf => by cases hf; exact Or.inr hle, fun hnone => nomatch hnone⟩
      · cases List.mem_singleton.mp hmem
        exact Or.inr ⟨fun f hf => by cases hf; exact Or.inl ⟨rfl, rfl⟩, fun hnone => nomatch hnone⟩
  | @completed f now next outcome hflight hstarted hnext =>
    refine ⟨(fun g hg => nomatch hg), (fun g hg => nomatch hg), (fun g hg => nomatch hg), ?_, ?_⟩
    · rw [completions_completed, grants_completed]
      intro r hr
      rcases List.mem_append.mp hr with hr | hr
      · exact h.subset hr
      · cases List.mem_singleton.mp hr
        exact List.mem_of_getLast? (h.last f hflight)
    · intro run' now' expires' hmem
      rw [completions_completed]
      rcases List.mem_append.mp hmem with hmem | hmem
      · rcases h.settled run' now' expires' hmem with hdone | ⟨hover, -⟩
        · exact Or.inl (List.mem_append_left _ hdone)
        · rcases hover f hflight with ⟨rfl, -⟩ | hbefore
          · exact Or.inl (List.mem_append_right _ (List.mem_singleton_self _))
          · exact Or.inr ⟨(fun g hg => nomatch hg),
              fun _ => le_trans hbefore (le_trans hstarted hnext)⟩
      · exact nomatch List.mem_singleton.mp hmem

/-- A log ends with what was appended to it, or what it was taken apart at
lies before. -/
theorem append_cons_eq_concat {α : Type} {log pre post : List α} {x y : α}
    (h : log ++ [x] = pre ++ y :: post) :
    (pre = log ∧ y = x) ∨ ∃ post', log = pre ++ y :: post' := by
  rcases List.eq_nil_or_concat post with rfl | ⟨post', z, rfl⟩
  · obtain ⟨rfl, hx⟩ := List.append_inj' h rfl
    exact Or.inl ⟨rfl, (List.singleton_inj.mp hx).symm⟩
  · right
    refine ⟨post', ?_⟩
    rw [List.concat_eq_append, ← List.cons_append, ← List.append_assoc] at h
    exact (List.append_inj' h rfl).1

/-- **The leases of a desk exclude one another**, when no run is granted
twice. -/
theorem Reaches.knows_and_exclusive {start : Desk ρ τ} (hstart : start.flight = none)
    (h : Reaches start log d) (hfresh : (grants log).Nodup) :
    Knows log d ∧ Exclusive log := by
  induction h with
  | nil =>
    refine ⟨knows_nil hstart, ⟨?_, ?_⟩⟩
    · intro pre _ _ _ post hlog
      exact absurd hlog (by simp)
    · intro pre _ _ _ post hlog
      exact absurd hlog (by simp)
  | @concat log x d e h hstep ih =>
    have hsub : (grants log).Sublist (grants (log ++ [x])) :=
      (List.sublist_append_left log [x]).filterMap _
    obtain ⟨hknows, hexclusive⟩ := ih (hfresh.sublist hsub)
    refine ⟨hknows.step hstep fun run hrun hmem => ?_, ⟨?_, ?_⟩⟩
    · cases x with
      | granted r now expires =>
        cases hrun
        rw [grants_granted] at hfresh
        exact (List.nodup_append.mp hfresh).2.2 run hmem run (List.mem_singleton_self _) rfl
      | completed => exact nomatch hrun
    · intro pre run now expires post hlog run' now' expires' hmem
      rcases append_cons_eq_concat hlog with ⟨rfl, rfl⟩ | ⟨post', rfl⟩
      · cases hstep with
        | granted hfree hdue => exact hknows.free hfree hdue hmem
      · exact hexclusive.granted pre run now expires post' rfl run' now' expires' hmem
    · intro pre run now outcome post hlog
      rcases append_cons_eq_concat hlog with ⟨rfl, rfl⟩ | ⟨post', rfl⟩
      · cases hstep with
        | @completed f _ _ _ hflight =>
          exact ⟨hknows.last f hflight, hknows.running f hflight⟩
      · exact hexclusive.completed pre run now outcome post' rfl

end Desk

/-- **A run completes once**, in a log whose leases exclude one another. -/
theorem Exclusive.nodup_completions [LE τ] {log : List (Entry ρ τ ο)} (h : Exclusive log) :
    (completions log).Nodup := by
  induction log using List.reverseRecOn with
  | nil => exact List.nodup_nil
  | append_singleton log x ih =>
    have hlog : Exclusive log :=
      ⟨fun pre run now expires post heq => h.granted pre run now expires (post ++ [x]) (by simp [heq]),
        fun pre run now outcome post heq =>
          h.completed pre run now outcome (post ++ [x]) (by simp [heq])⟩
    cases x with
    | granted run now expires =>
      rw [completions_granted]
      exact ih hlog
    | completed run now outcome =>
      rw [completions_completed]
      rw [← List.concat_eq_append]
      exact (ih hlog).concat (h.completed log run now outcome [] rfl).2

/-! ## Streaks -/

/-- **The streak of a list of outcomes**: how many of those since the last
one that resets it extend it. -/
def streak (counts resets : ο → Bool) (os : List ο) : ℕ :=
  (os.reverse.takeWhile (fun o => !resets o)).countP counts

@[simp] theorem streak_nil (counts resets : ο → Bool) : streak counts resets [] = 0 := rfl

theorem streak_concat (counts resets : ο → Bool) (os : List ο) (o : ο) :
    streak counts resets (os ++ [o]) =
      if resets o then 0 else streak counts resets os + if counts o then 1 else 0 := by
  unfold streak
  rw [List.reverse_concat, List.takeWhile_cons]
  cases resets o with
  | true => rfl
  | false => exact List.countP_cons

end Leases
