import Mathlib.Data.List.Basic

/-!
# Transducers

A machine that reads a text one letter at a time, writes some letters for each,
and goes from one state to the next. What it writes for a text is what it writes
for its first part, and for the rest from the state it has got to
(`run_append`).
-/

namespace Transducer

variable {σ α β : Type} (step : σ → α → List β × σ)

/-- What the machine writes. -/
def run : σ → List α → List β
  | _, [] => []
  | s, a :: as => (step s a).1 ++ run (step s a).2 as

/-- The state that the machine gets to. -/
def final (s : σ) (as : List α) : σ := as.foldl (fun s a => (step s a).2) s

variable {step} {s t : σ} {a : α} {as bs : List α} {b : List β}

theorem run_cons (h : step s a = (b, t)) : run step s (a :: as) = b ++ run step t as := by
  rw [run, h]

theorem final_append : final step s (as ++ bs) = final step (final step s as) bs :=
  List.foldl_append

/-- **A text is read one part after the other.** -/
theorem run_append (s : σ) (as bs : List α) :
    run step s (as ++ bs) = run step s as ++ run step (final step s as) bs := by
  induction as generalizing s with
  | nil => rfl
  | cons a as ih =>
    rw [List.cons_append, run, run, ih, List.append_assoc]
    rfl

/-- A machine that copies what it reads and stays where it is. -/
theorem run_append_of_copies {s : σ} {as : List α} {step : σ → α → List α × σ}
    (h : ∀ a ∈ as, step s a = ([a], s)) (bs : List α) :
    run step s (as ++ bs) = as ++ run step s bs := by
  induction as with
  | nil => rfl
  | cons a as ih =>
    rw [List.forall_mem_cons] at h
    rw [List.cons_append, run_cons h.1, ih h.2]
    rfl

end Transducer
