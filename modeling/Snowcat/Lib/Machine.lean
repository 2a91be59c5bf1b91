import Mathlib.Data.List.Induction
import Mathlib.Data.List.Pairwise

/-!
# Machines and their runs

A machine takes one input at a time and answers it, whatever state it is
in. A run is the list of inputs it was given; its `trace` keeps, for each
of them, the state before, the answer and the state after, which is what a
statement about the *history* of a state is read off.

The rules everything else uses are at the end: an invariant holds after
every run (`Machine.invariant`, and `Machine.invariant_along` for the runs
whose steps meet a condition), a property that no step loses holds
from where it first held (`Machine.stable`), and a property of the state
together with the trace so far is carried along by one induction
(`Machine.history`).
-/

/-- **A machine**: a first state and, for each state and input, an answer
and a next state. -/
structure Machine (σ ι ο : Type) where
  /-- The first state. -/
  start : σ
  /-- The answer to an input, and the next state. -/
  step : σ → ι → ο × σ

namespace Machine

variable {σ ι ο : Type} (m : Machine σ ι ο)

/-- One step of a run as it was taken. -/
structure Entry (σ ι ο : Type) where
  /-- The state the input arrived in. -/
  before : σ
  /-- The input. -/
  input : ι
  /-- The answer it got. -/
  output : ο
  /-- The state it left. -/
  next : σ

/-- The state after a list of inputs. -/
def after (s : σ) : List ι → σ
  | [] => s
  | i :: is => after (m.step s i).2 is

/-- The entry of one input. -/
def entry (s : σ) (i : ι) : Entry σ ι ο := ⟨s, i, (m.step s i).1, (m.step s i).2⟩

/-- The steps taken from a state on a list of inputs. -/
def traceFrom (s : σ) : List ι → List (Entry σ ι ο)
  | [] => []
  | i :: is => m.entry s i :: traceFrom (m.step s i).2 is

/-- The state a run ends in. -/
def run (is : List ι) : σ := m.after m.start is

/-- The steps of a run. -/
def trace (is : List ι) : List (Entry σ ι ο) := m.traceFrom m.start is

theorem after_append (s : σ) (is js : List ι) :
    m.after s (is ++ js) = m.after (m.after s is) js := by
  induction is generalizing s with
  | nil => rfl
  | cons i is ih => exact ih _

theorem traceFrom_append (s : σ) (is js : List ι) :
    m.traceFrom s (is ++ js) = m.traceFrom s is ++ m.traceFrom (m.after s is) js := by
  induction is generalizing s with
  | nil => rfl
  | cons i is ih => exact congrArg (m.entry s i :: ·) (ih _)

theorem run_append (is js : List ι) : m.run (is ++ js) = m.after (m.run is) js :=
  m.after_append m.start is js

@[simp] theorem run_nil : m.run [] = m.start := rfl

theorem run_concat (is : List ι) (i : ι) : m.run (is ++ [i]) = (m.step (m.run is) i).2 :=
  m.run_append is [i]

@[simp] theorem trace_nil : m.trace [] = [] := rfl

theorem trace_append (is js : List ι) :
    m.trace (is ++ js) = m.trace is ++ m.traceFrom (m.run is) js :=
  m.traceFrom_append m.start is js

theorem trace_concat (is : List ι) (i : ι) :
    m.trace (is ++ [i]) = m.trace is ++ [m.entry (m.run is) i] :=
  m.trace_append is [i]

/-- An entry of a trace is a step from the state its prefix reaches. -/
theorem mem_traceFrom {s : σ} {is : List ι} {e : Entry σ ι ο} (h : e ∈ m.traceFrom s is) :
    ∃ pre post, is = pre ++ e.input :: post ∧ e = m.entry (m.after s pre) e.input := by
  induction is generalizing s with
  | nil => simp [traceFrom] at h
  | cons i is ih =>
    rcases List.mem_cons.mp h with rfl | h
    · exact ⟨[], is, rfl, rfl⟩
    · obtain ⟨pre, post, his, he⟩ := ih h
      exact ⟨i :: pre, post, by rw [his]; rfl, he⟩

/-- An entry of a run's trace is a step from the state a prefix of the run
reaches. -/
theorem mem_trace {is : List ι} {e : Entry σ ι ο} (h : e ∈ m.trace is) :
    ∃ pre post, is = pre ++ e.input :: post ∧ e = m.entry (m.run pre) e.input :=
  m.mem_traceFrom h

/-- **An invariant of the steps on some inputs** holds after every run of
these inputs. -/
theorem invariant_on {P : σ → Prop} {C : ι → Prop} (h₀ : P m.start)
    (hstep : ∀ s i, C i → P s → P (m.step s i).2) {is : List ι} (his : ∀ i ∈ is, C i) :
    P (m.run is) := by
  induction is using List.reverseRecOn with
  | nil => exact h₀
  | append_singleton is i ih =>
    rw [run_concat]
    exact hstep _ i (his i (List.mem_append_right _ (List.mem_singleton_self i)))
      (ih fun j hj => his j (List.mem_append_left _ hj))

/-- **An invariant holds after every run.** -/
theorem invariant {P : σ → Prop} (h₀ : P m.start)
    (hstep : ∀ s i, P s → P (m.step s i).2) (is : List ι) : P (m.run is) :=
  m.invariant_on (C := fun _ => True) h₀ (fun s i _ => hstep s i) fun _ _ => trivial

/-- **An invariant of the steps that meet a condition** holds after every run
whose steps all meet it. The condition is on the step as it was taken. -/
theorem invariant_along {P : σ → Prop} {C : Entry σ ι ο → Prop} (h₀ : P m.start)
    (hstep : ∀ s i, C (m.entry s i) → P s → P (m.step s i).2) {is : List ι}
    (his : ∀ e ∈ m.trace is, C e) : P (m.run is) := by
  induction is using List.reverseRecOn with
  | nil => exact h₀
  | append_singleton is i ih =>
    rw [run_concat]
    rw [trace_concat] at his
    exact hstep _ i (his _ (List.mem_append_right _ (List.mem_singleton_self _)))
      (ih fun e he => his e (List.mem_append_left _ he))

/-- What every step keeps is kept by a list of inputs, from any state. -/
theorem after_keeps {P : σ → Prop} (hstep : ∀ s i, P s → P (m.step s i).2) {s : σ}
    (is : List ι) (h : P s) : P (m.after s is) := by
  induction is generalizing s with
  | nil => exact h
  | cons i is ih => exact ih (hstep s i h)

/-- **What no step loses is kept**, from any state a run reaches: `Q` is an
invariant the steps may rely on. -/
theorem stable {P Q : σ → Prop} (hQ : ∀ is, Q (m.run is))
    (hstep : ∀ s i, Q s → P s → P (m.step s i).2) (is js : List ι)
    (h : P (m.run is)) : P (m.run (is ++ js)) := by
  induction js using List.reverseRecOn with
  | nil => rwa [List.append_nil]
  | append_singleton js i ih =>
    rw [← List.append_assoc, run_concat]
    exact hstep _ i (hQ _) ih

/-- **A property of a state and of how it was reached**: `P` holds of the
empty trace, and one more step carries it on. -/
theorem history {P : List (Entry σ ι ο) → σ → Prop} (h₀ : P [] m.start)
    (hstep : ∀ is i, P (m.trace is) (m.run is) →
      P (m.trace is ++ [m.entry (m.run is) i]) (m.step (m.run is) i).2)
    (is : List ι) : P (m.trace is) (m.run is) := by
  induction is using List.reverseRecOn with
  | nil => exact h₀
  | append_singleton is i ih =>
    rw [run_concat, trace_concat]
    exact hstep is i ih

/-- **The steps of a run come one after the other**, by any measure that no
step lowers. -/
theorem pairwise_trace {μ : σ → ℕ} (hμ : ∀ s i, μ s ≤ μ (m.step s i).2) (is : List ι) :
    (m.trace is).Pairwise (fun e f => μ e.next ≤ μ f.before) ∧
      ∀ e ∈ m.trace is, μ e.next ≤ μ (m.run is) := by
  induction is using List.reverseRecOn with
  | nil => exact ⟨List.Pairwise.nil, fun e he => nomatch he⟩
  | append_singleton is i ih =>
    obtain ⟨hpairwise, hle⟩ := ih
    rw [trace_concat, run_concat]
    refine ⟨List.pairwise_append.mpr ⟨hpairwise, List.pairwise_singleton _ _, ?_⟩, ?_⟩
    · intro e he f hf
      rw [List.mem_singleton.mp hf]
      exact hle e he
    · intro e he
      rcases List.mem_append.mp he with he | he
      · exact Nat.le_trans (hle e he) (hμ _ i)
      · rw [List.mem_singleton.mp he]
        exact Nat.le_refl _

/-- Of two different steps of a run, one came after the other. -/
theorem windows_trace {μ : σ → ℕ} (hμ : ∀ s i, μ s ≤ μ (m.step s i).2) {is : List ι}
    {e f : Entry σ ι ο} (he : e ∈ m.trace is) (hf : f ∈ m.trace is) (hne : e ≠ f) :
    μ e.next ≤ μ f.before ∨ μ f.next ≤ μ e.before := by
  let R : Entry σ ι ο → Entry σ ι ο → Prop :=
    fun e f => μ e.next ≤ μ f.before ∨ μ f.next ≤ μ e.before
  have : Std.Symm R := ⟨fun _ _ h => h.symm⟩
  have hpairwise : (m.trace is).Pairwise R := (m.pairwise_trace hμ is).1.imp Or.inl
  exact hpairwise.forall he hf hne

end Machine
