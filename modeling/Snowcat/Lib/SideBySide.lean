import Snowcat.Lib.Transaction

/-!
# Two runs side by side

A relation between states that a computation cannot tell apart: from states
it holds of, both runs come to the same outcome, and to states it holds of
again (`Tx.Alike`). The two computations may differ in what they read from
the state before, which is how a condition that both states answer alike
gets into a rule. Where what they return differs too, they still end alike
(`Tx.EndAlike`): both return, or both throw the same.
-/

namespace Tx

variable {σ ε α β : Type}

/-- **Two computations run alike** from the states a relation holds of. -/
def Alike (r : σ → σ → Prop) (x y : Tx σ ε α) : Prop :=
  ∀ s t, r s t → (x s).1 = (y t).1 ∧ r (x s).2 (y t).2

section Alike

variable {r : σ → σ → Prop}

theorem alike_pure (a : α) : Alike r (pure a : Tx σ ε α) (pure a) := fun _ _ h => ⟨rfl, h⟩

theorem alike_fail (e : ε) : Alike r (fail e : Tx σ ε α) (fail e) := fun _ _ h => ⟨rfl, h⟩

theorem alike_ofExcept (x : Except ε α) : Alike r (ofExcept x : Tx σ ε α) (ofExcept x) :=
  fun _ _ h => ⟨rfl, h⟩

theorem alike_ofOption (o : Option α) (e : ε) :
    Alike r (ofOption o e : Tx σ ε α) (ofOption o e) := by
  cases o with
  | none => exact alike_fail e
  | some a => exact alike_pure a

theorem alike_failIf {c d : Prop} [Decidable c] [Decidable d] (h : c ↔ d) (e : ε) :
    Alike r (failIf c e : Tx σ ε Unit) (failIf d e) := by
  intro s t hst
  by_cases hc : c
  · rw [failIf, failIf, if_pos hc, if_pos (h.mp hc)]
    exact ⟨rfl, hst⟩
  · rw [failIf, failIf, if_neg hc, if_neg fun hd => hc (h.mpr hd)]
    exact ⟨rfl, hst⟩

theorem alike_update {f g : σ → σ} (h : ∀ s t, r s t → r (f s) (g t)) :
    Alike r (update f : Tx σ ε Unit) (update g) := fun s t hst => ⟨rfl, h s t hst⟩

/-- A sequence from one state. -/
theorem bind_apply (x : Tx σ ε α) (f : α → Tx σ ε β) (s : σ) :
    (x >>= f) s = match x s with
      | (.ok a, u) => f a u
      | (.error e, u) => (.error e, u) := rfl

/-- **The rule for a sequence**: what follows runs alike from where the first
parts returned. -/
theorem alike_bind_of {x y : Tx σ ε α} {f g : α → Tx σ ε β} (hx : Alike r x y)
    (hf : ∀ s t u v a, x.Returns s a u → y.Returns t a v → r u v →
      (f a u).1 = (g a v).1 ∧ r (f a u).2 (g a v).2) : Alike r (x >>= f) (y >>= g) := by
  intro s t hst
  obtain ⟨hout, hleft⟩ := hx s t hst
  rw [bind_apply, bind_apply]
  cases hs : x s with
  | mk outcome u =>
    cases ht : y t with
    | mk outcome' v =>
      rw [hs, ht] at hout hleft
      obtain rfl : outcome = outcome' := hout
      cases outcome with
      | error e => exact ⟨rfl, hleft⟩
      | ok a => exact hf s t u v a hs ht hleft

theorem alike_bind {x y : Tx σ ε α} {f g : α → Tx σ ε β} (hx : Alike r x y)
    (hf : ∀ a, Alike r (f a) (g a)) : Alike r (x >>= f) (y >>= g) :=
  alike_bind_of hx fun _ _ u v a _ _ h => hf a u v h

theorem alike_each {f g : α → Tx σ ε β} (hf : ∀ a, Alike r (f a) (g a)) (as : List α) :
    Alike r (each f as) (each g as) := by
  induction as with
  | nil => exact alike_pure []
  | cons a as ih => exact alike_bind (hf a) fun b => alike_bind ih fun bs => alike_pure (b :: bs)

/-- What was read may differ as long as what follows does not. -/
theorem alike_read {γ : Type} {p : σ → γ} {f g : γ → Tx σ ε α}
    (h : ∀ s t, r s t → (f (p s) s).1 = (g (p t) t).1 ∧ r (f (p s) s).2 (g (p t) t).2) :
    Alike r (read p >>= f) (read p >>= g) := h

theorem alike_atomically {undo : σ → σ → σ} {x y : Tx σ ε α} (hx : Alike r x y)
    (hundo : ∀ s t u v, r s t → r u v → r (undo s u) (undo t v)) :
    Alike r (atomically undo x) (atomically undo y) := by
  intro s t hst
  obtain ⟨hout, hleft⟩ := hx s t hst
  unfold atomically
  generalize x s = left at hout hleft
  generalize y t = right at hout hleft
  obtain ⟨outcome, u⟩ := left
  obtain ⟨outcome', v⟩ := right
  obtain rfl : outcome = outcome' := hout
  cases outcome with
  | error e => exact ⟨rfl, hundo s t u v hst hleft⟩
  | ok a => exact ⟨rfl, hleft⟩

/-- Sequences nest to the right. -/
theorem bind_assoc {γ : Type} (x : Tx σ ε α) (f : α → Tx σ ε β) (g : β → Tx σ ε γ) :
    x >>= f >>= g = x >>= fun a => f a >>= g := by
  funext s
  rw [bind_apply, bind_apply, bind_apply]
  cases x s with
  | mk outcome u => cases outcome <;> rfl

end Alike

/-! ## Up to what they return -/

/-- **Two computations end alike**: both return, whatever they return, or both
throw the same. -/
def EndAlike (r : σ → σ → Prop) (x : Tx σ ε α) (y : Tx σ ε β) : Prop :=
  ∀ s t, r s t →
    (x s).1.map (fun _ => ()) = (y t).1.map (fun _ => ()) ∧ r (x s).2 (y t).2

section EndAlike

variable {γ δ : Type} {r : σ → σ → Prop}

theorem Alike.end {x y : Tx σ ε α} (h : Alike r x y) : EndAlike r x y := fun s t hst =>
  (h s t hst).imp_left (congrArg (Except.map fun _ => ()))

theorem endAlike_pure (a : α) (b : β) : EndAlike r (pure a : Tx σ ε α) (pure b) :=
  fun _ _ h => ⟨rfl, h⟩

theorem endAlike_bind {x : Tx σ ε α} {y : Tx σ ε β} {f : α → Tx σ ε γ} {g : β → Tx σ ε δ}
    (hx : EndAlike r x y) (hf : ∀ a b, EndAlike r (f a) (g b)) :
    EndAlike r (x >>= f) (y >>= g) := by
  intro s t hst
  obtain ⟨hout, hleft⟩ := hx s t hst
  rw [bind_apply, bind_apply]
  generalize x s = left at hout hleft
  generalize y t = right at hout hleft
  obtain ⟨outcome, u⟩ := left
  obtain ⟨outcome', v⟩ := right
  cases outcome with
  | ok a =>
    cases outcome' with
    | ok b => exact hf a b u v hleft
    | error e => cases hout
  | error e =>
    cases outcome' with
    | ok b => cases hout
    | error e' => exact ⟨congrArg Except.error (Except.error.inj hout), hleft⟩

/-- What follows parts that run alike may use what they returned. -/
theorem endAlike_bind_of_alike {x y : Tx σ ε α} {f : α → Tx σ ε γ} {g : α → Tx σ ε δ}
    (hx : Alike r x y) (hf : ∀ a, EndAlike r (f a) (g a)) : EndAlike r (x >>= f) (y >>= g) := by
  intro s t hst
  obtain ⟨hout, hleft⟩ := hx s t hst
  rw [bind_apply, bind_apply]
  generalize x s = left at hout hleft
  generalize y t = right at hout hleft
  obtain ⟨outcome, u⟩ := left
  obtain ⟨outcome', v⟩ := right
  obtain rfl : outcome = outcome' := hout
  cases outcome with
  | ok a => exact hf a u v hleft
  | error e => exact ⟨rfl, hleft⟩

theorem endAlike_read {γ' δ' : Type} {p : σ → γ'} {q : σ → δ'} {f : γ' → Tx σ ε α}
    {g : δ' → Tx σ ε β}
    (h : ∀ s t, r s t → (f (p s) s).1.map (fun _ => ()) = (g (q t) t).1.map (fun _ => ()) ∧
      r (f (p s) s).2 (g (q t) t).2) : EndAlike r (read p >>= f) (read q >>= g) := h

theorem endAlike_atomically {undo : σ → σ → σ} {x : Tx σ ε α} {y : Tx σ ε β}
    (hx : EndAlike r x y) (hundo : ∀ s t u v, r s t → r u v → r (undo s u) (undo t v)) :
    EndAlike r (atomically undo x) (atomically undo y) := by
  intro s t hst
  obtain ⟨hout, hleft⟩ := hx s t hst
  unfold atomically
  generalize x s = left at hout hleft
  generalize y t = right at hout hleft
  obtain ⟨outcome, u⟩ := left
  obtain ⟨outcome', v⟩ := right
  cases outcome with
  | ok a =>
    cases outcome' with
    | ok b => exact ⟨rfl, hleft⟩
    | error e => exact nomatch hout
  | error e =>
    cases outcome' with
    | ok b => exact nomatch hout
    | error e' => exact ⟨hout, hundo s t u v hst hleft⟩

/-- **What ends alike throws alike.** -/
theorem EndAlike.throws_iff {x : Tx σ ε α} {y : Tx σ ε β} (h : EndAlike r x y) {s t : σ}
    (hst : r s t) (e : ε) : x.Throws s e ↔ y.Throws t e := by
  have hout := (h s t hst).1
  unfold Throws
  generalize (x s).1 = outcome at hout
  generalize (y t).1 = outcome' at hout
  cases outcome with
  | ok a =>
    cases outcome' with
    | ok b => exact iff_of_false nofun nofun
    | error e' => exact nomatch hout
  | error e₁ =>
    cases outcome' with
    | ok b => exact nomatch hout
    | error e₂ => rw [Except.error.inj hout, Except.error.injEq, Except.error.injEq]

end EndAlike

end Tx
