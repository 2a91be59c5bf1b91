import Mathlib.Order.Nat

/-!
# Computations that can throw, and transactions

A body of code that reads and writes a state and may throw part of the
way through is a function from the state to an outcome *and* a state:
the state it had reached is kept on both ways out, and it is the
transaction around the body that decides what a throw undoes
(`Tx.atomically`). Keeping the two apart is what lets "a refused call
changes nothing" be a theorem about the transaction rather than a
convention of the model.

Reasoning goes through one relation, `Tx.Returns x s a t`: started in `s`
the computation returns `a` and leaves `t`. Its rules invert a whole
body into the facts its steps established, one rule per way of building
a computation. `Tx.Throws x s e` is the other way out, with rules of the
same shape.
-/

/-! ## Checks

A check reads no state: it passes or it throws, and `refuseIf` is one
condition of one. -/

section Checks

variable {ε α β : Type}

/-- Throw when the condition holds. -/
def refuseIf (c : Prop) [Decidable c] (e : ε) : Except ε Unit :=
  if c then .error e else .ok ()

/-- Check each entry of a list, in order. -/
def refuseEach (f : α → Except ε Unit) : List α → Except ε Unit
  | [] => .ok ()
  | a :: as => do
    f a
    refuseEach f as

/-- Check the value of an option, when it has one. -/
def refuseSome (f : α → Except ε Unit) : Option α → Except ε Unit
  | none => .ok ()
  | some a => f a

/-- Turn the value of an option into what the check makes of it, when it has
one. -/
def checkSome (f : α → Except ε β) : Option α → Except ε (Option β)
  | none => .ok none
  | some a => do
    let b ← f a
    pure (some b)

@[simp] theorem refuseIf_eq_ok {c : Prop} [Decidable c] {e : ε} {u : Unit} :
    refuseIf c e = .ok u ↔ ¬ c := by
  unfold refuseIf
  split
  · next h => simp [h]
  · next h => simp [h]

/-- **A sequence of checks passes** when its first part passes and the rest
passes on what it returned. -/
@[simp] theorem except_bind_eq_ok {x : Except ε α} {f : α → Except ε β} {b : β} :
    (x >>= f) = .ok b ↔ ∃ a, x = .ok a ∧ f a = .ok b := by
  cases x with
  | error e => exact ⟨fun h => (nomatch h), fun ⟨_, h, _⟩ => (nomatch h)⟩
  | ok a =>
    constructor
    · intro h
      exact ⟨a, rfl, h⟩
    · rintro ⟨a', h, hf⟩
      cases h
      exact hf

@[simp] theorem except_pure_eq_ok {a b : α} :
    (pure a : Except ε α) = .ok b ↔ a = b := by
  show Except.ok a = Except.ok b ↔ a = b
  rw [Except.ok.injEq]

@[simp] theorem refuseEach_eq_ok {f : α → Except ε Unit} {as : List α} {u : Unit} :
    refuseEach f as = .ok u ↔ ∀ a ∈ as, f a = .ok () := by
  induction as with
  | nil => simp [refuseEach]
  | cons a as ih =>
    simp only [refuseEach, except_bind_eq_ok, ih, List.forall_mem_cons]
    exact ⟨fun ⟨_, h, hs⟩ => ⟨h, hs⟩, fun ⟨h, hs⟩ => ⟨(), h, hs⟩⟩

@[simp] theorem refuseSome_eq_ok {f : α → Except ε Unit} {o : Option α} {u : Unit} :
    refuseSome f o = .ok u ↔ ∀ a ∈ o, f a = .ok () := by
  cases o with
  | none => simp [refuseSome]
  | some a => simp [refuseSome]

@[simp] theorem checkSome_eq_ok {f : α → Except ε β} {o : Option α} {o' : Option β} :
    checkSome f o = .ok o' ↔
      (o = none ∧ o' = none) ∨ ∃ a b, o = some a ∧ f a = .ok b ∧ o' = some b := by
  cases o with
  | none => simp [checkSome, eq_comm]
  | some a =>
    simp only [checkSome, except_bind_eq_ok, except_pure_eq_ok, reduceCtorEq, false_and, false_or,
      Option.some.injEq]
    refine ⟨fun ⟨b, hb, ho⟩ => ⟨a, b, rfl, hb, ho.symm⟩, ?_⟩
    rintro ⟨_, b, rfl, hb, rfl⟩
    exact ⟨b, hb, rfl⟩

end Checks

/-! ## Computations -/

/-- **A computation over a state**, which returns or throws, and leaves a
state either way. -/
def Tx (σ ε α : Type) : Type := σ → Except ε α × σ

namespace Tx

variable {σ ε α β : Type}

instance : Monad (Tx σ ε) where
  pure a := fun s => (.ok a, s)
  bind x f := fun s =>
    match x s with
    | (.ok a, t) => f a t
    | (.error e, t) => (.error e, t)

/-- Throw. -/
def fail (e : ε) : Tx σ ε α := fun s => (.error e, s)

/-- Throw when the condition holds, and go on otherwise. -/
def failIf (c : Prop) [Decidable c] (e : ε) : Tx σ ε Unit :=
  if c then fail e else pure ()

/-- A computation that touches no state. -/
def ofExcept (x : Except ε α) : Tx σ ε α := fun s => (x, s)

/-- The value of an option, or a throw when there is none. -/
def ofOption (o : Option α) (e : ε) : Tx σ ε α :=
  match o with
  | some a => pure a
  | none => fail e

/-- Read the state through a function. -/
def read (f : σ → α) : Tx σ ε α := fun s => (.ok (f s), s)

/-- Write the state. -/
def update (f : σ → σ) : Tx σ ε Unit := fun s => (.ok (), f s)

/-- **A transaction**: what the body left is kept when it returns, and
`undo` applied to the state before and the state reached when it throws. -/
def atomically (undo : σ → σ → σ) (x : Tx σ ε α) : Tx σ ε α := fun s =>
  match x s with
  | (.ok a, t) => (.ok a, t)
  | (.error e, t) => (.error e, undo s t)

/-- Run a computation for each entry of a list, in order, and collect what
they return. -/
def each (f : α → Tx σ ε β) : List α → Tx σ ε (List β)
  | [] => pure []
  | a :: as => do
    let b ← f a
    let bs ← each f as
    pure (b :: bs)

/-- **The computation returns**: started in `s` it returns `a` and leaves
`t`. -/
def Returns (x : Tx σ ε α) (s : σ) (a : α) (t : σ) : Prop := x s = (.ok a, t)

theorem except_eq_ok_of_toOption {x : Except ε α} {a : α} (h : x.toOption = some a) :
    x = .ok a := by
  cases x with
  | error e => exact nomatch h
  | ok b => exact congrArg Except.ok (Option.some.inj h)

/-- A result that is computed is returned. -/
theorem returns_of_toOption {x : Tx σ ε α} {s : σ} {a : α} (h : (x s).1.toOption = some a) :
    x.Returns s a (x s).2 :=
  Prod.ext (except_eq_ok_of_toOption h) rfl

/-! ## The rules -/

@[simp] theorem returns_pure {a b : α} {s t : σ} :
    Returns (pure a : Tx σ ε α) s b t ↔ b = a ∧ t = s := by
  show (Except.ok a, s) = (Except.ok b, t) ↔ _
  simp only [Prod.mk.injEq, Except.ok.injEq]
  exact ⟨fun h => ⟨h.1.symm, h.2.symm⟩, fun h => ⟨h.1.symm, h.2.symm⟩⟩

/-- **A sequence returns** exactly when its first part returns and the rest
returns from there. -/
@[simp] theorem returns_bind {x : Tx σ ε α} {f : α → Tx σ ε β} {s t : σ} {b : β} :
    Returns (x >>= f) s b t ↔ ∃ a u, Returns x s a u ∧ Returns (f a) u b t := by
  constructor
  · intro h
    unfold Returns at h
    change (match x s with
      | (.ok a, u) => f a u
      | (.error e, u) => (.error e, u)) = _ at h
    cases hx : x s with
    | mk o u =>
      rw [hx] at h
      cases o with
      | ok a => exact ⟨a, u, hx, h⟩
      | error e => simp at h
  · rintro ⟨a, u, hx, hf⟩
    unfold Returns at hx hf ⊢
    change (match x s with
      | (.ok a, u) => f a u
      | (.error e, u) => (.error e, u)) = _
    rw [hx]
    exact hf

/-- Behind a part that returned, a sequence is its rest. -/
theorem bind_of_returns {x : Tx σ ε α} {f : α → Tx σ ε β} {s t : σ} {a : α}
    (hx : Returns x s a t) : (x >>= f) s = f a t := by
  show (match x s with
    | (.ok a, u) => f a u
    | (.error e, u) => (.error e, u)) = _
  rw [show x s = (.ok a, t) from hx]

/-- Behind a part that returned, a sequence returns what its rest returns. -/
theorem returns_bind_of_returns {x : Tx σ ε α} {f : α → Tx σ ε β} {s t u : σ} {a : α} {b : β}
    (hx : Returns x s a u) : Returns (x >>= f) s b t ↔ Returns (f a) u b t := by
  unfold Returns
  rw [bind_of_returns hx]

@[simp] theorem returns_fail {e : ε} {s t : σ} {a : α} :
    Returns (fail e : Tx σ ε α) s a t ↔ False := by
  simp [Returns, fail]

@[simp] theorem returns_failIf {c : Prop} [Decidable c] {e : ε} {s t : σ} {u : Unit} :
    Returns (failIf c e) s u t ↔ ¬ c ∧ t = s := by
  unfold failIf
  split
  · next h => simp [h]
  · next h => simp [h]

@[simp] theorem returns_ofExcept {x : Except ε α} {s t : σ} {a : α} :
    Returns (ofExcept x) s a t ↔ x = .ok a ∧ t = s := by
  simp only [Returns, ofExcept, Prod.mk.injEq]
  exact and_congr_right fun _ => eq_comm

@[simp] theorem returns_ofOption {o : Option α} {e : ε} {s t : σ} {a : α} :
    Returns (ofOption o e : Tx σ ε α) s a t ↔ o = some a ∧ t = s := by
  cases o with
  | none => simp [ofOption]
  | some b => simp [ofOption, eq_comm]

@[simp] theorem returns_read {f : σ → α} {s t : σ} {a : α} :
    Returns (read f : Tx σ ε α) s a t ↔ a = f s ∧ t = s := by
  simp only [Returns, read, Prod.mk.injEq, Except.ok.injEq]
  exact ⟨fun h => ⟨h.1.symm, h.2.symm⟩, fun h => ⟨h.1.symm, h.2.symm⟩⟩

@[simp] theorem returns_update {f : σ → σ} {s t : σ} {u : Unit} :
    Returns (update f : Tx σ ε Unit) s u t ↔ t = f s := by
  simp only [Returns, update, Prod.mk.injEq, true_and]
  exact eq_comm

/-- A transaction returns exactly when its body does. -/
@[simp] theorem returns_atomically {undo : σ → σ → σ} {x : Tx σ ε α} {s t : σ} {a : α} :
    Returns (atomically undo x) s a t ↔ Returns x s a t := by
  unfold Returns atomically
  cases hx : x s with
  | mk o u => cases o <;> simp

@[simp] theorem returns_each_nil {f : α → Tx σ ε β} {s t : σ} {bs : List β} :
    Returns (each f []) s bs t ↔ bs = [] ∧ t = s := returns_pure

/-- The rounds of a loop, one at a time. -/
theorem returns_each_cons {f : α → Tx σ ε β} {a : α} {as : List α} {s t : σ} {bs : List β} :
    Returns (each f (a :: as)) s bs t ↔
      ∃ b u, Returns (f a) s b u ∧ ∃ bs', Returns (each f as) u bs' t ∧ bs = b :: bs' := by
  simp only [each, returns_bind, returns_pure]
  constructor
  · rintro ⟨b, u, hb, bs', v, hbs, rfl, rfl⟩
    exact ⟨b, u, hb, bs', hbs, rfl⟩
  · rintro ⟨b, u, hb, bs', hbs, rfl⟩
    exact ⟨b, u, hb, bs', t, hbs, rfl, rfl⟩

/-! ## Throws

The other way out. A sequence throws where one of its parts does, behind
parts that returned, so the rules say which check it was that refused. -/

/-- **The computation throws** `e`, started in `s`. -/
def Throws (x : Tx σ ε α) (s : σ) (e : ε) : Prop := (x s).1 = .error e

/-- A computation returns or throws. -/
theorem returns_or_throws (x : Tx σ ε α) (s : σ) :
    (∃ a t, Returns x s a t) ∨ ∃ e, Throws x s e := by
  cases hx : x s with
  | mk o t =>
    cases o with
    | ok a => exact Or.inl ⟨a, t, hx⟩
    | error e => exact Or.inr ⟨e, by rw [Throws, hx]⟩

@[simp] theorem throws_pure {a : α} {s : σ} {e : ε} : Throws (pure a : Tx σ ε α) s e ↔ False :=
  iff_of_false (fun h => nomatch h) id

/-- **A sequence throws** exactly when its first part throws, or returns and
the rest throws from there. -/
@[simp] theorem throws_bind {x : Tx σ ε α} {f : α → Tx σ ε β} {s : σ} {e : ε} :
    Throws (x >>= f) s e ↔ Throws x s e ∨ ∃ a u, Returns x s a u ∧ Throws (f a) u e := by
  unfold Throws Returns
  show (match x s with
    | (.ok a, u) => f a u
    | (.error e, u) => (.error e, u)).1 = _ ↔ _
  cases hx : x s with
  | mk o u =>
    cases o with
    | ok a =>
      refine ⟨fun h => Or.inr ⟨a, u, rfl, h⟩, ?_⟩
      rintro (h | ⟨a', u', h, hf⟩)
      · exact nomatch h
      · cases h
        exact hf
    | error e' => simp

/-- Behind a part that throws, a sequence is what that part left. -/
theorem bind_of_throws {x : Tx σ ε α} {f : α → Tx σ ε β} {s : σ} {e : ε} (hx : Throws x s e) :
    (x >>= f) s = (.error e, (x s).2) := by
  show (match x s with
    | (.ok a, u) => f a u
    | (.error e, u) => (.error e, u)) = _
  unfold Throws at hx
  generalize x s = left at hx ⊢
  obtain ⟨outcome, u⟩ := left
  obtain rfl : outcome = .error e := hx
  rfl

@[simp] theorem throws_fail {e e' : ε} {s : σ} :
    Throws (fail e : Tx σ ε α) s e' ↔ e' = e := by
  show (Except.error e : Except ε α) = .error e' ↔ _
  rw [Except.error.injEq, eq_comm]

@[simp] theorem throws_failIf {c : Prop} [Decidable c] {e e' : ε} {s : σ} :
    Throws (failIf c e) s e' ↔ c ∧ e' = e := by
  unfold failIf
  split
  · next h => simp [h]
  · next h => simp [h]

@[simp] theorem throws_ofExcept {x : Except ε α} {s : σ} {e : ε} :
    Throws (ofExcept x) s e ↔ x = .error e := Iff.rfl

@[simp] theorem throws_ofOption {o : Option α} {e e' : ε} {s : σ} :
    Throws (ofOption o e : Tx σ ε α) s e' ↔ o = none ∧ e' = e := by
  cases o with
  | none => simp [ofOption]
  | some b => simp [ofOption]

@[simp] theorem throws_read {f : σ → α} {s : σ} {e : ε} :
    Throws (read f : Tx σ ε α) s e ↔ False := iff_of_false (fun h => nomatch h) id

@[simp] theorem throws_update {f : σ → σ} {s : σ} {e : ε} :
    Throws (update f : Tx σ ε Unit) s e ↔ False := iff_of_false (fun h => nomatch h) id

/-- A transaction throws exactly what its body does. -/
@[simp] theorem throws_atomically {undo : σ → σ → σ} {x : Tx σ ε α} {s : σ} {e : ε} :
    Throws (atomically undo x) s e ↔ Throws x s e := by
  unfold Throws atomically
  cases hx : x s with
  | mk o u => cases o <;> simp

/-! ## What a throw leaves

`Keeps r x` says that every throw of `x` leaves a state related by `r` to
the one it started in. A transaction keeps whatever its `undo` restores,
and code that only reads before it opens one keeps it too. -/

/-- Every throw leaves a state that `r` relates to the one before. -/
def Keeps (r : σ → σ → Prop) (x : Tx σ ε α) : Prop :=
  ∀ s e t, x s = (.error e, t) → r s t

/-- **A transaction undoes what its body wrote before it threw.** -/
theorem keeps_atomically {r : σ → σ → Prop} {undo : σ → σ → σ}
    (h : ∀ s t, r s (undo s t)) (x : Tx σ ε α) : Keeps r (atomically undo x) := by
  intro s e t hx
  unfold atomically at hx
  cases hxs : x s with
  | mk o u =>
    rw [hxs] at hx
    cases o with
    | ok a => simp at hx
    | error e' =>
      simp only [Prod.mk.injEq, Except.error.injEq] at hx
      rw [← hx.2]
      exact h s u

/-- The computation leaves the state as it is, on either way out. -/
def Still (x : Tx σ ε α) : Prop := ∀ s, (x s).2 = s

theorem still_ofExcept (x : Except ε α) : Still (ofExcept x : Tx σ ε α) := fun _ => rfl

theorem still_fail (e : ε) : Still (fail e : Tx σ ε α) := fun _ => rfl

theorem still_pure (a : α) : Still (pure a : Tx σ ε α) := fun _ => rfl

theorem still_read (f : σ → α) : Still (read f : Tx σ ε α) := fun _ => rfl

theorem still_failIf (c : Prop) [Decidable c] (e : ε) : Still (failIf c e : Tx σ ε Unit) := by
  unfold failIf
  split
  · exact fun _ => rfl
  · exact still_pure ()

theorem still_bind {x : Tx σ ε α} {f : α → Tx σ ε β} (hx : Still x) (hf : ∀ a, Still (f a)) :
    Still (x >>= f) := by
  intro s
  have h := hx s
  show (match x s with
    | (.ok a, u) => f a u
    | (.error e, u) => (.error e, u)).2 = s
  cases hxs : x s with
  | mk o u =>
    rw [hxs] at h
    obtain rfl : u = s := h
    cases o with
    | ok a => exact hf a u
    | error e => rfl

theorem still_each {f : α → Tx σ ε β} (hf : ∀ a, Still (f a)) (as : List α) :
    Still (each f as) := by
  induction as with
  | nil => exact still_pure []
  | cons a as ih => exact still_bind (hf a) fun b => still_bind ih fun bs => still_pure _

theorem keeps_pure {r : σ → σ → Prop} (a : α) : Keeps r (pure a : Tx σ ε α) := by
  intro s e t hx
  exact absurd (congrArg Prod.fst hx) (by show ¬ (Except.ok a = Except.error e); simp)

theorem keeps_update {r : σ → σ → Prop} (f : σ → σ) : Keeps r (update f : Tx σ ε Unit) := by
  intro s e t hx
  exact nomatch congrArg Prod.fst hx

/-- Code that leaves the state may run before a part that keeps `r`. -/
theorem keeps_bind_of_still {r : σ → σ → Prop} (hr : ∀ s, r s s) {x : Tx σ ε α}
    {f : α → Tx σ ε β} (hx : Still x) (hf : ∀ a, Keeps r (f a)) : Keeps r (x >>= f) := by
  intro s e t h
  change (match x s with
    | (.ok a, u) => f a u
    | (.error e, u) => (.error e, u)) = _ at h
  have hstill := hx s
  cases hxs : x s with
  | mk o u =>
    rw [hxs] at h hstill
    obtain rfl : u = s := hstill
    cases o with
    | ok a => exact hf a _ e t h
    | error e' =>
      obtain rfl : u = t := congrArg Prod.snd h
      exact hr u

/-- Only a part that cannot throw may run behind a part that keeps `r`. -/
theorem keeps_bind_pure {r : σ → σ → Prop} {x : Tx σ ε α} {g : α → β} (hx : Keeps r x) :
    Keeps r (x >>= fun a => pure (g a)) := by
  intro s e t h
  change (match x s with
    | (.ok a, u) => (pure (g a) : Tx σ ε β) u
    | (.error e, u) => (.error e, u)) = _ at h
  cases hxs : x s with
  | mk o u =>
    rw [hxs] at h
    cases o with
    | ok a => exact absurd (congrArg Prod.fst h) (by show ¬ (Except.ok _ = Except.error e); simp)
    | error e' =>
      obtain rfl : u = t := congrArg Prod.snd h
      exact hx s e' u hxs

/-! ## What completes

`Completes P x Q` is total: where `P` holds the computation returns, and it
does not throw. One rule for each way of building a computation again. -/

/-- **The computation completes**: started where `P` holds it returns, what
it returns meets `Q`, and `P` holds where it ends. -/
def Completes (P : σ → Prop) (x : Tx σ ε α) (Q : α → Prop) : Prop :=
  ∀ s, P s → ∃ a t, Returns x s a t ∧ Q a ∧ P t

section Completes

variable {P : σ → Prop} {Q : α → Prop} {R : β → Prop}

theorem completes_pure {a : α} (ha : Q a) : Completes P (pure a : Tx σ ε α) Q :=
  fun s hs => ⟨a, s, returns_pure.mpr ⟨rfl, rfl⟩, ha, hs⟩

theorem completes_read {f : σ → α} (h : ∀ s, P s → Q (f s)) :
    Completes P (read f : Tx σ ε α) Q :=
  fun s hs => ⟨f s, s, returns_read.mpr ⟨rfl, rfl⟩, h s hs, hs⟩

theorem completes_ofExcept {x : Except ε α} {a : α} (hx : x = .ok a) (ha : Q a) :
    Completes P (ofExcept x : Tx σ ε α) Q :=
  fun s hs => ⟨a, s, returns_ofExcept.mpr ⟨hx, rfl⟩, ha, hs⟩

/-- **A sequence completes** when its first part does and its rest does on
whatever that returned. -/
theorem completes_bind {x : Tx σ ε α} {f : α → Tx σ ε β} (hx : Completes P x Q)
    (hf : ∀ a, Q a → Completes P (f a) R) : Completes P (x >>= f) R := by
  intro s hs
  obtain ⟨a, t, ha, hQ, ht⟩ := hx s hs
  obtain ⟨b, u, hb, hR, hu⟩ := hf a hQ t ht
  exact ⟨b, u, returns_bind.mpr ⟨a, t, ha, hb⟩, hR, hu⟩

theorem completes_ite {c : Prop} [Decidable c] {x y : Tx σ ε α} (hx : c → Completes P x Q)
    (hy : ¬ c → Completes P y Q) : Completes P (if c then x else y) Q := by
  split
  · next h => exact hx h
  · next h => exact hy h

/-- **A loop completes** when each of its rounds does, and it returns one
result a round: what is read off the results is what was wanted of the
rounds. -/
theorem completes_each {γ : Type} {f : α → Tx σ ε β} {read : β → γ} {want : α → γ} {as : List α}
    (h : ∀ a ∈ as, Completes P (f a) fun b => read b = want a) :
    Completes P (each f as) fun bs => bs.map read = as.map want := by
  induction as with
  | nil => exact completes_pure rfl
  | cons a as ih =>
    rw [List.forall_mem_cons] at h
    refine completes_bind h.1 fun b hb => completes_bind (ih h.2) fun bs hbs => ?_
    exact completes_pure (by rw [List.map_cons, List.map_cons, hb, hbs])

theorem Completes.mono {Q' : α → Prop} {x : Tx σ ε α} (h : Completes P x Q)
    (hQ : ∀ a, Q a → Q' a) : Completes P x Q' := by
  intro s hs
  obtain ⟨a, t, ha, hq, ht⟩ := h s hs
  exact ⟨a, t, ha, hQ a hq, ht⟩

end Completes

/-! ## What only grows

A count that no step of a computation lowers, on either way out: the
computation is put together from parts that do not. It is a class, so that
a body is checked by unfolding it and searching for an instance. -/

/-- The computation never lowers a measure of the state. -/
class Grows (m : σ → ℕ) (x : Tx σ ε α) : Prop where
  /-- On either way out the measure is at least what it was. -/
  le : ∀ s, m s ≤ m (x s).2

variable {m : σ → ℕ}

instance grows_pure (a : α) : Grows m (pure a : Tx σ ε α) := ⟨fun _ => le_rfl⟩

instance grows_fail (e : ε) : Grows m (fail e : Tx σ ε α) := ⟨fun _ => le_rfl⟩

instance grows_ofExcept (x : Except ε α) : Grows m (ofExcept x : Tx σ ε α) :=
  ⟨fun _ => le_rfl⟩

instance grows_read (f : σ → α) : Grows m (read f : Tx σ ε α) := ⟨fun _ => le_rfl⟩

instance grows_ofOption (o : Option α) (e : ε) : Grows m (ofOption o e : Tx σ ε α) := by
  cases o with
  | none => exact grows_fail e
  | some a => exact grows_pure a

instance grows_failIf (c : Prop) [Decidable c] (e : ε) :
    Grows m (failIf c e : Tx σ ε Unit) := by
  unfold failIf
  split
  · exact grows_fail e
  · exact grows_pure ()

instance grows_bind {x : Tx σ ε α} {f : α → Tx σ ε β} [hx : Grows m x]
    [hf : ∀ a, Grows m (f a)] : Grows m (x >>= f) where
  le s := by
    have h := hx.le s
    show m s ≤ m (match x s with
      | (.ok a, u) => f a u
      | (.error e, u) => (.error e, u)).2
    cases hxs : x s with
    | mk o u =>
      rw [hxs] at h
      cases o with
      | ok a => exact le_trans h ((hf a).le u)
      | error e => exact h

instance grows_ite {c : Prop} [Decidable c] {x y : Tx σ ε α} [hx : Grows m x]
    [hy : Grows m y] : Grows m (if c then x else y) := by
  split
  · exact hx
  · exact hy

instance grows_dite {c : Prop} [Decidable c] {x : c → Tx σ ε α} {y : ¬ c → Tx σ ε α}
    [hx : ∀ h, Grows m (x h)] [hy : ∀ h, Grows m (y h)] :
    Grows m (if h : c then x h else y h) := by
  split
  · exact hx _
  · exact hy _

instance grows_each {f : α → Tx σ ε β} [hf : ∀ a, Grows m (f a)] (as : List α) :
    Grows m (each f as) := by
  induction as with
  | nil => exact grows_pure []
  | cons a as ih =>
    unfold each
    infer_instance

/-- A transaction grows what its body does, when undoing does not lower it. -/
theorem grows_atomically {undo : σ → σ → σ} {x : Tx σ ε α}
    (hundo : ∀ s t, m (undo s t) = m t) (hx : Grows m x) : Grows m (atomically undo x) where
  le s := by
    have h := hx.le s
    unfold atomically
    cases hxs : x s with
    | mk o u =>
      rw [hxs] at h
      cases o with
      | ok a => exact h
      | error e => exact h.trans_eq (hundo s u).symm

/-! ## What is spent

A measure of the state that a computation raises by at most so much, on
either way out: the parts of a sequence spend what it spends. -/

/-- The computation raises a measure of the state by at most so much. -/
def Spends (m : σ → ℕ) (n : ℕ) (x : Tx σ ε α) : Prop := ∀ s, m (x s).2 ≤ m s + n

section Spends

variable {n k : ℕ}

theorem spends_of_still {x : Tx σ ε α} (h : Still x) : Spends m n x := by
  intro s
  rw [h s]
  exact Nat.le_add_right _ _

theorem spends_update {f : σ → σ} (h : ∀ s, m (f s) ≤ m s + n) :
    Spends m n (update f : Tx σ ε Unit) := h

/-- **A sequence spends what its parts spend.** -/
theorem spends_bind {x : Tx σ ε α} {f : α → Tx σ ε β} (hx : Spends m n x)
    (hf : ∀ a, Spends m k (f a)) : Spends m (n + k) (x >>= f) := by
  intro s
  have hfirst := hx s
  rcases returns_or_throws x s with ⟨a, t, ht⟩ | ⟨e, he⟩
  · rw [bind_of_returns ht]
    rw [show x s = (.ok a, t) from ht] at hfirst
    calc m (f a t).2 ≤ m t + k := hf a t
      _ ≤ m s + n + k := Nat.add_le_add_right hfirst k
      _ = m s + (n + k) := Nat.add_assoc _ _ _
  · rw [bind_of_throws he]
    exact hfirst.trans (Nat.add_le_add_left (Nat.le_add_right n k) _)

/-- A part that spends nothing may run before one that does. -/
theorem spends_bind_of_free {x : Tx σ ε α} {f : α → Tx σ ε β} (hx : Spends m 0 x)
    (hf : ∀ a, Spends m n (f a)) : Spends m n (x >>= f) := by
  have h := spends_bind hx hf
  rwa [Nat.zero_add] at h

theorem spends_bind_of_still {x : Tx σ ε α} {f : α → Tx σ ε β} (hx : Still x)
    (hf : ∀ a, Spends m n (f a)) : Spends m n (x >>= f) :=
  spends_bind_of_free (spends_of_still hx) hf

end Spends

/-! ## What is only appended to

A log of the state that a computation only appends to, and only entries of
one kind, on either way out. -/

/-- The computation appends to a log, and only entries that meet a
condition. -/
class Appends {γ : Type} (log : σ → List γ) (C : γ → Prop) (x : Tx σ ε α) : Prop where
  /-- On either way out the log is what it was, and new entries behind it. -/
  appends : ∀ s, ∃ new, log (x s).2 = log s ++ new ∧ ∀ c ∈ new, C c

section Appends

variable {γ : Type} {log : σ → List γ} {C : γ → Prop}

/-- A computation that leaves the log appends nothing. -/
theorem appends_of_eq {x : Tx σ ε α} (h : ∀ s, log (x s).2 = log s) : Appends log C x :=
  ⟨fun s => ⟨[], by rw [h, List.append_nil], fun _ hc => nomatch hc⟩⟩

instance appends_pure (a : α) : Appends log C (pure a : Tx σ ε α) := appends_of_eq fun _ => rfl

instance appends_fail (e : ε) : Appends log C (fail e : Tx σ ε α) := appends_of_eq fun _ => rfl

instance appends_ofExcept (x : Except ε α) : Appends log C (ofExcept x : Tx σ ε α) :=
  appends_of_eq fun _ => rfl

instance appends_read (f : σ → α) : Appends log C (read f : Tx σ ε α) := appends_of_eq fun _ => rfl

instance appends_bind {x : Tx σ ε α} {f : α → Tx σ ε β} [hx : Appends log C x]
    [hf : ∀ a, Appends log C (f a)] : Appends log C (x >>= f) where
  appends s := by
    obtain ⟨new, hnew, hC⟩ := hx.appends s
    show ∃ new, log (match x s with
      | (.ok a, u) => f a u
      | (.error e, u) => (.error e, u)).2 = log s ++ new ∧ _
    cases hxs : x s with
    | mk o u =>
      rw [hxs] at hnew
      cases o with
      | ok a =>
        obtain ⟨more, hmore, hC'⟩ := (hf a).appends u
        refine ⟨new ++ more, ?_, fun c hc => ?_⟩
        · show log (f a u).2 = _
          rw [hmore, show log u = log s ++ new from hnew, List.append_assoc]
        · exact (List.mem_append.mp hc).elim (hC c) (hC' c)
      | error e => exact ⟨new, hnew, hC⟩

instance appends_ite {c : Prop} [Decidable c] {x y : Tx σ ε α} [hx : Appends log C x]
    [hy : Appends log C y] : Appends log C (if c then x else y) := by
  split
  · exact hx
  · exact hy

/-- A sequence appends what its parts do, with the parts given. -/
theorem Appends.then {x : Tx σ ε α} {f : α → Tx σ ε β} (hx : Appends log C x)
    (hf : ∀ a, Appends log C (f a)) : Appends log C (x >>= f) := inferInstance

/-- What meets a condition meets a weaker one. -/
theorem Appends.mono {C' : γ → Prop} {x : Tx σ ε α} (h : Appends log C x) (hC : ∀ c, C c → C' c) :
    Appends log C' x :=
  ⟨fun s => have ⟨new, hnew, hall⟩ := h.appends s
    ⟨new, hnew, fun c hc => hC c (hall c hc)⟩⟩

/-- What a computation that returns has appended. -/
theorem Appends.of_returns {x : Tx σ ε α} (h : Appends log C x) {s t : σ} {a : α}
    (hx : x.Returns s a t) : ∃ new, log t = log s ++ new ∧ ∀ c ∈ new, C c := by
  have happends := h.appends s
  rwa [show x s = (.ok a, t) from hx] at happends

end Appends

/-! ## What is kept

A property of the state that a computation keeps, on either way out. -/

/-- The computation keeps a property of the state. -/
class Maintains (P : σ → Prop) (x : Tx σ ε α) : Prop where
  /-- On either way out the property holds when it held before. -/
  maintains : ∀ s, P s → P (x s).2

section Maintains

variable {P : σ → Prop}

/-- A computation that leaves the state keeps everything. -/
theorem maintains_of_still {x : Tx σ ε α} (h : Still x) : Maintains P x :=
  ⟨fun s hs => by rwa [h s]⟩

instance maintains_pure (a : α) : Maintains P (pure a : Tx σ ε α) :=
  maintains_of_still (still_pure a)

instance maintains_fail (e : ε) : Maintains P (fail e : Tx σ ε α) := ⟨fun _ hs => hs⟩

instance maintains_ofExcept (x : Except ε α) : Maintains P (ofExcept x : Tx σ ε α) :=
  maintains_of_still (still_ofExcept x)

instance maintains_read (f : σ → α) : Maintains P (read f : Tx σ ε α) :=
  maintains_of_still (still_read f)

instance maintains_ofOption (o : Option α) (e : ε) : Maintains P (ofOption o e : Tx σ ε α) := by
  cases o with
  | none => exact ⟨fun _ hs => hs⟩
  | some a => exact ⟨fun _ hs => hs⟩

instance maintains_bind {x : Tx σ ε α} {f : α → Tx σ ε β} [hx : Maintains P x]
    [hf : ∀ a, Maintains P (f a)] : Maintains P (x >>= f) where
  maintains s hs := by
    have hu := hx.maintains s hs
    show P (match x s with
      | (.ok a, u) => f a u
      | (.error e, u) => (.error e, u)).2
    cases hxs : x s with
    | mk o u =>
      rw [hxs] at hu
      cases o with
      | ok a => exact (hf a).maintains u hu
      | error e => exact hu

instance maintains_ite {c : Prop} [Decidable c] {x y : Tx σ ε α} [hx : Maintains P x]
    [hy : Maintains P y] : Maintains P (if c then x else y) := by
  split
  · exact hx
  · exact hy

/-- A sequence keeps what its parts keep, with the parts given. -/
theorem Maintains.then {x : Tx σ ε α} {f : α → Tx σ ε β} (hx : Maintains P x)
    (hf : ∀ a, Maintains P (f a)) : Maintains P (x >>= f) := inferInstance

/-- A loop keeps what its rounds keep. -/
instance maintains_each {f : α → Tx σ ε β} [hf : ∀ a, Maintains P (f a)] (as : List α) :
    Maintains P (each f as) := by
  induction as with
  | nil => exact maintains_pure []
  | cons a as ih =>
    unfold each
    infer_instance

end Maintains

end Tx
