import Mathlib.Data.List.Basic

/-!
# Regular patterns over characters

A pattern is a regular expression whose letters are classes of characters,
given as Boolean tests, so that `[^/]` is a pattern and not an infinite
sum. `Pattern.Matches` says which words a pattern describes; the matcher
`Pattern.test` takes one derivative per character, and `Pattern.test_iff`
says it decides exactly those.
-/

/-- **A regular pattern** over classes of characters. -/
inductive Pattern where
  /-- Nothing at all. -/
  | never
  /-- The empty word. -/
  | empty
  /-- One character of a class. -/
  | one (cls : Char → Bool)
  /-- One or the other. -/
  | alt (p q : Pattern)
  /-- One and then the other. -/
  | seq (p q : Pattern)
  /-- Any number of times. -/
  | star (p : Pattern)

namespace Pattern

/-- The words a pattern describes. -/
inductive Matches : Pattern → List Char → Prop
  | empty : Matches .empty []
  | one {cls c} : cls c = true → Matches (.one cls) [c]
  | altLeft {p q cs} : Matches p cs → Matches (.alt p q) cs
  | altRight {p q cs} : Matches q cs → Matches (.alt p q) cs
  | seq {p q cs ds} : Matches p cs → Matches q ds → Matches (.seq p q) (cs ++ ds)
  | starNil {p} : Matches (.star p) []
  | starCons {p c cs ds} :
      Matches p (c :: cs) → Matches (.star p) ds → Matches (.star p) (c :: cs ++ ds)

/-! ## Building patterns -/

/-- A literal text. -/
def lit (s : String) : Pattern :=
  s.toList.foldr (fun c p => .seq (.one (· == c)) p) .empty

/-- One or more times. -/
def plus (p : Pattern) : Pattern := .seq p (.star p)

/-- Exactly `n` times. -/
def times (p : Pattern) : ℕ → Pattern
  | 0 => .empty
  | n + 1 => .seq p (times p n)

/-- At most `n` times. -/
def upTo (p : Pattern) : ℕ → Pattern
  | 0 => .empty
  | n + 1 => .alt .empty (.seq p (upTo p n))

/-- The patterns of a list, one after the other. -/
def all : List Pattern → Pattern
  | [] => .empty
  | [p] => p
  | p :: ps => .seq p (all ps)

/-! ## The matcher -/

/-- Whether the pattern describes the empty word. -/
def nullable : Pattern → Bool
  | .never => false
  | .empty => true
  | .one _ => false
  | .alt p q => p.nullable || q.nullable
  | .seq p q => p.nullable && q.nullable
  | .star _ => true

/-- What is left of a pattern after one character. -/
def deriv (c : Char) : Pattern → Pattern
  | .never => .never
  | .empty => .never
  | .one cls => if cls c then .empty else .never
  | .alt p q => .alt (p.deriv c) (q.deriv c)
  | .seq p q =>
    if p.nullable then .alt (.seq (p.deriv c) q) (q.deriv c) else .seq (p.deriv c) q
  | .star p => .seq (p.deriv c) (.star p)

/-- **The matcher**, on a list of characters. -/
def matcher : Pattern → List Char → Bool
  | p, [] => p.nullable
  | p, c :: cs => matcher (p.deriv c) cs

/-- **The matcher**, on a text: the whole text, from its first character to
its last. -/
def test (p : Pattern) (s : String) : Bool := p.matcher s.toList

theorem nullable_iff (p : Pattern) : p.nullable = true ↔ p.Matches [] := by
  induction p with
  | never => exact ⟨fun h => absurd h (by simp [nullable]), fun h => nomatch h⟩
  | empty => exact ⟨fun _ => .empty, fun _ => rfl⟩
  | one cls => exact ⟨fun h => absurd h (by simp [nullable]), fun h => nomatch h⟩
  | alt p q ihp ihq =>
    simp only [nullable, Bool.or_eq_true, ihp, ihq]
    constructor
    · rintro (h | h)
      · exact .altLeft h
      · exact .altRight h
    · intro h
      cases h with
      | altLeft h => exact Or.inl h
      | altRight h => exact Or.inr h
  | seq p q ihp ihq =>
    simp only [nullable, Bool.and_eq_true, ihp, ihq]
    constructor
    · rintro ⟨h₁, h₂⟩
      exact .seq h₁ h₂
    · intro h
      generalize hw : ([] : List Char) = w at h
      cases h with
      | seq h₁ h₂ =>
        obtain ⟨rfl, rfl⟩ := List.append_eq_nil_iff.mp hw.symm
        exact ⟨h₁, h₂⟩
  | star p => exact ⟨fun _ => .starNil, fun _ => rfl⟩

/-- **The derivative**: what is left after a character describes the words
that complete it. -/
theorem deriv_iff (p : Pattern) (c : Char) (cs : List Char) :
    (p.deriv c).Matches cs ↔ p.Matches (c :: cs) := by
  induction p generalizing cs with
  | never => exact ⟨fun h => (nomatch h), fun h => (nomatch h)⟩
  | empty => exact ⟨fun h => (nomatch h), fun h => (nomatch h)⟩
  | one cls =>
    unfold deriv
    split
    · next h =>
      constructor
      · intro hm
        cases hm with
        | empty => exact .one h
      · intro hm
        cases hm with
        | one _ => exact .empty
    · next h =>
      constructor
      · intro hm
        nomatch hm
      · intro hm
        cases hm with
        | one h' => exact absurd h' h
  | alt p q ihp ihq =>
    constructor
    · intro h
      cases h with
      | altLeft h => exact .altLeft ((ihp cs).mp h)
      | altRight h => exact .altRight ((ihq cs).mp h)
    · intro h
      cases h with
      | altLeft h => exact .altLeft ((ihp cs).mpr h)
      | altRight h => exact .altRight ((ihq cs).mpr h)
  | seq p q ihp ihq =>
    have hseq : (Pattern.seq (p.deriv c) q).Matches cs → (Pattern.seq p q).Matches (c :: cs) := by
      intro h
      cases h with
      | seq h₁ h₂ => exact .seq ((ihp _).mp h₁) h₂
    constructor
    · intro h
      unfold deriv at h
      split at h
      · next hn =>
        cases h with
        | altLeft h => exact hseq h
        | altRight h => exact .seq ((nullable_iff p).mp hn) ((ihq cs).mp h)
      · exact hseq h
    · intro h
      generalize hw : c :: cs = w at h
      cases h with
      | @seq _ _ as bs h₁ h₂ =>
        cases as with
        | nil =>
          -- the first part was empty, so the character belongs to the second
          have hn : p.nullable = true := (nullable_iff p).mpr h₁
          rw [List.nil_append] at hw
          subst hw
          rw [deriv, if_pos hn]
          exact .altRight ((ihq cs).mpr h₂)
        | cons a as =>
          obtain ⟨rfl, rfl⟩ := List.cons.inj hw
          have h' : (Pattern.seq (p.deriv c) q).Matches (as ++ bs) :=
            .seq ((ihp as).mpr h₁) h₂
          unfold deriv
          split
          · exact .altLeft h'
          · exact h'
  | star p ihp =>
    constructor
    · intro h
      cases h with
      | seq h₁ h₂ => exact .starCons ((ihp _).mp h₁) h₂
    · intro h
      generalize hw : c :: cs = w at h
      cases h with
      | starNil => nomatch hw
      | starCons h₁ h₂ =>
        obtain ⟨rfl, rfl⟩ := List.cons.inj hw
        exact .seq ((ihp _).mpr h₁) h₂

/-- **The matcher decides the pattern.** -/
theorem matcher_iff (p : Pattern) (cs : List Char) : p.matcher cs = true ↔ p.Matches cs := by
  induction cs generalizing p with
  | nil => exact nullable_iff p
  | cons c cs ih => rw [matcher, ih, deriv_iff]

theorem test_iff (p : Pattern) (s : String) : p.test s = true ↔ p.Matches s.toList :=
  p.matcher_iff s.toList

/-! ## The characters a pattern can use -/

/-- The characters some class of the pattern admits. -/
def uses (c : Char) : Pattern → Bool
  | .never => false
  | .empty => false
  | .one cls => cls c
  | .alt p q => p.uses c || q.uses c
  | .seq p q => p.uses c || q.uses c
  | .star p => p.uses c

/-- **A word is written with the characters of its pattern.** -/
theorem Matches.uses {p : Pattern} {cs : List Char} (h : p.Matches cs) :
    ∀ c ∈ cs, p.uses c = true := by
  induction h with
  | empty => intro c hc; nomatch hc
  | one h =>
    intro c hc
    obtain rfl := List.mem_singleton.mp hc
    exact h
  | altLeft _ ih => intro c hc; simp [Pattern.uses, ih c hc]
  | altRight _ ih => intro c hc; simp [Pattern.uses, ih c hc]
  | seq _ _ ih₁ ih₂ =>
    intro c hc
    rcases List.mem_append.mp hc with hc | hc
    · simp [Pattern.uses, ih₁ c hc]
    · simp [Pattern.uses, ih₂ c hc]
  | starNil => intro c hc; nomatch hc
  | starCons _ _ ih₁ ih₂ =>
    intro c hc
    rcases List.mem_append.mp hc with hc | hc
    · exact ih₁ c hc
    · exact ih₂ c hc

/-! ## Parts of a word -/

/-- A word of a repeated class is one of every class that is wider on it. -/
theorem Matches.star_mono {f g : Char → Bool} {cs : List Char}
    (h : (Pattern.star (.one f)).Matches cs) (hfg : ∀ c ∈ cs, f c = true → g c = true) :
    (Pattern.star (.one g)).Matches cs := by
  generalize hp : Pattern.star (.one f) = p at h
  induction h with
  | empty | one | altLeft | altRight | seq => exact nomatch hp
  | starNil => exact .starNil
  | starCons hc _ _ ih =>
    obtain rfl := Pattern.star.inj hp
    cases hc with
    | one hc =>
      exact .starCons (.one (hfg _ List.mem_cons_self hc))
        (ih (fun d hd => hfg d (List.mem_cons_of_mem _ hd)) rfl)

/-- A sequence may be widened part by part, on the parts of its word. -/
theorem Matches.seq_mono {p p' q q' : Pattern} {cs : List Char} (h : (Pattern.seq p q).Matches cs)
    (hp : ∀ as, as <:+: cs → p.Matches as → p'.Matches as)
    (hq : ∀ bs, bs <:+: cs → q.Matches bs → q'.Matches bs) : (Pattern.seq p' q').Matches cs := by
  cases h with
  | seq h₁ h₂ =>
    exact .seq (hp _ (List.prefix_append _ _).isInfix h₁) (hq _ (List.suffix_append _ _).isInfix h₂)

/-- `n` characters of a class are `n` characters, each of the class. -/
theorem Matches.of_times {cls : Char → Bool} {n : ℕ} {cs : List Char}
    (h : Matches (times (.one cls) n) cs) : cs.length = n ∧ ∀ c ∈ cs, cls c = true := by
  induction n generalizing cs with
  | zero =>
    cases h
    exact ⟨rfl, fun _ hc => nomatch hc⟩
  | succ n ih =>
    cases h with
    | seq hone hrest =>
      cases hone with
      | one hc =>
        obtain ⟨hlength, hall⟩ := ih hrest
        refine ⟨by rw [List.length_append, hlength, List.length_singleton, Nat.add_comm], ?_⟩
        intro d hd
        rcases List.mem_cons.mp hd with rfl | hd
        · exact hc
        · exact hall d hd

end Pattern
