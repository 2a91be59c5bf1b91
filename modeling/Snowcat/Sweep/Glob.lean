import Snowcat.Queue.Store

/-!
# Path patterns of protected boundaries

A governance authority names the files of a boundary by path patterns: `**`
spans directories, `*` stays inside one segment, and every other character
stands for itself (`Inside`). `pathTouchesBoundary` compiles a pattern to a
regular expression and tests a path with it.

The two differ in two places. `**` becomes `.*`, which no line terminator
matches, and a `?` is not escaped. A pattern without either is tested as it is
meant, and for every other pattern there is a path on which the test and the
meaning disagree (`pathTouchesBoundary_means`).
-/

namespace Snowcat

/-- A piece of a path pattern. -/
inductive GlobToken where
  /-- `**` -/
  | span
  /-- `*` -/
  | run
  | char (c : Char)
  deriving DecidableEq, Repr

/-- The pieces of a path pattern: `split("**")` and, inside the parts,
`split("*")`. -/
def globTokens : List Char → List GlobToken
  | '*' :: '*' :: rest => .span :: globTokens rest
  | '*' :: rest => .run :: globTokens rest
  | c :: rest => .char c :: globTokens rest
  | [] => []

/-- What a path pattern means: `**` spans directories, `*` stays inside one
segment, and every other character stands for itself. -/
def globMeaning : List GlobToken → Pattern
  | [] => .empty
  | .span :: rest => .seq (.star (.one fun _ => true)) (globMeaning rest)
  | .run :: rest => .seq (.star (.one fun c => c != '/')) (globMeaning rest)
  | .char c :: rest => .seq (.one (· == c)) (globMeaning rest)

/-- **A path is inside a pattern.** -/
def Inside (path pattern : String) : Prop :=
  (globMeaning (globTokens pattern.toList)).Matches path.toList

instance (path pattern : String) : Decidable (Inside path pattern) :=
  decidable_of_iff ((globMeaning (globTokens pattern.toList)).test path = true)
    (Pattern.test_iff _ _)

/-- The line terminators, which `.` does not match. -/
def isLineTerminator (c : Char) : Bool :=
  c.val ∈ [0x0A, 0x0D, 0x2028, 0x2029]

/-- The first code unit of a character outside the basic plane. -/
def highSurrogate (c : Char) : Option ℕ :=
  if c.toNat < 0x10000 then none else some (0xD800 + (c.toNat - 0x10000) / 0x400)

/-- The regular expression `pathTouchesBoundary` compiles a pattern to, and what
that expression describes of a text behind the first code unit of a surrogate
pair. Escaping leaves `?` alone, so a `?` behind a character makes it optional,
one more, or one behind a star, makes the repetition lazy, and any other is a
syntax error; `room` says how many may follow. Of a surrogate pair the `?` makes
only the second code unit optional, and when it is left out a star must take
the second code unit of the text. -/
def boundaryRegex (room : ℕ) : List GlobToken → Option (Pattern × Pattern)
  | [] => some (.empty, .never)
  | .char '?' :: rest => if room = 0 then none else boundaryRegex (room - 1) rest
  | .span :: rest => (boundaryRegex 1 rest).map fun (regex, _) =>
    let spanning := .seq (.star (.one fun c => !isLineTerminator c)) regex
    (spanning, spanning)
  | .run :: rest => (boundaryRegex 1 rest).map fun (regex, _) =>
    let running := .seq (.star (.one fun c => c != '/')) regex
    (running, running)
  | .char c :: .char '?' :: rest => (boundaryRegex 1 rest).map fun (regex, behind) =>
    match highSurrogate c with
    | none => (.seq (.alt .empty (.one (· == c))) regex, behind)
    | some unit => (.alt (.seq (.one (· == c)) regex)
        (.seq (.one fun d => highSurrogate d == some unit) behind), .never)
  | .char c :: rest => (boundaryRegex 0 rest).map fun (regex, _) =>
    (.seq (.one (· == c)) regex, .never)

/-- **`pathTouchesBoundary`.** -/
def pathTouchesBoundary (path pattern : String) : Except QueueError Bool :=
  match boundaryRegex 0 (globTokens pattern.toList) with
  | none => .error (.error s!"Invalid regular expression: {pattern}: Nothing to repeat")
  | some (regex, _) => .ok (regex.test path)

/-! ## Where the test agrees with the meaning -/

/-- The regular expression of a pattern without `?` is the pattern's meaning,
on every text without line terminators, and on every text at all where the
pattern has no `**`. -/
theorem boundaryRegex_matches {tokens : List GlobToken} (hplain : .char '?' ∉ tokens) (room : ℕ) :
    ∃ regex behind, boundaryRegex room tokens = some (regex, behind) ∧
      ∀ cs : List Char, (.span ∈ tokens → ∀ c ∈ cs, isLineTerminator c = false) →
        (regex.Matches cs ↔ (globMeaning tokens).Matches cs) := by
  induction tokens generalizing room with
  | nil => exact ⟨.empty, .never, rfl, fun cs _ => Iff.rfl⟩
  | cons token rest ih =>
    have hrest : GlobToken.char '?' ∉ rest := fun h => hplain (List.mem_cons_of_mem _ h)
    have hpart : ∀ {cs bs : List Char},
        (.span ∈ token :: rest → ∀ c ∈ cs, isLineTerminator c = false) → bs <:+: cs →
        .span ∈ rest → ∀ c ∈ bs, isLineTerminator c = false :=
      fun hcs hbs hspan c hc => hcs (List.mem_cons_of_mem _ hspan) c (hbs.subset hc)
    cases token with
    | span =>
      obtain ⟨regex, behind, hregex, hmatches⟩ := ih hrest 1
      refine ⟨_, _, by rw [boundaryRegex, hregex]; rfl, fun cs hcs => ⟨fun h => ?_, fun h => ?_⟩⟩
      · exact h.seq_mono (fun as _ has => has.star_mono fun _ _ _ => rfl)
          fun bs hbs => (hmatches bs (hpart hcs hbs)).mp
      · refine h.seq_mono (fun as has h => h.star_mono fun c hc _ => ?_)
          fun bs hbs => (hmatches bs (hpart hcs hbs)).mpr
        rw [hcs List.mem_cons_self c (has.subset hc)]
        rfl
    | run =>
      obtain ⟨regex, behind, hregex, hmatches⟩ := ih hrest 1
      refine ⟨_, _, by rw [boundaryRegex, hregex]; rfl, fun cs hcs => ⟨fun h => ?_, fun h => ?_⟩⟩
      · exact h.seq_mono (fun _ _ h => h) fun bs hbs => (hmatches bs (hpart hcs hbs)).mp
      · exact h.seq_mono (fun _ _ h => h) fun bs hbs => (hmatches bs (hpart hcs hbs)).mpr
    | char c =>
      have hc : c ≠ '?' := fun h => hplain (h ▸ List.mem_cons_self)
      obtain ⟨regex, behind, hregex, hmatches⟩ := ih hrest 0
      refine ⟨.seq (.one (· == c)) regex, .never, ?_, fun cs hcs => ⟨fun h => ?_, fun h => ?_⟩⟩
      · rw [boundaryRegex, hregex]
        · rfl
        · exact hc
        · rintro rest' rfl
          exact hrest List.mem_cons_self
      · exact h.seq_mono (fun _ _ h => h) fun bs hbs => (hmatches bs (hpart hcs hbs)).mp
      · exact h.seq_mono (fun _ _ h => h) fun bs hbs => (hmatches bs (hpart hcs hbs)).mpr

/-- **The test agrees with the pattern** where the pattern has no `?`, and no
`**` or the path no line terminator. -/
theorem pathTouchesBoundary_eq {path pattern : String}
    (hplain : GlobToken.char '?' ∉ globTokens pattern.toList)
    (hpath : .span ∈ globTokens pattern.toList → ∀ c ∈ path.toList, isLineTerminator c = false) :
    pathTouchesBoundary path pattern = .ok (decide (Inside path pattern)) := by
  obtain ⟨regex, behind, hregex, hmatches⟩ := boundaryRegex_matches hplain 0
  rw [pathTouchesBoundary, hregex]
  show Except.ok (regex.test path) = _
  rw [Except.ok.injEq, Bool.eq_iff_iff, Pattern.test_iff, hmatches _ hpath, decide_eq_true_iff]
  rfl

/-! ## Where it does not -/

/-- The characters of a pattern that its expression keeps: no star, no `?`. -/
def literals : List GlobToken → List Char
  | [] => []
  | .char c :: rest => if c = '?' then literals rest else c :: literals rest
  | _ :: rest => literals rest

/-- A meaning has every character of its pattern in it. -/
theorem mem_of_globMeaning {tokens : List GlobToken} {cs : List Char} {c : Char}
    (h : (globMeaning tokens).Matches cs) (hc : .char c ∈ tokens) : c ∈ cs := by
  induction tokens generalizing cs with
  | nil => exact nomatch hc
  | cons token rest ih =>
    cases token with
    | span | run =>
      cases h with
      | seq _ hrest =>
        exact List.mem_append_right _ (ih hrest ((List.mem_cons.mp hc).resolve_left nofun))
    | char d =>
      cases h with
      | seq hone hrest =>
        rcases List.mem_cons.mp hc with heq | hc
        · cases hone with
          | one hd =>
            rw [GlobToken.char.inj heq, eq_of_beq hd]
            exact List.mem_append_left _ List.mem_cons_self
        · exact List.mem_append_right _ (ih hrest hc)

theorem notMem_literals (tokens : List GlobToken) : '?' ∉ literals tokens := by
  induction tokens with
  | nil => exact nofun
  | cons token rest ih =>
    cases token with
    | span | run => exact ih
    | char c =>
      rw [literals]
      split_ifs with hc
      · exact ih
      · exact fun h => (List.mem_cons.mp h).elim (fun heq => hc heq.symm) ih

/-- **The expression keeps the characters of its pattern**: it matches them alone,
with nothing for the stars and nothing for a `?`. -/
theorem matches_literals {room : ℕ} {tokens : List GlobToken} {regex behind : Pattern}
    (h : boundaryRegex room tokens = some (regex, behind)) : regex.Matches (literals tokens) := by
  induction room, tokens using boundaryRegex.induct generalizing regex behind with
  | case1 =>
    cases h
    exact .empty
  | case2 => cases h
  | case3 room rest hroom ih =>
    rw [boundaryRegex, if_neg hroom] at h
    exact ih h
  | case4 room rest ih | case5 room rest ih =>
    rw [boundaryRegex, Option.map_eq_some_iff] at h
    obtain ⟨⟨kept, _⟩, hkept, heq⟩ := h
    cases heq
    exact .seq .starNil (ih hkept)
  | case6 room c rest hc ih =>
    rw [boundaryRegex, Option.map_eq_some_iff] at h
    · obtain ⟨⟨kept, _⟩, hkept, heq⟩ := h
      have hone : (Pattern.one (· == c)).Matches [c] := .one (beq_self_eq_true c)
      rw [literals, if_neg hc, literals, if_pos rfl]
      -- a `?` is behind a character of the basic plane, or behind a pair
      cases hunit : highSurrogate c with
      | none =>
        rw [hunit] at heq
        cases heq
        exact .seq (.altRight hone) (ih hkept)
      | some unit =>
        rw [hunit] at heq
        cases heq
        exact .altLeft (.seq hone (ih hkept))
    · exact hc
  | case7 room c rest hc hplain ih =>
    rw [boundaryRegex, Option.map_eq_some_iff] at h
    · obtain ⟨⟨kept, _⟩, hkept, heq⟩ := h
      cases heq
      have hone : (Pattern.one (· == c)).Matches [c] := .one (beq_self_eq_true c)
      rw [literals, if_neg hc]
      exact .seq hone (ih hkept)
    · exact hc
    · exact hplain

/-- How often a line ends before a slash. -/
def breaks : List Char → ℕ
  | [] => 0
  | c :: cs => breaks cs + if c = '\n' ∧ cs.head? = some '/' then 1 else 0

theorem breaks_append_of_notMem {as : List Char} (h : '\n' ∉ as) (bs : List Char) :
    breaks (as ++ bs) = breaks bs := by
  induction as with
  | nil => rfl
  | cons a as ih =>
    have ha : ¬ (a = '\n' ∧ (as ++ bs).head? = some '/') := fun ha => h (ha.1 ▸ List.mem_cons_self)
    rw [List.cons_append, breaks, if_neg ha, ih fun hmem => h (List.mem_cons_of_mem _ hmem)]
    rfl

/-- A text without a slash can end a line before one only at its end. -/
theorem breaks_append_le {as : List Char} (h : '/' ∉ as) (bs : List Char) :
    breaks (as ++ bs) ≤ breaks bs + 1 := by
  induction as with
  | nil => exact Nat.le_succ _
  | cons a as ih =>
    rw [List.cons_append, breaks]
    cases as with
    | nil =>
      split_ifs
      · exact Nat.le_refl _
      · exact Nat.le_succ _
    | cons b as =>
      have hb : ¬ (a = '\n' ∧ (b :: as ++ bs).head? = some '/') := fun hb =>
        h (List.mem_cons_of_mem _ (Option.some.inj hb.2 ▸ List.mem_cons_self))
      rw [if_neg hb]
      exact ih fun hmem => h (List.mem_cons_of_mem _ hmem)

theorem le_breaks_append (as bs : List Char) : breaks bs ≤ breaks (as ++ bs) := by
  induction as with
  | nil => exact Nat.le_refl _
  | cons a as ih => exact Nat.le_trans ih (Nat.le_add_right _ _)

/-- **A text that the expression matches has few breaks**: a `.*` has none, and
every other piece of the pattern at most one. -/
theorem breaks_le_of_matches {room : ℕ} {tokens : List GlobToken} {regex behind : Pattern}
    {cs : List Char} (hplain : .char '?' ∉ tokens)
    (h : boundaryRegex room tokens = some (regex, behind)) (hcs : regex.Matches cs) :
    breaks cs ≤ tokens.length := by
  induction room, tokens using boundaryRegex.induct generalizing regex behind cs with
  | case1 =>
    cases h
    cases hcs
    exact Nat.le_refl _
  | case2 => cases h
  | case3 => exact absurd List.mem_cons_self hplain
  | case6 => exact absurd (List.mem_cons_of_mem _ List.mem_cons_self) hplain
  | case4 room rest ih =>
    rw [boundaryRegex, Option.map_eq_some_iff] at h
    obtain ⟨⟨kept, _⟩, hkept, heq⟩ := h
    cases heq
    cases hcs with
    | @seq _ _ as bs hspan hrest =>
      have hline : '\n' ∉ as := fun hmem => absurd (hspan.uses _ hmem) (by decide)
      rw [breaks_append_of_notMem hline]
      exact Nat.le_succ_of_le (ih (fun hmem => hplain (List.mem_cons_of_mem _ hmem)) hkept hrest)
  | case5 room rest ih =>
    rw [boundaryRegex, Option.map_eq_some_iff] at h
    obtain ⟨⟨kept, _⟩, hkept, heq⟩ := h
    cases heq
    cases hcs with
    | @seq _ _ as bs hrun hrest =>
      have hslash : '/' ∉ as := fun hmem => absurd (hrun.uses _ hmem) (by decide)
      exact Nat.le_trans (breaks_append_le hslash bs)
        (Nat.succ_le_succ (ih (fun hmem => hplain (List.mem_cons_of_mem _ hmem)) hkept hrest))
  | case7 room c rest hc hnext ih =>
    rw [boundaryRegex, Option.map_eq_some_iff] at h
    · obtain ⟨⟨kept, _⟩, hkept, heq⟩ := h
      cases heq
      cases hcs with
      | seq hone hrest =>
        cases hone with
        | @one _ d hd =>
          have hle := ih (fun hmem => hplain (List.mem_cons_of_mem _ hmem)) hkept hrest
          rw [List.singleton_append, breaks, List.length_cons]
          split_ifs <;> omega
    · exact hc
    · exact hnext

/-- A path inside a pattern that ends `n` lines before a slash in every `**`. -/
def brokenPath (n : ℕ) : List GlobToken → List Char
  | [] => []
  | .span :: rest => (List.replicate n ['\n', '/']).flatten ++ brokenPath n rest
  | .run :: rest => brokenPath n rest
  | .char c :: rest => c :: brokenPath n rest

theorem le_breaks_replicate (n : ℕ) (bs : List Char) :
    n ≤ breaks ((List.replicate n ['\n', '/']).flatten ++ bs) := by
  induction n with
  | zero => exact Nat.zero_le _
  | succ n ih =>
    rw [List.replicate_succ, List.flatten_cons, List.append_assoc]
    show n + 1 ≤ breaks ('/' :: _) + 1
    exact Nat.succ_le_succ (Nat.le_trans ih (le_breaks_append ['/'] _))

theorem matches_brokenPath (n : ℕ) (tokens : List GlobToken) :
    (globMeaning tokens).Matches (brokenPath n tokens) := by
  have hany (cs : List Char) : (Pattern.star (.one fun _ => true)).Matches cs := by
    induction cs with
    | nil => exact .starNil
    | cons c cs ih => exact .starCons (.one rfl) ih
  induction tokens with
  | nil => exact .empty
  | cons token rest ih =>
    cases token with
    | span => exact .seq (hany _) ih
    | run => exact .seq .starNil ih
    | char c =>
      have hone : (Pattern.one (· == c)).Matches [c] := .one (beq_self_eq_true c)
      exact .seq hone ih

theorem le_breaks_brokenPath (n : ℕ) {tokens : List GlobToken} (h : .span ∈ tokens) :
    n ≤ breaks (brokenPath n tokens) := by
  induction tokens with
  | nil => exact nomatch h
  | cons token rest ih =>
    cases token with
    | span => exact le_breaks_replicate n _
    | run => exact ih ((List.mem_cons.mp h).resolve_left nofun)
    | char c =>
      exact Nat.le_trans (ih ((List.mem_cons.mp h).resolve_left nofun))
        (le_breaks_append [c] _)

/-! ## The pieces, in the text of a pattern -/

theorem char_mem_globTokens {cs : List Char} : .char '?' ∈ globTokens cs ↔ '?' ∈ cs := by
  induction cs using globTokens.induct with
  | case1 rest ih => simp [globTokens, ih]
  | case2 rest hnext ih => simp [globTokens, ih]
  | case3 c rest hstars hstar ih => simp [globTokens, ih]
  | case4 => simp [globTokens]

theorem span_mem_globTokens {cs : List Char} : .span ∈ globTokens cs ↔ ['*', '*'] <:+: cs := by
  induction cs using globTokens.induct with
  | case1 rest ih =>
    exact iff_of_true List.mem_cons_self (List.prefix_append ['*', '*'] rest).isInfix
  | case2 rest hnext ih =>
    have hprefix : ¬ ['*', '*'] <+: '*' :: rest := by
      rintro ⟨tail, heq⟩
      exact hnext tail (List.cons.inj heq).2.symm
    simp [globTokens, ih, List.infix_cons_iff, hprefix]
  | case3 c rest hstars hstar ih =>
    have hprefix : ¬ ['*', '*'] <+: c :: rest := by
      rintro ⟨tail, heq⟩
      exact hstar (List.cons.inj heq).1.symm
    simp [globTokens, ih, List.infix_cons_iff, hprefix]
  | case4 => simp [globTokens]

theorem plain_iff {pattern : String} :
    GlobToken.char '?' ∉ globTokens pattern.toList ↔ '?' ∉ pattern.toList :=
  not_congr char_mem_globTokens

theorem spans_iff {pattern : String} :
    .span ∈ globTokens pattern.toList ↔ includes pattern "**" = true := by
  rw [span_mem_globTokens, includes, decide_eq_true_iff]
  rfl

/-! ## The test and the meaning -/

/-- **The test means what the pattern says** about a path: it does not throw, and
it finds the path inside when it is. -/
def TestedAsMeant (path pattern : String) : Prop :=
  pathTouchesBoundary path pattern = .ok (decide (Inside path pattern))

/-- A pattern with a `?` is misread: it is no regular expression, or it matches
the rest of its own characters. -/
theorem misread_of_question {pattern : String} (h : '?' ∈ pattern.toList) :
    ∃ path, ¬ TestedAsMeant path pattern := by
  refine ⟨String.ofList (literals (globTokens pattern.toList)), fun hmeant => ?_⟩
  rw [TestedAsMeant, pathTouchesBoundary] at hmeant
  cases hregex : boundaryRegex 0 (globTokens pattern.toList) with
  | none =>
    rw [hregex] at hmeant
    exact nomatch hmeant
  | some compiled =>
    obtain ⟨regex, behind⟩ := compiled
    rw [hregex] at hmeant
    have htest : regex.test (String.ofList (literals (globTokens pattern.toList))) = true := by
      rw [Pattern.test_iff, String.toList_ofList]
      exact matches_literals hregex
    have hinside := of_decide_eq_true ((Except.ok.inj hmeant).symm.trans htest)
    rw [Inside, String.toList_ofList] at hinside
    exact notMem_literals _ (mem_of_globMeaning hinside (char_mem_globTokens.mpr h))

/-- A pattern with a `**` and no `?` misses a path with more line breaks than it
has pieces. -/
theorem misread_of_spans {pattern : String} (hplain : '?' ∉ pattern.toList)
    (h : includes pattern "**" = true) : ∃ path, ¬ TestedAsMeant path pattern := by
  have htokens := plain_iff.mpr hplain
  let path := brokenPath ((globTokens pattern.toList).length + 1) (globTokens pattern.toList)
  refine ⟨String.ofList path, fun hmeant => ?_⟩
  obtain ⟨regex, behind, hregex, -⟩ := boundaryRegex_matches htokens 0
  rw [TestedAsMeant, pathTouchesBoundary, hregex] at hmeant
  have hinside : Inside (String.ofList path) pattern := by
    rw [Inside, String.toList_ofList]
    exact matches_brokenPath _ _
  have htest : regex.test (String.ofList path) = true :=
    (Except.ok.inj hmeant).trans (decide_eq_true hinside)
  rw [Pattern.test_iff, String.toList_ofList] at htest
  have hfew := breaks_le_of_matches htokens hregex htest
  have hmany := le_breaks_brokenPath ((globTokens pattern.toList).length + 1) (spans_iff.mpr h)
  exact absurd (Nat.le_trans hmany hfew) (Nat.not_succ_le_self _)

/-- **Path patterns mean what they say exactly when** they have no `?` and no `**`;
and a pattern that has a `**` still does on paths without line terminators. -/
theorem pathTouchesBoundary_means (pattern : String) :
    ((∀ path, TestedAsMeant path pattern) ↔
      '?' ∉ pattern.toList ∧ includes pattern "**" = false) ∧
    ∀ path, '?' ∉ pattern.toList → (∀ c ∈ path.toList, isLineTerminator c = false) →
      TestedAsMeant path pattern := by
  refine ⟨⟨fun h => ⟨fun hquestion => ?_, ?_⟩, fun ⟨hplain, hspans⟩ path => ?_⟩,
    fun path hplain hpath => pathTouchesBoundary_eq (plain_iff.mpr hplain) fun _ => hpath⟩
  · obtain ⟨path, hmisread⟩ := misread_of_question hquestion
    exact hmisread (h path)
  · by_cases hquestion : '?' ∈ pattern.toList
    · obtain ⟨path, hmisread⟩ := misread_of_question hquestion
      exact absurd (h path) hmisread
    · rw [← Bool.not_eq_true]
      intro hspans
      obtain ⟨path, hmisread⟩ := misread_of_spans hquestion hspans
      exact hmisread (h path)
  · refine pathTouchesBoundary_eq (plain_iff.mpr hplain) fun hspan => ?_
    rw [spans_iff, hspans] at hspan
    exact nomatch hspan

/-- The paths the governance schema takes: up to 300 characters of one line, no
slash in front, no backslash, and no segment `..`. -/
def isGovernancePath (value : String) : Bool :=
  1 ≤ value.length && value.length ≤ 300 && !startsWith value "/" &&
    value.toList.all (fun c => c != '\\' && !isLineTerminator c) &&
    decide (['.', '.'] ∉ value.toList.splitOn '/')

/-- **A key file is missed**: the `?` of the pattern makes the slash before it
optional, and no path with a `?` is found inside. -/
theorem not_testedAsMeant_question :
    isGovernancePath "keys/?.pem" = true ∧ Inside "keys/?.pem" "keys/?.pem" ∧
      pathTouchesBoundary "keys/?.pem" "keys/?.pem" = .ok false ∧
      ¬ ∀ path pattern, isGovernancePath pattern = true → TestedAsMeant path pattern := by
  have hadmitted : isGovernancePath "keys/?.pem" = true := by decide +kernel
  have hinside : Inside "keys/?.pem" "keys/?.pem" := by decide +kernel
  have htest : pathTouchesBoundary "keys/?.pem" "keys/?.pem" = .ok false := by
    rw [pathTouchesBoundary]
    exact congrArg Except.ok (by decide +kernel)
  refine ⟨hadmitted, hinside, htest, fun h => ?_⟩
  have hmeant := h "keys/?.pem" "keys/?.pem" hadmitted
  rw [TestedAsMeant, htest, decide_eq_true hinside] at hmeant
  exact nomatch hmeant

end Snowcat
