import Mathlib.Tactic.IntervalCases
import Snowcat.Lib.CodeUnits
import Snowcat.Lib.JsonValue

/-!
# The syntax of JSON

How a JSON value is written as a text of code units, and how a text is read as
a value: literals, quoted texts with every escape, arrays, objects, and white
space where the grammar allows it. How a number is written and read is a
parameter with its laws (`NumberFormat`). What was written is read back
(`parse_write`), because every piece shows where it ends.
-/

namespace JsonSyntax

open CodeUnits

/-! ## Quoted texts -/

/-- A hexadecimal digit. -/
def hexUnit (n : ℕ) : CodeUnit := unit (Nat.digitChar n)

/-- A code unit by its number. -/
def escapeNumber (u : CodeUnit) : List CodeUnit :=
  [unit '\\', unit 'u', hexUnit (u.val / 4096), hexUnit (u.val / 256 % 16),
    hexUnit (u.val / 16 % 16), hexUnit (u.val % 16)]

/-- The letter of a short escape, for a code unit that has one. -/
def shortEscape (u : CodeUnit) : Option CodeUnit :=
  if u = unit '"' then some (unit '"')
  else if u = unit '\\' then some (unit '\\')
  else if u.val = 8 then some (unit 'b')
  else if u.val = 9 then some (unit 't')
  else if u.val = 10 then some (unit 'n')
  else if u.val = 12 then some (unit 'f')
  else if u.val = 13 then some (unit 'r')
  else none

/-- A code unit that stands alone, within quotes. -/
def escape (u : CodeUnit) : List CodeUnit :=
  match shortEscape u with
  | some letter => [unit '\\', letter]
  | none => if u.val < 32 ∨ isHigh u = true ∨ isLow u = true then escapeNumber u else [u]

/-- **A text within quotes**: a pair of surrogates as it is, and every other
code unit for itself. -/
def escapeText : List CodeUnit → List CodeUnit
  | [] => []
  | [u] => escape u
  | h :: l :: rest =>
    if isHigh h = true ∧ isLow l = true then h :: l :: escapeText rest
    else escape h ++ escapeText (l :: rest)

/-- A text in quotes. -/
def quote (s : List CodeUnit) : List CodeUnit := unit '"' :: (escapeText s ++ [unit '"'])

/-- The number a hexadecimal digit stands for. -/
def hexValue? (u : CodeUnit) : Option ℕ :=
  if 48 ≤ u.val ∧ u.val ≤ 57 then some (u.val - 48)
  else if 97 ≤ u.val ∧ u.val ≤ 102 then some (u.val - 87)
  else if 65 ≤ u.val ∧ u.val ≤ 70 then some (u.val - 55)
  else none

/-- The code unit of four hexadecimal digits. -/
def hexUnits? (a b c d : CodeUnit) : Option CodeUnit := do
  let a ← hexValue? a
  let b ← hexValue? b
  let c ← hexValue? c
  let d ← hexValue? d
  pure (Fin.ofNat 65536 (4096 * a + 256 * b + 16 * c + d))

/-- The code unit a short escape stands for. -/
def unescape? (u : CodeUnit) : Option CodeUnit :=
  if u = unit '"' ∨ u = unit '\\' ∨ u = unit '/' then some u
  else if u = unit 'b' then some 8
  else if u = unit 't' then some 9
  else if u = unit 'n' then some 10
  else if u = unit 'f' then some 12
  else if u = unit 'r' then some 13
  else none

/-- **A text is read** up to the quotes it ends with. -/
def readText : List CodeUnit → Option (List CodeUnit × List CodeUnit)
  | [] => none
  | u :: rest =>
    if u = unit '"' then some ([], rest)
    else if u = unit '\\' then
      match rest with
      | [] => none
      | e :: rest =>
        if e = unit 'u' then
          match rest with
          | a :: b :: c :: d :: rest =>
            (hexUnits? a b c d).bind fun u => (readText rest).map fun read => (u :: read.1, read.2)
          | _ => none
        else (unescape? e).bind fun u => (readText rest).map fun read => (u :: read.1, read.2)
    else if u.val < 32 then none
    else (readText rest).map fun read => (u :: read.1, read.2)

theorem hexValue?_hexUnit {n : ℕ} (h : n < 16) : hexValue? (hexUnit n) = some n := by
  interval_cases n <;> decide

theorem hexUnits?_escape (u : CodeUnit) :
    hexUnits? (hexUnit (u.val / 4096)) (hexUnit (u.val / 256 % 16)) (hexUnit (u.val / 16 % 16))
      (hexUnit (u.val % 16)) = some u := by
  have hlt := u.isLt
  unfold hexUnits?
  rw [hexValue?_hexUnit (by omega), hexValue?_hexUnit (by omega), hexValue?_hexUnit (by omega),
    hexValue?_hexUnit (by omega)]
  refine congrArg some (Fin.ext ?_)
  show (4096 * (u.val / 4096) + 256 * (u.val / 256 % 16) + 16 * (u.val / 16 % 16) + u.val % 16) %
    65536 = u.val
  omega

/-- A short escape stands for its code unit, and is not the letter of a
number. -/
theorem unescape?_shortEscape {u letter : CodeUnit} (h : shortEscape u = some letter) :
    letter ≠ unit 'u' ∧ unescape? letter = some u := by
  unfold shortEscape at h
  split_ifs at h with h₁ h₂ h₃ h₄ h₅ h₆ h₇ <;> obtain rfl := Option.some.inj h
  · subst h₁
    decide
  · subst h₂
    decide
  · rw [show u = 8 from Fin.ext h₃]
    decide
  · rw [show u = 9 from Fin.ext h₄]
    decide
  · rw [show u = 10 from Fin.ext h₅]
    decide
  · rw [show u = 12 from Fin.ext h₆]
    decide
  · rw [show u = 13 from Fin.ext h₇]
    decide

/-- A code unit without a short escape is no mark of a quoted text. -/
theorem ne_of_shortEscape {u : CodeUnit} (h : shortEscape u = none) :
    u ≠ unit '"' ∧ u ≠ unit '\\' := by
  unfold shortEscape at h
  split_ifs at h with h₁ h₂
  exact ⟨h₁, h₂⟩

theorem readText_end (rest : List CodeUnit) : readText (unit '"' :: rest) = some ([], rest) := by
  rw [readText.eq_def]
  exact if_pos rfl

/-- A code unit that stands for itself is read. -/
theorem readText_cons {u : CodeUnit} (h : shortEscape u = none) (hprinted : 32 ≤ u.val)
    (rest : List CodeUnit) :
    readText (u :: rest) = (readText rest).map fun read => (u :: read.1, read.2) := by
  rw [readText.eq_def]
  dsimp only
  rw [if_neg (ne_of_shortEscape h).1, if_neg (ne_of_shortEscape h).2,
    if_neg (not_lt.mpr hprinted)]

/-- A surrogate has no short escape. -/
theorem shortEscape_of_le {u : CodeUnit} (h : 0xD800 ≤ u.val) : shortEscape u = none := by
  have hne : ∀ c : Char, c.toNat < 0xD800 → u ≠ unit c := by
    rintro c hc rfl
    have : (unit c).val = c.toNat := Nat.mod_eq_of_lt (by omega)
    omega
  unfold shortEscape
  rw [if_neg (hne _ (by decide)), if_neg (hne _ (by decide)), if_neg (by omega), if_neg (by omega),
    if_neg (by omega), if_neg (by omega), if_neg (by omega)]

/-- What is written of a code unit is read back. -/
theorem readText_escape (u : CodeUnit) (rest : List CodeUnit) :
    readText (escape u ++ rest) = (readText rest).map fun read => (u :: read.1, read.2) := by
  unfold escape
  split
  · next letter hletter =>
    obtain ⟨hne, hread⟩ := unescape?_shortEscape hletter
    show readText (unit '\\' :: letter :: rest) = _
    rw [readText.eq_def]
    dsimp only
    rw [if_neg (by decide), if_pos rfl, if_neg hne, hread]
    rfl
  · next hnone =>
    split
    · show readText (unit '\\' :: unit 'u' :: _ :: _ :: _ :: _ :: rest) = _
      rw [readText.eq_def]
      dsimp only
      rw [if_neg (by decide), if_pos rfl, if_pos rfl, hexUnits?_escape]
      rfl
    · next hself => exact readText_cons hnone (not_lt.mp (not_or.mp hself).1) rest

/-- **A quoted text is read back**, up to its end. -/
theorem readText_escapeText (s rest : List CodeUnit) :
    readText (escapeText s ++ (unit '"' :: rest)) = some (s, rest) := by
  fun_induction escapeText s with
  | case1 =>
    exact readText_end rest
  | case2 u =>
    rw [readText_escape, readText_end]
    rfl
  | case3 h l s hpair ih =>
    have hh : 0xD800 ≤ h.val := by
      have := hpair.1
      unfold isHigh at this
      simp only [Bool.and_eq_true, decide_eq_true_eq] at this
      exact this.1
    have hl : 0xD800 ≤ l.val := by
      have := hpair.2
      unfold isLow at this
      simp only [Bool.and_eq_true, decide_eq_true_eq] at this
      omega
    rw [List.cons_append, List.cons_append, readText_cons (shortEscape_of_le hh) (by omega),
      readText_cons (shortEscape_of_le hl) (by omega), ih]
    rfl
  | case4 h l s hpair ih =>
    rw [List.append_assoc, readText_escape, ih]
    rfl

/-! ## Numbers -/

/-- A code unit of a number. -/
def isNumberUnit (u : CodeUnit) : Bool :=
  (48 ≤ u.val && u.val ≤ 57) || u = unit '-' || u = unit '+' || u = unit '.' || u = unit 'e' ||
    u = unit 'E'

/-- **How numbers are written and read.** A number that is finite is written
with the units of a number, and read as what is left of it without `unsign`,
which takes the sign of a zero and nothing else. -/
structure NumberFormat (N : Type) where
  finite : N → Bool
  unsign : N → N
  render : N → List CodeUnit
  read : List CodeUnit → Option N
  unsign_unsign : ∀ n, unsign (unsign n) = unsign n
  finite_unsign : ∀ n, finite n = true → finite (unsign n) = true
  render_ne : ∀ n, finite n = true → render n ≠ []
  render_units : ∀ n, finite n = true → ∀ u ∈ render n, isNumberUnit u = true
  render_unsign : ∀ n, finite n = true → render (unsign n) = render n
  read_render : ∀ n, finite n = true → read (render n) = some (unsign n)

variable {N : Type} (F : NumberFormat N)

namespace NumberFormat

/-- A number that is read as it was written. -/
def Readable (n : N) : Prop :=
  F.render n ≠ [] ∧ (∀ u ∈ F.render n, isNumberUnit u = true) ∧ F.read (F.render n) = some n

/-- Without the sign of a zero a number is read as it was written. -/
theorem readable_unsign {n : N} (h : F.finite n = true) : F.Readable (F.unsign n) := by
  unfold Readable
  rw [F.render_unsign n h]
  exact ⟨F.render_ne n h, F.render_units n h, F.read_render n h⟩

end NumberFormat

/-! ## Writing values -/

/-- Texts with a comma between one and the next: `join(",")`. -/
def joinCommas : List (List CodeUnit) → List CodeUnit
  | [] => []
  | [part] => part
  | part :: parts => part ++ (unit ',' :: joinCommas parts)

mutual

/-- **A value as a text**, its fields in the order they are in. -/
def write : JsonValue (List CodeUnit) N → List CodeUnit
  | .null => units "null"
  | .bool true => units "true"
  | .bool false => units "false"
  | .number n => F.render n
  | .text s => quote s
  | .array values => unit '[' :: (joinCommas (writeValues values) ++ [unit ']'])
  | .object fields => unit '\x7b' :: (joinCommas (writeFields fields) ++ [unit '\x7d'])

/-- Values as texts. -/
def writeValues : List (JsonValue (List CodeUnit) N) → List (List CodeUnit)
  | [] => []
  | v :: vs => write v :: writeValues vs

/-- Fields as texts. -/
def writeFields : List (List CodeUnit × JsonValue (List CodeUnit) N) → List (List CodeUnit)
  | [] => []
  | (k, v) :: fs => (quote k ++ (unit ':' :: write v)) :: writeFields fs

end

/-! ## Reading values -/

/-- White space between two pieces of a text. -/
def isJsonSpace (u : CodeUnit) : Bool :=
  u.val = 0x20 || u.val = 0x09 || u.val = 0x0A || u.val = 0x0D

/-- A text behind its white space. -/
def skipSpace (text : List CodeUnit) : List CodeUnit := text.dropWhile isJsonSpace

/-- A text behind a piece it starts with. -/
def behind (piece text : List CodeUnit) : Option (List CodeUnit) :=
  if piece.isPrefixOf text = true then some (text.drop piece.length) else none

/-- Set a field of an object: the last one under a key counts. -/
def setField (fields : List (List CodeUnit × JsonValue (List CodeUnit) N))
    (field : List CodeUnit × JsonValue (List CodeUnit) N) :
    List (List CodeUnit × JsonValue (List CodeUnit) N) :=
  if field.1 ∈ fields.map Prod.fst then
    fields.map fun f => if f.1 = field.1 then field else f
  else fields ++ [field]

mutual

/-- **A value at the start of a text**, and the text behind it. A value is
not nested deeper than its text is long, which the fuel counts. -/
def readValue : ℕ → List CodeUnit → Option (JsonValue (List CodeUnit) N × List CodeUnit)
  | 0, _ => none
  | fuel + 1, text =>
    match skipSpace text with
    | [] => none
    | u :: rest =>
      if u = unit 'n' then (behind (units "ull") rest).map fun rest => (.null, rest)
      else if u = unit 't' then (behind (units "rue") rest).map fun rest => (.bool true, rest)
      else if u = unit 'f' then (behind (units "alse") rest).map fun rest => (.bool false, rest)
      else if u = unit '"' then (readText rest).map fun read => (.text read.1, read.2)
      else if u = unit '[' then
        match behind [unit ']'] (skipSpace rest) with
        | some rest => some (.array [], rest)
        | none => (readElements fuel rest).map fun read => (.array read.1, read.2)
      else if u = unit '\x7b' then
        match behind [unit '\x7d'] (skipSpace rest) with
        | some rest => some (.object [], rest)
        | none => (readMembers fuel rest).map fun read => (.object (read.1.foldl setField []), read.2)
      else if isNumberUnit u = true then
        (F.read ((u :: rest).takeWhile isNumberUnit)).map fun n =>
          (.number n, (u :: rest).dropWhile isNumberUnit)
      else none

/-- The values of an array, behind the bracket that opens it. -/
def readElements : ℕ → List CodeUnit →
    Option (List (JsonValue (List CodeUnit) N) × List CodeUnit)
  | 0, _ => none
  | fuel + 1, text => do
    let (v, rest) ← readValue fuel text
    match skipSpace rest with
    | [] => none
    | u :: rest =>
      if u = unit ']' then some ([v], rest)
      else if u = unit ',' then (readElements fuel rest).map fun read => (v :: read.1, read.2)
      else none

/-- The fields of an object, behind the brace that opens it. -/
def readMembers : ℕ → List CodeUnit →
    Option (List (List CodeUnit × JsonValue (List CodeUnit) N) × List CodeUnit)
  | 0, _ => none
  | fuel + 1, text => do
    let rest ← behind [unit '"'] (skipSpace text)
    let (k, rest) ← readText rest
    let rest ← behind [unit ':'] (skipSpace rest)
    let (v, rest) ← readValue fuel rest
    match skipSpace rest with
    | [] => none
    | u :: rest =>
      if u = unit '\x7d' then some ([(k, v)], rest)
      else if u = unit ',' then
        (readMembers fuel rest).map fun read => ((k, v) :: read.1, read.2)
      else none

end

/-- **A text is read as a value**, when there is only white space behind
it. -/
def parse (text : List CodeUnit) : Option (JsonValue (List CodeUnit) N) := do
  let (v, rest) ← readValue F (text.length + 1) text
  if skipSpace rest = [] then some v else none

/-! ## What was written is read back -/

variable {F}

theorem skipSpace_cons {u : CodeUnit} (h : isJsonSpace u = false) (us : List CodeUnit) :
    skipSpace (u :: us) = u :: us :=
  List.dropWhile_cons_of_neg (by rw [h]; exact Bool.false_ne_true)

theorem behind_append (piece text : List CodeUnit) : behind piece (piece ++ text) = some text := by
  unfold behind
  rw [if_pos (List.isPrefixOf_iff_prefix.mpr (List.prefix_append piece text)), List.drop_left]

theorem behind_mark (u : CodeUnit) (us : List CodeUnit) : behind [u] (u :: us) = some us :=
  behind_append [u] us

theorem behind_of_ne {u v : CodeUnit} (h : v ≠ u) (us : List CodeUnit) :
    behind [v] (u :: us) = none := by
  unfold behind
  rw [if_neg]
  rw [List.isPrefixOf_iff_prefix, List.cons_prefix_cons]
  exact fun hprefix => h hprefix.1

/-- A unit of a number is no white space, and no mark a value of another kind
starts or ends with. -/
theorem ne_of_isNumberUnit {u : CodeUnit} (h : isNumberUnit u = true) :
    isJsonSpace u = false ∧ ∀ c ∈ ['n', 't', 'f', '"', '[', '\x7b', ']', '\x7d', ','], u ≠ unit c := by
  constructor
  · unfold isNumberUnit at h
    unfold isJsonSpace
    simp only [Bool.or_eq_true, Bool.and_eq_true, decide_eq_true_eq, or_assoc] at h
    rcases h with h | h | h | h | h | h
    · simp only [Bool.or_eq_false_iff, decide_eq_false_iff_not]
      omega
    all_goals
      subst h
      decide
  · have hmarks : (['n', 't', 'f', '"', '[', '\x7b', ']', '\x7d', ','].all fun c =>
        !isNumberUnit (unit c)) = true := by decide
    rintro c hc rfl
    have hmark := List.all_eq_true.mp hmarks c hc
    rw [h] at hmark
    exact Bool.noConfusion hmark

/-- What a value starts with is no white space, and closes no array. -/
theorem write_eq_cons {v : JsonValue (List CodeUnit) N} (h : v.Keyed F.Readable) :
    ∃ u us, write F v = u :: us ∧ isJsonSpace u = false ∧ unit ']' ≠ u := by
  cases v with
  | null => exact ⟨_, _, rfl, by decide, by decide⟩
  | bool b => cases b <;> exact ⟨_, _, rfl, by decide, by decide⟩
  | number n =>
    obtain ⟨hne, hunits, -⟩ : F.Readable n := h
    obtain ⟨u, us, hrender⟩ := List.exists_cons_of_ne_nil hne
    rw [hrender] at hunits
    obtain ⟨hspace, hmarks⟩ := ne_of_isNumberUnit (hunits u List.mem_cons_self)
    exact ⟨u, us, hrender, hspace, (hmarks ']' (by decide)).symm⟩
  | text => exact ⟨_, _, rfl, by decide, by decide⟩
  | array => exact ⟨_, _, rfl, by decide, by decide⟩
  | object => exact ⟨_, _, rfl, by decide, by decide⟩

/-- Nothing of a number is left at the start of a text. -/
def EndsNumber (rest : List CodeUnit) : Prop := ∀ u ∈ rest.head?, isNumberUnit u = false

theorem endsNumber_cons {u : CodeUnit} (h : isNumberUnit u = false) (us : List CodeUnit) :
    EndsNumber (u :: us) := fun _ hu => Option.some.inj hu ▸ h

/-- A number is taken off a text as it was written. -/
theorem span_number {n rest : List CodeUnit} (hn : ∀ u ∈ n, isNumberUnit u = true)
    (hrest : EndsNumber rest) :
    (n ++ rest).takeWhile isNumberUnit = n ∧ (n ++ rest).dropWhile isNumberUnit = rest := by
  rw [List.takeWhile_append_of_pos hn, List.dropWhile_append_of_pos hn]
  cases rest with
  | nil => exact ⟨List.append_nil n, rfl⟩
  | cons u us =>
    have hu : ¬ isNumberUnit u = true := by
      rw [hrest u rfl]
      exact Bool.false_ne_true
    rw [List.takeWhile_cons_of_neg hu, List.dropWhile_cons_of_neg hu]
    exact ⟨List.append_nil n, rfl⟩

/-- **A value that was written is read back** from any text it starts: what
the induction over a value is about. -/
def ReadsBack (F : NumberFormat N) (v : JsonValue (List CodeUnit) N) : Prop :=
  ∀ fuel rest, (write F v).length ≤ fuel → EndsNumber rest →
    readValue F fuel (write F v ++ rest) = some (v, rest)

/-- The elements of an array are read back. -/
theorem readElements_write {vs : List (JsonValue (List CodeUnit) N)} (hne : vs ≠ [])
    (h : ∀ v ∈ vs, ReadsBack F v) (fuel : ℕ) (rest : List CodeUnit)
    (hfuel : (joinCommas (writeValues F vs)).length < fuel) :
    readElements F fuel (joinCommas (writeValues F vs) ++ (unit ']' :: rest)) =
      some (vs, rest) := by
  induction vs generalizing fuel with
  | nil => exact absurd rfl hne
  | cons v vs ih =>
    obtain ⟨hv, hvs⟩ := List.forall_mem_cons.mp h
    obtain ⟨fuel, rfl⟩ := Nat.exists_eq_add_one_of_ne_zero (Nat.ne_of_gt (Nat.zero_lt_of_lt hfuel))
    rw [readElements]
    cases vs with
    | nil =>
      have hread := hv fuel (unit ']' :: rest) (Nat.le_of_lt_succ hfuel)
        (endsNumber_cons (by decide) rest)
      show (readValue F fuel (write F v ++ (unit ']' :: rest)) >>= _) = _
      rw [hread, Option.bind_eq_bind, Option.bind_some]
      dsimp only
      rw [skipSpace_cons (by decide)]
      exact if_pos rfl
    | cons w ws =>
      have hlength : (joinCommas (writeValues F (v :: w :: ws))).length =
          (write F v).length + ((joinCommas (writeValues F (w :: ws))).length + 1) :=
        List.length_append
      rw [hlength] at hfuel
      have hread := hv fuel (unit ',' :: (joinCommas (writeValues F (w :: ws)) ++
        (unit ']' :: rest))) (by omega) (endsNumber_cons (by decide) _)
      have hothers := ih (List.cons_ne_nil _ _) hvs fuel (by omega)
      have htext : joinCommas (writeValues F (v :: w :: ws)) ++ (unit ']' :: rest) =
          write F v ++ (unit ',' :: (joinCommas (writeValues F (w :: ws)) ++ (unit ']' :: rest))) := by
        show (write F v ++ (unit ',' :: joinCommas (writeValues F (w :: ws)))) ++ _ = _
        rw [List.append_assoc, List.cons_append]
      rw [htext, hread, Option.bind_eq_bind, Option.bind_some]
      dsimp only
      rw [skipSpace_cons (by decide)]
      dsimp only
      rw [if_neg (by decide), if_pos rfl, hothers]
      rfl

/-- The fields of an object are read back. -/
theorem readMembers_write {fs : List (List CodeUnit × JsonValue (List CodeUnit) N)} (hne : fs ≠ [])
    (h : ∀ f ∈ fs, ReadsBack F f.2) (fuel : ℕ) (rest : List CodeUnit)
    (hfuel : (joinCommas (writeFields F fs)).length < fuel) :
    readMembers F fuel (joinCommas (writeFields F fs) ++ (unit '\x7d' :: rest)) =
      some (fs, rest) := by
  have hfield : ∀ (k : List CodeUnit) (v : JsonValue (List CodeUnit) N) (fuel : ℕ)
      (rest : List CodeUnit), ReadsBack F v → (write F v).length ≤ fuel → EndsNumber rest →
      readMembers F (fuel + 1) ((quote k ++ (unit ':' :: write F v)) ++ rest) =
        match skipSpace rest with
        | [] => none
        | u :: rest =>
          if u = unit '\x7d' then some ([(k, v)], rest)
          else if u = unit ',' then
            (readMembers F fuel rest).map fun read => ((k, v) :: read.1, read.2)
          else none := by
    intro k v fuel rest hv hfuel hrest
    have htext : (quote k ++ (unit ':' :: write F v)) ++ rest =
        unit '"' :: (escapeText k ++ (unit '"' :: (unit ':' :: (write F v ++ rest)))) := by
      simp [quote]
    rw [htext, readMembers, skipSpace_cons (by decide), behind_mark, Option.bind_eq_bind,
      Option.bind_some, readText_escapeText, Option.bind_eq_bind, Option.bind_some]
    dsimp only
    rw [skipSpace_cons (by decide), behind_mark, Option.bind_some, hv fuel rest hfuel hrest,
      Option.bind_eq_bind, Option.bind_some]
  induction fs generalizing fuel with
  | nil => exact absurd rfl hne
  | cons f fs ih =>
    obtain ⟨k, v⟩ := f
    obtain ⟨hv, hfs⟩ := List.forall_mem_cons.mp h
    obtain ⟨fuel, rfl⟩ := Nat.exists_eq_add_one_of_ne_zero (Nat.ne_of_gt (Nat.zero_lt_of_lt hfuel))
    cases fs with
    | nil =>
      have hlength : (joinCommas (writeFields F [(k, v)])).length =
          (quote k).length + ((write F v).length + 1) := List.length_append
      rw [hlength] at hfuel
      show readMembers F (fuel + 1) ((quote k ++ (unit ':' :: write F v)) ++ (unit '\x7d' :: rest)) = _
      rw [hfield k v fuel _ hv (by omega) (endsNumber_cons (by decide) _),
        skipSpace_cons (by decide)]
      exact if_pos rfl
    | cons g gs =>
      have hlength : (joinCommas (writeFields F ((k, v) :: g :: gs))).length =
          ((quote k).length + ((write F v).length + 1)) +
            ((joinCommas (writeFields F (g :: gs))).length + 1) :=
        List.length_append.trans (congrArg (· + _) List.length_append)
      rw [hlength] at hfuel
      have htext : joinCommas (writeFields F ((k, v) :: g :: gs)) ++ (unit '\x7d' :: rest) =
          (quote k ++ (unit ':' :: write F v)) ++
            (unit ',' :: (joinCommas (writeFields F (g :: gs)) ++ (unit '\x7d' :: rest))) := by
        show ((quote k ++ (unit ':' :: write F v)) ++
          (unit ',' :: joinCommas (writeFields F (g :: gs)))) ++ _ = _
        rw [List.append_assoc, List.cons_append]
      rw [htext, hfield k v fuel _ hv (by omega) (endsNumber_cons (by decide) _),
        skipSpace_cons (by decide)]
      dsimp only
      rw [if_neg (by decide), if_pos rfl, ih (List.cons_ne_nil _ _) hfs fuel (by omega)]
      rfl

/-- Fields under distinct keys are set one behind the other. -/
theorem foldl_setField (fs gs : List (List CodeUnit × JsonValue (List CodeUnit) N))
    (h : ((gs ++ fs).map Prod.fst).Nodup) : fs.foldl setField gs = gs ++ fs := by
  induction fs generalizing gs with
  | nil => rw [List.foldl_nil, List.append_nil]
  | cons f fs ih =>
    have hnew : f.1 ∉ gs.map Prod.fst := by
      intro hmem
      rw [List.map_append, List.nodup_append] at h
      exact h.2.2 f.1 hmem f.1 List.mem_cons_self rfl
    rw [List.foldl_cons, setField, if_neg hnew, ih, List.append_assoc, List.singleton_append]
    rwa [List.append_assoc, List.singleton_append]

/-- A list of texts starts with the first of them. -/
theorem joinCommas_cons (part : List CodeUnit) (parts : List (List CodeUnit)) :
    ∃ more, joinCommas (part :: parts) = part ++ more := by
  cases parts with
  | nil => exact ⟨[], (List.append_nil part).symm⟩
  | cons => exact ⟨_, rfl⟩

/-- A value is read back when it is with some fuel left. -/
theorem readsBack_of_succ {v : JsonValue (List CodeUnit) N} (hv : v.Keyed F.Readable)
    (h : ∀ fuel rest, (write F v).length ≤ fuel + 1 → EndsNumber rest →
      readValue F (fuel + 1) (write F v ++ rest) = some (v, rest)) : ReadsBack F v := by
  intro fuel rest hfuel hrest
  obtain ⟨u, us, hwrite, -⟩ := write_eq_cons hv
  cases fuel with
  | zero =>
    rw [hwrite] at hfuel
    exact absurd hfuel (Nat.not_succ_le_zero _)
  | succ fuel => exact h fuel rest hfuel hrest

/-- **Every value is read back**, when its numbers are and no object has a
key twice. -/
theorem readsBack {v : JsonValue (List CodeUnit) N} (h : v.Keyed F.Readable) : ReadsBack F v := by
  induction v using JsonValue.parts_induction with
  | null =>
    refine readsBack_of_succ h fun fuel rest _ _ => ?_
    show readValue F (fuel + 1) (unit 'n' :: (units "ull" ++ rest)) = _
    rw [readValue, skipSpace_cons (by decide)]
    dsimp only
    rw [if_pos rfl, behind_append]
    rfl
  | bool b =>
    refine readsBack_of_succ h fun fuel rest _ _ => ?_
    cases b with
    | true =>
      show readValue F (fuel + 1) (unit 't' :: (units "rue" ++ rest)) = _
      rw [readValue, skipSpace_cons (by decide)]
      dsimp only
      rw [if_neg (by decide), if_pos rfl, behind_append]
      rfl
    | false =>
      show readValue F (fuel + 1) (unit 'f' :: (units "alse" ++ rest)) = _
      rw [readValue, skipSpace_cons (by decide)]
      dsimp only
      rw [if_neg (by decide), if_neg (by decide), if_pos rfl, behind_append]
      rfl
  | number n =>
    refine readsBack_of_succ h fun fuel rest _ hrest => ?_
    obtain ⟨hne, hunits, hread⟩ : F.Readable n := h
    obtain ⟨u, us, hrender⟩ := List.exists_cons_of_ne_nil hne
    have hu : isNumberUnit u = true := hunits u (hrender ▸ List.mem_cons_self)
    obtain ⟨hspace, hmarks⟩ := ne_of_isNumberUnit hu
    obtain ⟨htake, hdrop⟩ := span_number hunits hrest
    rw [hrender, List.cons_append] at htake hdrop
    show readValue F (fuel + 1) (F.render n ++ rest) = _
    rw [hrender, List.cons_append, readValue, skipSpace_cons hspace]
    dsimp only
    rw [if_neg (hmarks 'n' (by decide)), if_neg (hmarks 't' (by decide)),
      if_neg (hmarks 'f' (by decide)), if_neg (hmarks '"' (by decide)),
      if_neg (hmarks '[' (by decide)), if_neg (hmarks '{' (by decide)), if_pos hu, htake, hdrop,
      ← hrender, hread]
    rfl
  | text s =>
    refine readsBack_of_succ h fun fuel rest _ _ => ?_
    have htext : write F (.text s) ++ rest =
        unit '"' :: (escapeText s ++ (unit '"' :: rest)) := by
      simp [write, quote]
    rw [htext, readValue, skipSpace_cons (by decide)]
    dsimp only
    rw [if_neg (by decide), if_neg (by decide), if_neg (by decide), if_pos rfl,
      readText_escapeText]
    rfl
  | array vs ih =>
    refine readsBack_of_succ h fun fuel rest hfuel _ => ?_
    rw [JsonValue.keyed_array] at h
    have htext : write F (.array vs) ++ rest =
        unit '[' :: (joinCommas (writeValues F vs) ++ (unit ']' :: rest)) := by
      simp [write]
    rw [htext, readValue, skipSpace_cons (by decide)]
    dsimp only
    rw [if_neg (by decide), if_neg (by decide), if_neg (by decide), if_neg (by decide), if_pos rfl]
    cases vs with
    | nil =>
      rw [writeValues, joinCommas, List.nil_append, skipSpace_cons (by decide), behind_mark]
    | cons v vs =>
      obtain ⟨u, us, hwrite, hspace, hopen⟩ := write_eq_cons (h v List.mem_cons_self)
      obtain ⟨more, hjoin⟩ := joinCommas_cons (write F v) (writeValues F vs)
      have hlength : (write F (.array (v :: vs))).length =
          (joinCommas (writeValues F (v :: vs))).length + 1 + 1 := by
        simp [write]
      rw [hlength] at hfuel
      have hread := readElements_write (List.cons_ne_nil v vs)
        (fun w hw => ih w hw (h w hw)) fuel rest (by omega)
      have hnone : behind [unit ']']
          (skipSpace (joinCommas (writeValues F (v :: vs)) ++ (unit ']' :: rest))) = none := by
        rw [writeValues, hjoin, hwrite, List.cons_append, List.cons_append, skipSpace_cons hspace]
        exact behind_of_ne hopen _
      rw [hnone, hread]
      rfl
  | object fs ih =>
    refine readsBack_of_succ h fun fuel rest hfuel _ => ?_
    rw [JsonValue.keyed_object] at h
    have htext : write F (.object fs) ++ rest =
        unit '\x7b' :: (joinCommas (writeFields F fs) ++ (unit '\x7d' :: rest)) := by
      simp [write]
    rw [htext, readValue, skipSpace_cons (by decide)]
    dsimp only
    rw [if_neg (by decide), if_neg (by decide), if_neg (by decide), if_neg (by decide),
      if_neg (by decide), if_pos rfl]
    cases fs with
    | nil =>
      rw [writeFields, joinCommas, List.nil_append, skipSpace_cons (by decide), behind_mark]
    | cons f fs =>
      obtain ⟨k, v⟩ := f
      obtain ⟨more, hjoin⟩ := joinCommas_cons (quote k ++ (unit ':' :: write F v)) (writeFields F fs)
      have hlength : (write F (.object ((k, v) :: fs))).length =
          (joinCommas (writeFields F ((k, v) :: fs))).length + 1 + 1 := by
        simp [write]
      rw [hlength] at hfuel
      have hread := readMembers_write (List.cons_ne_nil (k, v) fs)
        (fun g hg => ih g hg (h.2 g hg)) fuel rest (by omega)
      have hnone : behind [unit '\x7d']
          (skipSpace (joinCommas (writeFields F ((k, v) :: fs)) ++ (unit '\x7d' :: rest))) =
            none := by
        rw [writeFields, hjoin, quote, List.cons_append, List.cons_append, List.cons_append,
          skipSpace_cons (by decide)]
        exact behind_of_ne (by decide) _
      rw [hnone, hread]
      show some (JsonValue.object (((k, v) :: fs).foldl setField []), rest) = _
      rw [foldl_setField _ [] h.1]
      rfl

/-- **What was written is read back**, as a whole. -/
theorem parse_write {v : JsonValue (List CodeUnit) N} (h : v.Keyed F.Readable) :
    parse F (write F v) = some v := by
  have hread := readsBack h ((write F v).length + 1) [] (Nat.le_succ _) (fun _ hu => nomatch hu)
  rw [List.append_nil] at hread
  rw [parse, hread]
  rfl

/-! ## No surrogate stands alone -/

theorem plain_of_lt {u : CodeUnit} (h : u.val < 0xD800) : Plain u := by
  unfold Plain isHigh isLow
  simp only [Bool.and_eq_false_iff, decide_eq_false_iff_not]
  omega

theorem plain_hexUnit {n : ℕ} (h : n < 16) : Plain (hexUnit n) := by
  refine plain_of_lt ?_
  interval_cases n <;> decide

theorem wellFormed_escape (u : CodeUnit) : WellFormed (escape u) := by
  have hlt := u.isLt
  unfold escape
  split
  · next letter hletter =>
    refine wellFormed_of_forall (List.forall_mem_cons.mpr ⟨plain_of_lt (by decide),
      List.forall_mem_singleton.mpr (plain_of_lt ?_)⟩)
    unfold shortEscape at hletter
    split_ifs at hletter <;> obtain rfl := Option.some.inj hletter <;> decide
  · split
    · refine wellFormed_of_forall ?_
      unfold escapeNumber
      simp only [List.forall_mem_cons]
      exact ⟨plain_of_lt (by decide), plain_of_lt (by decide), plain_hexUnit (by omega),
        plain_hexUnit (by omega), plain_hexUnit (by omega), plain_hexUnit (by omega),
        List.forall_mem_nil _⟩
    · next hself =>
      rw [not_or, not_or, Bool.not_eq_true, Bool.not_eq_true] at hself
      exact hself.2

theorem wellFormed_escapeText (s : List CodeUnit) : WellFormed (escapeText s) := by
  fun_induction escapeText s with
  | case1 => trivial
  | case2 u => exact wellFormed_escape u
  | case3 h l s hpair ih => exact (wellFormed_pair hpair.1 hpair.2).mpr ih
  | case4 h l s hpair ih => exact (wellFormed_escape h).append ih

/-- A mark in front of a text. -/
theorem wellFormed_mark {u : CodeUnit} (hu : u.val < 0xD800) {us : List CodeUnit}
    (h : WellFormed us) : WellFormed (u :: us) :=
  (wellFormed_cons (plain_of_lt hu)).mpr h

theorem wellFormed_quote (s : List CodeUnit) : WellFormed (quote s) :=
  wellFormed_mark (by decide) ((wellFormed_escapeText s).append (wellFormed_mark (by decide) trivial))

theorem wellFormed_joinCommas {parts : List (List CodeUnit)} (h : ∀ part ∈ parts, WellFormed part) :
    WellFormed (joinCommas parts) := by
  induction parts with
  | nil => trivial
  | cons part parts ih =>
    obtain ⟨hpart, hparts⟩ := List.forall_mem_cons.mp h
    cases parts with
    | nil => exact hpart
    | cons => exact hpart.append (wellFormed_mark (by decide) (ih hparts))

theorem writeValues_eq (vs : List (JsonValue (List CodeUnit) N)) :
    writeValues F vs = vs.map (write F) := by
  induction vs with
  | nil => rfl
  | cons v vs ih => rw [writeValues, ih, List.map_cons]

/-- A field as a text. -/
def writeField (F : NumberFormat N) (f : List CodeUnit × JsonValue (List CodeUnit) N) :
    List CodeUnit :=
  quote f.1 ++ (unit ':' :: write F f.2)

theorem writeFields_eq (fs : List (List CodeUnit × JsonValue (List CodeUnit) N)) :
    writeFields F fs = fs.map (writeField F) := by
  induction fs with
  | nil => rfl
  | cons f fs ih => rw [writeFields, ih, List.map_cons, writeField]

/-- A text below the surrogates. -/
theorem wellFormed_units {s : String} (h : (s.toList.all fun c => c.toNat < 0xD800) = true) :
    WellFormed (units s) := by
  refine wellFormed_of_forall (List.forall_mem_map.mpr fun c hc => plain_of_lt ?_)
  have hlt := of_decide_eq_true (List.all_eq_true.mp h c hc)
  show c.toNat % 65536 < 0xD800
  omega

/-- **No surrogate stands alone in what is written**, whatever the texts of
the value have. -/
theorem wellFormed_write {v : JsonValue (List CodeUnit) N} (h : v.Keyed F.Readable) :
    WellFormed (write F v) := by
  induction v using JsonValue.parts_induction with
  | null =>
    exact @wellFormed_units "null" (by decide)
  | bool b =>
    cases b with
    | true =>
      exact @wellFormed_units "true" (by decide)
    | false =>
      exact @wellFormed_units "false" (by decide)
  | number n =>
    obtain ⟨-, hunits, -⟩ : F.Readable n := h
    refine wellFormed_of_forall fun u hu => plain_of_lt ?_
    have hunit := hunits u hu
    unfold isNumberUnit at hunit
    simp only [Bool.or_eq_true, Bool.and_eq_true, decide_eq_true_eq, or_assoc] at hunit
    rcases hunit with hunit | rfl | rfl | rfl | rfl | rfl
    · omega
    all_goals decide
  | text s => exact wellFormed_quote s
  | array vs ih =>
    rw [JsonValue.keyed_array] at h
    rw [write, writeValues_eq]
    refine wellFormed_mark (by decide) ((wellFormed_joinCommas fun part hpart => ?_).append
      (wellFormed_mark (by decide) trivial))
    obtain ⟨v, hv, rfl⟩ := List.mem_map.mp hpart
    exact ih v hv (h v hv)
  | object fs ih =>
    rw [JsonValue.keyed_object] at h
    rw [write, writeFields_eq]
    refine wellFormed_mark (by decide) ((wellFormed_joinCommas fun part hpart => ?_).append
      (wellFormed_mark (by decide) trivial))
    obtain ⟨f, hf, rfl⟩ := List.mem_map.mp hpart
    exact (wellFormed_quote f.1).append (wellFormed_mark (by decide) (ih f hf (h.2 f hf)))

end JsonSyntax
