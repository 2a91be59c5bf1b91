import Mathlib.Data.List.Infix
import Snowcat.Lib.JsonText
import Snowcat.Lib.Pattern

/-!
# Strings as the queue reads them

The JavaScript string operations the queue store calls, on Lean strings,
and the regular expressions it tests text against, written with the
pattern library in the order of the source's own expressions.

A string is a list of characters here; where the source counts or compares
UTF-16 code units (`String.length`, `Array.sort`) so does this module. The
prefixes the source tests after `toLowerCase` are `operator:`, `policy:`,
`system:` and `member:`, and no character outside ASCII lower-cases to a
text that starts with one of their letters and nothing else except the
Kelvin sign, whose `k` none of them has – so `toLowerCase` folds ASCII
letters only.
-/

namespace Snowcat

/-- White space and line terminators, as `String.prototype.trim` strips
them. -/
def isSpace (c : Char) : Bool :=
  c.val ∈ [0x09, 0x0A, 0x0B, 0x0C, 0x0D, 0x20, 0xA0, 0x1680, 0x2028, 0x2029, 0x202F, 0x205F,
    0x3000, 0xFEFF] || (0x2000 ≤ c.val && c.val ≤ 0x200A)

/-- `String.prototype.trim`. -/
def trim (s : String) : String :=
  String.ofList ((s.toList.dropWhile isSpace).reverse.dropWhile isSpace).reverse

/-- Whether a string has nothing but white space, which the source asks as
`!s.trim()`. -/
def isBlank (s : String) : Bool := s.toList.all isSpace

/-- `toLowerCase`, on the ASCII letters. -/
def toLowerCase (s : String) : String := String.ofList (s.toList.map Char.toLower)

/-- `String.prototype.startsWith`. -/
def startsWith (s p : String) : Bool := p.toList.isPrefixOf s.toList

/-- `String.prototype.endsWith`. -/
def endsWith (s p : String) : Bool := p.toList.isSuffixOf s.toList

/-- `String.prototype.includes`. -/
def includes (s t : String) : Bool := decide (t.toList <:+: s.toList)

/-- The UTF-16 code units of one character. -/
def utf16OfChar (c : Char) : List ℕ :=
  if c.toNat < 0x10000 then [c.toNat]
  else [0xD800 + (c.toNat - 0x10000) / 0x400, 0xDC00 + (c.toNat - 0x10000) % 0x400]

/-- The UTF-16 code units of a string. -/
def utf16 (s : String) : List ℕ := s.toList.flatMap utf16OfChar

/-- `String.prototype.length`. -/
def jsLength (s : String) : ℕ := (utf16 s).length

/-- The order `Array.prototype.sort` puts strings in. -/
def jsLe (s t : String) : Bool := decide (¬ utf16 t < utf16 s)

/-- The order SQLite's `BINARY` collation puts texts in: that of their UTF-8
bytes, which is that of their code points. -/
def binaryLe (s t : String) : Bool :=
  decide (¬ t.toList.map Char.toNat < s.toList.map Char.toNat)

/-- `[...new Set(values)].sort()`. -/
def sortedUnique (values : List String) : List String := values.eraseDups.mergeSort jsLe

/-- `Array.prototype.join`. -/
def joinWith (separator : String) (parts : List String) : String :=
  separator.intercalate parts

/-! ## The order of strings -/

theorem delimited_utf16OfChar : Delimited utf16OfChar := by
  intro c d r s h
  have hrange (c : Char) : c.toNat < 0x110000 ∧ (c.toNat < 0xD800 ∨ 0xE000 ≤ c.toNat) := by
    have := c.valid
    simp only [UInt32.isValidChar, Nat.isValidChar] at this
    show c.val.toNat < _ ∧ (c.val.toNat < _ ∨ _ ≤ c.val.toNat)
    omega
  have hc := hrange c
  have hd := hrange d
  unfold utf16OfChar at h
  split_ifs at h
  · obtain ⟨hunit, hrest⟩ := List.cons.inj h
    exact ⟨Char.toNat_inj.mp hunit, hrest⟩
  · obtain ⟨hunit, -⟩ := List.cons.inj h
    omega
  · obtain ⟨hunit, -⟩ := List.cons.inj h
    omega
  · obtain ⟨hhigh, htail⟩ := List.cons.inj h
    obtain ⟨hlow, hrest⟩ := List.cons.inj htail
    exact ⟨Char.toNat_inj.mp (by omega), hrest⟩

theorem utf16_injective : Function.Injective utf16 := fun _ _ h =>
  String.toList_inj.mp (delimited_utf16OfChar.flatMap_injective
    (fun c => by unfold utf16OfChar; split_ifs <;> exact List.cons_ne_nil _ _) h)

theorem jsLe_iff {s t : String} : jsLe s t = true ↔ List.le (utf16 s) (utf16 t) := by
  unfold jsLe
  exact decide_eq_true_iff

theorem jsLe_antisymm {s t : String} (hst : jsLe s t = true) (hts : jsLe t s = true) : s = t :=
  utf16_injective (List.le_antisymm (jsLe_iff.mp hst) (jsLe_iff.mp hts))

theorem jsLe_trans {s t u : String} (hst : jsLe s t = true) (htu : jsLe t u = true) :
    jsLe s u = true := by
  rw [jsLe_iff] at hst htu ⊢
  exact List.le_trans hst htu

theorem jsLe_total (s t : String) : jsLe s t = true ∨ jsLe t s = true := by
  rw [jsLe_iff, jsLe_iff]
  exact List.le_total _ _

/-! ## Blank texts -/

theorem isBlank_append (s t : String) : isBlank (s ++ t) = (isBlank s && isBlank t) := by
  rw [isBlank, String.toList_append, List.all_append]
  rfl

/-- A text is not blank when it starts with one that is not. -/
theorem isBlank_append_left {s t : String} (h : isBlank s = false) : isBlank (s ++ t) = false := by
  rw [isBlank_append, h]
  rfl

/-- A text that starts with something else than white space is not blank. -/
theorem isBlank_ofList_cons {c : Char} {cs : List Char} (h : isSpace c = false) :
    isBlank (String.ofList (c :: cs)) = false := by
  rw [isBlank, String.toList_ofList, List.all_cons, h]
  rfl

theorem mem_intersperse {α : Type} {separator a : α} {as : List α} (h : a ∈ as) :
    a ∈ as.intersperse separator := by
  induction as with
  | nil => exact nomatch h
  | cons b bs ih =>
    cases bs with
    | nil => exact h
    | cons c cs =>
      rw [List.intersperse_cons_cons]
      rcases List.mem_cons.mp h with rfl | h
      · exact List.mem_cons_self ..
      · exact List.mem_cons_of_mem _ (List.mem_cons_of_mem _ (ih h))

/-- **A joined text is not blank** when one of its parts is not. -/
theorem isBlank_joinWith {separator part : String} {parts : List String} (hpart : part ∈ parts)
    (h : isBlank part = false) : isBlank (joinWith separator parts) = false := by
  rw [isBlank, List.all_eq_false] at h ⊢
  obtain ⟨c, hc, hspace⟩ := h
  refine ⟨c, ?_, hspace⟩
  rw [joinWith, String.toList_intercalate, List.intercalate, List.mem_flatten]
  exact ⟨part.toList, mem_intersperse (List.mem_map_of_mem hpart), hc⟩

/-- Trimming a word with no white space in it changes nothing. -/
theorem trim_eq_self {s : String} (h : ∀ c ∈ s.toList, isSpace c = false) : trim s = s := by
  have hdrop : ∀ l : List Char, (∀ c ∈ l, isSpace c = false) → l.dropWhile isSpace = l := by
    intro l hl
    cases l with
    | nil => rfl
    | cons c l =>
      rw [List.dropWhile_cons, hl c List.mem_cons_self]
      rfl
  unfold trim
  rw [hdrop _ h, hdrop _ (fun c hc => h c (List.mem_reverse.mp hc)), List.reverse_reverse,
    String.ofList_toList]

/-! ## The regular expressions of the queue store -/

namespace Patterns

open Pattern

/-- `[a-z]`. -/
def lowerLetter (c : Char) : Bool := 'a' ≤ c && c ≤ 'z'

/-- `[0-9]`. -/
def digit (c : Char) : Bool := '0' ≤ c && c ≤ '9'

/-- `[1-9]`. -/
def nonzeroDigit (c : Char) : Bool := '1' ≤ c && c ≤ '9'

/-- `[0-9a-f]`. -/
def hexDigit (c : Char) : Bool := digit c || ('a' ≤ c && c ≤ 'f')

/-- `[A-Za-z0-9]`. -/
def alphanumeric (c : Char) : Bool := lowerLetter c || ('A' ≤ c && c ≤ 'Z') || digit c

/-- `[1-9][0-9]*`. -/
def positiveInteger : Pattern := .seq (.one nonzeroDigit) (.star (.one digit))

/-- `[^/]+`. -/
def segment : Pattern := plus (.one fun c => c != '/')

/-- `[^\s/]+`. -/
def spacelessSegment : Pattern := plus (.one fun c => !isSpace c && c != '/')

/-- `WORK_KIND_PATTERN`: `/^[a-z][a-z0-9-]{1,63}$/`. -/
def workKind : Pattern :=
  let letter : Pattern := .one fun c => lowerLetter c || digit c || c == '-'
  .seq (.one lowerLetter) (.seq letter (upTo letter 62))

/-- The slug of a repository: `/^[A-Za-z0-9_.-]+\/[A-Za-z0-9_.-]+$/`. -/
def repository : Pattern :=
  let name : Pattern := plus (.one fun c => alphanumeric c || c == '_' || c == '.' || c == '-')
  all [name, .one (· == '/'), name]

/-- `CLAIM_LABEL_PATTERN`: `/^[^\p{Cc}]{1,120}$/u`. -/
def claimLabel : Pattern :=
  let printable : Pattern :=
    .one fun c => !(c.toNat < 0x20 || (0x7F ≤ c.toNat && c.toNat < 0xA0))
  .seq printable (upTo printable 119)

/-- A GitHub pull-request URL:
`/^https:\/\/github\.com\/[^/]+\/[^/]+\/pull\/[1-9][0-9]*$/`. -/
def pullRequestUrl : Pattern :=
  all [lit "https://github.com/", segment, lit "/", segment, lit "/pull/", positiveInteger]

/-- A GitHub pull-request URL as an observation carries it:
`/^https:\/\/github\.com\/[^\s/]+\/[^\s/]+\/pull\/[1-9][0-9]*$/`. -/
def spacelessPullRequestUrl : Pattern :=
  all [lit "https://github.com/", spacelessSegment, lit "/", spacelessSegment, lit "/pull/",
    positiveInteger]

/-- `PREDECESSOR_URL_PATTERN`:
`/^https:\/\/github\.com\/[^\s/]+\/[^\s/]+\/issues\/[1-9][0-9]*$/`. -/
def predecessorUrl : Pattern :=
  all [lit "https://github.com/", spacelessSegment, lit "/", spacelessSegment, lit "/issues/",
    positiveInteger]

/-- A commit: `/^[0-9a-f]{40}$/`. -/
def commitSha : Pattern := times (.one hexDigit) 40

/-- A digest: `/^sha256:[0-9a-f]{64}$/`. -/
def sha256Digest : Pattern := .seq (lit "sha256:") (times (.one hexDigit) 64)

/-- A source reference that names a pull request at a head:
`/^[a-z][a-z0-9-]*:https:\/\/github\.com\/[^/]+\/[^/]+\/pull\/[1-9][0-9]*@[0-9a-f]{40}$/`. -/
def pullRequestBinding : Pattern :=
  all [.one lowerLetter, .star (.one fun c => lowerLetter c || digit c || c == '-'), lit ":",
    pullRequestUrl, lit "@", commitSha]

/-- `MODEL_NAME_PATTERN`: `/^[a-z0-9][a-z0-9._:/@-]{1,120}$/i`. -/
def modelName : Pattern :=
  let letter : Pattern := .one fun c => alphanumeric c || c ∈ ['.', '_', ':', '/', '@', '-']
  .seq (.one alphanumeric) (.seq letter (upTo letter 119))

/-- The characters of a release tag: letters, digits and five punctuation
marks, at most 128 of them. -/
def releaseTagCharacters : Pattern :=
  let letter : Pattern := .one fun c => alphanumeric c || c ∈ ['.', '_', '+', '/', '-']
  .seq letter (upTo letter 127)

/-- `RELEASE_TAG_PATTERN`: those characters, no leading dash and no two dots in a row. -/
def releaseTag (tag : String) : Bool :=
  !startsWith tag "-" && !includes tag ".." && releaseTagCharacters.test tag

/-- The commit segment of an artifact URL: `/^[0-9a-f]{7,64}$/i`. -/
def commitSegment : Pattern :=
  let letter : Pattern := .one fun c => hexDigit c || ('A' ≤ c && c ≤ 'F')
  .seq (times letter 7) (upTo letter 57)

/-- A work kind has no white space in it, so trimming one changes nothing. -/
theorem trim_workKind {kind : String} (h : workKind.test kind = true) : trim kind = kind := by
  refine trim_eq_self fun c hc => ?_
  have huse := (workKind.test_iff kind).mp h |>.uses c hc
  have hupTo : ∀ (p : Pattern) (n : ℕ), (p.upTo n).uses c = true → p.uses c = true := by
    intro p n
    induction n with
    | zero => intro h; exact absurd h (by simp [upTo, uses])
    | succ n ih =>
      intro h
      simp only [upTo, uses, Bool.false_or, Bool.or_eq_true] at h
      exact h.elim id ih
  have hclass : (lowerLetter c || digit c || c == '-') = true := by
    simp only [workKind, uses, Bool.or_eq_true] at huse
    rcases huse with h | h | h
    · simp [h]
    · simpa using h
    · simpa [uses] using hupTo _ _ h
  have hrange : c = '-' ∨ (0x30 ≤ c.val.toNat ∧ c.val.toNat ≤ 0x7A) := by
    simp only [lowerLetter, digit, Bool.or_eq_true, Bool.and_eq_true, decide_eq_true_eq,
      beq_iff_eq, Char.le_def, UInt32.le_iff_toNat_le] at hclass
    rcases hclass with (⟨h₁, h₂⟩ | ⟨h₁, h₂⟩) | h
    · exact Or.inr ⟨le_trans (by decide) h₁, h₂⟩
    · exact Or.inr ⟨h₁, le_trans h₂ (by decide)⟩
    · exact Or.inl h
  rcases hrange with rfl | ⟨h₁, h₂⟩
  · decide
  · -- every white-space character lies outside the range of digits and letters
    have hne : ∀ v : UInt32, v.toNat < 0x30 ∨ 0x7A < v.toNat → c.val ≠ v := by
      rintro v hv rfl
      omega
    simp only [isSpace, List.mem_cons, List.not_mem_nil, or_false, Bool.or_eq_false_iff,
      decide_eq_false_iff_not, Bool.and_eq_false_iff, not_or, UInt32.le_iff_toNat_le]
    refine ⟨?_, Or.inl ?_⟩
    · refine ⟨?_, ?_, ?_, ?_, ?_, ?_, ?_, ?_, ?_, ?_, ?_, ?_, ?_, ?_⟩ <;>
        exact hne _ (by decide)
    · rw [not_le]
      exact lt_of_le_of_lt h₂ (by decide)

end Patterns

end Snowcat
