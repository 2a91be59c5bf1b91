import Snowcat.Lib.CodeUnits
import Snowcat.Lib.Utf8

/-!
# Diagnostics

What a failure says is stored with the failure, once `sanitizeDiagnostic` has
been over it: control characters become spaces, what follows a keyword such as
`token` and its separator is taken out, white space is folded, and what is left
is cut to 512 bytes. `isBoundedDiagnostic` is the check of what is stored.

A regular expression that is replaced everywhere is a pass over the text from
left to right, and the text is one of code units, in which a surrogate may stand
alone.
-/

namespace Snowcat

open CodeUnits

/-! ## Classes of code units -/

/-- `[\u0000-\u001f\u007f]`. -/
def isControl (u : CodeUnit) : Bool := u.val ≤ 0x1F || u.val == 0x7F

/-- `\s`. -/
def isWhite (u : CodeUnit) : Bool :=
  [0x09, 0x0A, 0x0B, 0x0C, 0x0D, 0x20, 0xA0, 0x1680, 0x2028, 0x2029, 0x202F, 0x205F, 0x3000,
    0xFEFF].contains u.val || (0x2000 ≤ u.val && u.val ≤ 0x200A)

/-- `\w`. -/
def isWordUnit (u : CodeUnit) : Bool :=
  (0x30 ≤ u.val && u.val ≤ 0x39) || (0x41 ≤ u.val && u.val ≤ 0x5A) || u.val == 0x5F ||
    (0x61 ≤ u.val && u.val ≤ 0x7A)

/-- `[:=]`. -/
def isSeparator (u : CodeUnit) : Bool := u == unit ':' || u == unit '='

/-- A letter in small, as the `i` flag compares it. -/
def lowerUnit (u : CodeUnit) : CodeUnit :=
  if 0x41 ≤ u.val ∧ u.val ≤ 0x5A then Fin.ofNat 65536 (u.val + 0x20) else u

/-! ## The passes -/

/-- `text.replace(/[…]+/g, " ")`, of a class of code units, behind one of them
or not. -/
def replaceRuns (cls : CodeUnit → Bool) (inRun : Bool) : List CodeUnit → List CodeUnit
  | [] => []
  | u :: us =>
    if cls u then
      if inRun then replaceRuns cls true us else unit ' ' :: replaceRuns cls true us
    else u :: replaceRuns cls false us

/-- `token|password|secret|authorization`. -/
def credentialKeywords : List (List CodeUnit) :=
  ["token", "password", "secret", "authorization"].map units

/-- What takes the place of a credential. -/
def redacted : List CodeUnit := units "[redacted]"

/-- `(\s*[:=]\s*)\S+`, behind a keyword: what is kept with the keyword, and how
many code units are taken out. -/
def matchBehind (keyword rest : List CodeUnit) : Option (List CodeUnit × ℕ) :=
  match rest.dropWhile isWhite with
  | [] => none
  | separator :: behind =>
    let run := (behind.dropWhile isWhite).takeWhile fun u => !isWhite u
    if isSeparator separator = true ∧ run ≠ [] then
      some (keyword ++ rest.takeWhile isWhite ++ separator :: behind.takeWhile isWhite, run.length)
    else none

/-- `(token|password|secret|authorization)(\s*[:=]\s*)\S+`, at the beginning of a
text, whatever the case of the keyword is. -/
def matchCredential (us : List CodeUnit) : Option (List CodeUnit × ℕ) :=
  credentialKeywords.findSome? fun keyword =>
    if (us.take keyword.length).map lowerUnit = keyword then
      matchBehind (us.take keyword.length) (us.drop keyword.length)
    else none

/-- `text.replace(/\b…/gi, "$1$2[redacted]")`, behind a `\w` or not, with so many
code units to skip that a match has taken. -/
def redactFrom : Bool → ℕ → List CodeUnit → List CodeUnit
  | _, _, [] => []
  | _, skip + 1, u :: us => redactFrom (isWordUnit u) skip us
  | inWord, 0, u :: us =>
    match if inWord then none else matchCredential (u :: us) with
    | none => u :: redactFrom (isWordUnit u) 0 us
    | some (kept, removed) =>
      kept ++ redacted ++ redactFrom (isWordUnit u) (kept.length + removed - 1) us

/-- `text.trim()`. -/
def trimWhite (us : List CodeUnit) : List CodeUnit :=
  ((us.dropWhile isWhite).reverse.dropWhile isWhite).reverse

/-- `normalized`. -/
def normalizeDiagnostic (value : List CodeUnit) : List CodeUnit :=
  trimWhite (replaceRuns isWhite false (redactFrom false 0 (replaceRuns isControl false value)))

/-- The bound of a diagnostic, in bytes. -/
def maximumDiagnosticBytes : ℕ := 512

/-- `new TextDecoder("utf-8").decode(bytes)`, which leaves a byte order mark
out. -/
def textDecoder (bytes : List UInt8) : List Char :=
  match Utf8.read none bytes with
  | [] => []
  | c :: cs => if c = Utf8.byteOrderMark then cs else c :: cs

/-- `text.replace(/\uFFFD$/u, "")`. -/
def dropReplacement (cs : List Char) : List Char :=
  if cs.getLast? = some Utf8.replacement then cs.dropLast else cs

/-- **`sanitizeDiagnostic`.** -/
def sanitizeDiagnostic (value fallback : List CodeUnit) : List CodeUnit :=
  let normalized := normalizeDiagnostic value
  let text := if normalized = [] then fallback else normalized
  let bounded := (Utf8.encode (decode text)).take maximumDiagnosticBytes
  ofChars (dropReplacement (textDecoder bounded))

/-- `sanitizeCoreDiagnostic`. -/
def sanitizeCoreDiagnostic (value : List CodeUnit) : List CodeUnit :=
  sanitizeDiagnostic value (units "Unspecified Core candidate rejection")

/-- **`isBoundedDiagnostic`.** -/
def Diagnostic.isBoundedDiagnostic (value : List CodeUnit) : Bool :=
  let byteLength := (Utf8.encode (decode value)).length
  1 ≤ byteLength && byteLength ≤ maximumDiagnosticBytes &&
    (value.all fun u => !(u.val ≤ 0x08 || u.val == 0x0B || u.val == 0x0C ||
      (0x0E ≤ u.val && u.val ≤ 0x1F) || u.val == 0x7F)) &&
    !value.contains (unit '\n') && !value.contains (unit '\r')

end Snowcat
