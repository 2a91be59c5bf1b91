import Mathlib

/-!
# Instants and their texts

An instant of the proleptic Gregorian calendar in UTC, to the millisecond,
as `Date` counts it: a hundred million days around 1970. Instants are
ordered by time; their canonical texts (`text`, what `toISOString` writes)
are ordered as texts, which agrees with time while the year has four digits
and not beyond: a year outside `0000`–`9999` is written with a sign and six
digits.

`ofText?` reads a text with a zone, to the second or finer. `isCanonical`
is the check `parsed.toISOString() === value`, and it accepts exactly the
canonical texts (`isCanonical_text`).
-/

namespace Calendar

/-- A year with a 29th of February. -/
def isLeap (year : ℤ) : Bool := year % 4 = 0 ∧ (year % 100 ≠ 0 ∨ year % 400 = 0)

/-- The days of a month. -/
def daysIn (year : ℤ) (month : ℕ) : ℕ :=
  if month = 2 then (if isLeap year then 29 else 28)
  else if month = 4 ∨ month = 6 ∨ month = 9 ∨ month = 11 then 30 else 31

/-- A number that orders the fields of instants by time. -/
def order (year : ℤ) (month day hour minute second milli : ℕ) : ℤ :=
  (((((year * 13 + month) * 32 + day) * 24 + hour) * 60 + minute) * 60 + second) * 1000 + milli

/-- The first instant of `Date`: `-271821-04-20`. -/
def first : ℤ := order (-271821) 4 20 0 0 0 0

/-- The last instant of `Date`: `+275760-09-13`. -/
def last : ℤ := order 275760 9 13 0 0 0 0

/-- **An instant.** -/
@[ext] structure Instant where
  year : ℤ
  month : ℕ
  day : ℕ
  hour : ℕ
  minute : ℕ
  second : ℕ
  milli : ℕ
  month_le : 1 ≤ month ∧ month ≤ 12
  day_le : 1 ≤ day ∧ day ≤ daysIn year month
  hour_lt : hour < 24
  minute_lt : minute < 60
  second_lt : second < 60
  milli_lt : milli < 1000
  inRange : first ≤ order year month day hour minute second milli ∧
    order year month day hour minute second milli ≤ last
  deriving DecidableEq

namespace Instant

/-- What instants are ordered by. -/
def key (i : Instant) : ℤ := order i.year i.month i.day i.hour i.minute i.second i.milli

theorem day_lt (i : Instant) : i.day < 32 := by
  have hday := i.day_le.2
  unfold daysIn at hday
  split_ifs at hday <;> omega

/-- **The fields of an instant are read off its number.** -/
theorem key_injective : Function.Injective key := by
  intro i j h
  have hi := i.day_lt
  have hj := j.day_lt
  obtain ⟨-, hmi⟩ := i.month_le
  obtain ⟨-, hmj⟩ := j.month_le
  have := i.hour_lt
  have := j.hour_lt
  have := i.minute_lt
  have := j.minute_lt
  have := i.second_lt
  have := j.second_lt
  have := i.milli_lt
  have := j.milli_lt
  unfold key order at h
  have hyear : i.year = j.year := by omega
  have hmonth : i.month = j.month := by omega
  have hday : i.day = j.day := by omega
  have hhour : i.hour = j.hour := by omega
  have hminute : i.minute = j.minute := by omega
  have hsecond : i.second = j.second := by omega
  have hmilli : i.milli = j.milli := by omega
  exact Instant.ext hyear hmonth hday hhour hminute hsecond hmilli

/-- **Instants are ordered by time**, as `getTime` orders them. -/
instance : LinearOrder Instant := LinearOrder.lift' key key_injective

/-! ## The canonical text -/

/-- A number in some decimal digits. -/
def pad : ℕ → ℕ → List Char
  | 0, _ => []
  | width + 1, n => pad width (n / 10) ++ [Nat.digitChar (n % 10)]

/-- A year: four digits, or a sign and six. -/
def yearText (year : ℤ) : List Char :=
  if 0 ≤ year ∧ year ≤ 9999 then pad 4 year.toNat
  else (if 0 ≤ year then '+' else '-') :: pad 6 year.natAbs

/-- The date and the time of an instant, to the second. -/
def front (i : Instant) : List Char :=
  yearText i.year ++ '-' :: (pad 2 i.month ++ '-' :: (pad 2 i.day ++ 'T' ::
    (pad 2 i.hour ++ ':' :: (pad 2 i.minute ++ ':' :: pad 2 i.second))))

/-- **`toISOString`.** -/
def text (i : Instant) : String := String.ofList (i.front ++ '.' :: (pad 3 i.milli ++ ['Z']))

/-- The text of an instant to the second. -/
def secondText (i : Instant) : String := String.ofList (i.front ++ ['Z'])

/-! ## Reading a text -/

/-- The number some digits spell. -/
def number? (cs : List Char) : Option ℕ :=
  cs.foldlM (fun n c => if c.isDigit then some (10 * n + (c.toNat - 48)) else none) 0

/-- A number of some digits, in front of a text. -/
def takeNumber (width : ℕ) (cs : List Char) : Option (ℕ × List Char) :=
  if width ≤ cs.length then (number? (cs.take width)).map fun n => (n, cs.drop width) else none

/-- A character in front of a text. -/
def takeChar (c : Char) : List Char → Option (List Char)
  | [] => none
  | d :: cs => if d = c then some cs else none

/-- A year in front of a text. -/
def takeYear : List Char → Option (ℤ × List Char)
  | [] => none
  | c :: cs =>
    if c = '+' then (takeNumber 6 cs).map fun (n, rest) => ((n : ℤ), rest)
    else if c = '-' then (takeNumber 6 cs).map fun (n, rest) => (-(n : ℤ), rest)
    else (takeNumber 4 (c :: cs)).map fun (n, rest) => ((n : ℤ), rest)

/-- A fraction of a second in front of a text, in milliseconds. -/
def takeMilli : List Char → Option (ℕ × List Char)
  | '.' :: cs =>
    let digits := cs.takeWhile Char.isDigit
    if digits = [] then none
    else (number? ((digits ++ ['0', '0']).take 3)).map fun n => (n, cs.dropWhile Char.isDigit)
  | cs => some (0, cs)

/-- A zone, in minutes: `Z`, or an offset. -/
def zone : List Char → Option ℤ
  | ['Z'] => some 0
  | sign :: cs => do
    let (hour, cs) ← takeNumber 2 cs
    let cs ← takeChar ':' cs
    let (minute, cs) ← takeNumber 2 cs
    if cs ≠ [] ∨ 24 ≤ hour ∨ 60 ≤ minute then none
    else if sign = '+' then some (hour * 60 + minute)
    else if sign = '-' then some (-(hour * 60 + minute))
    else none
  | [] => none

/-- The instant of some fields, when they are the fields of one. -/
def ofFields? (year : ℤ) (month day hour minute second milli : ℕ) : Option Instant :=
  if h : (1 ≤ month ∧ month ≤ 12) ∧ (1 ≤ day ∧ day ≤ daysIn year month) ∧ hour < 24 ∧
      minute < 60 ∧ second < 60 ∧ milli < 1000 ∧
      first ≤ order year month day hour minute second milli ∧
      order year month day hour minute second milli ≤ last then
    some ⟨year, month, day, hour, minute, second, milli, h.1, h.2.1, h.2.2.1, h.2.2.2.1,
      h.2.2.2.2.1, h.2.2.2.2.2.1, h.2.2.2.2.2.2⟩
  else none

/-- The day before a date. -/
def dayBefore (year : ℤ) (month day : ℕ) : ℤ × ℕ × ℕ :=
  if 1 < day then (year, month, day - 1)
  else if 1 < month then (year, month - 1, daysIn year (month - 1))
  else (year - 1, 12, 31)

/-- The day after a date. -/
def dayAfter (year : ℤ) (month day : ℕ) : ℤ × ℕ × ℕ :=
  if day < daysIn year month then (year, month, day + 1)
  else if month < 12 then (year, month + 1, 1)
  else (year + 1, 1, 1)

/-- The instant of fields that stand in a zone. -/
def ofZoned? (year : ℤ) (month day hour minute second milli : ℕ) (offset : ℤ) : Option Instant :=
  let minutes : ℤ := hour * 60 + minute - offset
  let date := if minutes < 0 then dayBefore year month day
    else if 1440 ≤ minutes then dayAfter year month day else (year, month, day)
  let minutes := (minutes % 1440).toNat
  if 24 ≤ hour ∨ 60 ≤ minute ∨ day < 1 ∨ daysIn year month < day then none
  else ofFields? date.1 date.2.1 date.2.2 (minutes / 60) (minutes % 60) second milli

/-- `new Date(text)`, of a date, a time and a zone. A date or an hour beyond the
calendar's is read as none. -/
def ofText? (s : String) : Option Instant := do
  let (year, cs) ← takeYear s.toList
  let cs ← takeChar '-' cs
  let (month, cs) ← takeNumber 2 cs
  let cs ← takeChar '-' cs
  let (day, cs) ← takeNumber 2 cs
  let cs ← takeChar 'T' cs
  let (hour, cs) ← takeNumber 2 cs
  let cs ← takeChar ':' cs
  let (minute, cs) ← takeNumber 2 cs
  let cs ← takeChar ':' cs
  let (second, cs) ← takeNumber 2 cs
  let (milli, cs) ← takeMilli cs
  let offset ← zone cs
  ofZoned? year month day hour minute second milli offset

/-- `parsed.toISOString() === value`. -/
def isCanonical (s : String) : Bool :=
  match ofText? s with
  | some i => i.text = s
  | none => false

theorem isDigit_digitChar {n : ℕ} (h : n < 10) :
    (Nat.digitChar n).isDigit = true ∧ (Nat.digitChar n).toNat - 48 = n := by
  have : ∀ n < 10, (Nat.digitChar n).isDigit = true ∧ (Nat.digitChar n).toNat - 48 = n := by decide
  exact this n h

@[simp] theorem length_pad (width n : ℕ) : (pad width n).length = width := by
  induction width generalizing n with
  | zero => rfl
  | succ width ih => rw [pad, List.length_append, ih, List.length_singleton]

theorem isDigit_of_mem_pad {width n : ℕ} {c : Char} (h : c ∈ pad width n) : c.isDigit = true := by
  induction width generalizing n with
  | zero => exact nomatch h
  | succ width ih =>
    rcases List.mem_append.mp h with h | h
    · exact ih h
    · rw [List.mem_singleton.mp h]
      exact (isDigit_digitChar (Nat.mod_lt n (by decide))).1

/-- **A number is what its digits spell.** -/
theorem number?_pad {width n : ℕ} (h : n < 10 ^ width) : number? (pad width n) = some n := by
  induction width generalizing n with
  | zero =>
    obtain rfl : n = 0 := by simpa using h
    rfl
  | succ width ih =>
    obtain ⟨hdigit, hvalue⟩ := isDigit_digitChar (Nat.mod_lt n (show 0 < 10 by decide))
    have hrest : number? (pad width (n / 10)) = some (n / 10) :=
      ih (Nat.div_lt_of_lt_mul (by rwa [Nat.pow_succ, Nat.mul_comm] at h))
    rw [number?] at hrest
    rw [number?, pad, List.foldlM_append, hrest]
    simp [hdigit, hvalue, Nat.div_add_mod]

@[simp] theorem takeNumber_pad {width n : ℕ} (h : n < 10 ^ width) (rest : List Char) :
    takeNumber width (pad width n ++ rest) = some (n, rest) := by
  have hlength := length_pad width n
  rw [takeNumber, if_pos (by simp), List.take_left' hlength, List.drop_left' hlength,
    number?_pad h]
  rfl

theorem takeYear_yearText {year : ℤ} (h : year.natAbs < 10 ^ 6) (rest : List Char) :
    takeYear (yearText year ++ rest) = some (year, rest) := by
  unfold yearText
  split_ifs with hfour hpos
  · have hread := @takeNumber_pad 4 year.toNat (by omega) rest
    obtain ⟨c, cs, hcs⟩ := List.exists_cons_of_length_eq_add_one (length_pad 4 year.toNat)
    have hdigit : c.isDigit = true := isDigit_of_mem_pad (hcs ▸ List.mem_cons_self)
    rw [hcs, List.cons_append] at hread ⊢
    have hplus : c ≠ '+' := by rintro rfl; exact absurd hdigit (by decide)
    have hminus : c ≠ '-' := by rintro rfl; exact absurd hdigit (by decide)
    rw [takeYear, if_neg hplus, if_neg hminus, hread]
    simp [Int.toNat_of_nonneg hfour.1]
  · rw [List.cons_append, takeYear, if_pos rfl, takeNumber_pad h]
    simp [Int.natAbs_of_nonneg hpos]
  · rw [List.cons_append, takeYear, if_neg (by decide), if_pos rfl, takeNumber_pad h]
    simp only [Option.map_some, Option.some.injEq, Prod.mk.injEq, and_true]
    omega

theorem year_lt (i : Instant) : i.year.natAbs < 10 ^ 6 := by
  obtain ⟨hfirst, hlast⟩ := i.inRange
  have := i.day_lt
  have := i.month_le.2
  have := i.hour_lt
  have := i.minute_lt
  have := i.second_lt
  have := i.milli_lt
  simp only [first, last, order] at hfirst hlast
  omega

theorem ofFields?_self (i : Instant) :
    ofFields? i.year i.month i.day i.hour i.minute i.second i.milli = some i := by
  have h := i.inRange
  rw [ofFields?, dif_pos ⟨i.month_le, i.day_le, i.hour_lt, i.minute_lt, i.second_lt, i.milli_lt, h⟩]

theorem ofZoned?_self (i : Instant) :
    ofZoned? i.year i.month i.day i.hour i.minute i.second i.milli 0 = some i := by
  have hhour := i.hour_lt
  have hminute := i.minute_lt
  have hday := i.day_le
  have hrefused : ¬ (24 ≤ i.hour ∨ 60 ≤ i.minute ∨ i.day < 1 ∨ daysIn i.year i.month < i.day) := by
    omega
  have hminutes : (((i.hour : ℤ) * 60 + i.minute - 0) % 1440).toNat = i.hour * 60 + i.minute := by
    omega
  have hbefore : ¬ (i.hour : ℤ) * 60 + i.minute - 0 < 0 := by omega
  have hafter : ¬ (1440 : ℤ) ≤ (i.hour : ℤ) * 60 + i.minute - 0 := by omega
  simp only [ofZoned?, if_neg hrefused, hminutes, if_neg hbefore, if_neg hafter]
  rw [show (i.hour * 60 + i.minute) / 60 = i.hour by omega,
    show (i.hour * 60 + i.minute) % 60 = i.minute by omega]
  exact ofFields?_self i

/-- The front of an instant is read in front of a text. -/
theorem ofText?_front (i : Instant) (rest : List Char) {milli : ℕ}
    (hmilli : takeMilli rest = some (milli, ['Z'])) :
    ofText? (String.ofList (i.front ++ rest)) =
      ofZoned? i.year i.month i.day i.hour i.minute i.second milli 0 := by
  have hday := i.day_lt
  have hmonth := i.month_le.2
  have hhour := i.hour_lt
  have hminute := i.minute_lt
  have hsecond := i.second_lt
  simp only [ofText?, front, String.toList_ofList, List.append_assoc, List.cons_append,
    Option.bind_eq_bind]
  simp only [takeYear_yearText i.year_lt, Option.bind_some, takeChar, if_true]
  rw [takeNumber_pad (show i.month < 10 ^ 2 by omega)]
  simp only [Option.bind_some, if_true]
  rw [takeNumber_pad (show i.day < 10 ^ 2 by omega)]
  simp only [Option.bind_some, if_true]
  rw [takeNumber_pad (show i.hour < 10 ^ 2 by omega)]
  simp only [Option.bind_some, if_true]
  rw [takeNumber_pad (show i.minute < 10 ^ 2 by omega)]
  simp only [Option.bind_some, if_true]
  rw [takeNumber_pad (show i.second < 10 ^ 2 by omega), Option.bind_some, hmilli]
  rfl

/-- **The canonical text of an instant is read as the instant.** -/
@[simp] theorem ofText?_text (i : Instant) : ofText? i.text = some i := by
  have hdigits : ∀ c ∈ pad 3 i.milli, c.isDigit = true := fun c hc => isDigit_of_mem_pad hc
  have hmilli : takeMilli ('.' :: (pad 3 i.milli ++ ['Z'])) = some (i.milli, ['Z']) := by
    have htake : (pad 3 i.milli ++ ['Z']).takeWhile Char.isDigit = pad 3 i.milli := by
      rw [List.takeWhile_append_of_pos hdigits]
      simp [List.takeWhile]
    have hdrop : (pad 3 i.milli ++ ['Z']).dropWhile Char.isDigit = ['Z'] := by
      rw [List.dropWhile_append_of_pos hdigits]
      rfl
    have hne : pad 3 i.milli ≠ [] := fun hnil => by simpa [hnil] using length_pad 3 i.milli
    have hmilli_lt := i.milli_lt
    rw [takeMilli]
    simp only [htake, hdrop, if_neg hne]
    rw [List.take_left' (length_pad 3 i.milli), number?_pad (by omega)]
    rfl
  rw [text, ofText?_front i _ hmilli, ofZoned?_self]

/-- A text to the second is read as an instant on the second. -/
theorem ofText?_secondText {i : Instant} (h : i.milli = 0) : ofText? i.secondText = some i := by
  have hzone : takeMilli ['Z'] = some (i.milli, ['Z']) := by
    rw [h]
    rfl
  rw [secondText, ofText?_front i _ hzone, ofZoned?_self]

/-- **The canonical texts are those of the instants.** -/
theorem isCanonical_iff {s : String} : isCanonical s = true ↔ ∃ i : Instant, i.text = s := by
  constructor
  · intro h
    unfold isCanonical at h
    cases hread : ofText? s with
    | none => simp [hread] at h
    | some i => exact ⟨i, by simpa [hread] using h⟩
  · rintro ⟨i, rfl⟩
    rw [isCanonical, ofText?_text]
    simp

theorem text_injective : Function.Injective text := fun i j h =>
  Option.some.inj ((ofText?_text i).symm.trans ((congrArg ofText? h).trans (ofText?_text j)))

/-! ## The order of the texts

The texts of the years from 0 to 9999 are ordered as the times are. The
text of another year starts with a sign, which is before every digit. -/

theorem append_lt_append_iff {a b c d : List Char} (h : a.length = b.length) :
    a ++ c < b ++ d ↔ a < b ∨ a = b ∧ c < d := by
  induction a generalizing b with
  | nil =>
    obtain rfl : b = [] := List.length_eq_zero_iff.mp h.symm
    simp
  | cons x a ih =>
    obtain ⟨y, b, rfl⟩ := List.exists_cons_of_length_eq_add_one h.symm
    simp only [List.length_cons, Nat.add_right_cancel_iff] at h
    simp only [List.cons_append, List.cons_lt_cons_iff, ih h, List.cons.injEq, and_or_left, or_assoc,
      and_assoc]

theorem pad_injective {width m n : ℕ} (hm : m < 10 ^ width) (hn : n < 10 ^ width)
    (h : pad width m = pad width n) : m = n :=
  Option.some.inj ((number?_pad hm).symm.trans ((congrArg number? h).trans (number?_pad hn)))

/-- Digits of one width are ordered as the numbers they spell. -/
theorem pad_lt_pad {width m n : ℕ} (hn : n < 10 ^ width) (h : m < n) : pad width m < pad width n := by
  induction width generalizing m n with
  | zero => omega
  | succ width ih =>
    have hdigits : ∀ a < 10, ∀ b < 10, a < b → [Nat.digitChar a] < [Nat.digitChar b] := by decide
    rw [pad, pad, append_lt_append_iff (by simp)]
    rcases Nat.lt_or_ge (m / 10) (n / 10) with hfront | hfront
    · exact Or.inl (ih (Nat.div_lt_of_lt_mul (by rwa [Nat.pow_succ, Nat.mul_comm] at hn)) hfront)
    · have hsame : m / 10 = n / 10 := by omega
      exact Or.inr ⟨by rw [hsame], hdigits _ (Nat.mod_lt _ (by decide)) _
        (Nat.mod_lt _ (by decide)) (by omega)⟩

theorem pad_append_lt_iff {width m n : ℕ} (hm : m < 10 ^ width) (hn : n < 10 ^ width)
    {c d : List Char} : pad width m ++ c < pad width n ++ d ↔ m < n ∨ m = n ∧ c < d := by
  rw [append_lt_append_iff (by simp)]
  rcases Nat.lt_trichotomy m n with h | rfl | h
  · simp [h, pad_lt_pad hn h]
  · rw [or_iff_right (List.lt_irrefl _), or_iff_right (Nat.lt_irrefl m)]
    simp
  · have hlt := pad_lt_pad hm h
    have hne : pad width m ≠ pad width n := fun heq => by
      have := pad_injective hm hn heq
      omega
    simp [List.lt_asymm hlt, hne, Nat.lt_asymm h, Nat.ne_of_gt h]

/-- **The texts of four-digit years are ordered as the times.** -/
theorem text_lt_text_iff {i j : Instant} (hi : 0 ≤ i.year ∧ i.year ≤ 9999)
    (hj : 0 ≤ j.year ∧ j.year ≤ 9999) : i.text < j.text ↔ i < j := by
  have hkeys : i < j ↔ i.key < j.key := Iff.rfl
  have hlists : i.text < j.text ↔ i.text.toList < j.text.toList := Iff.rfl
  have := i.day_lt
  have := i.month_le
  have := i.hour_lt
  have := i.minute_lt
  have := i.second_lt
  have := i.milli_lt
  have := j.day_lt
  have := j.month_le
  have := j.hour_lt
  have := j.minute_lt
  have := j.second_lt
  have := j.milli_lt
  rw [hkeys, hlists]
  simp only [text, String.toList_ofList, front, yearText, if_pos hi, if_pos hj, List.append_assoc,
    List.cons_append]
  rw [pad_append_lt_iff (by omega) (by omega), List.cons_lt_cons_self,
    pad_append_lt_iff (by omega) (by omega), List.cons_lt_cons_self,
    pad_append_lt_iff (by omega) (by omega), List.cons_lt_cons_self,
    pad_append_lt_iff (by omega) (by omega), List.cons_lt_cons_self,
    pad_append_lt_iff (by omega) (by omega), List.cons_lt_cons_self,
    pad_append_lt_iff (by omega) (by omega), List.cons_lt_cons_self,
    pad_append_lt_iff (by omega) (by omega)]
  simp only [List.lt_irrefl, and_false, or_false]
  unfold key order
  omega

/-- The end of the year 9999. -/
def greatest : Instant :=
  ⟨9999, 12, 31, 23, 59, 59, 999, by decide, by decide, by decide, by decide, by decide,
    by decide, by decide⟩

/-- **No text is behind that of the end of the year 9999.** -/
theorem not_greatest_text_lt (i : Instant) : ¬ greatest.text < i.text := by
  by_cases hyear : 0 ≤ i.year ∧ i.year ≤ 9999
  · rw [text_lt_text_iff (by decide) hyear]
    have hkeys : greatest < i ↔ greatest.key < i.key := Iff.rfl
    have := i.day_lt
    have := i.month_le
    have := i.hour_lt
    have := i.minute_lt
    have := i.second_lt
    have := i.milli_lt
    rw [hkeys]
    simp only [key, greatest, order]
    omega
  · -- a sign stands before the first digit of 9999
    have hsign : ∃ c rest, i.text.toList = c :: rest ∧ c < '9' := by
      simp only [text, String.toList_ofList, front, yearText, if_neg hyear, List.cons_append]
      split_ifs
      · exact ⟨_, _, rfl, by decide⟩
      · exact ⟨_, _, rfl, by decide⟩
    obtain ⟨c, rest, hcs, hc⟩ := hsign
    have hlt : i.text.toList < greatest.text.toList := by
      rw [hcs, show greatest.text.toList = '9' :: "999-12-31T23:59:59.999Z".toList by decide]
      exact List.cons_lt_cons_iff.mpr (Or.inl hc)
    exact List.lt_asymm hlt

end Instant

end Calendar
