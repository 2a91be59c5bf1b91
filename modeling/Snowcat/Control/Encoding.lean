import Snowcat.Lib.Transaction
import Snowcat.Queue.Types

/-!
# What every command of the control plane reads and throws

A call of the control-plane store reads the clock once and draws random
identifiers; both are the `Moment` it happens at. `uuidV7` builds an
identifier from the clock, and refuses one it cannot encode in 48 bits.
-/

namespace Snowcat

open Patterns Pattern

/-- What the control-plane store throws: an `Error`, with its message. -/
inductive ControlError where
  | error (message : String)
  deriving DecidableEq, Repr

/-- A moment a call happens at. -/
structure Moment where
  /-- The clock. -/
  now : Time
  /-- The identifiers `uuidV7` draws, in the order the call draws them. -/
  drawn : ℕ → String

/-- The hexadecimal digits of a UUIDv7:
`/^[0-9a-f]{8}-[0-9a-f]{4}-7[0-9a-f]{3}-[89ab][0-9a-f]{3}-[0-9a-f]{12}$/`. -/
def Patterns.uuidV7 : Pattern :=
  all [times (.one hexDigit) 8, lit "-", times (.one hexDigit) 4, lit "-7",
    times (.one hexDigit) 3, lit "-", .one (fun c => c ∈ ['8', '9', 'a', 'b']),
    times (.one hexDigit) 3, lit "-", times (.one hexDigit) 12]

/-- `isUuidV7`. -/
def isUuidV7 (value : String) : Bool := Patterns.uuidV7.test value

/-- The `k`-th `uuidV7` of a call. -/
def uuidV7 (m : Moment) (k : ℕ) : Except ControlError String := do
  refuseIf (m.now < 0 ∨ 0xffffffffffff < m.now)
    (.error "UUIDv7 time is outside its 48-bit Unix-millisecond range")
  pure (m.drawn k)

/-- `addSeconds`. -/
def addSeconds (instant : Time) (seconds : ℕ) : Time := instant + seconds * 1000

theorem le_addSeconds (instant : Time) (seconds : ℕ) : instant ≤ addSeconds instant seconds :=
  Int.le_add_of_nonneg_right (Int.mul_nonneg (Int.natCast_nonneg seconds) (by decide))

/-- The identifier a call draws is what it was given. -/
theorem uuidV7_eq_ok {m : Moment} {k : ℕ} {id : String} (h : uuidV7 m k = .ok id) :
    id = m.drawn k := by
  simp only [uuidV7, except_bind_eq_ok, except_pure_eq_ok] at h
  obtain ⟨_, -, rfl⟩ := h
  rfl

end Snowcat
