/-
# Instants

A point in time, counted in seconds from 1970-01-01T00:00:00Z and in nanoseconds
within the second.  A leap second has no number of its own: it is the second before
it, with a nanosecond count from one thousand million on.  So it comes after all of
that second and before the next one.

* `Instant` : the points in time, ordered;
* `Instant.supported` : the span of years in which instants are read.
-/
import Interleave.Time.Calendar

namespace Interleave

/-- A point in time. -/
structure Instant where
  /-- Seconds since 1970-01-01T00:00:00Z, rounded down. -/
  seconds : Int
  /-- Nanoseconds within the second; in a leap second one thousand million more. -/
  nanos : Nat
  nanos_lt : nanos < 2000000000
  deriving DecidableEq, Repr

namespace Instant

/-! ## Order -/

/-- Earlier: in an earlier second, or earlier within the same one. -/
instance : LT Instant where
  lt a b := a.seconds < b.seconds ∨ a.seconds = b.seconds ∧ a.nanos < b.nanos

/-- Not later. -/
instance : LE Instant where
  le a b := a.seconds < b.seconds ∨ a.seconds = b.seconds ∧ a.nanos ≤ b.nanos

/-- What it means to be earlier. -/
theorem lt_def (a b : Instant) :
    a < b ↔ a.seconds < b.seconds ∨ a.seconds = b.seconds ∧ a.nanos < b.nanos := Iff.rfl

/-- What it means not to be later. -/
theorem le_def (a b : Instant) :
    a ≤ b ↔ a.seconds < b.seconds ∨ a.seconds = b.seconds ∧ a.nanos ≤ b.nanos := Iff.rfl

instance (a b : Instant) : Decidable (a < b) := decidable_of_iff _ (lt_def a b).symm

instance (a b : Instant) : Decidable (a ≤ b) := decidable_of_iff _ (le_def a b).symm

/-- Of two instants one is earlier than the other or not later than it. -/
theorem not_le (a b : Instant) : ¬ a ≤ b ↔ b < a := by
  rw [le_def, lt_def]
  omega

/-! ## The supported span -/

/-- The second in which a year begins. -/
def startOfYear (year : Int) : Int :=
  (daysBeforeYear year - 719162) * 86400

/-- The years whose dates can be read and whose instants can be held. -/
def yearSupported (year : Int) : Bool :=
  -262143 ≤ year && year ≤ 262142

/-- The seconds of the supported years. -/
def supported (seconds : Int) : Bool :=
  startOfYear (-262143) ≤ seconds && seconds < startOfYear 262143

end Instant

/-! ## Ordering keys -/

/-- The key by which a line is ordered: an instant, or nothing for a line that comes
before any timestamp of its input.  Nothing orders before every instant. -/
abbrev Key := Option Instant

/-- The order of keys: the first is not later than the second. -/
def Key.notLater : Key → Key → Bool
  | none, _ => true
  | some _, none => false
  | some a, some b => decide (a ≤ b)

/-- No key is later than itself. -/
theorem Key.notLater_refl (k : Key) : Key.notLater k k = true := by
  cases k with
  | none => rfl
  | some a => simp [Key.notLater, Instant.le_def]

end Interleave
