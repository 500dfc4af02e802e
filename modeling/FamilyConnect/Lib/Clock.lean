import Mathlib

/-!
# Instants and durations

An instant counts nanoseconds from the zero instant, which stands for "never".
A duration is a signed 64-bit count of nanoseconds, and the difference of two
instants saturates at its bounds.
-/

namespace FamilyConnect.Lib

abbrev Instant := Int

abbrev Duration := Int

namespace Duration

def millisecond : Duration := 1000000
def second : Duration := 1000 * millisecond
def minute : Duration := 60 * second

def greatest : Duration := 2 ^ 63 - 1
def least : Duration := -2 ^ 63

/-- The sum of two durations, which wraps. -/
def add (a b : Duration) : Duration := (a + b + 2 ^ 63) % 2 ^ 64 - 2 ^ 63

theorem add_of_le {a b : Int} (hLeast : least ≤ a + b) (hGreatest : a + b ≤ greatest) : add a b = a + b := by
  simp only [add, least, greatest] at *
  grind

/-- The value a 64-bit register holds for `a`. -/
def wrap (a : Int) : Duration := (a + 2 ^ 63) % 2 ^ 64 - 2 ^ 63

theorem wrap_of_le {a : Int} (hLeast : least ≤ a) (hGreatest : a ≤ greatest) : wrap a = a := by
  simp only [wrap, least, greatest] at *
  grind

end Duration

namespace Instant

def isZero (t : Instant) : Bool := t == 0

def sub (a b : Instant) : Duration := max Duration.least (min Duration.greatest (a - b))

variable {a b d : Int}

theorem sub_pos : 0 < sub a b ↔ b < a := by
  simp only [sub, Duration.least, Duration.greatest]
  grind

theorem add_sub_le (h : 0 < sub a b) : b + sub a b ≤ a := by
  simp only [sub, Duration.least, Duration.greatest] at *
  grind

theorem sub_le (h : a ≤ b + d) (hd : 0 ≤ d) : sub a b ≤ d := by
  simp only [sub, Duration.least, Duration.greatest]
  grind

theorem add_le_of_le_sub (h : d ≤ sub a b) (hLeast : Duration.least < d) : b + d ≤ a := by
  simp only [sub, Duration.least, Duration.greatest] at *
  grind

theorem le_sub_of_add_le (h : b + d ≤ a) (hGreatest : d ≤ Duration.greatest) : d ≤ sub a b := by
  simp only [sub, Duration.least, Duration.greatest] at *
  grind

end Instant

end FamilyConnect.Lib
