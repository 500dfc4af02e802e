import Mathlib

/-!
# Wrapping arithmetic on machine words

A word of width `w` is a natural number below `2 ^ w`. Sums and differences
wrap; the lemmas say when they agree with the exact ones.
-/

namespace FamilyConnect.Lib.Word

def add (w a b : Nat) : Nat := (a + b) % 2 ^ w

def sub (w a b : Nat) : Nat := (a + (2 ^ w - b)) % 2 ^ w

/-- The conversion of a signed integer to a word. -/
def ofInt (w : Nat) (x : Int) : Nat := (x % (2 ^ w : Nat)).toNat

/-- The largest word, written `^uint64(0)` for width 64. -/
def greatest (w : Nat) : Nat := 2 ^ w - 1

theorem add_of_lt {w a b : Nat} (h : a + b < 2 ^ w) : add w a b = a + b := Nat.mod_eq_of_lt h

theorem sub_of_le {w a b : Nat} (hle : b ≤ a) (ha : a < 2 ^ w) : sub w a b = a - b := by
  have hSum : a + (2 ^ w - b) = (a - b) + 2 ^ w := by omega
  rw [sub, hSum, Nat.add_mod_right, Nat.mod_eq_of_lt (by omega)]

theorem ofInt_of_nonneg {w : Nat} {x : Int} (h : 0 ≤ x) (hlt : x < (2 ^ w : Nat)) : ofInt w x = x.toNat := by
  rw [ofInt, Int.emod_eq_of_lt h hlt]

end FamilyConnect.Lib.Word
