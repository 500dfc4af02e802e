import Mathlib

/-!
# Wrapping sequence numbers

A position of an unbounded sequence travels as its residue modulo `2 ^ w`.
Two positions less than one turn apart are recovered from their residues.
-/

namespace FamilyConnect.Lib.Serial

variable {w i p : Nat}

def wire (w i : Nat) : BitVec w := BitVec.ofNat w i

theorem wire_succ : wire w i + 1#w = wire w (i + 1) := (BitVec.ofNat_add i 1).symm

theorem wire_toNat (a : BitVec w) : wire w a.toNat = a := by
  rw [wire, BitVec.ofNat_toNat, BitVec.setWidth_eq]

theorem wire_add_sub (p d : Nat) : wire w (p + d) - wire w p = wire w d := by
  unfold wire
  rw [BitVec.ofNat_add, BitVec.add_comm, BitVec.add_sub_cancel]

theorem toNat_sub_of_le (h : p ≤ i) (hNear : i < p + 2 ^ w) : (wire w i - wire w p).toNat = i - p := by
  obtain ⟨d, rfl⟩ := Nat.exists_eq_add_of_le h
  rw [wire_add_sub, wire, BitVec.toNat_ofNat, Nat.mod_eq_of_lt (by omega)]
  omega

theorem toNat_sub_of_lt (h : i < p) (hNear : p < i + 2 ^ w) : (wire w i - wire w p).toNat = 2 ^ w - (p - i) := by
  obtain ⟨d, rfl⟩ := Nat.exists_eq_add_of_lt h
  have hBack : wire w i - wire w (i + d + 1) = -(wire w (d + 1)) := by
    rw [← wire_add_sub i (d + 1), BitVec.neg_sub, BitVec.sub_eq_add_neg, BitVec.add_comm]
    rfl
  rw [hBack, BitVec.toNat_neg, wire, BitVec.toNat_ofNat, Nat.mod_eq_of_lt (by omega : d + 1 < 2 ^ w),
    Nat.mod_eq_of_lt (by omega)]
  omega

theorem wire_eq_iff (hAhead : i < p + 2 ^ w) (hBehind : p < i + 2 ^ w) : wire w i = wire w p ↔ i = p := by
  constructor
  · intro hEq
    have hZero : (wire w i - wire w p).toNat = 0 := by rw [hEq, BitVec.sub_self, BitVec.toNat_zero]
    rcases Nat.lt_or_ge i p with h | h
    · rw [toNat_sub_of_lt h hBehind] at hZero
      omega
    · rw [toNat_sub_of_le h hAhead] at hZero
      omega
  · rintro rfl
    rfl

/-- The position reached when a counter that stood for `p` moved forward from `a` to `b`. -/
def unwrap (p : Nat) (a b : BitVec w) : Nat := p + (b - a).toNat

theorem wire_unwrap (p : Nat) (b : BitVec w) : wire w (unwrap p (wire w p) b) = b := by
  have hSum : wire w p + wire w (b - wire w p).toNat = b := by rw [wire_toNat, BitVec.add_comm, BitVec.sub_add_cancel]
  exact (BitVec.ofNat_add _ _).trans hSum

theorem unwrap_wire (h : p ≤ i) (hNear : i < p + 2 ^ w) : unwrap p (wire w p) (wire w i) = i := by
  rw [unwrap, toNat_sub_of_le h hNear]
  omega

end FamilyConnect.Lib.Serial
