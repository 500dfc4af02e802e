import Mathlib

/-!
# Big-endian integers of a fixed width

`put w n` writes the low `w` bytes of `n`, most significant first; `get` reads
a byte string of any length back. They are inverse to each other on numbers
below `256 ^ w` and on byte strings of length `w`.
-/

namespace FamilyConnect.Lib.BigEndian

def put : Nat → Nat → List UInt8
  | 0, _ => []
  | w + 1, n => UInt8.ofNat (n / 256 ^ w) :: put w n

def get (bytes : List UInt8) : Nat :=
  bytes.foldl (fun n b => n * 256 + b.toNat) 0

@[simp] theorem length_put (w n : Nat) : (put w n).length = w := by
  induction w with
  | zero => rfl
  | succ w ih => simp [put, ih]

theorem foldl_eq (bytes : List UInt8) (n : Nat) :
    bytes.foldl (fun n b => n * 256 + b.toNat) n = n * 256 ^ bytes.length + get bytes := by
  induction bytes generalizing n with
  | nil => simp [get]
  | cons b bytes ih =>
    have hCons : get (b :: bytes) = (0 * 256 + b.toNat) * 256 ^ bytes.length + get bytes := ih _
    rw [List.foldl_cons, ih, hCons, List.length_cons]
    ring

theorem get_cons (b : UInt8) (bytes : List UInt8) : get (b :: bytes) = b.toNat * 256 ^ bytes.length + get bytes := by
  rw [get, List.foldl_cons, foldl_eq]
  ring

theorem get_lt (bytes : List UInt8) : get bytes < 256 ^ bytes.length := by
  induction bytes with
  | nil => simp [get]
  | cons b bytes ih =>
    rw [get_cons, List.length_cons, pow_succ]
    have hb : b.toNat ≤ 255 := by have := b.toNat_lt; omega
    calc b.toNat * 256 ^ bytes.length + get bytes
        < b.toNat * 256 ^ bytes.length + 256 ^ bytes.length := by omega
      _ = (b.toNat + 1) * 256 ^ bytes.length := by ring
      _ ≤ 256 * 256 ^ bytes.length := Nat.mul_le_mul_right _ (by omega)
      _ = 256 ^ bytes.length * 256 := by ring

theorem get_put (w n : Nat) : get (put w n) = n % 256 ^ w := by
  induction w with
  | zero => simp [put, get, Nat.mod_one]
  | succ w ih =>
    have hByte : (UInt8.ofNat (n / 256 ^ w)).toNat = n / 256 ^ w % 256 := by simp
    rw [put, get_cons, ih, length_put, hByte, pow_succ, Nat.mod_mul, Nat.mul_comm, Nat.add_comm]

end FamilyConnect.Lib.BigEndian
