import Mathlib

/-!
# Text as Python has it

`strip` and `upper` of strings, and base64 with validation. `upper` is exact on the
characters whose capitals are all ASCII; the others stay outside ASCII and are left alone.
-/

namespace FamilyConnect.Lib.Text

/-- The characters that `strip` removes. -/
def blank (c : Char) : Bool :=
  let n := c.toNat
  decide (9 ≤ n ∧ n ≤ 13 ∨ 28 ≤ n ∧ n ≤ 32 ∨ 0x2000 ≤ n ∧ n ≤ 0x200a) ||
    [0x85, 0xa0, 0x1680, 0x2028, 0x2029, 0x202f, 0x205f, 0x3000].contains n

def strip (text : List Char) : List Char := ((text.dropWhile blank).reverse.dropWhile blank).reverse

/-- The characters outside ASCII with capitals in it. -/
def asciiCapitals : List (Char × List Char) :=
  [('ß', ['S', 'S']), ('ı', ['I']), ('ſ', ['S']), ('ﬀ', ['F', 'F']), ('ﬁ', ['F', 'I']),
    ('ﬂ', ['F', 'L']), ('ﬃ', ['F', 'F', 'I']), ('ﬄ', ['F', 'F', 'L']), ('ﬅ', ['S', 'T']), ('ﬆ', ['S', 'T'])]

def capital (c : Char) : List Char := (asciiCapitals.lookup c).getD [c.toUpper]

def upper (text : List Char) : List Char := text.flatMap capital

theorem dropWhile_visible {text : List Char} (h : ∀ c ∈ text, blank c = false) : text.dropWhile blank = text := by
  cases text with
  | nil => rfl
  | cons c rest => rw [List.dropWhile_cons, h c (.head _), if_neg nofun]

theorem strip_visible {text : List Char} (h : ∀ c ∈ text, blank c = false) : strip text = text := by
  rw [strip, dropWhile_visible h, dropWhile_visible fun c hC => h c (List.mem_reverse.mp hC), List.reverse_reverse]

theorem upper_capitals {text : List Char} (h : ∀ c ∈ text, capital c = [c]) : upper text = text :=
  (List.flatMap_congr h).trans (List.flatMap_singleton' text)

/-! ## Base64 -/

def alphabet : List Char := "ABCDEFGHIJKLMNOPQRSTUVWXYZabcdefghijklmnopqrstuvwxyz0123456789+/".toList

def symbol (n : Nat) : Char := alphabet.getD n '='

def value (c : Char) : Option Nat := alphabet.findIdx? (· == c)

def encode : List UInt8 → List Char
  | [] => []
  | [a] => [symbol (a.toNat / 4), symbol (a.toNat % 4 * 16), '=', '=']
  | [a, b] => [symbol (a.toNat / 4), symbol (a.toNat % 4 * 16 + b.toNat / 16), symbol (b.toNat % 16 * 4), '=']
  | a :: b :: c :: rest =>
    symbol (a.toNat / 4) :: symbol (a.toNat % 4 * 16 + b.toNat / 16) :: symbol (b.toNat % 16 * 4 + c.toNat / 64) ::
      symbol (c.toNat % 64) :: encode rest

/-- The bytes of a group, each from two of its four values. -/
def high (w x : Nat) : UInt8 := UInt8.ofNat (w * 4 + x / 16)

def middle (x y : Nat) : UInt8 := UInt8.ofNat (x * 16 + y / 4)

def low (y z : Nat) : UInt8 := UInt8.ofNat (y * 64 + z)

def decode : List Char → Option (List UInt8)
  | [] => some []
  | a :: b :: c :: d :: rest => do
    let w ← value a
    let x ← value b
    if c = '=' ∧ d = '=' ∧ rest = [] then pure [high w x]
    else do
      let y ← value c
      if d = '=' ∧ rest = [] then pure [high w x, middle x y]
      else do
        let z ← value d
        let bytes ← decode rest
        pure (high w x :: middle x y :: low y z :: bytes)
  | _ => none

/-- `base64.b64encode`, decoded as ASCII -/
def b64encode (bytes : List UInt8) : String := String.ofList (encode bytes)

/-- `base64.b64decode` with `validate` -/
def b64decode (text : String) : Option (List UInt8) := decode text.toList

variable {a b c : UInt8} {k n : Nat}

theorem value_symbol (h : n < 64) : value (symbol n) = some n :=
  (by decide +kernel : ∀ n < 64, value (symbol n) = some n) n h

theorem symbol_ne (h : n < 64) : symbol n ≠ '=' := (by decide +kernel : ∀ n < 64, symbol n ≠ '=') n h

theorem high_eq (h : k < 16) : high (a.toNat / 4) (a.toNat % 4 * 16 + k) = a := by
  rw [high, ← UInt8.toNat_inj, UInt8.toNat_ofNat']
  have hA := a.toNat_lt
  omega

theorem middle_eq (h : k < 4) : middle (n % 4 * 16 + b.toNat / 16) (b.toNat % 16 * 4 + k) = b := by
  rw [middle, ← UInt8.toNat_inj, UInt8.toNat_ofNat']
  have hB := b.toNat_lt
  omega

theorem low_eq : low (n % 16 * 4 + c.toNat / 64) (c.toNat % 64) = c := by
  rw [low, ← UInt8.toNat_inj, UInt8.toNat_ofNat']
  have hC := c.toNat_lt
  omega

theorem decode_encode (bytes : List UInt8) : decode (encode bytes) = some bytes := by
  induction bytes using encode.induct with
  | case1 => rfl
  | case2 a =>
    have hA := a.toNat_lt
    have hHigh : high (a.toNat / 4) (a.toNat % 4 * 16) = a := high_eq (by decide : 0 < 16)
    rw [encode, decode, value_symbol (by omega), value_symbol (by omega)]
    simp [hHigh]
  | case3 a b =>
    have hA := a.toNat_lt
    have hB := b.toNat_lt
    have hMiddle : middle (a.toNat % 4 * 16 + b.toNat / 16) (b.toNat % 16 * 4) = b := middle_eq (by decide : 0 < 4)
    rw [encode, decode, value_symbol (by omega), value_symbol (by omega), value_symbol (by omega)]
    simp [symbol_ne (by omega : b.toNat % 16 * 4 < 64), high_eq (by omega : b.toNat / 16 < 16), hMiddle]
  | case4 a b c rest ih =>
    have hA := a.toNat_lt
    have hB := b.toNat_lt
    have hC := c.toNat_lt
    rw [encode, decode, value_symbol (by omega), value_symbol (by omega), value_symbol (by omega),
      value_symbol (by omega), ih]
    simp [symbol_ne (by omega : b.toNat % 16 * 4 + c.toNat / 64 < 64), symbol_ne (by omega : c.toNat % 64 < 64),
      high_eq (by omega : b.toNat / 16 < 16), middle_eq (by omega : c.toNat / 64 < 4), low_eq]

theorem b64decode_b64encode (bytes : List UInt8) : b64decode (b64encode bytes) = some bytes := by
  rw [b64decode, b64encode, String.toList_ofList, decode_encode]

example : b64encode [77, 97, 110, 33] = "TWFuIQ==" := by decide

end FamilyConnect.Lib.Text
