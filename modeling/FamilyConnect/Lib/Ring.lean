import Mathlib

/-!
# A queue in a ring of cells

The queue occupies `used` cells from `head` on, and goes on at the first cell
after the last one. `fill` appends element by element, `taken` copies from the
front in at most two pieces.
-/

namespace FamilyConnect.Lib.Ring

variable {α : Type*}

/-- The cells after the elements have been stored behind the queue. -/
def fill (cells : List α) (head : Nat) : Nat → List α → List α
  | _, [] => cells
  | used, x :: xs => fill (cells.set ((head + used) % cells.length) x) head (used + 1) xs

/-- The first `count` elements, copied up to the end of the cells and then from their start. -/
def taken (cells : List α) (head count : Nat) : List α :=
  let first := min count (cells.length - head)
  (cells.drop head).take first ++ cells.take (count - first)

theorem length_fill (cells : List α) (head used : Nat) (xs : List α) :
    (fill cells head used xs).length = cells.length := by
  induction xs generalizing cells used with
  | nil => rfl
  | cons x xs ih =>
    rw [fill, ih]
    exact List.length_set

end FamilyConnect.Lib.Ring
