import Mathlib

/-!
# Positions in a list of blocks

A position of the concatenation of several blocks is the number of a block and
an offset in it. `piece` cuts a list into blocks of one size.
-/

namespace FamilyConnect.Lib.Blocks

variable {α : Type*} {blocks : List (List α)} {k m off : Nat} {block : List α}

def start (blocks : List (List α)) (k : Nat) : Nat := (blocks.take k).flatten.length

theorem start_succ (h : blocks[k]? = some block) : start blocks (k + 1) = start blocks k + block.length := by
  simp [start, List.take_add_one, h]

theorem start_mono (h : k ≤ m) : start blocks k ≤ start blocks m := by
  obtain ⟨d, rfl⟩ := Nat.exists_eq_add_of_le h
  rw [start, start, List.take_add, List.flatten_append, List.length_append]
  exact Nat.le_add_right _ _

theorem locate {i : Nat} {x : α} (h : blocks.flatten[i]? = some x) :
    ∃ k block off, blocks[k]? = some block ∧ block[off]? = some x ∧ i = start blocks k + off := by
  induction blocks generalizing i with
  | nil => cases h
  | cons head rest ih =>
    rw [List.flatten_cons] at h
    by_cases hi : i < head.length
    · rw [List.getElem?_append_left hi] at h
      exact ⟨0, head, i, rfl, h, by simp [start]⟩
    · rw [List.getElem?_append_right (by omega)] at h
      obtain ⟨k, block, off, hBlock, hOff, hEq⟩ := ih h
      refine ⟨k + 1, block, off, hBlock, hOff, ?_⟩
      simp only [start, List.take_succ_cons, List.flatten_cons, List.length_append] at hEq ⊢
      omega

/-- A block that begins at or before a position is not after the block of that position. -/
theorem le_of_start_le (hBlock : blocks[k]? = some block) (hOff : off < block.length)
    (h : start blocks m ≤ start blocks k + off) : m ≤ k := by
  by_contra hLt
  have hNext : start blocks (k + 1) ≤ start blocks m := start_mono (by omega)
  rw [start_succ hBlock] at hNext
  omega

theorem eq_of_start_eq {block' : List α} {off' : Nat} (hBlock : blocks[k]? = some block)
    (hOff : off < block.length) (hBlock' : blocks[m]? = some block') (hOff' : off' < block'.length)
    (h : start blocks m + off' = start blocks k + off) : m = k ∧ off' = off := by
  have hLe : m ≤ k := le_of_start_le hBlock hOff (by omega)
  have hGe : k ≤ m := le_of_start_le hBlock' hOff' (by omega)
  obtain rfl : m = k := Nat.le_antisymm hLe hGe
  exact ⟨rfl, by omega⟩

def piece (size : Nat) (l : List α) (i : Nat) : List α := (l.drop (i * size)).take size

theorem length_piece (size : Nat) (l : List α) (i : Nat) :
    (piece size l i).length = min size (l.length - i * size) := by
  rw [piece, List.length_take, List.length_drop]

theorem flatten_pieces (size : Nat) (l : List α) (count : Nat) :
    ((List.range count).map (piece size l)).flatten = l.take (count * size) := by
  induction count with
  | zero => simp
  | succ count ih =>
    rw [List.range_succ, List.map_append, List.flatten_append, ih, Nat.succ_mul, List.take_add]
    simp [piece]

theorem sum_sizes (size total count : Nat) :
    ((List.range count).map fun i => min size (total - i * size)).sum = min (count * size) total := by
  induction count with
  | zero => simp
  | succ count ih =>
    rw [List.range_succ, List.map_append, List.sum_append, ih, Nat.succ_mul]
    simp only [List.map_cons, List.map_nil, List.sum_cons, List.sum_nil]
    omega

end FamilyConnect.Lib.Blocks
