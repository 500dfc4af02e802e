import Mathlib

/-!
# Scans of a list from a cursor on

A scan looks at the elements from the cursor to the end and then from the
start. After it has stopped at an element the cursor stands behind it.
-/

namespace FamilyConnect.Lib.Rotation

variable {α : Type*}

/-- The element that a scan from `cursor` looks at after `k` others. -/
def slot (order : List α) (cursor k : Nat) : Option α := order[(cursor + k) % order.length]?

/-- The cursor behind that element. -/
def behind (order : List α) (cursor k : Nat) : Nat := (cursor + k) % order.length + 1

variable {order : List α} {cursor cursor' j k : Nat} {a b x : α}

theorem slot_congr (h : cursor' % order.length = cursor % order.length) (k : Nat) :
    slot order cursor' k = slot order cursor k := by
  have hMod : (cursor' + k) % order.length = (cursor + k) % order.length := Nat.ModEq.add_right k h
  rw [slot, slot, hMod]

theorem behind_congr (h : cursor' % order.length = cursor % order.length) (k : Nat) :
    behind order cursor' k = behind order cursor k := by
  have hMod : (cursor' + k) % order.length = (cursor + k) % order.length := Nat.ModEq.add_right k h
  rw [behind, behind, hMod]

theorem behind_le (h : slot order cursor k = some x) : behind order cursor k ≤ order.length :=
  (List.getElem?_eq_some_iff.mp h).1

theorem slot_behind (order : List α) (cursor k j : Nat) :
    slot order (behind order cursor k) j = slot order cursor (k + 1 + j) := by
  have hMod : (behind order cursor k + j) % order.length = (cursor + (k + 1 + j)) % order.length := by
    have hStep : (cursor + k) % order.length + (1 + j) ≡ cursor + k + (1 + j) [MOD order.length] :=
      (Nat.mod_modEq _ _).add_right _
    have hLeft : behind order cursor k + j = (cursor + k) % order.length + (1 + j) := by
      rw [behind]
      omega
    have hRight : cursor + (k + 1 + j) = cursor + k + (1 + j) := by omega
    rw [hLeft, hRight]
    exact hStep
  rw [slot, slot, hMod]

theorem exists_slot (cursor : Nat) (h : x ∈ order) : ∃ k < order.length, slot order cursor k = some x := by
  obtain ⟨i, hi, rfl⟩ := List.mem_iff_getElem.mp h
  have hPos : 0 < order.length := Nat.zero_lt_of_lt hi
  have hCursor := Nat.mod_lt cursor hPos
  -- the way from the cursor to `i`, around the end if need be
  refine ⟨(i + (order.length - cursor % order.length)) % order.length, Nat.mod_lt _ hPos, ?_⟩
  have hMod : (cursor + (i + (order.length - cursor % order.length)) % order.length) % order.length = i := by
    rw [Nat.add_mod_mod, Nat.add_mod, Nat.add_mod i, Nat.add_mod_mod, Nat.mod_eq_of_lt hi]
    rcases Nat.eq_zero_or_pos (cursor % order.length) with hZero | hSome
    · rw [hZero]
      simp [Nat.mod_eq_of_lt hi]
    · rw [Nat.mod_eq_of_lt (Nat.sub_lt hPos hSome)]
      have hSum : cursor % order.length + (i + (order.length - cursor % order.length)) = i + order.length := by omega
      rw [hSum, Nat.add_mod_right, Nat.mod_eq_of_lt hi]
  rw [slot, hMod, List.getElem?_eq_getElem hi]

theorem slot_inj (hNodup : order.Nodup) (hj : j < order.length) (hk : k < order.length)
    (h : slot order cursor j = some x) (h' : slot order cursor k = some x) : j = k := by
  obtain ⟨hLt, hGet⟩ := List.getElem?_eq_some_iff.mp h
  obtain ⟨hLt', hGet'⟩ := List.getElem?_eq_some_iff.mp h'
  have hMod := (hNodup.getElem_inj_iff).mp (hGet.trans hGet'.symm)
  have hEq : j % order.length = k % order.length := Nat.ModEq.add_left_cancel' cursor hMod
  rwa [Nat.mod_eq_of_lt hj, Nat.mod_eq_of_lt hk] at hEq

/-- A scan looks at `b` before it looks at `a`. -/
def Before (order : List α) (cursor : Nat) (b a : α) : Prop :=
  ∃ i j, i < j ∧ j < order.length ∧ slot order cursor i = some b ∧ slot order cursor j = some a

theorem Before.congr (h : Before order cursor b a) (hCursor : cursor' % order.length = cursor % order.length) :
    Before order cursor' b a := by
  obtain ⟨i, j, hij, hj, hb, ha⟩ := h
  exact ⟨i, j, hij, hj, (slot_congr hCursor i).trans hb, (slot_congr hCursor j).trans ha⟩

theorem Before.behind (h : Before order cursor b a) (hSlot : slot order cursor k = some x) (hx : x ≠ b)
    (hFirst : ∀ i < k, slot order cursor i ≠ some b) : Before order (behind order cursor k) b a := by
  obtain ⟨i, j, hij, hj, hb, ha⟩ := h
  have hk : k < i := by
    by_contra hNot
    rcases Nat.lt_or_ge i k with hLt | hGe
    · exact hFirst i hLt hb
    · obtain rfl : i = k := by omega
      rw [hb] at hSlot
      cases hSlot
      exact hx rfl
  refine ⟨i - (k + 1), j - (k + 1), by omega, by omega, ?_, ?_⟩
  · rw [slot_behind, Nat.add_sub_cancel' (by omega)]
    exact hb
  · rw [slot_behind, Nat.add_sub_cancel' (by omega)]
    exact ha

theorem Before.slot_ne (hNodup : order.Nodup) (h : Before order cursor b a)
    (hFirst : ∀ i < k, slot order cursor i ≠ some b) (hk : k < order.length) : slot order cursor k ≠ some a := by
  obtain ⟨i, j, hij, hj, hb, ha⟩ := h
  intro hSlot
  obtain rfl := slot_inj hNodup hk hj hSlot ha
  exact hFirst i hij hb

theorem before_of_slot (hSlot : slot order cursor k = some a) (hb : b ∈ order) (hne : b ≠ a) :
    Before order (behind order cursor k) b a := by
  obtain ⟨i, hi, hSlotB⟩ := exists_slot (behind order cursor k) hb
  have hLast : slot order (behind order cursor k) (order.length - 1) = some a := by
    rw [slot_behind]
    have hSum : cursor + (k + 1 + (order.length - 1)) = cursor + k + order.length := by omega
    rw [slot, hSum, Nat.add_mod_right]
    exact hSlot
  have hNe : i ≠ order.length - 1 := by
    rintro rfl
    rw [hLast] at hSlotB
    cases hSlotB
    exact hne rfl
  exact ⟨i, order.length - 1, by omega, by omega, hSlotB, hLast⟩

/-- The slots from the cursor to the end stay, and those from the start come after the new elements. -/
theorem slot_append (hCursor : cursor ≤ order.length) (hk : k < order.length) (more : List α) :
    slot (order ++ more) cursor (if cursor + k < order.length then k else k + more.length) = slot order cursor k := by
  rw [slot, slot, List.length_append]
  split_ifs with hEnd
  · rw [Nat.mod_eq_of_lt hEnd, Nat.mod_eq_of_lt (by omega), List.getElem?_append_left hEnd]
  · have hOld : (cursor + k) % order.length = cursor + k - order.length := by
      rw [Nat.mod_eq_sub_mod (by omega), Nat.mod_eq_of_lt (by omega)]
    have hNew : (cursor + (k + more.length)) % (order.length + more.length) = cursor + k - order.length := by
      rw [Nat.mod_eq_sub_mod (by omega), Nat.mod_eq_of_lt (by omega)]
      omega
    rw [hOld, hNew, List.getElem?_append_left (by omega)]

theorem Before.append (h : Before order cursor b a) (hCursor : cursor ≤ order.length) (more : List α) :
    Before (order ++ more) cursor b a := by
  obtain ⟨i, j, hij, hj, hb, ha⟩ := h
  refine ⟨_, _, ?_, ?_, (slot_append hCursor (by omega) more).trans hb, (slot_append hCursor hj more).trans ha⟩
  · split_ifs <;> omega
  · rw [List.length_append]
    split_ifs <;> omega

end FamilyConnect.Lib.Rotation
