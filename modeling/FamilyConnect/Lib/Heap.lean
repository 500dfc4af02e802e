import Mathlib

/-!
# A list of records as a heap

A pointer is an index. Records are only added at the end and rewritten in
place, so a pointer stays valid.
-/

namespace FamilyConnect.Lib.Heap

variable {α : Type*} {l : List α} {r i : Nat} {x y : α}

theorem lt_length (h : l[r]? = some x) : r < l.length := (List.getElem?_eq_some_iff.mp h).1

theorem modify_eq_set (f : α → α) (h : l[r]? = some x) : l.modify r f = l.set r (f x) := by
  rw [List.modify_eq_set_getElem?, h]
  rfl

theorem modify_eq_self (f : α → α) (h : l[r]? = none) : l.modify r f = l := by
  rw [List.modify_eq_set_getElem?, h]
  rfl

theorem get_set (h : l[r]? = some x) : (l.set r y)[r]? = some y := by
  rw [List.getElem?_set_self (lt_length h)]

theorem get_set_cases {z : α} (h : (l.set r y)[i]? = some z) : i = r ∧ z = y ∨ i ≠ r ∧ l[i]? = some z := by
  by_cases hi : i = r
  · subst hi
    rw [List.getElem?_set_self' (l := l)] at h
    obtain ⟨_, _, hEq⟩ := Option.map_eq_some_iff.mp h
    exact .inl ⟨rfl, hEq.symm⟩
  · rw [List.getElem?_set_ne (Ne.symm hi)] at h
    exact .inr ⟨hi, h⟩

theorem get_append_cases {z : α} (h : (l ++ [y])[i]? = some z) : i = l.length ∧ z = y ∨ l[i]? = some z := by
  rcases Nat.lt_or_ge i l.length with hi | hi
  · rw [List.getElem?_append_left hi] at h
    exact .inr h
  · rw [List.getElem?_append_right hi] at h
    have hLt := (List.getElem?_eq_some_iff.mp h).1
    rw [List.length_singleton] at hLt
    have hEq : i - l.length = 0 := by omega
    rw [hEq] at h
    exact .inl ⟨by omega, (Option.some.inj h).symm⟩

theorem sum_map_set (f : α → Nat) (h : l[r]? = some x) : ((l.set r y).map f).sum + f x = (l.map f).sum + f y := by
  induction l generalizing r with
  | nil => cases h
  | cons head rest ih =>
    cases r with
    | zero =>
      cases h
      simp only [List.set_cons_zero, List.map_cons, List.sum_cons]
      omega
    | succ r =>
      have hRest := ih h
      simp only [List.set_cons_succ, List.map_cons, List.sum_cons]
      omega

theorem le_sum_map (f : α → Nat) (h : l[r]? = some x) : f x ≤ (l.map f).sum :=
  List.single_le_sum (fun _ _ => Nat.zero_le _) _ (List.mem_map_of_mem (List.mem_of_getElem? h))

end FamilyConnect.Lib.Heap
