import Mathlib

/-!
# A window that grows by one and is cut in half

A sender may have `size` units outstanding between `acked` and `issued`. A
whole window of acknowledged units earns one more; a loss halves the window,
and no second loss counts before everything issued at the first one has been
acknowledged. `raises_apart` and `cuts_apart` relate two moments of one run.
-/

namespace FamilyConnect.Lib

structure Allowance where
  size : Int
  credit : Nat
  acked : Nat
  issued : Nat
  recovery : Nat

namespace Allowance

def halved (s : Allowance) : Allowance :=
  { s with size := max 1 (s.size / 2), credit := 0, recovery := s.issued }

inductive Change : Allowance → Allowance → Prop where
  | stay {s : Allowance} : Change s s
  | issue {s : Allowance} : Change s { s with issued := s.issued + 1 }
  | advance {s : Allowance} {acked credit : Nat} : s.acked ≤ acked →
      credit ≤ s.credit + (acked - s.acked) → Change s { s with acked := acked, credit := credit }
  | grow {s : Allowance} {acked : Nat} {size : Int} : s.acked < acked →
      s.size ≤ s.credit + (acked - s.acked : Nat) → size ≤ s.size + 1 →
      Change s { s with acked := acked, credit := 0, size := size }
  | cut {s : Allowance} : s.acked < s.issued → s.recovery ≤ s.acked → Change s s.halved

open Relation (ReflTransGen)

variable {s t u v : Allowance}

theorem Change.raise (h : Change s t) (hPos : 1 ≤ s.size) (hRaise : s.size < t.size) :
    t.size ≤ s.size + 1 ∧ t.credit = 0 ∧ s.acked < t.acked ∧ s.size ≤ s.credit + (t.acked - s.acked : Nat) := by
  cases h with
  | stay | issue | advance => exact absurd hRaise (lt_irrefl _)
  | grow hLater hEarned hSize => exact ⟨hSize, rfl, hLater, hEarned⟩
  | cut =>
    simp only [halved] at hRaise
    omega

/-- Only a loss moves the recovery mark, and it moves it to everything issued so far. -/
theorem Change.halve (h : Change s t) (hMoved : t.recovery ≠ s.recovery) :
    t.size = max 1 (s.size / 2) ∧ t.recovery = s.issued ∧ s.recovery ≤ s.acked := by
  cases h with
  | cut _ hOver => exact ⟨rfl, rfl, hOver⟩
  | stay | issue | advance | grow => exact absurd rfl hMoved

theorem credit_le (h : ReflTransGen Change s t) (hStart : s.credit = 0) :
    s.acked ≤ t.acked ∧ t.credit ≤ t.acked - s.acked := by
  induction h with
  | refl => exact ⟨le_rfl, hStart ▸ Nat.zero_le _⟩
  | tail _ hStep ih =>
    obtain ⟨hAcked, hCredit⟩ := ih
    cases hStep with
    | stay | issue => exact ⟨hAcked, hCredit⟩
    | advance hLow hBound => exact ⟨by dsimp only; omega, by dsimp only; omega⟩
    | grow hLow => exact ⟨by dsimp only; omega, Nat.zero_le _⟩
    | cut => exact ⟨hAcked, Nat.zero_le _⟩

theorem recovery_le (h : ReflTransGen Change s t) : s.recovery ≤ t.recovery := by
  induction h with
  | refl => exact le_rfl
  | tail _ hStep ih =>
    cases hStep with
    | cut hOpen hOver =>
      simp only [halved]
      omega
    | stay | issue | advance | grow => exact ih

/-- Between two raises at least the window in force at the second one is acknowledged. -/
theorem raises_apart (hFirst : Change s t) (hRaised : s.size < t.size) (hBetween : ReflTransGen Change t u)
    (hSecond : Change u v) (hAgain : u.size < v.size) (hPos : 1 ≤ s.size) (hPos' : 1 ≤ u.size) :
    t.acked + u.size ≤ v.acked := by
  obtain ⟨_, hZero, _, _⟩ := hFirst.raise hPos hRaised
  obtain ⟨_, _, hLater, hEarned⟩ := hSecond.raise hPos' hAgain
  obtain ⟨hAcked, hCredit⟩ := credit_le hBetween hZero
  omega

/-- Between two cuts everything issued before the first one is acknowledged. -/
theorem cuts_apart (hFirst : Change s t) (hCut : t.recovery ≠ s.recovery) (hBetween : ReflTransGen Change t u)
    (hSecond : Change u v) (hAgain : v.recovery ≠ u.recovery) : s.issued ≤ u.acked := by
  obtain ⟨_, hMark, _⟩ := hFirst.halve hCut
  obtain ⟨_, _, hOver⟩ := hSecond.halve hAgain
  have hMonotone := recovery_le hBetween
  omega

end Allowance

end FamilyConnect.Lib
