import Mathlib

/-!
# Transition systems and their invariants

A system is an initial predicate and a step relation; a run is any finite
number of steps from an initial state. Every safety result of the
development is an instance of `System.Reachable.invariant`.
-/

namespace FamilyConnect.Lib

universe u

structure System (σ : Type u) where
  initial : σ → Prop
  step : σ → σ → Prop

namespace System

inductive Reachable {σ : Type u} (S : System σ) : σ → Prop where
  | start {s : σ} : S.initial s → Reachable S s
  | next {s t : σ} : Reachable S s → S.step s t → Reachable S t

variable {σ : Type u} {S : System σ}

/-- The induction behind every safety theorem. The step case may use that the
source state is itself reachable, so invariants can be proved one on top of another. -/
theorem Reachable.invariant {I : σ → Prop} (hStart : ∀ s, S.initial s → I s)
    (hStep : ∀ s t, S.Reachable s → I s → S.step s t → I t) {s : σ} (h : S.Reachable s) : I s := by
  induction h with
  | start h => exact hStart _ h
  | next hReach h ih => exact hStep _ _ hReach ih h

theorem Reachable.steps {s t : σ} (h : S.Reachable s) (hSteps : Relation.ReflTransGen S.step s t) : S.Reachable t := by
  induction hSteps with
  | refl => exact h
  | tail _ hStep ih => exact ih.next hStep

/-- A run that is computed move by move. -/
theorem Reachable.play {μ : Type*} {next : σ → μ → Option σ}
    (hNext : ∀ s move t, next s move = some t → S.step s t) {s t : σ} {moves : List μ}
    (h : S.Reachable s) (hPlay : moves.foldlM next s = some t) : S.Reachable t := by
  induction moves generalizing s with
  | nil =>
    cases hPlay
    exact h
  | cons move rest ih =>
    rw [List.foldlM_cons] at hPlay
    obtain ⟨s', hMove, hRest⟩ := Option.bind_eq_some_iff.mp hPlay
    exact ih (h.next (hNext s move s' hMove)) hRest

end System

end FamilyConnect.Lib
