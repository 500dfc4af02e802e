import Mathlib

/-!
# Programs that can be cut at any call

A program is a tree of calls to its surroundings; between two calls it only
computes. What a call answers, and what it does to the world, depends on a
choice that the surroundings make, so a run is a function of a list of choices,
and a run whose choices are used up was cut there. `Ensures` is the weakest
precondition of a program under an invariant that holds at every cut.
-/

namespace FamilyConnect.Lib

/-- The calls that a program can make, and the types of their answers. -/
structure Interface where
  Call : Type
  Answer : Call → Type

inductive Program (I : Interface) (ε α : Type) where
  | done (result : Except ε α)
  | call (c : I.Call) (next : Except ε (I.Answer c) → Program I ε α)

variable {I : Interface} {ε α β : Type}

namespace Program

def bind : Program I ε α → (α → Program I ε β) → Program I ε β
  | .done (.ok a), f => f a
  | .done (.error e), _ => .done (.error e)
  | .call c next, f => .call c fun answer => (next answer).bind f

instance : Monad (Program I ε) where
  pure a := .done (.ok a)
  bind := bind

def catchError : Program I ε α → (ε → Program I ε α) → Program I ε α
  | .done (.ok a), _ => .done (.ok a)
  | .done (.error e), f => f e
  | .call c next, f => .call c fun answer => (next answer).catchError f

instance : MonadExceptOf ε (Program I ε) where
  throw e := .done (.error e)
  tryCatch := catchError

/-- A call whose failure ends the program. -/
def perform (c : I.Call) : Program I ε (I.Answer c) := .call c .done

/-- A call whose failure is an answer. -/
def attempt (c : I.Call) : Program I ε (Except ε (I.Answer c)) := .call c fun answer => .done (.ok answer)

def ofExcept : Except ε α → Program I ε α := .done

end Program

/-- How the surroundings execute a call, given their choice. -/
structure Machine (I : Interface) (ε : Type) where
  World : Type
  Choice : Type
  exec : (c : I.Call) → Choice → World → Except ε (I.Answer c) × World

namespace Program

variable {M : Machine I ε}

/-- The result of a run, if it was not cut, and the world it leaves. -/
def run (M : Machine I ε) : Program I ε α → List M.Choice → M.World → Option (Except ε α) × M.World
  | .done result, _, w => (some result, w)
  | .call _ _, [], w => (none, w)
  | .call c next, choice :: rest, w => (next (M.exec c choice w).1).run M rest (M.exec c choice w).2

/-- Whatever the surroundings choose among what is allowed, `keep` holds at every cut and `post` at the end. -/
def Ensures (M : Machine I ε) (allowed : M.Choice → Prop) (keep : M.World → Prop) :
    Program I ε α → (Except ε α → M.World → Prop) → M.World → Prop
  | .done result, post, w => keep w ∧ post result w
  | .call c next, post, w =>
    keep w ∧ ∀ choice, allowed choice → (next (M.exec c choice w).1).Ensures M allowed keep post (M.exec c choice w).2

variable {allowed : M.Choice → Prop} {keep : M.World → Prop} {w : M.World}

variable {post : Except ε α → M.World → Prop} {p : Program I ε α}

theorem Ensures.now (h : p.Ensures M allowed keep post w) : keep w := by
  cases p with
  | done result | call c next => exact h.1

variable {post post' : Except ε α → M.World → Prop}

theorem Ensures.mono
    (h : p.Ensures M allowed keep post w) (hPost : ∀ result w', keep w' → post result w' → post' result w') :
    p.Ensures M allowed keep post' w := by
  induction p generalizing w with
  | done result => exact ⟨h.1, hPost result w h.1 h.2⟩
  | call c next ih => exact ⟨h.1, fun choice hAllowed => ih _ (h.2 choice hAllowed)⟩

theorem Ensures.and {keep' : M.World → Prop}
    (h : p.Ensures M allowed keep post w) (h' : p.Ensures M allowed keep' post' w) :
    p.Ensures M allowed (fun w' => keep w' ∧ keep' w') (fun result w' => post result w' ∧ post' result w') w := by
  induction p generalizing w with
  | done result => exact ⟨⟨h.1, h'.1⟩, h.2, h'.2⟩
  | call c next ih => exact ⟨⟨h.1, h'.1⟩, fun choice hAllowed => ih _ (h.2 choice hAllowed) (h'.2 choice hAllowed)⟩

theorem ensures_pure {a : α} (hKeep : keep w) (hPost : post (.ok a) w) :
    (pure a : Program I ε α).Ensures M allowed keep post w := ⟨hKeep, hPost⟩

theorem ensures_throw {e : ε} (hKeep : keep w) (hPost : post (.error e) w) :
    (throw e : Program I ε α).Ensures M allowed keep post w := ⟨hKeep, hPost⟩

variable {x : Except ε α}

theorem ensures_ofExcept (hKeep : keep w) (hPost : post x w) :
    (ofExcept x : Program I ε α).Ensures M allowed keep post w := ⟨hKeep, hPost⟩

variable {f : α → Program I ε β}

theorem ensures_bind {post : Except ε β → M.World → Prop}
    (h : p.Ensures M allowed keep (fun result w' =>
      match result with
      | .ok a => (f a).Ensures M allowed keep post w'
      | .error e => post (.error e) w') w) : (p >>= f).Ensures M allowed keep post w := by
  change (p.bind f).Ensures M allowed keep post w
  induction p generalizing w with
  | done result =>
    cases result with
    | ok a => exact h.2
    | error e => exact ⟨h.1, h.2⟩
  | call c next ih => exact ⟨h.1, fun choice hAllowed => ih _ (h.2 choice hAllowed)⟩

/-- A first part whose results are known. -/
theorem ensures_step {first : Except ε α → M.World → Prop} {post : Except ε β → M.World → Prop}
    (h : p.Ensures M allowed keep first w) (hError : ∀ e w', keep w' → first (.error e) w' → post (.error e) w')
    (hOk : ∀ a w', keep w' → first (.ok a) w' → (f a).Ensures M allowed keep post w') :
    (p >>= f).Ensures M allowed keep post w := by
  refine ensures_bind (h.mono fun result w' hKeep hFirst => ?_)
  cases result with
  | ok a => exact hOk a w' hKeep hFirst
  | error e => exact hError e w' hKeep hFirst

theorem ensures_given {post : Except ε β → M.World → Prop} (hKeep : keep w)
    (hError : ∀ e, x = .error e → post (.error e) w) (hOk : ∀ a, x = .ok a → (f a).Ensures M allowed keep post w) :
    (ofExcept x >>= f).Ensures M allowed keep post w := by
  cases x with
  | ok a => exact hOk a rfl
  | error e => exact ⟨hKeep, hError e rfl⟩

theorem ensures_perform {c : I.Call} {post : Except ε (I.Answer c) → M.World → Prop} (hKeep : keep w)
    (hCall : ∀ choice, allowed choice → keep (M.exec c choice w).2 ∧ post (M.exec c choice w).1 (M.exec c choice w).2) :
    (perform c).Ensures M allowed keep post w := ⟨hKeep, hCall⟩

theorem ensures_attempt {c : I.Call} {post : Except ε (Except ε (I.Answer c)) → M.World → Prop} (hKeep : keep w)
    (hCall : ∀ choice, allowed choice → keep (M.exec c choice w).2 ∧
      post (.ok (M.exec c choice w).1) (M.exec c choice w).2) :
    (attempt c).Ensures M allowed keep post w := ⟨hKeep, hCall⟩

theorem ensures_catch {f : ε → Program I ε α}
    (h : p.Ensures M allowed keep (fun result w' =>
      match result with
      | .ok a => post (.ok a) w'
      | .error e => (f e).Ensures M allowed keep post w') w) : (tryCatch p f).Ensures M allowed keep post w := by
  change (p.catchError f).Ensures M allowed keep post w
  induction p generalizing w with
  | done result =>
    cases result with
    | ok a => exact h
    | error e => exact h.2
  | call c next ih => exact ⟨h.1, fun choice hAllowed => ih _ (h.2 choice hAllowed)⟩

variable {choices : List M.Choice}

/-- What `Ensures` says about the runs of a program. -/
theorem Ensures.run (h : p.Ensures M allowed keep post w)
    (hAllowed : ∀ choice ∈ choices, allowed choice) :
    keep (p.run M choices w).2 ∧ ∀ result, (p.run M choices w).1 = some result → post result (p.run M choices w).2 := by
  induction p generalizing w choices with
  | done result =>
    refine ⟨h.1, ?_⟩
    rintro result ⟨⟩
    exact h.2
  | call c next ih =>
    cases choices with
    | nil => exact ⟨h.1, nofun⟩
    | cons choice rest =>
      apply ih (M.exec c choice w).1 (h.2 choice (hAllowed choice (.head _)))
      exact fun later hMem => hAllowed later (.tail _ hMem)

/-! ## The number of calls -/

/-- Whatever the answers, the program makes at most so many calls. -/
def Within : Program I ε α → Nat → Prop
  | .done _, _ => True
  | .call _ _, 0 => False
  | .call _ next, n + 1 => ∀ answer, (next answer).Within n

theorem Within.mono {n m : Nat} (h : p.Within n) (hLe : n ≤ m) : p.Within m := by
  induction p generalizing n m with
  | done result => trivial
  | call c next ih =>
    cases n with
    | zero => exact h.elim
    | succ n =>
      cases m with
      | zero => exact absurd hLe (Nat.not_succ_le_zero n)
      | succ m => exact fun answer => ih answer (h answer) (Nat.le_of_succ_le_succ hLe)

theorem within_done {result : Except ε α} {n : Nat} : (done result : Program I ε α).Within n := trivial

theorem within_bind {n m : Nat} (h : p.Within n) (hRest : ∀ a, (f a).Within m) :
    (p >>= f).Within (m + n) := by
  change (p.bind f).Within (m + n)
  induction p generalizing n with
  | done result =>
    cases result with
    | ok a => exact (hRest a).mono (Nat.le_add_right m n)
    | error e => trivial
  | call c next ih =>
    cases n with
    | zero => exact h.elim
    | succ n => exact fun answer => ih answer (h answer)

theorem within_perform (c : I.Call) : (perform c : Program I ε (I.Answer c)).Within 1 := fun _ => trivial

theorem within_attempt (c : I.Call) : (attempt c : Program I ε (Except ε (I.Answer c))).Within 1 := fun _ => trivial

/-- With a choice for every call a run is not cut. -/
theorem Within.run {n : Nat} (h : p.Within n) (hLength : n ≤ choices.length) :
    (p.run M choices w).1 ≠ none := by
  induction p generalizing n w choices with
  | done result => nofun
  | call c next ih =>
    cases n with
    | zero => exact h.elim
    | succ n =>
      cases choices with
      | nil => exact absurd hLength (Nat.not_succ_le_zero n)
      | cons choice rest => exact ih _ (h _) (Nat.le_of_succ_le_succ hLength)

end Program

end FamilyConnect.Lib
