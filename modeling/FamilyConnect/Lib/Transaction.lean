import Mathlib

/-!
# Transactions

A transaction reads and writes a database and can raise; `commit` takes back
what was written if it does. `Ensures` says what holds of the result and the
database of every execution that does not raise.
-/

namespace FamilyConnect.Lib

/-- The body of a transaction. -/
abbrev Transaction (σ ε : Type) := StateT σ (Except ε)

namespace Transaction

variable {σ ε α β : Type} {s s' : σ} {t : Transaction σ ε α}

def commit (t : Transaction σ ε α) (s : σ) : Except ε α × σ :=
  match t s with
  | .ok (a, s') => (.ok a, s')
  | .error e => (.error e, s)

def require (p : Prop) [Decidable p] (e : ε) : Transaction σ ε Unit := if p then pure () else throw e

/-- What is there, or an exception. -/
def found (value : Option α) (e : ε) : Transaction σ ε α :=
  match value with
  | some a => pure a
  | none => throw e

/-- The results of `f`, one after the other. -/
def collect (f : α → Transaction σ ε β) : List α → Transaction σ ε (List β)
  | [] => pure []
  | a :: rest => do
    let b ← f a
    let more ← collect f rest
    pure (b :: more)

def Ensures (t : Transaction σ ε α) (post : α → σ → Prop) (s : σ) : Prop := ∀ a s', t s = .ok (a, s') → post a s'

theorem Ensures.mono {post post' : α → σ → Prop} (h : t.Ensures post s)
    (hPost : ∀ a s', post a s' → post' a s') : t.Ensures post' s :=
  fun a s' hRun => hPost a s' (h a s' hRun)

variable {post : α → σ → Prop} {a : α} {e : ε} {p : Prop} {value : Option α} {list : List α}

theorem ensures_pure (h : post a s) : (pure a : Transaction σ ε α).Ensures post s := by
  rintro _ _ ⟨⟩
  exact h

theorem ensures_throw : (throw e : Transaction σ ε α).Ensures post s := by
  rintro _ _ ⟨⟩

theorem ensures_bind {f : α → Transaction σ ε β} {post : β → σ → Prop}
    (h : t.Ensures (fun a s' => (f a).Ensures post s') s) : (t >>= f).Ensures post s := by
  intro b s'' hRun
  change (t s >>= fun result => f result.1 result.2) = .ok (b, s'') at hRun
  cases hFirst : t s with
  | error e =>
    rw [hFirst] at hRun
    cases hRun
  | ok result =>
    rw [hFirst] at hRun
    exact h result.1 result.2 hFirst b s'' hRun

theorem ensures_get {post : σ → σ → Prop} (h : post s s) : (get : Transaction σ ε σ).Ensures post s := by
  rintro _ _ ⟨⟩
  exact h

theorem ensures_set {post : PUnit → σ → Prop} (h : post ⟨⟩ s') : (set s' : Transaction σ ε PUnit).Ensures post s := by
  rintro _ _ ⟨⟩
  exact h

theorem ensures_modify {f : σ → σ} {post : PUnit → σ → Prop} (h : post ⟨⟩ (f s)) :
    (modify f : Transaction σ ε PUnit).Ensures post s := by
  rintro _ _ ⟨⟩
  exact h

theorem ensures_require [Decidable p] {post : Unit → σ → Prop} (h : p → post () s) :
    (require p e : Transaction σ ε Unit).Ensures post s := by
  unfold require
  split
  · rename_i hP
    exact ensures_pure (h hP)
  · exact ensures_throw

theorem ensures_found (h : ∀ a, value = some a → post a s) : (found value e : Transaction σ ε α).Ensures post s := by
  unfold found
  split
  · exact ensures_pure (h _ rfl)
  · exact ensures_throw

section

variable {f : α → Transaction σ ε β} {post : β → σ → Prop}

theorem bind_get {f : σ → Transaction σ ε β} (h : (f s).Ensures post s) :
    (get >>= f).Ensures post s := ensures_bind (ensures_get h)

theorem bind_set {f : PUnit → Transaction σ ε β} (h : (f ⟨⟩).Ensures post s') : (set s' >>= f).Ensures post s :=
  ensures_bind (ensures_set h)

theorem bind_require [Decidable p] {f : Unit → Transaction σ ε β} (h : p → (f ()).Ensures post s) :
    (require p e >>= f).Ensures post s :=
  ensures_bind (ensures_require h)

theorem bind_found (h : ∀ a, value = some a → (f a).Ensures post s) : (found value e >>= f).Ensures post s :=
  ensures_bind (ensures_found h)

end

theorem ensures_collect (keep : σ → Prop) {f : α → Transaction σ ε β} (hNow : keep s)
    (hRound : ∀ a ∈ list, ∀ s, keep s → (f a).Ensures (fun _ s' => keep s') s) :
    (collect f list).Ensures (fun _ s' => keep s') s := by
  induction list generalizing s with
  | nil => exact ensures_pure hNow
  | cons a rest ih =>
    refine ensures_bind ((hRound a (.head _) s hNow).mono fun b s' hKeep => ?_)
    refine ensures_bind ((ih hKeep fun a hMem => hRound a (.tail _ hMem)).mono fun more s'' hKeep' => ?_)
    exact ensures_pure hKeep'

theorem Ensures.commit (h : t.Ensures post s) (keep : σ → Prop) (hNow : keep s)
    (hPost : ∀ a s', post a s' → keep s') : keep (t.commit s).2 := by
  unfold Transaction.commit
  split
  · rename_i a s' hRun
    exact hPost a s' (h a s' hRun)
  · exact hNow

theorem Ensures.committed (h : t.Ensures post s) (hOk : (t.commit s).1 = .ok a) : post a (t.commit s).2 := by
  unfold Transaction.commit at hOk ⊢
  split at hOk
  · rename_i hRun
    cases hOk
    exact h _ _ hRun
  · cases hOk

/-! ## Checks that do not look at the database -/

def demand (p : Prop) [Decidable p] (e : ε) : Except ε Unit := if p then .ok () else .error e

def given (value : Option α) (e : ε) : Except ε α :=
  match value with
  | some a => .ok a
  | none => .error e

variable {f : α → Except ε β} {x : Except ε α}

variable {b : β}

theorem bind_ok (h : x >>= f = .ok b) : ∃ a, x = .ok a ∧ f a = .ok b := by
  cases x with
  | error e => cases h
  | ok a => exact ⟨a, rfl, h⟩

theorem ok_bind (h : x = .ok a) (hNext : f a = .ok b) : x >>= f = .ok b := by
  rw [h]
  exact hNext

theorem demand_ok [Decidable p] {u : Unit} (h : demand p e = .ok u) : p := by
  unfold demand at h
  split at h
  · assumption
  · cases h

theorem demand_iff [Decidable p] {u : Unit} : demand p e = .ok u ↔ p :=
  ⟨demand_ok, fun h => if_pos h⟩

theorem both_ok_iff {x : Except ε Unit} {y : Except ε β} : (x >>= fun _ => y) = .ok b ↔ x = .ok () ∧ y = .ok b := by
  constructor
  · intro h
    obtain ⟨_, hX, hY⟩ := bind_ok h
    exact ⟨hX, hY⟩
  · rintro ⟨rfl, hY⟩
    exact hY

theorem given_ok (h : given value e = .ok a) : value = some a := by
  cases value with
  | none => cases h
  | some b =>
    cases h
    rfl

theorem mapError_ok {ε' : Type} {f : ε → ε'} (h : x.mapError f = .ok a) : x = .ok a := by
  cases x with
  | error e => cases h
  | ok found =>
    cases h
    rfl

variable {out : List β}

theorem mapM_ok (h : list.mapM f = .ok out) : List.Forall₂ (fun a b => f a = .ok b) list out := by
  induction list generalizing out with
  | nil =>
    rw [List.mapM_nil] at h
    cases h
    exact .nil
  | cons a rest ih =>
    rw [List.mapM_cons] at h
    obtain ⟨b, hB, h⟩ := bind_ok h
    obtain ⟨more, hMore, h⟩ := bind_ok h
    cases h
    exact .cons hB (ih hMore)

theorem mapM_mem (h : list.mapM f = .ok out) (hB : b ∈ out) : ∃ a ∈ list, f a = .ok b := by
  have hAll := mapM_ok h
  clear h
  induction hAll with
  | nil => cases hB
  | @cons a c rest more hC _ ih =>
    rcases List.mem_cons.mp hB with rfl | hMore
    · exact ⟨a, .head _, hC⟩
    · obtain ⟨a', hA', hRead⟩ := ih hMore
      exact ⟨a', .tail _ hA', hRead⟩

theorem mapM_exists (h : ∀ a ∈ list, ∃ b, f a = .ok b) : ∃ out, list.mapM f = .ok out := by
  induction list with
  | nil => exact ⟨[], List.mapM_nil⟩
  | cons a rest ih =>
    obtain ⟨b, hB⟩ := h a (.head _)
    obtain ⟨more, hMore⟩ := ih fun other hOther => h other (.tail _ hOther)
    refine ⟨b :: more, ?_⟩
    rw [List.mapM_cons, hB, hMore]
    rfl

theorem mapM_map {γ : Type*} (h : list.mapM f = .ok out) {g : β → γ} {k : α → γ}
    (hSame : ∀ a b, f a = .ok b → g b = k a) : out.map g = list.map k := by
  have hAll := mapM_ok h
  clear h
  induction hAll with
  | nil => rfl
  | cons hC _ ih => rw [List.map_cons, List.map_cons, hSame _ _ hC, ih]

theorem ensures_lift (h : ∀ a, x = .ok a → post a s) : (liftM x : Transaction σ ε α).Ensures post s := by
  cases x with
  | error e => exact ensures_throw
  | ok a => exact ensures_pure (h a rfl)

theorem bind_lift {f : α → Transaction σ ε β} {post : β → σ → Prop} (h : ∀ a, x = .ok a → (f a).Ensures post s) :
    ((liftM x : Transaction σ ε α) >>= f).Ensures post s := ensures_bind (ensures_lift h)

theorem run_lift (h : x = .ok a) : (liftM x : Transaction σ ε α) s = .ok (a, s) := by
  rw [h]
  rfl

/-! ## Executions -/

theorem run_bind {f : α → Transaction σ ε β} (h : t s = .ok (a, s')) : (t >>= f) s = f a s' := by
  change (t s >>= fun result => f result.1 result.2) = f a s'
  rw [h]
  rfl

theorem run_bind_error {f : α → Transaction σ ε β} (h : t s = .error e) : (t >>= f) s = .error e := by
  change (t s >>= fun result => f result.1 result.2) = .error e
  rw [h]
  rfl

theorem run_get : (get : Transaction σ ε σ) s = .ok (s, s) := rfl

theorem run_modify {f : σ → σ} : (modify f : Transaction σ ε PUnit) s = .ok (⟨⟩, f s) := rfl

theorem run_require [Decidable p] (e : ε) (h : p) : (require p e : Transaction σ ε Unit) s = .ok ((), s) := by
  rw [require, if_pos h]
  rfl

theorem run_require_error [Decidable p] (e : ε) (h : ¬p) : (require p e : Transaction σ ε Unit) s = .error e := by
  rw [require, if_neg h]
  rfl

theorem run_found (e : ε) (h : value = some a) : (found value e : Transaction σ ε α) s = .ok (a, s) := by
  rw [h]
  rfl

theorem commit_of_run (h : t s = .ok (a, s')) : t.commit s = (.ok a, s') := by
  rw [commit, h]

theorem commit_of_error (h : t s = .error e) : t.commit s = (.error e, s) := by
  rw [commit, h]

theorem commit_ok (h : t.commit s = (.ok a, s')) : t s = .ok (a, s') := by
  unfold commit at h
  split at h
  · rename_i hRun
    cases h
    exact hRun
  · cases h

theorem commit_raised (h : (t.commit s).1 = .error e) : (t.commit s).2 = s := by
  unfold commit at h ⊢
  split at h
  · cases h
  · rfl

end Transaction

end FamilyConnect.Lib
