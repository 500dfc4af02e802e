import FamilyConnect.Lib.Program
import FamilyConnect.Lib.Transition

/-!
# Programs that share a world

Several users run programs over one world, one call at a time and in any order;
a user can leave, and then their programs stop where they are. What a program
has learned must survive what the others do, so it is stated in terms of a
relation `grows` that every step of every party follows.
-/

namespace FamilyConnect.Lib

/-- The users' common world. -/
structure Site (I : Interface) (ε : Type) where
  User : Type
  World : Type
  Choice : Type
  exec : User → (c : I.Call) → Choice → World → Except ε (I.Answer c) × World

variable {I : Interface} {ε α β : Type} {S : Site I ε}

/-- An invariant of the world, and how it may change. -/
structure Site.Terms (S : Site I ε) where
  inv : S.World → Prop
  grows : S.World → S.World → Prop
  refl : ∀ w, grows w w
  trans : ∀ {w w' w''}, grows w w' → grows w' w'' → grows w w''

namespace Program

/-- In any world that has grown from this one, every call keeps to the terms; `post` holds at the end. -/
def Follows (T : S.Terms) (u : S.User) : Program I ε α → (Except ε α → S.World → Prop) → S.World → Prop
  | .done result, post, w => post result w
  | .call c next, post, w => ∀ w', T.grows w w' → T.inv w' → ∀ choice,
      T.inv (S.exec u c choice w').2 ∧ T.grows w' (S.exec u c choice w').2 ∧
        (next (S.exec u c choice w').1).Follows T u post (S.exec u c choice w').2

variable {T : S.Terms} {u : S.User} {w w' : S.World}

/-- A fact that later worlds keep. -/
def Lasting (T : S.Terms) (fact : S.World → Prop) : Prop := ∀ w w', T.grows w w' → fact w → fact w'

variable {p : Program I ε α} {post : Except ε α → S.World → Prop}

theorem Follows.later (hPost : ∀ result, Lasting T (post result))
    (h : p.Follows T u post w) (hGrows : T.grows w w') : p.Follows T u post w' := by
  cases p with
  | done result => exact hPost result w w' hGrows h
  | call c next => exact fun w'' hGrows' => h w'' (T.trans hGrows hGrows')

theorem Follows.mono {post' : Except ε α → S.World → Prop} (h : p.Follows T u post w)
    (hPost : ∀ result w', T.grows w w' → post result w' → post' result w') : p.Follows T u post' w := by
  induction p generalizing w with
  | done result => exact hPost result w (T.refl w) h
  | call c next ih =>
    intro w' hGrows hInv choice
    obtain ⟨hInv', hGrows', hNext⟩ := h w' hGrows hInv choice
    refine ⟨hInv', hGrows', ih _ hNext fun result w'' hLater => ?_⟩
    exact hPost result w'' (T.trans (T.trans hGrows hGrows') hLater)

theorem follows_pure {a : α} (h : post (.ok a) w) : (pure a : Program I ε α).Follows T u post w := h

variable {f : α → Program I ε β}

theorem follows_bind {post : Except ε β → S.World → Prop}
    (h : p.Follows T u (fun result w' =>
      match result with
      | .ok a => (f a).Follows T u post w'
      | .error e => post (.error e) w') w) : (p >>= f).Follows T u post w := by
  change (p.bind f).Follows T u post w
  induction p generalizing w with
  | done result =>
    cases result with
    | ok a | error e => exact h
  | call c next ih =>
    intro w' hGrows hInv choice
    obtain ⟨hInv', hGrows', hNext⟩ := h w' hGrows hInv choice
    exact ⟨hInv', hGrows', ih _ hNext⟩

theorem follows_catch {f : ε → Program I ε α}
    (h : p.Follows T u (fun result w' =>
      match result with
      | .ok a => post (.ok a) w'
      | .error e => (f e).Follows T u post w') w) : (tryCatch p f).Follows T u post w := by
  change (p.catchError f).Follows T u post w
  induction p generalizing w with
  | done result =>
    cases result with
    | ok a | error e => exact h
  | call c next ih =>
    intro w' hGrows hInv choice
    obtain ⟨hInv', hGrows', hNext⟩ := h w' hGrows hInv choice
    exact ⟨hInv', hGrows', ih _ hNext⟩

theorem follows_perform {c : I.Call} {post : Except ε (I.Answer c) → S.World → Prop}
    (h : ∀ w', T.grows w w' → T.inv w' → ∀ choice, T.inv (S.exec u c choice w').2 ∧
      T.grows w' (S.exec u c choice w').2 ∧ post (S.exec u c choice w').1
        (S.exec u c choice w').2) : (perform c).Follows T u post w := h

/-- What holds if a program returns. -/
def Returns (Q : α → S.World → Prop) : Except ε α → S.World → Prop
  | .ok a, w => Q a w
  | .error _, _ => True

variable {Q : α → S.World → Prop}

theorem follows_next {R : β → S.World → Prop}
    (hFirst : p.Follows T u (Returns Q) w) (hNext : ∀ a w', T.grows w w' → Q a w' → (f a).Follows T u (Returns R) w') :
    (p >>= f).Follows T u (Returns R) w := by
  refine follows_bind (hFirst.mono fun result w' hGrows hResult => ?_)
  cases result with
  | ok a => exact hNext a w' hGrows hResult
  | error e => trivial

theorem follows_map {f : α → β} {Q : β → S.World → Prop} (h : p.Follows T u (Returns fun a w' => Q (f a) w') w) :
    (f <$> p).Follows T u (Returns Q) w := follows_next h fun _ _ _ hQ => hQ

theorem follows_else {f : ε → Program I ε α} (hFirst : p.Follows T u (Returns Q) w)
    (hElse : ∀ e w', T.grows w w' → (f e).Follows T u (Returns Q) w') : (tryCatch p f).Follows T u (Returns Q) w := by
  refine follows_catch (hFirst.mono fun result w' hGrows hResult => ?_)
  cases result with
  | ok a => exact hResult
  | error e => exact hElse e w' hGrows

/-- The answer does not matter. -/
theorem follows_step {c : I.Call} (h : ∀ w', T.grows w w' → T.inv w' → ∀ choice,
    T.inv (S.exec u c choice w').2 ∧ T.grows w' (S.exec u c choice w').2) :
    (perform c : Program I ε (I.Answer c)).Follows T u (Returns fun _ _ => True) w := by
  refine follows_perform fun w' hGrows hInv choice => ?_
  obtain ⟨hInv', hGrows'⟩ := h w' hGrows hInv choice
  refine ⟨hInv', hGrows', ?_⟩
  cases (S.exec u c choice w').1 with
  | ok a | error e => trivial

theorem follows_done {f : α → β} (h : p.Follows T u (Returns Q) w) :
    (do let a ← p; pure (f a) : Program I ε β).Follows T u (Returns fun _ _ => True) w :=
    follows_next h fun _ _ _ _ => trivial

theorem follows_raise {e : ε} : (throw e : Program I ε α).Follows T u (Returns Q) w := trivial

end Program

/-! ## All users together -/

namespace Site

/-- Any number of programs of any users are under way. -/
structure State (S : Site I ε) where
  world : S.World
  jobs : List (S.User × Program I ε Unit) := []

/-- `may` says what a user may start, `leave` what becomes of the world when a user's process is
gone, and `other` what else can happen. -/
inductive Step (S : Site I ε) (may : S.User → Program I ε Unit → Prop) (leave : S.User → S.World → S.World)
    (other : S.World → S.World → Prop) : S.State → S.State → Prop where
  | start {s : S.State} (u : S.User) (p : Program I ε Unit) : may u p →
      Step S may leave other s { s with jobs := (u, p) :: s.jobs }
  | advance {world : S.World} {before after : List (S.User × Program I ε Unit)} (u : S.User) (c : I.Call)
      (next : Except ε (I.Answer c) → Program I ε Unit) (choice : S.Choice) :
      Step S may leave other ⟨world, before ++ (u, .call c next) :: after⟩
        ⟨(S.exec u c choice world).2, before ++ (u, next (S.exec u c choice world).1) :: after⟩
  | leave {world : S.World} {jobs jobs' : List (S.User × Program I ε Unit)} (u : S.User) :
      (∀ job ∈ jobs', job ∈ jobs ∧ job.1 ≠ u) → Step S may leave other ⟨world, jobs⟩ ⟨leave u world, jobs'⟩
  | other {s : S.State} (world : S.World) : other s.world world → Step S may leave other s { s with world := world }

variable {may : S.User → Program I ε Unit → Prop} {leave : S.User → S.World → S.World}
  {other : S.World → S.World → Prop} {T : S.Terms}

structure State.Orderly (T : S.Terms) (s : S.State) : Prop where
  inv : T.inv s.world
  jobs : ∀ job ∈ s.jobs, job.2.Follows T job.1 (fun _ _ => True) s.world

/-- What must be shown of the parties. -/
structure Terms.Kept (T : S.Terms) (may : S.User → Program I ε Unit → Prop) (leave : S.User → S.World → S.World)
    (other : S.World → S.World → Prop) : Prop where
  start : ∀ u p w, may u p → T.inv w → p.Follows T u (fun _ _ => True) w
  leave : ∀ u w, T.inv w → T.inv (leave u w) ∧ T.grows w (leave u w)
  other : ∀ w w', T.inv w → other w w' → T.inv w' ∧ T.grows w w'

variable {s : S.State}

theorem State.Orderly.grow (h : s.Orderly T) {world : S.World} {jobs : List (S.User × Program I ε Unit)}
    (hInv : T.inv world) (hGrows : T.grows s.world world) (hJobs : ∀ job ∈ jobs, job ∈ s.jobs) :
    State.Orderly T ⟨world, jobs⟩ :=
  ⟨hInv, fun job hMem => (h.jobs job (hJobs job hMem)).later (fun _ _ _ _ _ => trivial) hGrows⟩

theorem Terms.Kept.step (h : T.Kept may leave other) {s' : S.State} (hOrderly : s.Orderly T)
    (hStep : S.Step may leave other s s') : s'.Orderly T ∧ T.grows s.world s'.world := by
  cases hStep with
  | start u p hMay =>
    refine ⟨⟨hOrderly.inv, fun job hMem => ?_⟩, T.refl _⟩
    rcases List.mem_cons.mp hMem with rfl | hOld
    · exact h.start u p s.world hMay hOrderly.inv
    · exact hOrderly.jobs job hOld
  | @advance world before after u c next choice =>
    have hMine : (Program.call c next).Follows T u (fun _ _ => True) world :=
      hOrderly.jobs (u, .call c next) (List.mem_append_right before (.head _))
    obtain ⟨hInv, hGrows, hNext⟩ := hMine world (T.refl world) hOrderly.inv choice
    refine ⟨⟨hInv, fun job hMem => ?_⟩, hGrows⟩
    rcases List.mem_append.mp hMem with hBefore | hMem
    · exact (hOrderly.jobs job (List.mem_append_left _ hBefore)).later (fun _ _ _ _ _ => trivial) hGrows
    · rcases List.mem_cons.mp hMem with rfl | hAfter
      · exact hNext
      · refine (hOrderly.jobs job ?_).later (fun _ _ _ _ _ => trivial) hGrows
        exact List.mem_append_right before (.tail _ hAfter)
  | leave u hJobs =>
    obtain ⟨hInv, hGrows⟩ := h.leave u _ hOrderly.inv
    exact ⟨hOrderly.grow hInv hGrows fun job hMem => (hJobs job hMem).1, hGrows⟩
  | other world hOther =>
    obtain ⟨hInv, hGrows⟩ := h.other _ world hOrderly.inv hOther
    exact ⟨hOrderly.grow hInv hGrows fun job hMem => hMem, hGrows⟩

/-- All the runs from worlds without anything under way. -/
def crew (S : Site I ε) (may : S.User → Program I ε Unit → Prop) (leave : S.User → S.World → S.World)
    (other : S.World → S.World → Prop) (initial : S.World → Prop) : System S.State where
  initial s := initial s.world ∧ s.jobs = []
  step := S.Step may leave other

variable {initial : S.World → Prop}

theorem Terms.Kept.reachable (h : T.Kept may leave other) (hInitial : ∀ w, initial w → T.inv w)
    (hReachable : (S.crew may leave other initial).Reachable s) : s.Orderly T := by
  refine hReachable.invariant (I := State.Orderly T) ?_ fun s s' _ hOrderly hStep => (h.step hOrderly hStep).1
  rintro s ⟨hWorld, hJobs⟩
  refine ⟨hInitial s.world hWorld, ?_⟩
  rw [hJobs]
  nofun

/-- The job that was started last makes its next call. -/
def State.turn (s : S.State) (choice : S.Choice) : S.State :=
  match s.jobs with
  | (u, .call c next) :: rest => ⟨(S.exec u c choice s.world).2, (u, next (S.exec u c choice s.world).1) :: rest⟩
  | _ => s

theorem reachable_turn (h : (S.crew may leave other initial).Reachable s) (choice : S.Choice) :
    (S.crew may leave other initial).Reachable (s.turn choice) := by
  obtain ⟨world, jobs⟩ := s
  unfold State.turn
  split
  · rename_i u c next rest hJobs
    cases hJobs
    have hStep : S.Step may leave other ⟨world, [] ++ (u, .call c next) :: rest⟩ _ := .advance u c next choice
    exact h.next hStep
  · exact h

theorem reachable_turns (h : (S.crew may leave other initial).Reachable s) (choices : List S.Choice) :
    (S.crew may leave other initial).Reachable (choices.foldl State.turn s) := by
  induction choices generalizing s with
  | nil => exact h
  | cons choice rest ih => exact ih (reachable_turn h choice)

end Site

end FamilyConnect.Lib
