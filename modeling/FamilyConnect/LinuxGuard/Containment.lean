import FamilyConnect.LinuxGuard.GuardSpecs

/-!
# Containment

From the first `acquire` on, the installed table is always one of the guard's
own, whatever fails or is cut. The notes of a run say more: which links there
were while the table was blocked, between two candidates.
-/

namespace FamilyConnect.LinuxGuard

open Lib Program

/-! ## What the notes tell -/

def lastInstalled : List Note → Option State
  | [] => none
  | .installed s :: _ => some s
  | .removed :: _ => none
  | _ :: rest => lastInstalled rest

def State.absentFrom (s : State) (found : List Link) : Bool :=
  found.all fun link => s.selected.map (·.interface) ≠ some link.ifname

/-- How far the guard is with closing a ready state: not at all, blocked since, or blocked and once without its
interface. -/
inductive Phase where
  | free
  | ready (s : State)
  | blocked (s : State)
  | checked (s : State)

def Phase.next : Phase → Note → Phase
  | _, .removed => .free
  | p, .installed s =>
    match s.mode, p with
    | .ready, _ => .ready s
    | .probe, _ => .free
    | .blocked, .ready s₁ => .blocked s₁
    | .blocked, p => p
  | .blocked s₁, .links found => if s₁.absentFrom found then .checked s₁ else .blocked s₁
  | p, _ => p

def phase : List Note → Phase
  | [] => .free
  | note :: rest => (phase rest).next note

def absentNow (s : State) : List Note → Bool
  | .links found :: rest => s.absentFrom found || absentNow s rest
  | .live _ :: rest => absentNow s rest
  | _ => false

/-- The ready state that is not yet known to be gone. -/
def Phase.open : Phase → Option State
  | .ready s | .blocked s => some s
  | _ => none

/-- When a state that is not blocked is installed, the last ready state is gone, and the new
interface was absent too. -/
def Phase.Admits (p : Phase) (s : State) (trace : List Note) : Prop :=
  match p with
  | .free => True
  | .checked _ => absentNow s trace = true
  | _ => False

def Handed (trace : List Note) : Prop :=
  ∀ later s earlier, trace = later ++ .installed s :: earlier → s.mode ≠ .blocked → (phase earlier).Admits s earlier

variable {s₁ : State}

section

variable {notes trace : List Note} {s : State}

section

variable (h : ∀ note ∈ notes, note.quiet = true)
include h

theorem lastInstalled_quiet : lastInstalled (notes ++ trace) = lastInstalled trace := by
  induction notes with
  | nil => rfl
  | cons note notes ih =>
    have hNote := h note (.head _)
    have hRest := ih fun other hMem => h other (.tail _ hMem)
    cases note with
    | installed _ | removed => cases hNote
    | links _ | live _ => exact hRest

theorem absentNow_quiet (hNow : absentNow s trace = true) : absentNow s (notes ++ trace) = true := by
  induction notes with
  | nil => exact hNow
  | cons note notes ih =>
    have hNote := h note (.head _)
    have hRest := ih fun other hMem => h other (.tail _ hMem)
    cases note with
    | installed _ | removed => cases hNote
    | links found =>
      rw [List.cons_append, absentNow, hRest, Bool.or_true]
    | live link => exact hRest

/-- Quiet notes can only bring a closing further. -/
theorem phase_quiet :
    phase (notes ++ trace) = phase trace ∨
      ∃ s, phase trace = .blocked s ∧ phase (notes ++ trace) = .checked s := by
  induction notes with
  | nil => exact .inl rfl
  | cons note notes ih =>
    have hNote := h note (.head _)
    have hRest := ih fun other hMem => h other (.tail _ hMem)
    rw [List.cons_append, phase]
    cases note with
    | installed _ | removed => cases hNote
    | live link =>
      have hSame : (phase (notes ++ trace)).next (.live link) = phase (notes ++ trace) := by
        cases phase (notes ++ trace) <;> rfl
      rw [hSame]
      exact hRest
    | links found =>
      rcases hRest with hSame | ⟨s, hBlocked, hChecked⟩
      · rw [hSame]
        cases hPhase : phase trace with
        | free | ready s | checked s => exact .inl rfl
        | blocked s =>
          rw [Phase.next]
          split
          · exact .inr ⟨s, rfl, rfl⟩
          · exact .inl rfl
      · rw [hChecked]
        exact .inr ⟨s, hBlocked, rfl⟩

omit h in
theorem Phase.open_installed {p : Phase} (hOpen : (p.next (.installed s)).open = some s₁) :
    s.mode = .ready ∧ s₁ = s ∨ p.open = some s₁ := by
  cases hMode : s.mode with
  | ready =>
    simp only [Phase.next, hMode, Phase.open, Option.some.injEq] at hOpen
    exact .inl ⟨rfl, hOpen.symm⟩
  | probe =>
    simp only [Phase.next, hMode] at hOpen
    cases hOpen
  | blocked =>
    cases p
    all_goals
      simp only [Phase.next, hMode] at hOpen
      exact .inr hOpen

def Phase.Agrees (last : Option State) : Phase → Prop
  | .free => True
  | .ready s => s.mode = .ready ∧ last = some s
  | .blocked s | .checked s => s.mode = .ready ∧ ∃ b, last = some b ∧ b.mode = .blocked

omit h in
theorem phase_agrees (trace : List Note) : (phase trace).Agrees (lastInstalled trace) := by
  induction trace with
  | nil => trivial
  | cons note rest ih =>
    rw [phase]
    cases note with
    | removed => simp [Phase.next, Phase.Agrees]
    | live link =>
      cases hPhase : phase rest <;> rw [hPhase] at ih <;> exact ih
    | installed s =>
      cases hMode : s.mode with
      | ready => simp [Phase.next, hMode, Phase.Agrees, lastInstalled]
      | probe => simp [Phase.next, hMode, Phase.Agrees]
      | blocked =>
        cases hPhase : phase rest with
        | free => simp [Phase.next, hMode, Phase.Agrees]
        | ready s₁ | blocked s₁ | checked s₁ =>
          rw [hPhase] at ih
          simp [Phase.next, hMode, Phase.Agrees, lastInstalled, ih.1]
    | links found =>
      cases hPhase : phase rest with
      | free => trivial
      | ready s₁ | checked s₁ =>
        rw [hPhase] at ih
        exact ih
      | blocked s₁ =>
        rw [hPhase] at ih
        rw [Phase.next]
        split <;> exact ih

theorem open_quiet (hOpen : (phase (notes ++ trace)).open = some s₁) : (phase trace).open = some s₁ := by
  rcases phase_quiet h with hSame | ⟨s, hBlocked, hChecked⟩
  · rw [hSame] at hOpen
    exact hOpen
  · rw [hChecked] at hOpen
    cases hOpen

theorem admits_quiet (hAdmits : (phase trace).Admits s trace) : (phase (notes ++ trace)).Admits s (notes ++ trace) := by
  rcases phase_quiet h with hSame | ⟨s₁, hBlocked, -⟩
  · rw [hSame]
    cases hPhase : phase trace with
    | free => trivial
    | checked s₁ =>
      rw [hPhase] at hAdmits
      exact absentNow_quiet h hAdmits
    | ready s₁ | blocked s₁ =>
      rw [hPhase] at hAdmits
      exact hAdmits.elim
  · rw [hBlocked] at hAdmits
    exact hAdmits.elim

end

theorem Handed.quiet (h : Handed trace) (hQuiet : ∀ note ∈ notes, note.quiet = true) : Handed (notes ++ trace) := by
  induction notes with
  | nil => exact h
  | cons note notes ih =>
    have hNote := hQuiet note (.head _)
    have hRest := ih fun other hMem => hQuiet other (.tail _ hMem)
    rintro (_ | ⟨newest, later⟩) s earlier hSplit
    · cases hSplit
      cases hNote
    · exact hRest later s earlier (List.cons.inj hSplit).2

end

/-! ## The invariant -/

structure World.Inv (w : World) : Prop where
  owner : ∀ o value, w.owner = some o → w.record = some value → value.generation = o.generation
  installed : ∀ s, lastInstalled w.trace = some s →
    ∃ j, w.journal = some j ∧ w.table = some (objects j.generation s) ∧ j.choices ≠ []
  contained : w.contained = true → (lastInstalled w.trace).isSome = true
  settled : ∀ j s, w.journal = some j → j.pending = none → j.current = some s → lastInstalled w.trace = some s
  live : ∀ s, .installed s ∈ w.trace → s.mode = .ready → ∃ link, .live link ∈ w.trace ∧ s.live link = true
  lineage : ∀ s₁ j, (phase w.trace).open = some s₁ → w.journal = some j → ∀ s ∈ j.choices, s.selected = s₁.selected
  handed : Handed w.trace

theorem World.Inv.steady {w w' : World} (hSteady : w.Steady w') (h : w.Inv) : w'.Inv := by
  obtain ⟨notes, hTrace, hQuiet⟩ := hSteady.trace
  constructor
  case owner =>
    rw [hSteady.owner, hSteady.record]
    exact h.owner
  case installed =>
    rw [hTrace, lastInstalled_quiet hQuiet, hSteady.journal, hSteady.table]
    exact h.installed
  case contained =>
    rw [hTrace, lastInstalled_quiet hQuiet, hSteady.contained]
    exact h.contained
  case settled =>
    rw [hTrace, lastInstalled_quiet hQuiet, hSteady.journal]
    exact h.settled
  case live =>
    intro s hMem hMode
    rw [hTrace] at hMem ⊢
    rcases List.mem_append.mp hMem with hNew | hOld
    · cases hQuiet _ hNew
    · obtain ⟨link, hLink, hLive⟩ := h.live s hOld hMode
      exact ⟨link, List.mem_append_right notes hLink, hLive⟩
  case lineage =>
    intro s₁ j hOpen hJournal
    rw [hTrace] at hOpen
    rw [hSteady.journal] at hJournal
    exact h.lineage s₁ j (open_quiet hQuiet hOpen) hJournal
  case handed =>
    rw [hTrace]
    exact h.handed.quiet hQuiet

structure World.Fits (w : World) (s : State) : Prop where
  lineage : ∀ s₁, (phase w.trace).open = some s₁ → s.selected = s₁.selected
  live : s.mode = .ready → ∃ link, .live link ∈ w.trace ∧ s.live link = true
  admitted : s.mode ≠ .blocked → (phase w.trace).Admits s w.trace
  current : s.mode = .ready → ∀ j c, w.journal = some j → j.current = some c → c.selected = s.selected

variable {s : State}

theorem World.Fits.steady {w w' : World} (hSteady : w.Steady w') (h : w.Fits s) : w'.Fits s := by
  obtain ⟨notes, hTrace, hQuiet⟩ := hSteady.trace
  constructor
  case lineage =>
    intro s₁ hOpen
    rw [hTrace] at hOpen
    exact h.lineage s₁ (open_quiet hQuiet hOpen)
  case live =>
    intro hMode
    obtain ⟨link, hLink, hLive⟩ := h.live hMode
    rw [hTrace]
    exact ⟨link, List.mem_append_right notes hLink, hLive⟩
  case admitted =>
    intro hMode
    rw [hTrace]
    exact admits_quiet hQuiet (h.admitted hMode)
  case current =>
    rw [hSteady.journal]
    exact h.current

variable {value : Journal} {o : Owner}

theorem mem_intent {s' : State} (h : s' ∈ (intent o value s).choices) : value.current = some s' ∨ s' = s := by
  simp only [Journal.choices, intent, Option.bind_some, Pending.state, List.mem_append, Option.mem_toList,
    Option.some.injEq] at h
  exact h.imp_right Eq.symm

theorem intent_choices : (intent o value s).choices ≠ [] := by
  simp [Journal.choices, intent, Pending.state]

theorem mem_choices_current (h : value.current = some s) : s ∈ value.choices := by
  simp [Journal.choices, h]

variable {w : World}

theorem World.Inv.wrote {j : Journal} (h : w.Inv) (hJournal : w.journal = some j)
    (hGeneration : value.generation = j.generation) (hChoices : value.choices ≠ [])
    (hSettled : ∀ s, value.pending = none → value.current = some s → lastInstalled w.trace = some s)
    (hLineage : ∀ s₁, (phase w.trace).open = some s₁ →
      ∀ s ∈ value.choices, s.selected = s₁.selected) : (w.wrote value).Inv where
  owner := h.owner
  installed s hLast := by
    obtain ⟨j', hJ, hTable, -⟩ := h.installed s hLast
    have hSame : j' = j := Option.some.inj (hJ.symm.trans hJournal)
    refine ⟨value, rfl, ?_, hChoices⟩
    rw [hGeneration, ← hSame]
    exact hTable
  contained := h.contained
  settled j' s hJ hPending hCurrent := by
    have hSame : value = j' := Option.some.inj hJ
    rw [← hSame] at hPending hCurrent
    exact hSettled s hPending hCurrent
  live := h.live
  lineage s₁ j' hOpen hJ := by
    have hSame : value = j' := Option.some.inj hJ
    rw [← hSame]
    exact hLineage s₁ hOpen
  handed := h.handed

theorem World.Inv.recorded (h : w.Inv) (hOwner : ∀ o, w.owner = some o → value.generation = o.generation) :
    { w with record := some value }.Inv :=
  { h with
    owner := fun o value' hO hValue => by
      have hSame : value = value' := Option.some.inj hValue
      rw [← hSame]
      exact hOwner o hO }

/-- The transaction of `_apply`, with its intent in the journal. -/
theorem World.Inv.install (h : w.Inv) (hFits : w.Fits s) (hJournal : w.journal = some (intent o value s)) :
    (w.install (some (objects o.generation s)) (some s)).Inv where
  owner := h.owner
  installed s' hLast := by
    have hSame : s = s' := Option.some.inj hLast
    rw [← hSame]
    exact ⟨intent o value s, hJournal, rfl, intent_choices⟩
  contained _ := rfl
  settled j s' hJ hPending _ := by
    have hSame : intent o value s = j := Option.some.inj (hJournal.symm.trans hJ)
    rw [← hSame] at hPending
    cases hPending
  live s' hMem hMode := by
    rcases List.mem_cons.mp hMem with hNewest | hOld
    · cases hNewest
      obtain ⟨link, hLink, hLive⟩ := hFits.live hMode
      exact ⟨link, .tail _ hLink, hLive⟩
    · obtain ⟨link, hLink, hLive⟩ := h.live s' hOld hMode
      exact ⟨link, .tail _ hLink, hLive⟩
  lineage s₁ j hOpen hJ s' hMem := by
    have hSame : intent o value s = j := Option.some.inj (hJournal.symm.trans hJ)
    rcases Phase.open_installed hOpen with ⟨hMode, rfl⟩ | hBefore
    · rw [← hSame] at hMem
      rcases mem_intent hMem with hCurrent | rfl
      · exact hFits.current hMode _ s' hJournal hCurrent
      · rfl
    · exact h.lineage s₁ j hBefore hJ s' hMem
  handed := by
    rintro (_ | ⟨newest, later⟩) s' earlier hSplit hMode
    · cases hSplit
      exact hFits.admitted hMode
    · exact h.handed later s' earlier (List.cons.inj hSplit).2 hMode

section

variable {allowed : Choice → Prop} {w : World} {o : Owner} {s : State}

structure World.Runs (o : Owner) (w : World) : Prop where
  inv : w.Inv
  owner : w.owner = some o

theorem World.Runs.stably (h : w.Runs o) : w.Stably (World.Runs o) :=
  fun _ hSteady => ⟨h.inv.steady hSteady, hSteady.owner.trans h.owner⟩

theorem World.Runs.saved {j : Journal} (h : w.Runs o) (value : Journal) (hJournal : w.journal = some j)
    (hOld : value.generation = j.generation) (hNew : value.generation = o.generation) (hChoices : value.choices ≠ [])
    (hSettled : ∀ s, value.pending = none → value.current = some s → lastInstalled w.trace = some s)
    (hLineage : ∀ s₁, (phase w.trace).open = some s₁ → ∀ s ∈ value.choices, s.selected = s₁.selected) :
    (w.wrote value).Runs o ∧ (w.saved value).Runs o := by
  have hWrote := h.inv.wrote hJournal hOld hChoices hSettled hLineage
  refine ⟨⟨hWrote, h.owner⟩, hWrote.recorded fun o' hO => ?_, h.owner⟩
  have hSame : o = o' := Option.some.inj (h.owner.symm.trans hO)
  rw [← hSame]
  exact hNew

theorem World.Runs.applyState (h : w.Runs o) (hFits : w.Fits s) :
    Ensures allowed (World.Runs o) (applyState o s) (fun result w' => result = .ok () →
      lastInstalled w'.trace = some s) w := by
  have hIntent : ∀ value w', Granted o s w value → w.Steady w' →
      (w'.wrote (intent o value s)).Runs o ∧ (w'.saved (intent o value s)).Runs o := by
    intro value w' hGranted hSteady
    have h' := h.stably w' hSteady
    have hJournal : w'.journal = some value := hSteady.journal.trans hGranted.journal
    have hGeneration : value.generation = o.generation := h.inv.owner o value h.owner hGranted.record
    refine h'.saved _ hJournal hGeneration.symm rfl intent_choices nofun fun s₁ hOpen s' hMem => ?_
    rcases mem_intent hMem with hCurrent | rfl
    · exact h'.inv.lineage s₁ value hOpen hJournal s' (mem_choices_current hCurrent)
    · exact (hFits.steady hSteady).lineage s₁ hOpen
  have hInstall : ∀ value w₁ w₂, Granted o s w value → w.Steady w₁ → (w₁.saved (intent o value s)).Steady w₂ →
      (w₂.install (some (objects o.generation s)) (some s)).Runs o := by
    intro value w₁ w₂ hGranted h₁ h₂
    have hSaved := (hIntent value w₁ hGranted h₁).2
    have hRuns := hSaved.stably w₂ h₂
    have hFits₁ := hFits.steady h₁
    have hFitsSaved : (w₁.saved (intent o value s)).Fits s := by
      refine ⟨hFits₁.lineage, hFits₁.live, hFits₁.admitted, fun hMode j c hJ hCurrent => ?_⟩
      have hSame : intent o value s = j := Option.some.inj hJ
      rw [← hSame] at hCurrent
      exact hFits.current hMode value c hGranted.journal hCurrent
    exact ⟨hRuns.inv.install (hFitsSaved.steady h₂) h₂.journal, hRuns.owner⟩
  refine ensures_applyState h (fun _ hRuns => hRuns.stably) (fun _ _ _ _ => nofun) hIntent hInstall ?_
  intro value w₁ w₂ w₃ hGranted h₁ h₂ h₃
  have hRuns := (hInstall value w₁ w₂ hGranted h₁ h₂).stably w₃ h₃
  have hJournal : w₃.journal = some (intent o value s) := h₃.journal.trans h₂.journal
  have hLast : lastInstalled w₃.trace = some s := by
    obtain ⟨notes, hTrace, hQuiet⟩ := h₃.trace
    rw [hTrace, lastInstalled_quiet hQuiet]
    rfl
  have hSaved := hRuns.saved (outcome o s) hJournal rfl rfl nofun ?_ ?_
  · exact ⟨hSaved.1, hSaved.2, fun _ => hLast⟩
  · intro s' _ hCurrent
    rw [hLast]
    exact hCurrent
  · intro s₁ hOpen s' hMem
    refine hRuns.inv.lineage s₁ _ hOpen hJournal s' ?_
    simp only [Journal.choices, outcome, intent, Option.toList_some, Option.bind_none,
      Option.toList_none, List.append_nil, List.mem_singleton, Option.bind_some, Pending.state] at hMem ⊢
    rw [hMem]
    simp

theorem installed_of_open {trace : List Note} (hOpen : (phase trace).open = some s₁) :
    (lastInstalled trace).isSome = true := by
  have hAgrees := phase_agrees trace
  cases hPhase : phase trace with
  | free | checked s =>
    rw [hPhase] at hOpen
    cases hOpen
  | ready s =>
    rw [hPhase] at hAgrees
    rw [hAgrees.2]
    rfl
  | blocked s =>
    rw [hPhase] at hAgrees
    obtain ⟨-, b, hLast, -⟩ := hAgrees
    rw [hLast]
    rfl

variable {value : Journal}

theorem World.Inv.fits_blocked (previous : Option State) (h : w.Inv) (hJournal : w.journal = some value)
    (hMem : ∀ s', previous = some s' → s' ∈ value.choices) (hNone : previous = none → value.choices = [])
    (hPolicy : policy .blocked (previous.bind (·.selected)) 0 false = .ok s) : w.Fits s := by
  obtain ⟨hMode, hSelected, -, -⟩ := policy_eq_ok hPolicy
  have hReady : s.mode ≠ .ready := by
    rw [hMode]
    nofun
  refine ⟨fun s₁ hOpen => ?_, fun h => absurd h hReady, fun h => absurd hMode h, fun h => absurd h hReady⟩
  obtain ⟨last, hLast⟩ := Option.isSome_iff_exists.mp (installed_of_open hOpen)
  obtain ⟨j, hJ, -, hChoices⟩ := h.installed last hLast
  have hSame : j = value := Option.some.inj (hJ.symm.trans hJournal)
  rw [hSelected]
  cases previous with
  | none =>
    rw [hSame, hNone rfl] at hChoices
    exact absurd rfl hChoices
  | some s' => exact h.lineage s₁ value hOpen hJournal s' (hMem s' rfl)

theorem World.Runs.block (h : w.Runs o) : Ensures allowed (World.Runs o) (block o) (fun _ _ => True) w := by
  refine ensures_bind (ensures_settled h.stably (fun _ _ _ => trivial) ?_)
  intro value current w₁ h₁ hSettles
  have hRuns := h.stably w₁ h₁
  refine ensures_given hRuns (fun _ _ => trivial) fun s hPolicy => ?_
  have hFits : w₁.Fits s := by
    refine hRuns.inv.fits_blocked (some current) hSettles.journal ?_ nofun hPolicy
    rintro s' ⟨⟩
    exact mem_choices_current hSettles.current
  exact (hRuns.applyState hFits).mono fun _ _ _ _ => trivial

/-- Without a journal nothing is installed, so a new one promises nothing. -/
theorem World.Runs.saved_first (h : w.Runs o) (hJournal : w.journal = none)
    (hGeneration : value.generation = o.generation) (hCurrent : value.current = none)
    (hPending : value.pending = none) : (w.wrote value).Runs o ∧ (w.saved value).Runs o := by
  have hLast : lastInstalled w.trace = none := by
    cases hLast : lastInstalled w.trace with
    | none => rfl
    | some s =>
      obtain ⟨j, hJ, -⟩ := h.inv.installed s hLast
      rw [hJournal] at hJ
      cases hJ
  have hChoices : value.choices = [] := by simp [Journal.choices, hCurrent, hPending]
  have hWrote : (w.wrote value).Inv := by
    refine { h.inv with
      installed := fun s hSome => absurd (hLast.symm.trans hSome) nofun
      settled := fun j s hJ _ hS => ?_
      lineage := fun s₁ j _ hJ s hMem => ?_ }
    · rw [← Option.some.inj hJ, hCurrent] at hS
      cases hS
    · rw [← Option.some.inj hJ, hChoices] at hMem
      cases hMem
  refine ⟨⟨hWrote, h.owner⟩, hWrote.recorded fun o' hO => ?_, h.owner⟩
  rw [hGeneration, Option.some.inj (h.owner.symm.trans hO)]

theorem World.Runs.loadRecord (h : w.Runs o) : Ensures allowed (World.Runs o) (loadRecord o)
    (fun result w' => result = .ok () → ∃ value, w'.record = some value ∧ w'.journal = some value) w := by
  have hKeep := h.stably
  refine ensures_bind (ensures_attemptRead hKeep ?_ ?_ ?_)
  · exact fun _ w₁ h₁ => ensures_throw (hKeep w₁ h₁) nofun
  · intro w₁ h₁ hJournal
    refine ensures_bind (ensures_read (h₁.stably hKeep) (fun _ _ _ => nofun) fun w₂ h₂ => ?_)
    have h₂ := h₁.trans h₂
    dsimp only
    split
    · exact ensures_throw (hKeep w₂ h₂) nofun
    · have hFirst : ∀ w', w₂.Steady w' → (w'.wrote ⟨o.uid, o.generation, none, none⟩).Runs o ∧
          (w'.saved ⟨o.uid, o.generation, none, none⟩).Runs o := by
        intro w' hS
        have hS := h₂.trans hS
        exact (hKeep w' hS).saved_first (hS.journal.trans hJournal) rfl rfl rfl
      exact ensures_save (h₂.stably hKeep) (fun w' hS => (hFirst w' hS).1)
        (fun w' hS => (hFirst w' hS).2) (fun _ _ _ => ⟨nofun, nofun⟩) fun w' _ _ => ⟨_, rfl, rfl⟩
  · intro value w₁ h₁ hJournal
    dsimp only
    split
    · exact ensures_throw (hKeep w₁ h₁) nofun
    · rename_i hOwner
      refine ensures_setRecord (hKeep w₁ h₁) ?_ ?_
      · intro w₂ h₂
        have hRuns := hKeep w₂ (h₁.trans h₂)
        refine ⟨hRuns.inv.recorded fun o' hO => ?_, hRuns.owner⟩
        rw [not_not.mp (not_or.mp hOwner).2, Option.some.inj (hRuns.owner.symm.trans hO)]
      · exact fun w₂ h₂ _ => ⟨value, rfl, (h₁.trans h₂).journal.trans hJournal⟩

theorem mem_previous {s' : State}
    (h : (value.pending.bind Pending.state).or value.current = some s') : s' ∈ value.choices := by
  rw [Journal.choices, List.mem_append, Option.mem_toList, Option.mem_toList]
  rcases Option.or_eq_some_iff.mp h with hPending | ⟨-, hCurrent⟩
  · exact .inr hPending
  · exact .inl hCurrent

theorem choices_eq_nil (h : (value.pending.bind Pending.state).or value.current = none) : value.choices = [] := by
  obtain ⟨hPending, hCurrent⟩ := Option.or_eq_none_iff.mp h
  rw [Journal.choices, hPending, hCurrent]
  rfl

theorem World.Runs.acquire (h : w.Runs o) : Ensures allowed (World.Runs o) (acquire o) (fun _ _ => True) w := by
  have hKeep := h.stably
  refine ensures_bind (ensures_locked hKeep fun w₁ h₁ => ?_)
  refine ensures_bind (ensures_record (h₁.stably hKeep) fun w₂ h₂ => ?_)
  have hRuns := hKeep w₂ (h₁.trans h₂)
  dsimp only
  split
  · exact ensures_throw hRuns trivial
  refine ensures_step hRuns.loadRecord (fun _ _ _ _ => trivial) fun _ w₃ hRuns₃ hLoaded => ?_
  obtain ⟨value, hRecord, hJournal⟩ := hLoaded rfl
  have hKeep₃ := hRuns₃.stably
  refine ensures_bind (ensures_readOwned hKeep₃ hRecord (fun _ _ _ _ => trivial) fun w₄ h₄ _ => ?_)
  refine ensures_bind (ensures_theRecord (h₄.stably hKeep₃) (h₄.record.trans hRecord) fun w₅ h₅ => ?_)
  have h₅ := h₄.trans h₅
  have hRuns₅ := hKeep₃ w₅ h₅
  refine ensures_given hRuns₅ (fun _ _ => trivial) fun s hPolicy => ?_
  have hFits : w₅.Fits s :=
    hRuns₅.inv.fits_blocked _ (h₅.journal.trans hJournal) (fun _ => mem_previous) choices_eq_nil hPolicy
  refine ensures_step (hRuns₅.applyState hFits) (fun _ _ _ _ => trivial) fun _ w₆ hRuns₆ hLast => ?_
  refine ensures_perform hRuns₆ fun choice _ => ⟨?_, trivial⟩
  have hRuns₇ := hRuns₆.stably _ (.observe w₆ choice)
  have hThere : (lastInstalled (w₆.observe choice).trace).isSome = true := by
    change (lastInstalled w₆.trace).isSome = true
    rw [hLast rfl]
    rfl
  exact ⟨{ hRuns₇.inv with contained := fun _ => hThere }, hRuns₇.owner⟩

theorem phase_of_probe {trace : List Note} (hLast : lastInstalled trace = some s) (hMode : s.mode = .probe) :
    phase trace = .free := by
  have hAgrees := phase_agrees trace
  rw [hLast] at hAgrees
  cases hPhase : phase trace with
  | free => rfl
  | ready s₁ =>
    rw [hPhase] at hAgrees
    obtain ⟨hReady, hSame⟩ := hAgrees
    rw [← Option.some.inj hSame, hMode] at hReady
    cases hReady
  | blocked s₁ | checked s₁ =>
    rw [hPhase] at hAgrees
    obtain ⟨-, b, hSame, hBlocked⟩ := hAgrees
    rw [← Option.some.inj hSame, hMode] at hBlocked
    cases hBlocked

theorem World.Inv.closed {current : State} {found : List Link} (h : w.Inv) (hSettles : Settles w value current)
    (hMode : current.mode = .blocked) (hAbsent : ∀ c, current.selected = some c →
      ∀ link ∈ found, link.ifname ≠ c.interface) :
    (phase (.links found :: w.trace)).open = none := by
  have hLast := h.settled value current hSettles.journal hSettles.pending hSettles.current
  have hAgrees := phase_agrees w.trace
  rw [hLast] at hAgrees
  rw [phase]
  cases hPhase : phase w.trace with
  | free | checked s₁ => rfl
  | ready s₁ =>
    rw [hPhase] at hAgrees
    obtain ⟨hReady, hSame⟩ := hAgrees
    rw [← Option.some.inj hSame, hMode] at hReady
    cases hReady
  | blocked s₁ =>
    have hSelected : current.selected = s₁.selected :=
      h.lineage s₁ value (by rw [hPhase]; rfl) hSettles.journal current (mem_choices_current hSettles.current)
    have hGone : s₁.absentFrom found = true := by
      refine List.all_eq_true.mpr fun link hMem => decide_eq_true fun hNamed => ?_
      rw [← hSelected] at hNamed
      obtain ⟨c, hC, hName⟩ := Option.map_eq_some_iff.mp hNamed
      exact hAbsent c hC link hMem hName.symm
    rw [Phase.next, if_pos hGone]
    rfl

theorem World.Runs.prepare (h : w.Runs o) (selected : Candidate) :
    Ensures allowed (World.Runs o) (prepare o selected) (fun _ _ => True) w := by
  refine ensures_given h (fun _ _ => trivial) fun next hPolicy => ?_
  obtain ⟨hProbe, hSelected, -, -⟩ := policy_eq_ok hPolicy
  refine ensures_bind (ensures_settled h.stably (fun _ _ _ => trivial) ?_)
  intro value current w₁ h₁ hSettles
  have hRuns := h.stably w₁ h₁
  have hKeep := hRuns.stably
  dsimp only
  split
  · exact ensures_throw hRuns trivial
  rename_i hMode
  have hBlocked : current.mode = .blocked := not_not.mp hMode
  -- The first look closes what the blocked table left open, the second one is for the new candidate.
  have hFirst : Ensures allowed (World.Runs o) (absent current.selected) (fun result w' => w₁.Steady w' ∧
      (result = .ok () → current.selected = none ∨ (phase w'.trace).open = none)) w₁ := by
    refine ensures_absent hKeep (fun _ w' hS => ⟨hS, by rintro ⟨⟩⟩) (fun hNone => ⟨.refl w₁, fun _ => .inl hNone⟩) ?_
    intro c choice hC hGone
    refine ⟨.observe w₁ choice, fun _ => .inr (hRuns.inv.closed hSettles hBlocked fun c' hC' => ?_)⟩
    rw [← Option.some.inj (hC.symm.trans hC')]
    exact hGone
  refine ensures_step hFirst (fun _ _ _ _ => trivial) fun _ w₂ hRuns₂ hPost => ?_
  obtain ⟨h₂, hClosed⟩ := hPost
  refine ensures_bind (ensures_absent hRuns₂.stably (fun _ _ _ => trivial) (by rintro ⟨⟩) ?_)
  intro c choice hC hGone
  have hSteady := World.Steady.observe w₂ choice
  have hOpen : (phase (w₂.observe choice).trace).open = none := by
    rcases hClosed rfl with hNone | hDone
    · refine hRuns₂.inv.closed (hSettles.steady h₂) hBlocked fun c' hC' => ?_
      rw [hNone] at hC'
      cases hC'
    · refine Option.eq_none_iff_forall_ne_some.mpr fun s₁ hSome => ?_
      have hQuiet : ∀ note ∈ [Note.links choice.found], note.quiet = true := by simp [Note.quiet]
      rw [open_quiet hQuiet hSome] at hDone
      cases hDone
  have hFits : (w₂.observe choice).Fits next := by
    constructor
    case lineage =>
      intro s₁ hSome
      rw [hOpen] at hSome
      cases hSome
    case live | current => exact fun hReady => absurd (hProbe.symm.trans hReady) (by rintro ⟨⟩)
    case admitted =>
      intro _
      have hGoneNow : absentNow next (w₂.observe choice).trace = true := by
        have hAbsent : next.absentFrom choice.found = true := by
          refine List.all_eq_true.mpr fun link hMem => decide_eq_true fun hNamed => ?_
          rw [hSelected] at hNamed
          rw [← Option.some.inj hC] at hGone
          exact hGone link hMem (Option.some.inj hNamed).symm
        change (next.absentFrom choice.found || absentNow next w₂.trace) = true
        rw [hAbsent, Bool.true_or]
      cases hPhase : phase (w₂.observe choice).trace with
      | free => trivial
      | checked s₁ => exact hGoneNow
      | ready s₁ | blocked s₁ =>
        rw [hPhase] at hOpen
        cases hOpen
  exact ((hRuns₂.stably _ hSteady).applyState hFits).mono fun _ _ _ _ => trivial

theorem World.Runs.ready (h : w.Runs o) (index : Nat) (ipv6 : Bool) :
    Ensures allowed (World.Runs o) (ready o index ipv6) (fun _ _ => True) w := by
  refine ensures_bind (ensures_settled h.stably (fun _ _ _ => trivial) ?_)
  intro value current w₁ h₁ hSettles
  have hRuns := h.stably w₁ h₁
  dsimp only
  split
  · exact ensures_throw hRuns trivial
  rename_i hMode
  refine ensures_given hRuns (fun _ _ => trivial) fun next hPolicy => ?_
  obtain ⟨-, hSelected, -, -⟩ := policy_eq_ok hPolicy
  refine ensures_bind (ensures_verifyTun hRuns.stably (fun _ _ _ => trivial) ?_)
  intro link w₂ h₂ hLink hLive
  have hRuns₂ := hRuns.stably w₂ h₂
  have hSettles₂ := hSettles.steady h₂
  have hFits : w₂.Fits next := by
    constructor
    case lineage =>
      intro s₁ hOpen
      rw [hSelected]
      exact hRuns₂.inv.lineage s₁ value hOpen hSettles₂.journal current (mem_choices_current hSettles₂.current)
    case live => exact fun _ => ⟨link, hLink, hLive⟩
    case admitted =>
      intro _
      have hLast := hRuns₂.inv.settled value current hSettles₂.journal hSettles₂.pending hSettles₂.current
      rw [phase_of_probe hLast (not_not.mp hMode)]
      trivial
    case current =>
      intro _ j c hJ hCurrent
      rw [← Option.some.inj (hSettles₂.journal.symm.trans hJ), hSettles₂.current] at hCurrent
      rw [← Option.some.inj hCurrent, hSelected]
  exact (hRuns₂.applyState hFits).mono fun _ _ _ _ => trivial

theorem World.Inv.removed (h : w.Inv) (hPending : ∀ j, w.journal = some j → j.pending ≠ none) :
    (w.install none none).Inv where
  owner := h.owner
  installed := nofun
  contained hContained := by
    rw [World.install, Option.isSome_none, Bool.and_false] at hContained
    cases hContained
  settled j s hJ hNone := absurd hNone (hPending j hJ)
  live s hMem hMode := by
    rcases List.mem_cons.mp hMem with hNewest | hOld
    · cases hNewest
    · obtain ⟨link, hLink, hLive⟩ := h.live s hOld hMode
      exact ⟨link, .tail _ hLink, hLive⟩
  lineage s₁ j hOpen := by
    simp [World.install, phase, Phase.next, Phase.open] at hOpen
  handed := by
    rintro (_ | ⟨newest, later⟩) s earlier hSplit
    · cases hSplit
    · exact h.handed later s earlier (List.cons.inj hSplit).2

theorem World.Inv.unlinked (h : w.Inv) (hTable : w.table = none) : { w with journal := none }.Inv :=
  { h with
    installed := fun s hLast => by
      obtain ⟨j, -, hThere, -⟩ := h.installed s hLast
      rw [hTable] at hThere
      cases hThere
    settled := fun _ _ hJ => by cases hJ
    lineage := fun _ _ _ hJ => by cases hJ }

theorem World.Inv.forgotten (h : w.Inv) : { w with record := none }.Inv :=
  { h with owner := fun _ _ _ hRecord => by cases hRecord }

theorem World.Runs.release (h : w.Runs o) : Ensures allowed (World.Runs o) (release o) (fun _ _ => True) w := by
  refine ensures_bind (ensures_settled h.stably (fun _ _ _ => trivial) ?_)
  intro value current w₁ h₁ hSettles
  have hRuns := h.stably w₁ h₁
  have hKeep := hRuns.stably
  dsimp only
  split
  · exact ensures_throw hRuns trivial
  have hAbsent : Ensures allowed (World.Runs o) (absent current.selected) (fun _ w' => w₁.Steady w') w₁ :=
    ensures_absent hKeep (fun _ _ hS => hS) (fun _ => .refl w₁) fun _ choice _ _ => .observe w₁ choice
  refine ensures_step hAbsent (fun _ _ _ _ => trivial) fun _ w₂ _ h₂ => ?_
  refine ensures_bind (ensures_readOwned (h₂.stably hKeep) (h₂.record.trans hSettles.record)
    (fun _ _ _ _ => trivial) fun w₃ h₃ _ => ?_)
  have h₃ := h₂.trans h₃
  have hSaved : ∀ w', w₃.Steady w' → (w'.wrote ⟨o.uid, o.generation, some current, some .release⟩).Runs o ∧
      (w'.saved ⟨o.uid, o.generation, some current, some .release⟩).Runs o := by
    intro w' hS
    have hS := h₃.trans hS
    have hRuns' := hKeep w' hS
    have hSettles' := hSettles.steady hS
    have hGeneration := hRuns'.inv.owner o value hRuns'.owner hSettles'.record
    refine hRuns'.saved _ hSettles'.journal hGeneration.symm rfl (by simp [Journal.choices]) nofun ?_
    intro s₁ hOpen s hMem
    have hSame : s = current := by simpa [Journal.choices, Pending.state] using hMem
    rw [hSame]
    exact hRuns'.inv.lineage s₁ value hOpen hSettles'.journal current (mem_choices_current hSettles'.current)
  refine ensures_bind (ensures_save (h₃.stably hKeep) (fun w' hS => (hSaved w' hS).1)
    (fun w' hS => (hSaved w' hS).2) (fun _ _ _ => ⟨trivial, trivial⟩) fun w₄ h₄ => ?_)
  have hRuns₄ := (hSaved w₄ h₄).2
  have hDeleted : Ensures allowed (World.Runs o) (if w₂.table ≠ none then apply [.delete] none else pure ())
      (fun _ _ => True) (w₄.saved ⟨o.uid, o.generation, some current, some .release⟩) := by
    split
    · rename_i hThere
      obtain ⟨table, hTable⟩ := Option.ne_none_iff_exists'.mp hThere
      have hTable₄ : w₄.table = some table := by
        rw [h₄.table, h₃.table, ← h₂.table]
        exact hTable
      refine ensures_apply none ?_ hRuns₄.stably ?_ (fun _ _ _ => ⟨trivial, trivial⟩) fun _ _ => trivial
      · change transaction [.delete] w₄.table = some none
        rw [hTable₄]
        rfl
      · intro w₅ h₅
        have hRuns₅ := hRuns₄.stably w₅ h₅
        refine ⟨hRuns₅.inv.removed fun j hJ => ?_, hRuns₅.owner⟩
        rw [← Option.some.inj (h₅.journal.symm.trans hJ)]
        nofun
    · exact ensures_pure hRuns₄ trivial
  refine ensures_step hDeleted (fun _ _ _ _ => trivial) fun _ w₅ hRuns₅ _ => ?_
  refine ensures_bind (ensures_read hRuns₅.stably (fun _ _ _ => trivial) fun w₆ h₆ => ?_)
  have hRuns₆ := hRuns₅.stably w₆ h₆
  dsimp only
  split
  · exact ensures_throw hRuns₆ trivial
  rename_i hNone
  have hTable₆ : w₆.table = none := h₆.table.trans (not_not.mp hNone)
  have hUnlinked : ∀ w', w₆.Steady w' → { w' with journal := none }.Runs o := by
    intro w' hS
    have hRuns' := hRuns₆.stably w' hS
    exact ⟨hRuns'.inv.unlinked (hS.table.trans hTable₆), hRuns'.owner⟩
  refine ensures_bind (ensures_unlink hRuns₆.stably hUnlinked (fun _ _ _ => ⟨trivial, trivial⟩)
    fun w₇ h₇ => ?_)
  have hRuns₇ := hUnlinked w₇ h₇
  refine ensures_bind (ensures_outside rfl hRuns₇.stably (fun _ _ _ _ => trivial) fun _ w₈ h₈ => ?_)
  have hRuns₈ := hRuns₇.stably w₈ h₈
  refine ensures_setRecord hRuns₈ (fun w' hS => ?_) fun _ _ => trivial
  have hRuns₉ := hRuns₈.stably w' hS
  exact ⟨hRuns₉.inv.forgotten, hRuns₉.owner⟩

/-! ## Whole runs -/

theorem World.guarded_runs (o : Owner) (w₀ : World) : Guarded allowed (World.Runs o) (World.Runs o) o w₀ where
  now _ h := h
  steady _ w' hSteady h := h.stably w' hSteady
  acquire _ _ h := h.acquire.mono fun _ _ hRuns _ => hRuns
  block _ h := h.block.mono fun _ _ hRuns _ => hRuns
  prepare selected _ h := (h.prepare selected).mono fun _ _ hRuns _ => hRuns
  ready index ipv6 _ h := (h.ready index ipv6).mono fun _ _ hRuns _ => hRuns
  release _ h := h.release.mono fun _ _ hRuns _ => hRuns

theorem World.Inv.process (h : w.Inv) (owner : Option Owner) (held : Bool) (host : Host) :
    { w with owner := owner, held := held, record := none, host := host }.Inv :=
  { h with owner := fun _ _ _ hRecord => by cases hRecord }

theorem World.Inv.step {w' : World} (h : w.Inv) (hStep : World.Step allowed w w') : w'.Inv := by
  cases hStep with
  | start o hFree => exact h.process (some o) true {}
  | crash => exact h.process none false {}
  | @perform o operation choices hOwner hAllowed =>
    have hRun := ((World.guarded_runs o w).program ⟨h, hOwner⟩ operation).run hAllowed
    have hInv := hRun.1.inv
    unfold World.after
    split
    · exact hInv.process none false {}
    · exact hInv

theorem World.Inv.reachable {table : Option (List Object)} (h : (guardSystem allowed table).Reachable w) : w.Inv := by
  refine h.invariant (I := World.Inv) ?_ fun w w' _ hInv hStep => hInv.step hStep
  rintro w rfl
  constructor
  case owner => exact fun _ _ hOwner => by cases hOwner
  case installed => exact fun _ hLast => by cases hLast
  case contained => exact fun hContained => by cases hContained
  case settled => exact fun _ _ hJ => by cases hJ
  case live => exact fun _ hMem => by cases hMem
  case lineage => exact fun _ _ _ hJ => by cases hJ
  case handed =>
    rintro later s earlier hSplit
    cases later <;> cases hSplit

end

end FamilyConnect.LinuxGuard
