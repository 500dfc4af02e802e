import FamilyConnect.DesktopAuto.Controller

/-!
# Interrupted generations

`Interrupt` only leaves a reason behind, and the operation in progress looks at
it between its steps. The invariant follows that reason: while a generation
that was interrupted is the current one, the reason stays until the controller
is disconnected, so nothing can bring the connection or the wish for it back.
-/

namespace FamilyConnect.DesktopAuto

open Lib

def Point.leaving : Point → Bool
  | .disconnectClose | .disconnectRelease | .cleanupFailed | .disconnected => true
  | _ => false

def Point.quiet : Point → Bool
  | .connectStart _ _ | .lostReport _ | .retryStart | .loop _ .commit | .settle _ _ _ | .disconnect | .cleanupFailed
  | .disconnected => false
  | _ => true

def Point.resting : Point → Bool
  | .idle | .disconnect => true
  | _ => false

def acceptedGenerations (marks : List Mark) : List Nat :=
  marks.filterMap fun mark =>
    match mark with
    | .accepted generation => some generation
    | _ => none

namespace Controller

/-! ## Quiet steps -/

def Leads (c : Controller) (now : Duration) : Point → Prop
  | .idle => c.point = .retryDue
  | .retryDue => c.point = .retryCheck
  | .retryStart => c.retryAt ≠ 0 ∧ c.retryAt ≤ now
  | .disconnectRelease | .cleanupFailed | .disconnected => c.point.leaving = true
  | .connectStart _ _ | .lost _ | .retryCheck | .disconnectClose => False
  | _ => True

def Shown (c : Controller) : Prop :=
  c.view.generation = c.generation ∧
    c.view.desiredConnected = (c.requested && c.interrupted.isNone && !c.ctxEnded)

structure Quiet (c c' : Controller) : Prop where
  generation : c'.generation = c.generation
  interrupts : c'.interrupts = c.interrupts
  interrupted : c'.interrupted = c.interrupted
  requested : c'.requested = c.requested
  state : c'.state = c.state
  restorations : c'.restorations = c.restorations
  retryAt : c'.retryAt = c.retryAt
  healthySince : c'.healthySince = c.healthySince
  marks : c'.marks = c.marks
  schedule : c'.schedule = c.schedule
  view : c'.view = c.view ∨ c'.Shown

variable {candidate : Option Candidate} {name : String} {reason : Option Failure}

theorem shown_emit {c : Controller} :
    (c.emit name candidate reason).Shown := ⟨rfl, rfl⟩

variable {c c' : Controller} {a : Answer} {l : Loop}

variable {candidates : List Candidate} {point : Point} {calls : List Call}

theorem quiet_moved {selected : Option Candidate} :
    c.Quiet { c with candidates, selected, calls, point } :=
      ⟨rfl, rfl, rfl, rfl, rfl, rfl, rfl, rfl, rfl, rfl, .inl rfl⟩

theorem quiet_emit
    : c.Quiet { c.emit name candidate reason with candidates, calls, point } :=
  ⟨rfl, rfl, rfl, rfl, rfl, rfl, rfl, rfl, rfl, rfl, .inr shown_emit⟩

theorem leads_round {now deadline : Duration} {restoring temporary : Bool} {index : Nat}
    {last : Failure} : c.Leads now (round restoring deadline index candidates last temporary) := by
  cases candidates with
  | nil | cons candidate rest => trivial

theorem leads_checked {deadline now time : Duration} {failed : HostError → Point} {next : Point}
    (hFailed : ∀ failure, c.Leads time (failed failure)) (hNext : c.Leads time next) :
    c.Leads time (c.checked deadline now failed next).point := by
  rw [checked_point]
  split
  · exact hFailed _
  · exact hNext

theorem leaving_of_leads {now : Duration} (hLeads : c.Leads now point) (hLeaving : point.leaving = true) :
    c.point.leaving = true := by
  cases point
  case disconnectClose => exact hLeads.elim
  case disconnectRelease | cleanupFailed | disconnected => exact hLeads
  all_goals cases hLeaving

theorem proceedLoop_quiet {stage : Stage} (hStage : stage ≠ .commit) :
    c.Quiet (c.proceedLoop l a stage) ∧ c.Leads a.now (c.proceedLoop l a stage).point := by
  cases stage with
  | enter | closed | waitCheck | ready | opened | remembered =>
    exact ⟨quiet_moved, leads_checked (fun _ => trivial) trivial⟩
  | close =>
    refine ⟨quiet_moved, ?_⟩
    rw [proceedLoop, cleanup_point]
    split <;> trivial
  | network | pause | remember =>
    rw [proceedLoop]
    split <;> exact ⟨quiet_moved, trivial⟩
  | fallback | attempt | report => exact ⟨quiet_emit, trivial⟩
  | wait | «open» | failed => exact ⟨quiet_moved, trivial⟩
  | commit => exact absurd rfl hStage
  | closeFailed =>
    refine ⟨quiet_moved, ?_⟩
    rw [proceedLoop, cleanup_point]
    split
    · split
      · trivial
      · exact leads_round
    · trivial

/-- What a step from a quiet point does: nothing of the state that the invariants below speak about changes. -/
theorem proceed_quiet (hQuiet : c.point.quiet = true) (hBusy : c.point ≠ .idle) :
    c.Quiet (c.proceed a) ∧ c.Leads a.now (c.proceed a).point := by
  rw [proceed]
  split
  all_goals rename_i hPoint
  all_goals rw [hPoint] at hQuiet
  case h_1 => exact absurd hPoint hBusy
  case h_3 => exact ⟨quiet_moved, leads_checked (fun _ => trivial) trivial⟩
  case h_4 =>
    split <;> exact ⟨quiet_moved, trivial⟩
  case h_5 =>
    split
    · exact ⟨quiet_moved, trivial⟩
    · exact ⟨quiet_moved, trivial⟩
    · exact ⟨quiet_moved, trivial⟩
    · exact ⟨quiet_moved, leads_round⟩
  case h_6 | h_7 | h_11 => exact ⟨quiet_moved, trivial⟩
  case h_9 => exact ⟨quiet_emit, leads_round⟩
  case h_10 => exact ⟨quiet_moved, leads_checked (fun _ => trivial) hPoint⟩
  case h_12 =>
    split
    · exact ⟨quiet_moved, hPoint⟩
    · rename_i hDue
      simp only [not_or, not_lt] at hDue
      exact ⟨quiet_moved, hDue.2⟩
  case h_14 => exact proceedLoop_quiet (by rintro rfl; cases hQuiet)
  case h_15 =>
    refine ⟨quiet_moved, ?_⟩
    generalize (if a.cleaned then _ else _ : Failure) = reason
    dsimp only
    split <;> trivial
  case h_18 =>
    refine ⟨quiet_moved, ?_⟩
    rw [cleanup_point]
    have hLeaving : c.point.leaving = true := by rw [hPoint]; rfl
    split <;> exact hLeaving
  case h_19 =>
    refine ⟨quiet_moved, ?_⟩
    have hLeaving : c.point.leaving = true := by rw [hPoint]; rfl
    split <;> exact hLeaving
  all_goals cases hQuiet

/-! ## The invariant -/

structure StopInv (c : Controller) : Prop where
  view : c.view.generation = c.generation
  known : ∀ generation ∈ c.interrupts, generation ≤ c.generation
  stopped : c.generation ∈ c.interrupts →
    c.interrupted.isSome = true ∨ c.point.resting = true ∧ c.state = .disconnected
  desired : c.generation ∈ c.interrupts → c.view.desiredConnected = false
  leaving : c.point.leaving = true → c.requested = false
  accepted : ∀ generation ∈ acceptedGenerations c.marks, generation ≤ c.generation
  increasing : (acceptedGenerations c.marks).Pairwise (· > ·)

section

variable (h : c.StopInv)
include h

theorem StopInv.moved (hBusy : c.point.resting = true → c.state ≠ .disconnected)
    (hView : c'.view = c.view ∨ c'.Shown) (hLeaving : c'.point.leaving = true → c'.requested = false)
    (hGeneration : c'.generation = c.generation := by rfl) (hInterrupts : c'.interrupts = c.interrupts := by rfl)
    (hInterrupted : c'.interrupted = c.interrupted := by rfl)
    (hAccepted : acceptedGenerations c'.marks = acceptedGenerations c.marks := by rfl) : c'.StopInv := by
  have hStopped (hMem : c'.generation ∈ c'.interrupts) : c'.interrupted.isSome = true := by
    rw [hGeneration, hInterrupts] at hMem
    rw [hInterrupted]
    exact (h.stopped hMem).resolve_right fun hRest => hBusy hRest.1 hRest.2
  constructor
  case view =>
    rcases hView with hSame | hShown
    · rw [hSame, hGeneration]
      exact h.view
    · exact hShown.1
  case known =>
    rw [hGeneration, hInterrupts]
    exact h.known
  case stopped => exact fun hMem => .inl (hStopped hMem)
  case desired =>
    intro hMem
    rcases hView with hSame | hShown
    · rw [hGeneration, hInterrupts] at hMem
      rw [hSame]
      exact h.desired hMem
    · have hSome := Option.isNone_eq_false_iff.mpr (hStopped hMem)
      rw [hShown.2, hSome, Bool.and_false, Bool.false_and]
  case leaving => exact hLeaving
  case accepted =>
    rw [hAccepted, hGeneration]
    exact h.accepted
  case increasing =>
    rw [hAccepted]
    exact h.increasing

omit h in
theorem not_resting_of (hRest : point.resting = false) {p : Prop} : point.resting = true → p := by
  intro h
  rw [hRest] at h
  cases h

theorem StopInv.commit (hPoint : c.point = .loop l .commit) : (c.proceedLoop l a .commit).StopInv := by
  have hBusy : c.point.resting = true → c.state ≠ .disconnected := not_resting_of (by rw [hPoint]; rfl)
  rw [proceedLoop]
  split
  · exact h.moved hBusy (.inl rfl) nofun
  · split
    · exact h.moved hBusy (.inl rfl) nofun
    · split <;> exact h.moved hBusy (.inr shown_emit) nofun

theorem StopInv.proceed : (c.proceed a).StopInv := by
  by_cases hIdle : c.point = .idle
  · rw [Controller.proceed, hIdle]
    exact h
  by_cases hQuiet : c.point.quiet = true
  · obtain ⟨hSame, hLeads⟩ := proceed_quiet (a := a) hQuiet hIdle
    have hRest : c.point.resting = false := by
      cases hPoint : c.point <;> simp_all [Point.resting, Point.quiet]
    refine h.moved (not_resting_of hRest) hSame.view
      (fun hLeaving => ?_) hSame.generation hSame.interrupts hSame.interrupted ?_
    · rw [hSame.requested]
      exact h.leaving (leaving_of_leads hLeads hLeaving)
    · rw [hSame.marks]
  rw [Controller.proceed]
  split
  all_goals rename_i hPoint
  all_goals rw [hPoint] at hQuiet
  case h_2 =>
    exact h.moved (not_resting_of (by rw [hPoint]; rfl)) (.inr shown_emit) nofun
  case h_8 =>
    have hBusy : c.point.resting = true → c.state ≠ .disconnected := not_resting_of (by rw [hPoint]; rfl)
    dsimp only
    split <;> exact h.moved hBusy (.inr ⟨rfl, rfl⟩) nofun
  case h_13 =>
    refine h.moved (not_resting_of (by rw [hPoint]; rfl)) (.inr ⟨rfl, rfl⟩) fun hLeaving => ?_
    have hLeads : c.Leads a.now (round true (Duration.add a.now connectTimeout) 0 c.candidates
        .transportUnavailable false) :=
      leads_round
    have hLeave : c.point.leaving = true := leaving_of_leads hLeads hLeaving
    rw [hPoint] at hLeave
    cases hLeave
  case h_14 l stage =>
    cases stage
    case commit => exact h.commit hPoint
    all_goals exact absurd rfl hQuiet
  case h_16 =>
    have hBusy : c.point.resting = true → c.state ≠ .disconnected := not_resting_of (by rw [hPoint]; rfl)
    unfold Controller.settle
    dsimp only
    split <;> exact h.moved hBusy (.inr shown_emit) nofun
  case h_17 =>
    dsimp only
    split
    · rename_i hState
      exact ⟨h.view, h.known, fun _ => .inr ⟨rfl, hState⟩, h.desired, nofun, h.accepted, h.increasing⟩
    · rename_i hState
      exact h.moved (fun _ => hState) (.inr shown_emit) fun _ => rfl
  case h_20 => exact h.moved (not_resting_of (by rw [hPoint]; rfl)) (.inr shown_emit) nofun
  case h_21 =>
    -- The reason is dropped here, but the request is gone and the controller is disconnected.
    have hRequested : c.requested = false := h.leaving (by rw [hPoint]; rfl)
    refine ⟨rfl, h.known, fun _ => .inr ⟨rfl, rfl⟩, fun _ => ?_, nofun, h.accepted, h.increasing⟩
    simp [hRequested]
  all_goals exact absurd rfl hQuiet

theorem StopInv.same (hGeneration : c'.generation = c.generation := by rfl)
    (hInterrupts : c'.interrupts = c.interrupts := by rfl)
    (hInterrupted : c'.interrupted = c.interrupted := by rfl)
    (hAccepted : acceptedGenerations c'.marks = acceptedGenerations c.marks := by rfl)
    (hView : c'.view = c.view := by rfl) (hState : c'.state = c.state := by rfl)
    (hRequested : c'.requested = c.requested := by rfl) (hPoint : c'.point = c.point := by rfl) :
    c'.StopInv := by
  constructor
  case view => rw [hView, hGeneration]; exact h.view
  case known => rw [hInterrupts, hGeneration]; exact h.known
  case stopped => rw [hInterrupts, hGeneration, hInterrupted, hPoint, hState]; exact h.stopped
  case desired => rw [hInterrupts, hGeneration, hView]; exact h.desired
  case leaving => rw [hPoint, hRequested]; exact h.leaving
  case accepted => rw [hAccepted, hGeneration]; exact h.accepted
  case increasing => rw [hAccepted]; exact h.increasing

theorem StopInv.stop (reason : Failure) : (c.stop c.view.generation reason).StopInv where
  view := h.view
  known := List.forall_mem_cons.mpr ⟨le_of_eq h.view, h.known⟩
  stopped _ := .inl rfl
  desired _ := rfl
  leaving := h.leaving
  accepted := h.accepted
  increasing := h.increasing

theorem StopInv.connect (nilContext : Bool) (generation : Nat) (preferred lastGood : Candidate) :
    (c.connect nilContext generation preferred lastGood).1.StopInv := by
  unfold Controller.connect
  split
  · exact h
  split
  · exact h
  split
  · exact h
  split
  · exact h
  rename_i _ hNew _ _
  have hLater : c.generation < generation := not_le.mp (not_or.mp hNew).2
  have hFresh : generation ∉ c.interrupts := fun hMem => absurd (h.known generation hMem) (not_le.mpr hLater)
  constructor
  case view => rfl
  case known => exact fun g hMem => le_trans (h.known g hMem) (le_of_lt hLater)
  case stopped | desired => exact fun hMem => absurd hMem hFresh
  case leaving => exact nofun
  case accepted =>
    exact List.forall_mem_cons.mpr ⟨le_refl _, fun g hMem => le_trans (h.accepted g hMem)
      (le_of_lt hLater)⟩
  case increasing =>
    exact List.pairwise_cons.mpr ⟨fun g hMem => lt_of_le_of_lt (h.accepted g hMem) hLater,
      h.increasing⟩

theorem StopInv.step (hStep : Step c c') : c'.StopInv := by
  cases hStep with
  | interrupt generation reason =>
    rcases c.interrupt_cases generation reason with ⟨failure, hSame⟩ | ⟨hKnown, hStop⟩
    · rw [hSame]
      exact h
    · rw [hStop, hKnown]
      exact h.stop reason
  | cancel => exact h.same
  | connect nilContext generation preferred lastGood => exact h.connect nilContext generation preferred lastGood
  | lost | retry =>
    dsimp only [lost, retry]
    split
    · exact h
    split
    · exact h
    split
    · exact h
    rename_i hState
    exact h.moved (fun _ => by rw [not_not.mp hState]; nofun) (.inl rfl) nofun
  | healthy generation good _ _ _ =>
    unfold healthy
    dsimp only
    repeat' split
    all_goals exact h.same
  | disconnect generation =>
    rcases c.disconnect_cases generation with hSame | ⟨hKnown, hStop⟩
    · rw [hSame]
      exact h
    · rw [hStop, hKnown]
      exact (h.stop .cancelled).same
  | disconnectLocked hIdle _ =>
    unfold disconnectLocked
    dsimp only
    split
    · exact h.same
    · refine ⟨h.view, h.known, fun hMem => (h.stopped hMem).imp_right fun hRest => ⟨rfl, hRest.2⟩, h.desired, nofun,
        h.accepted, h.increasing⟩
  | proceed a _ _ => exact (h.proceed (a := a)).same

omit h in
theorem connected_of_proceed (hState : c.state ≠ .connected) (hConnected : (c.proceed a).state = .connected) :
    c.interrupted = none ∧ c.point.resting = false ∧ (c.proceed a).generation = c.generation ∧
      (c.proceed a).interrupts = c.interrupts := by
  by_cases hIdle : c.point = .idle
  · rw [proceed, hIdle] at hConnected
    exact absurd hConnected hState
  by_cases hQuiet : c.point.quiet = true
  · rw [(proceed_quiet hQuiet hIdle).1.state] at hConnected
    exact absurd hConnected hState
  rw [proceed] at hConnected ⊢
  split at hConnected
  all_goals rename_i hPoint
  all_goals rw [hPoint] at hQuiet ⊢
  case h_8 =>
    dsimp only at hConnected
    split at hConnected <;> cases hConnected
  case h_13 => exact absurd hConnected hState
  case h_14 l stage =>
    cases stage
    case commit =>
      rw [proceedLoop] at hConnected
      cases hInterrupted : c.interrupted with
      | some reason =>
        rw [hInterrupted] at hConnected
        exact absurd hConnected hState
      | none =>
        refine ⟨rfl, rfl, ?_⟩
        dsimp only [proceedLoop]
        rw [hInterrupted]
        repeat' split
        all_goals exact ⟨rfl, rfl⟩
    all_goals exact absurd rfl hQuiet
  case h_16 =>
    unfold settle at hConnected
    dsimp only at hConnected
    split at hConnected <;> cases hConnected
  case h_17 =>
    dsimp only at hConnected
    split at hConnected
    · exact absurd hConnected hState
    · cases hConnected
  all_goals first
    | exact absurd rfl hQuiet
    | cases hConnected

theorem StopInv.connected (hStep : Step c c') (hState : c.state ≠ .connected)
    (hConnected : c'.state = .connected) : c'.generation ∉ c'.interrupts := by
  have hSame (hSame : c'.state = c.state) : c'.generation ∉ c'.interrupts := absurd (hSame.symm.trans hConnected) hState
  cases hStep with
  | interrupt generation reason =>
    apply hSame
    rcases c.interrupt_cases generation reason with ⟨failure, hDone⟩ | ⟨-, hDone⟩
    · rw [hDone]
    · rw [hDone]
      rfl
  | cancel => exact hSame rfl
  | connect | lost | retry | healthy =>
    apply hSame
    dsimp only [Controller.connect, lost, retry, healthy]
    repeat' split
    all_goals rfl
  | disconnect generation =>
    apply hSame
    rcases c.disconnect_cases generation with hDone | ⟨-, hDone⟩
    · rw [hDone]
    · rw [hDone]
      rfl
  | disconnectLocked hIdle _ =>
    apply hSame
    unfold disconnectLocked
    dsimp only
    split
    all_goals rfl
  | proceed a _ _ =>
    obtain ⟨hInterrupted, hBusy, hGeneration, hInterrupts⟩ := connected_of_proceed hState hConnected
    rw [hGeneration, hInterrupts]
    intro hMem
    rcases h.stopped hMem with hSome | ⟨hRest, -⟩
    · rw [hInterrupted] at hSome
      cases hSome
    · exact not_resting_of hBusy hRest

end

end Controller

end FamilyConnect.DesktopAuto
