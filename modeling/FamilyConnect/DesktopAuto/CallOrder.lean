import FamilyConnect.DesktopAuto.Controller

/-!
# The order of the calls of the host

What the calls so far, newest first, must look like at each point of an
operation: a candidate is opened only after a successful close, and no
operation ends with an open candidate unless it is connected.
-/

namespace FamilyConnect.DesktopAuto

/-- Some close has succeeded since the last open. -/
def fresh : List Call → Bool
  | [] => false
  | .closed true :: _ => true
  | .opened _ :: _ => false
  | _ :: rest => fresh rest

/-- The result of the last close, if no open came after it. -/
def lastClose : List Call → Option Bool
  | [] => some true
  | .closed ok :: _ => some ok
  | .opened _ :: _ => none
  | _ :: rest => lastClose rest

def opens : List Call → Nat
  | [] => 0
  | .run :: _ => 0
  | .opened _ :: rest => opens rest + 1
  | _ :: rest => opens rest

/-- Every open follows a successful close, and every release comes right after one. -/
structure Ordered (calls : List Call) : Prop where
  opened : ∀ later candidate earlier, calls = later ++ .opened candidate :: earlier → fresh earlier = true
  released : ∀ later ok earlier, calls = later ++ .released ok :: earlier → ∃ rest, earlier = .closed true :: rest

variable {calls : List Call}

theorem Ordered.cons {call : Call} (h : Ordered calls)
    (hOpen : ∀ candidate, call = .opened candidate → fresh calls = true)
    (hRelease : ∀ ok, call = .released ok → ∃ rest, calls = .closed true :: rest) : Ordered (call :: calls) := by
  constructor
  · rintro (_ | ⟨newest, later⟩) candidate earlier hSplit
    · cases hSplit
      exact hOpen candidate rfl
    · cases hSplit
      exact h.opened later candidate earlier rfl
  · rintro (_ | ⟨newest, later⟩) ok earlier hSplit
    · cases hSplit
      exact hRelease ok rfl
    · cases hSplit
      exact h.released later ok earlier rfl

theorem Ordered.closed (h : Ordered calls) (ok : Bool) : Ordered (.closed ok :: calls) :=
  h.cons nofun nofun

theorem Ordered.run (h : Ordered calls) : Ordered (.run :: calls) := h.cons nofun nofun

def Stage.afterClose : Stage → Bool
  | .closed | .network | .fallback | .wait _ | .waitCheck _ | .pause _ | .ready | .attempt | .open _ => true
  | _ => false

def Stage.mayBeOpen : Stage → Nat
  | .opened _ | .remember _ | .remembered _ | .commit | .failed _ | .report | .closeFailed => 1
  | _ => 0

def Point.Allows (calls : List Call) (state : State) : Point → Prop
  | .idle => state = .connected ∨ lastClose calls = some true ∨ lastClose calls = some false ∧ state = .failed
  | .loop l stage =>
    l.index + 1 + l.rest.length ≤ 4 ∧ opens calls ≤ l.index + stage.mayBeOpen ∧
      (stage.afterClose = true → fresh calls = true)
  | .settle reason _ _ => lastClose calls = some true ∨ lastClose calls = some false ∧ reason = .internal
  | .retryCheck | .retryDue => lastClose calls = some true ∨ lastClose calls = some false ∧ state = .failed
  | .disconnect => state = .disconnected → lastClose calls = some true
  | .disconnectRelease => ∃ rest, calls = .closed true :: rest
  | .cleanupFailed => (lastClose calls).isSome = true
  | .disconnected => lastClose calls = some true
  | _ => True

namespace Controller

structure CallInv (c : Controller) : Prop where
  ordered : Ordered c.calls
  few : opens c.calls ≤ 4
  candidates : c.candidates.length ≤ 4
  allows : c.point.Allows c.calls c.state

variable {state : State}

theorem allows_round {restoring temporary : Bool} {deadline : Lib.Duration} {index : Nat}
    {candidates : List Candidate} {last : Failure} (hLength : index + candidates.length ≤ 4)
    (hOpens : opens calls ≤ index) :
    (round restoring deadline index candidates last temporary).Allows calls state := by
  cases candidates with
  | nil => trivial
  | cons candidate rest =>
    refine ⟨?_, hOpens, nofun⟩
    simp only [List.length_cons] at hLength
    dsimp only
    omega

theorem length_pickAllowed (allowed candidates : List Candidate) :
    (pickAllowed allowed candidates).length ≤ allowed.length := by
  induction candidates generalizing allowed with
  | nil => exact Nat.zero_le _
  | cons candidate rest ih =>
    rw [pickAllowed]
    split
    · rename_i hMem
      have hErase := List.length_erase_of_mem hMem
      have hRest := ih (allowed.erase candidate)
      have hPos := List.length_pos_of_mem hMem
      simp only [List.length_cons]
      omega
    · exact ih allowed

theorem length_order {configured candidates : List Candidate} {preferred lastGood : Candidate}
    (h : order configured preferred lastGood = .ok candidates) : candidates.length ≤ 4 := by
  unfold order at h
  repeat' split at h
  all_goals cases h
  have hPick := length_pickAllowed ([Candidate.wg, .awg, .tcp].filter (· ∈ configured))
    (lastGood :: preferred :: configured)
  have hAllowed := List.length_filter_le (· ∈ configured) [Candidate.wg, .awg, .tcp]
  simp only [List.length_append, List.length_cons, List.length_nil] at *
  omega

variable {c : Controller} {a : Answer} {l : Loop}

section

variable (h : c.CallInv)
include h

variable {c' : Controller}

theorem CallInv.same (hAllows : c'.point.Allows c.calls c'.state)
    (hCalls : c'.calls = c.calls := by rfl) (hCandidates : c'.candidates = c.candidates := by rfl) : c'.CallInv := by
  refine ⟨hCalls ▸ h.ordered, hCalls ▸ h.few, hCandidates ▸ h.candidates, ?_⟩
  rw [hCalls]
  exact hAllows

theorem CallInv.checked {deadline now : Lib.Duration} {failed : HostError → Point} {next : Point}
    (hFailed : ∀ failure, (failed failure).Allows c.calls c.state) (hNext : next.Allows c.calls c.state) :
    (c.checked deadline now failed next).CallInv := by
  refine ⟨h.ordered, h.few, h.candidates, ?_⟩
  rw [checked_point]
  split
  · exact hFailed _
  · exact hNext

theorem CallInv.cleanup {next failed : Point} (hNext : next.Allows (.closed true :: c.calls) c.state)
    (hFailed : failed.Allows (.closed false :: c.calls) c.state) : (c.cleanup a next failed).CallInv := by
  refine ⟨h.ordered.closed _, h.few, h.candidates, ?_⟩
  rw [cleanup_point, cleanup_calls]
  cases hCleaned : a.cleaned with
  | true => exact hNext
  | false => exact hFailed

omit h in
theorem CallInv.run (hOrdered : Ordered c.calls) (hCandidates : c.candidates.length ≤ 4) (restoring : Bool) :
    (c.run restoring).CallInv where
  ordered := hOrdered.run
  few := Nat.zero_le 4
  candidates := hCandidates
  allows := allows_round (by omega) (le_refl 0)

variable {stage : Stage}

omit h in
theorem allows_failed (h : (Point.loop l stage).Allows calls state)
    (failure : HostError) : (Point.loop l (.failed failure)).Allows calls state := by
  obtain ⟨hLength, hOpens, -⟩ := h
  have hStage : stage.mayBeOpen ≤ 1 := by cases stage <;> simp [Stage.mayBeOpen]
  exact ⟨hLength, le_trans hOpens (Nat.add_le_add_left hStage _), nofun⟩

theorem CallInv.proceedLoop (hPoint : c.point = .loop l stage) :
    (c.proceedLoop l a stage).CallInv := by
  have hAllows := h.allows
  rw [hPoint] at hAllows
  have hFailed := allows_failed hAllows
  obtain ⟨hLength, hOpens, hFresh⟩ := hAllows
  cases stage with
  | enter | remembered => exact h.checked hFailed ⟨hLength, hOpens, nofun⟩
  | close => exact h.cleanup ⟨hLength, hOpens, fun _ => rfl⟩ trivial
  | closed | waitCheck | ready => exact h.checked hFailed ⟨hLength, hOpens, hFresh⟩
  | network =>
    rw [Controller.proceedLoop]
    split
    · refine h.same ?_
      split <;> exact ⟨hLength, hOpens, hFresh⟩
    · exact h.same (hFailed _)
  | fallback | attempt => exact h.same ⟨hLength, hOpens, hFresh⟩
  | wait limit =>
    refine h.same ?_
    rw [Controller.proceedLoop]
    split <;> exact ⟨hLength, hOpens, hFresh⟩
  | pause limit =>
    rw [Controller.proceedLoop]
    split
    · exact h.same (hFailed _)
    · exact h.same ⟨hLength, hOpens, hFresh⟩
  | «open» candidateDeadline =>
    have hOpened : opens (.opened l.candidate :: c.calls) ≤ l.index + 1 := Nat.succ_le_succ hOpens
    refine ⟨h.ordered.cons (fun _ _ => hFresh rfl) nofun, le_trans hOpened (by omega), h.candidates, ?_⟩
    rw [Controller.proceedLoop]
    split <;> exact ⟨hLength, hOpened, nofun⟩
  | opened candidateDeadline =>
    refine h.checked hFailed ?_
    split
    · exact hFailed _
    · split <;> exact ⟨hLength, hOpens, nofun⟩
  | remember candidateDeadline =>
    rw [Controller.proceedLoop]
    split
    · exact h.same (hFailed _)
    · exact h.same ⟨hLength, hOpens, nofun⟩
  | commit =>
    rw [Controller.proceedLoop]
    split
    · exact h.same (hFailed _)
    · split
      · exact h.same (hFailed _)
      · split <;> exact h.same (.inl rfl)
  | failed failure | report => exact h.same ⟨hLength, hOpens, nofun⟩
  | closeFailed =>
    refine h.cleanup ?_ trivial
    split
    · trivial
    · exact allows_round (by omega) hOpens

theorem CallInv.settle {reason : Failure} {restoring temporary : Bool}
    (hPoint : c.point = .settle reason restoring temporary) : (c.settle a reason restoring temporary).CallInv := by
  have hAllows := h.allows
  rw [hPoint] at hAllows
  unfold Controller.settle
  dsimp only
  split
  · rename_i hRetry
    refine h.same (.inr (.inl (hAllows.resolve_right fun hInternal => ?_)))
    obtain ⟨-, hReason, -⟩ := hRetry
    rw [hInternal.2] at hReason
    simp [retryable] at hReason
  · exact h.same (.inr (hAllows.imp_right fun hInternal => ⟨hInternal.1, rfl⟩))

theorem CallInv.proceed : (c.proceed a).CallInv := by
  have hAllows := h.allows
  rw [Controller.proceed]
  split
  all_goals rename_i hPoint; rw [hPoint] at hAllows
  · exact h
  · exact ⟨h.ordered, h.few, Nat.zero_le 4, trivial⟩
  · exact h.checked (fun _ => trivial) trivial
  · split <;> exact h.same trivial
  · split
    · exact h.same trivial
    · exact h.same trivial
    · exact ⟨h.ordered, h.few, Nat.zero_le 4, trivial⟩
    · rename_i hOrder
      refine CallInv.run ?_ ?_ false
      · exact h.ordered
      · exact length_order hOrder
  · exact h.same trivial
  · exact h.same trivial
  · dsimp only
    split <;> exact h.same trivial
  · refine CallInv.run ?_ ?_ true
    · exact h.ordered
    cases hOrder : order c.candidates.dropLast (c.selected.getD (.other "")) (c.selected.getD (.other "")) with
    | error _ =>
      rw [emit_candidates, emit_selected, hOrder]
      exact Nat.zero_le 4
    | ok candidates =>
      rw [emit_candidates, emit_selected, hOrder]
      exact length_order hOrder
  · exact h.checked (fun _ => trivial) hAllows
  · exact h.same trivial
  · split
    · exact h.same (.inr hAllows)
    · exact h.same trivial
  · refine CallInv.run ?_ ?_ true
    · exact h.ordered
    · exact h.candidates
  · exact h.proceedLoop hPoint
  · refine ⟨h.ordered.closed _, h.few, h.candidates, ?_⟩
    dsimp only
    cases hCleaned : a.cleaned with
    | true =>
      rw [if_pos rfl]
      split
      · exact fun _ => rfl
      · exact .inl rfl
    | false => exact .inr ⟨rfl, rfl⟩
  · exact h.settle hPoint
  · dsimp only
    split
    · rename_i hState
      exact h.same (.inr (.inl (hAllows hState)))
    · exact h.same trivial
  · exact h.cleanup ⟨_, rfl⟩ rfl
  · obtain ⟨rest, hRest⟩ := hAllows
    refine ⟨h.ordered.cons nofun fun _ _ => ⟨rest, hRest⟩, h.few, h.candidates, ?_⟩
    rw [hRest]
    split <;> rfl
  · refine h.same ?_
    cases hLast : lastClose c.calls with
    | none =>
      change (lastClose c.calls).isSome = true at hAllows
      rw [hLast] at hAllows
      cases hAllows
    | some ok =>
      cases ok with
      | true => exact .inr (.inl hLast)
      | false => exact .inr (.inr ⟨hLast, rfl⟩)
  · exact h.same (.inr (.inl hAllows))

theorem CallInv.step (hStep : Step c c') : c'.CallInv := by
  have hAllows := h.allows
  cases hStep with
  | interrupt generation reason =>
    rcases c.interrupt_cases generation reason with ⟨failure, hSame⟩ | ⟨-, hStop⟩
    · rw [hSame]
      exact h
    · rw [hStop]
      exact h.same hAllows
  | cancel => exact h.same hAllows
  | connect | lost =>
    dsimp only [connect, lost]
    repeat' split
    all_goals first
      | exact h
      | exact h.same trivial
  | retry generation =>
    unfold retry
    split
    · exact h
    split
    · exact h
    split
    · exact h
    rename_i hIdle _ hState
    rw [not_not.mp hIdle, not_not.mp hState] at hAllows
    refine h.same ?_
    rw [not_not.mp hState]
    exact hAllows.resolve_left nofun
  | healthy generation good _ _ _ =>
    unfold healthy
    dsimp only
    repeat' split
    all_goals exact h.same hAllows
  | disconnect generation =>
    rcases c.disconnect_cases generation with hSame | ⟨-, hStop⟩
    · rw [hSame]
      exact h
    · rw [hStop]
      exact h.same hAllows
  | disconnectLocked hIdle _ =>
    unfold disconnectLocked
    dsimp only
    split
    · exact h.same hAllows
    · rw [hIdle] at hAllows
      refine h.same fun hState => ?_
      rw [hState] at hAllows
      exact (hAllows.resolve_left nofun).resolve_right nofun
  | proceed a _ _ => exact (h.proceed (a := a)).same (h.proceed (a := a)).allows

end

end Controller

end FamilyConnect.DesktopAuto
