import FamilyConnect.DesktopAuto.CallOrder
import FamilyConnect.DesktopAuto.Recovery

/-!
# What every run of the controller guarantees

The three invariants hold for every answer of the host and every order of
calls. The only gap is the end of the clock: a retry that cannot be
represented any more is due at once.
-/

namespace FamilyConnect.DesktopAuto

open Lib

namespace Controller

structure Inv (c : Controller) : Prop where
  calls : c.CallInv
  stop : c.StopInv
  recovery : c.RecoveryInv

variable {cleanupTimeout : Duration} {c : Controller}

theorem inv_new (h : new cleanupTimeout = some c) : c.Inv := by
  unfold new at h
  split at h
  · cases h
  · cases h
    refine ⟨?_, ?_, ?_⟩
    · exact ⟨⟨by simp, by simp⟩, Nat.zero_le 4, Nat.zero_le 4, .inr (.inl rfl)⟩
    · exact ⟨rfl, nofun, nofun, nofun, nofun, nofun, .nil⟩
    · exact ⟨le_refl _, fun hSome => absurd rfl hSome, nofun, ⟨nofun, by simp, by simp⟩,
        fun _ => rfl, nofun, nofun, nofun, fun hSome => absurd hSome (by decide), nofun⟩

theorem inv_reachable (h : (controllerSystem cleanupTimeout).Reachable c) : c.Inv :=
  h.invariant (fun _ => inv_new)
    fun _ _ _ hInv hStep => ⟨hInv.calls.step hStep, hInv.stop.step hStep, hInv.recovery.step hStep⟩

/-- What the calls, the view and the marks of a controller show about its run so far. -/
structure Safe (c : Controller) : Prop where
  ordered : Ordered c.calls
  few : opens c.calls ≤ 4
  returned : c.point = .idle → c.state ≠ .connected →
    lastClose c.calls = some true ∨ lastClose c.calls = some false ∧ c.state = .failed
  undesired : c.view.generation ∈ c.interrupts → c.view.desiredConnected = false
  increasing : (acceptedGenerations c.marks).Pairwise (· > ·)
  recorded : Recorded c.marks

theorem Inv.safe (h : c.Inv) : c.Safe where
  ordered := h.calls.ordered
  few := h.calls.few
  returned hIdle hState := by
    have hAllows := h.calls.allows
    rw [hIdle] at hAllows
    exact hAllows.resolve_left hState
  undesired hMem := h.stop.desired (h.stop.view ▸ hMem)
  increasing := h.stop.increasing
  recorded := h.recovery.recorded

/-! ## Runs with given answers -/

def proceedAll (c : Controller) (answers : List Answer) : Controller :=
  answers.foldl (fun c a => { c.proceed a with clock := a.now }) c

theorem reachable_proceedAll (h : (controllerSystem cleanupTimeout).Reachable c)
    (answers : List Answer) (hClock : List.IsChain (· ≤ ·) (c.clock :: answers.map (·.now)))
    (hGreatest : ∀ a ∈ answers, a.now ≤ Duration.greatest) :
    (controllerSystem cleanupTimeout).Reachable (c.proceedAll answers) := by
  induction answers generalizing c with
  | nil => exact h
  | cons a answers ih =>
    obtain ⟨hNow, hRest⟩ := List.isChain_cons_cons.mp hClock
    have hStep : (controllerSystem cleanupTimeout).step c { c.proceed a with clock := a.now } :=
      Step.proceed a hNow (hGreatest a (.head _))
    exact ih (h.next hStep) hRest fun b hMem => hGreatest b (.tail _ hMem)

/-- Answers under which a connection without configured candidates opens the restricted one, and fails for the network
at `failedAt`. -/
def failingAnswers (failedAt : Duration) : List Answer :=
  List.replicate 10 { now := 0 } ++ { now := failedAt, error := some { network := true } } ::
    List.replicate 5 { now := failedAt }

/-- Such a connection, and the retry that is made for it at `retriedAt`. -/
def retriedRun (failedAt retriedAt : Duration) : Controller :=
  let c := (({} : Controller).connect false 1 .wg .wg).1.proceedAll (failingAnswers failedAt)
  (c.retry 1).1.proceedAll (List.replicate 3 { now := retriedAt })

theorem clock_retry (c : Controller) (generation : Nat) : (c.retry generation).1.clock = c.clock := by
  unfold retry
  repeat' split
  all_goals rfl

theorem reachable_retriedRun {failedAt retriedAt : Duration} (hFailed : 0 ≤ failedAt) (hRetried : failedAt ≤ retriedAt)
    (hGreatest : retriedAt ≤ Duration.greatest) :
    (controllerSystem Duration.second).Reachable (retriedRun failedAt retriedAt) := by
  have hLeast : Duration.least ≤ 0 := by decide
  have hZero : 0 ≤ Duration.greatest := by decide
  have hStart : (controllerSystem Duration.second).Reachable (({} : Controller).connect false 1 .wg .wg).1 :=
    .next (.start rfl) (Step.connect false 1 .wg .wg)
  have hFailing := reachable_proceedAll hStart (failingAnswers failedAt)
    (by simp [failingAnswers, List.replicate_succ, hFailed, Controller.connect, hLeast])
    (by simp [failingAnswers, hZero, le_trans hRetried hGreatest])
  refine reachable_proceedAll (hFailing.next (Step.retry 1)) _ ?_ (by simp [hGreatest])
  have hClock : ((({} : Controller).connect false 1 .wg .wg).1.proceedAll
      (failingAnswers failedAt)).clock = failedAt := by
    simp only [proceedAll, failingAnswers, List.foldl_append, List.replicate_succ, List.foldl_cons]
    rfl
  rw [clock_retry, hClock]
  simp [List.replicate_succ, hRetried]

end Controller

/-- Whatever the host answers and in whatever order the calls come, every reachable controller is
safe, and an interrupted generation is never connected. -/
theorem controller_safe {cleanupTimeout : Duration} {c : Controller}
    (h : (controllerSystem cleanupTimeout).Reachable c) :
    c.Safe ∧ ∀ c', c.Step c' → c.state ≠ .connected → c'.state = .connected → c'.generation ∉ c'.interrupts :=
  ⟨(Controller.inv_reachable h).safe, fun _ hStep => (Controller.inv_reachable h).stop.connected hStep⟩

/-- Near the end of the clock the instant of the retry wraps, and the retry does not wait. -/
theorem controller_retry_wraps :
    ∃ c, (controllerSystem Duration.second).Reachable c ∧ ∃ s startedAt, .retry (some s) startedAt ∈ c.marks ∧
      startedAt < s.failedAt + 30 * Duration.second := by
  refine ⟨Controller.retriedRun (Duration.greatest - Duration.second) (Duration.greatest - Duration.second),
    Controller.reachable_retriedRun (by decide) (le_refl _) (by decide),
    ⟨Duration.greatest - Duration.second, -9223372007854775809, false⟩,
      Duration.greatest - Duration.second, ?_, by decide⟩
  have hMarks : (Controller.retriedRun (Duration.greatest - Duration.second)
    (Duration.greatest - Duration.second)).marks =
      [.retry (some ⟨Duration.greatest - Duration.second, -9223372007854775809, false⟩)
        (Duration.greatest - Duration.second), .accepted 1] := by decide +kernel
  rw [hMarks]
  exact .head _

/-- A retry after 30 seconds, as every reachable controller makes it. -/
theorem controller_safe_retried :
    (Controller.retriedRun 0 (30 * Duration.second)).Safe ∧
      (Controller.retriedRun 0 (30 * Duration.second)).marks =
        [.retry (some ⟨0, 30 * Duration.second, false⟩) (30 * Duration.second), .accepted 1] :=
  ⟨(controller_safe (Controller.reachable_retriedRun (le_refl _) (by decide) (by decide))).1, by decide +kernel⟩

end FamilyConnect.DesktopAuto
