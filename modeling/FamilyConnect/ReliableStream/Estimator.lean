import FamilyConnect.ReliableStream.Retransmission

/-!
# The round-trip estimator over a whole run

Every update of the estimate comes from an opening that was sent once or from
a block that the log shows emitted once, that no ACK has covered before.
-/

namespace FamilyConnect.ReliableStream

open Lib Engine
open Relation (ReflTransGen)

namespace Engine

def estimate (e : Engine) : Duration × Duration := (e.smoothedRTT, e.rttVariation)

inductive Training (e : Engine) (f : Frame) (now : Instant) : Duration × Duration → Prop where
  | none : Training e f now e.estimate
  | opening : f.kind = .openFrame → e.openAttempts = 1 →
      Training e f now (e.observeRTT (now.sub e.lastOpen)).estimate
  | ack : f.kind = .ackFrame → Training e f now (e.observeRTT (e.sampleRTT f now)).estimate

variable {e e' : Engine}

theorem observeRTT_congr (hConfig : e'.config = e.config) (hSame : e'.estimate = e.estimate)
    (sample : Duration) : (e'.observeRTT sample).estimate = (e.observeRTT sample).estimate := by
  have hSmoothed : e'.smoothedRTT = e.smoothedRTT := congrArg Prod.fst hSame
  have hVariation : e'.rttVariation = e.rttVariation := congrArg Prod.snd hSame
  unfold observeRTT
  rw [hConfig, hSmoothed, hVariation]
  split
  · exact hSame
  split <;> rfl

theorem growAllowance_estimate (e : Engine) (f : Frame) : (e.growAllowance f).estimate = e.estimate := by
  obtain ⟨_, _, hEq, _⟩ := growAllowance_eq e f
  rw [hEq]
  rfl

theorem inputOpen_training (e : Engine) (f : Frame) (now : Instant) (hKind : f.kind = .openFrame) :
    Training e f now (e.inputOpen f now).1.estimate := by
  unfold inputOpen
  split
  · exact .none
  split
  · split
    · rename_i hOnce
      exact .opening hKind hOnce
    · exact .none
  split <;> exact .none

theorem inputAck_training (e : Engine) (f : Frame) (now : Instant) (hKind : f.kind = .ackFrame) :
    Training e f now (e.inputAck f now).1.estimate := by
  unfold inputAck
  split
  · exact .none
  split
  · exact .none
  split
  · exact .none
  · have hGrow := growAllowance_estimate ((e.settled f now).observeRTT (e.sampleRTT f now)) f
    have hConfig : (e.settled f now).config = e.config := rfl
    have hKept : (e.settled f now).estimate = e.estimate := rfl
    have hSame := observeRTT_congr hConfig hKept (e.sampleRTT f now)
    have hAck : Training e f now (e.observeRTT (e.sampleRTT f now)).estimate := .ack hKind
    rw [← hSame, ← hGrow] at hAck
    exact hAck

theorem input_training (e : Engine) (f : Frame) (now : Instant) : Training e f now (e.input f now).1.estimate := by
  unfold input
  split
  · exact .none
  split
  · exact inputOpen_training e f now ‹_›
  split
  · exact .none
  split
  · exact .none
  · exact inputAck_training e f now ‹_›
  · have hSame : (e.inputData f now).1.estimate = e.estimate := by
      unfold inputData
      split
      · rfl
      split
      · rfl
      split
      · rfl
      split
      · split <;> rfl
      · dsimp only
        obtain ⟨_, _, hNote⟩ := noteGaps_eq now (List.range' e.receive (f.seq - e.receive))
          { e with buffer := e.buffer.insert f.seq f.data, bufferedBytes := e.bufferedBytes + f.data.length }
        rw [hNote]
        unfold closeGap
        split <;> rfl
    rw [hSame]
    exact .none
  · exact .none

def Observed (e e' : Engine) : Prop :=
  e'.config = e.config ∧ ∃ sample, e'.estimate = (e.observeRTT sample).estimate

theorem Observed.same (hConfig : e'.config = e.config) (h : e'.estimate = e.estimate) :
    Observed e e' := ⟨hConfig, 0, h⟩

theorem Observed.estimated (h : Observed e e') (hValid : e.config.Valid) (hInv : e.Estimated) : e'.Estimated := by
  obtain ⟨hConfig, sample, hEstimate⟩ := h
  obtain ⟨hLow, hHigh, hLow', hHigh'⟩ := observeRTT_estimated hValid hInv sample
  have hSmoothed : e'.smoothedRTT = (e.observeRTT sample).smoothedRTT := congrArg Prod.fst hEstimate
  have hVariation : e'.rttVariation = (e.observeRTT sample).rttVariation := congrArg Prod.snd hEstimate
  have hSample : (e.observeRTT sample).config = e'.config := by
    obtain ⟨_, _, hEq⟩ := observeRTT_eq e sample
    rw [hEq, hConfig]
  rw [hSample] at hHigh hHigh'
  exact ⟨hSmoothed ▸ hLow, hSmoothed ▸ hHigh, hVariation ▸ hLow', hVariation ▸ hHigh'⟩

theorem Observed.pos (h : Observed e e') (hValid : e.config.Valid) (hInv : e.Estimated)
    (hSet : 0 < e.smoothedRTT) : 0 < e'.smoothedRTT := by
  obtain ⟨_, sample, hEstimate⟩ := h
  have hSmoothed : e'.smoothedRTT = (e.observeRTT sample).smoothedRTT := congrArg Prod.fst hEstimate
  rw [hSmoothed]
  exact observeRTT_pos hValid hInv hSet sample

end Engine

namespace Flight

variable {F F' : Flight}

theorem Step.observed (hInv : F.Inv) (hStep : Step F F') : Observed F.engine F'.engine := by
  cases hStep with
  | input =>
    rename_i f now _ _ _ _
    refine ⟨(input_blocks F.engine f now).1, ?_⟩
    have hTraining := input_training F.engine f now
    generalize (F.engine.input f now).1.estimate = result at hTraining ⊢
    cases hTraining with
    | none => exact ⟨0, rfl⟩
    | opening | ack => exact ⟨_, rfl⟩
  | send _ hSend =>
    obtain ⟨_, _, _, _, _, _, hEq⟩ := send_ok hInv.engine hSend
    rw [hEq]
    exact .same rfl rfl
  | consume => exact .same rfl rfl
  | tick =>
    obtain ⟨_, _, _, _, _, _, _, _, hEq⟩ := tick_frame F.engine _
    rw [hEq]
    exact .same rfl rfl
  | written =>
    refine .same (written_retimed _ _ _ _).config ?_
    unfold Engine.written
    split
    · rfl
    split <;> rfl

theorem steps_positive (hInv : F.Inv) (hEstimated : F.engine.Estimated) (hSet : 0 < F.engine.smoothedRTT)
    (hSteps : ReflTransGen Step F F') : F'.engine.config = F.engine.config ∧ F'.engine.Estimated ∧
    0 < F'.engine.smoothedRTT := by
  have hAll : F'.Inv ∧ F'.engine.config = F.engine.config ∧ F'.engine.Estimated ∧ 0 < F'.engine.smoothedRTT := by
    induction hSteps with
    | refl => exact ⟨hInv, rfl, hEstimated, hSet⟩
    | tail _ hStep ih =>
      obtain ⟨hInv', hConfig, hBounds, hPos⟩ := ih
      have hObserved := hStep.observed hInv'
      have hValid := hInv'.engine.valid
      exact ⟨hInv'.step hStep, (hStep.config hInv').trans hConfig, hObserved.estimated hValid hBounds,
        hObserved.pos hValid hBounds hPos⟩
  exact hAll.2

end Flight

theorem flight_estimated {config : Config} (hValid : config.validate = none) {localEpoch : Epoch}
    {started : Instant} {F : Flight} (h : (flightSystem config localEpoch started).Reachable F) :
    F.engine.Estimated := by
  refine h.invariant (I := fun F => F.engine.Estimated) ?_ ?_
  · rintro F rfl
    have hAge := (Config.Valid.maxAge_pos ((Config.validate_eq_none_iff config).mp hValid)).le
    exact ⟨le_rfl, hAge, le_rfl, hAge⟩
  · intro F F' hReach hEstimated hStep
    have hInv := (flight_inv hValid hReach).1
    exact (hStep.observed hInv).estimated hInv.engine.valid hEstimated

/-- Bounds of the estimate and of the retry interval over every run, that 64-bit arithmetic computes
both exactly, and where a sample may come from. -/
theorem rtt_estimator (config : Config) (hValid : config.validate = none) (localEpoch : Epoch)
    (started : Instant) (F : Flight) (h : (flightSystem config localEpoch started).Reachable F) :
    ((0 ≤ F.engine.smoothedRTT ∧ F.engine.smoothedRTT ≤ config.maxAge) ∧
      0 ≤ F.engine.rttVariation ∧ F.engine.rttVariation ≤ config.maxAge) ∧
      (F.engine.smoothedRTT ≠ 0 → ∀ F', ReflTransGen Flight.Step F F' →
        0 < F'.engine.smoothedRTT ∧ F'.engine.smoothedRTT ≤ config.maxAge) ∧
      (∀ b, config.rto ≤ F.engine.retryInterval b ∧
        F.engine.retryInterval b ≤ min (10 * Duration.second) config.maxAge) ∧
      (∀ b b' : Pending, b.timeouts ≤ b'.timeouts → F.engine.retryInterval b ≤ F.engine.retryInterval b') ∧
      (∀ b : Pending, F.engine.retryInterval b = F.engine.retryInterval { b with timeouts := min b.timeouts 2 }) ∧
      (∀ sample, F.engine.observeRTTWord sample = F.engine.observeRTT sample) ∧
      (∀ b, F.engine.retryIntervalWord b = F.engine.retryInterval b) ∧
      (∀ f now, Training F.engine f now (F.engine.input f now).1.estimate) ∧
      (∀ f now entries, List.Perm entries F.engine.sent.entries →
        entries.foldl (sampleStep f now) 0 = F.engine.sampleRTT f now) ∧
      (∀ f now, F.engine.sampleRTT f now ≠ 0 → ∃ seq b, F.engine.sent.lookup seq = some b ∧
        F.engine.base ≤ seq ∧ acknowledged f seq = true ∧ b.sacked = false ∧ F.times seq = [b.first] ∧
        F.engine.sampleRTT f now = now.sub b.first) := by
  obtain ⟨hInv, hConfig⟩ := flight_inv hValid h
  have hEstimated := flight_estimated hValid h
  have hOk := hInv.engine.valid
  refine ⟨⟨⟨hEstimated.smoothed_nonneg, ?_⟩, hEstimated.variation_nonneg, ?_⟩, ?_, ?_, ?_, ?_, ?_, ?_, ?_, ?_, ?_⟩
  · exact hConfig ▸ hEstimated.smoothed_le
  · exact hConfig ▸ hEstimated.variation_le
  · intro hSet F' hSteps
    have hPos : 0 < F.engine.smoothedRTT := lt_of_le_of_ne hEstimated.smoothed_nonneg hSet.symm
    obtain ⟨hSame, hBounds, hPos'⟩ := Flight.steps_positive hInv hEstimated hPos hSteps
    exact ⟨hPos', (hSame.trans hConfig) ▸ hBounds.smoothed_le⟩
  · intro b
    exact hConfig ▸ ⟨retryInterval_ge hOk b, retryInterval_le F.engine b⟩
  · exact fun b b' hTimeouts => retryInterval_mono hOk hTimeouts
  · exact fun b => retryInterval_twice hOk b
  · exact fun sample => observeRTTWord_eq hOk hEstimated sample
  · exact fun b => retryIntervalWord_eq hOk hEstimated b
  · exact fun f now => input_training F.engine f now
  · exact fun f now entries hPerm => sampleRTT_perm F.engine f now hPerm
  · intro f now hSample
    obtain ⟨seq, b, hb, ⟨hAcked, hSacked, hRetries⟩, hValue⟩ := sampleRTT_source hSample
    have hTracked := hInv.tracked seq b hb
    have hHeld := (hInv.engine.held seq).mp (by rw [hb]; rfl)
    refine ⟨seq, b, hb, hHeld.1, hAcked, hSacked, ?_, hValue⟩
    have hCount := hTracked.count
    have hFirst := hTracked.first
    rw [hRetries] at hCount
    obtain ⟨t, ht⟩ := List.length_eq_one_iff.mp hCount
    rw [ht] at hFirst
    rw [ht, Option.some.inj hFirst]

theorem rtt_estimator_sampled : ∃ F f,
    (flightSystem defaultConfig ⟨List.replicate 16 1, rfl⟩ 1).Reachable F ∧ F.engine.sampleRTT f 5 = 2 ∧
      ∃ seq b, F.engine.sent.lookup seq = some b ∧ F.engine.base ≤ seq ∧ acknowledged f seq = true ∧
        b.sacked = false ∧ F.times seq = [b.first] ∧ F.engine.sampleRTT f 5 = Instant.sub 5 b.first := by
  let ack : Frame := { peerSack with ack := 1, bits := 0#32 }
  have hPlay : ([Engine.Move.input peerOpening 2, .send [1] 3].foldlM Flight.move
      ⟨newEngine defaultConfig ⟨List.replicate 16 1, rfl⟩ 1, 1, []⟩).map
        (fun F => F.engine.sampleRTT ack 5) = some 2 := by decide +kernel
  obtain ⟨F, hRun, hTwo⟩ := Option.map_eq_some_iff.mp hPlay
  have hReach := System.Reachable.play (S := flightSystem defaultConfig ⟨List.replicate 16 1, rfl⟩ 1)
    (fun _ _ _ => Flight.move_step _) (.start rfl) hRun
  have hSource := (rtt_estimator _ (by decide) _ _ _ hReach).2.2.2.2.2.2.2.2.2 ack 5 (by rw [hTwo]; decide)
  exact ⟨F, ack, hReach, hTwo, hSource⟩

end FamilyConnect.ReliableStream
