import FamilyConnect.Lib.Allowance
import FamilyConnect.ReliableStream.EngineInvariant

/-!
# The send allowance over a whole run

`Engine.pace` is what the engine keeps to decide how many blocks may be
outstanding. Every step changes it as `Allowance.Change` allows, so the two
results about distant moments of a run come from there.
-/

namespace FamilyConnect.ReliableStream

open Lib
open Relation (ReflTransGen)

namespace Engine

def pace (e : Engine) : Allowance where
  size := e.sendAllowance
  credit := e.ackCredit
  acked := e.base
  issued := e.next
  recovery := e.recoveryUntil

/-- A timer expiry that cuts the allowance moves the recovery mark, also when the allowance was 1. -/
def Halves (e : Engine) (now : Instant) : Prop := (e.tick now).1.recoveryUntil ≠ e.recoveryUntil

/-! ## One tick -/

def Paced (e e' : Engine) : Prop :=
  e'.pace = e.pace ∨ e.recoveryUntil ≤ e.base ∧ e'.pace = e.pace.halved

theorem Paced.refl (e : Engine) : Paced e e := .inl rfl

theorem Paced.trans {e e' e'' : Engine} (hOpen : e.base < e.next) (h : Paced e e')
    (h' : Paced e' e'') : Paced e e'' := by
  rcases h with hSame | ⟨hOver, hCut⟩
  · rcases h' with hSame' | ⟨hOver', hCut'⟩
    · exact .inl (hSame'.trans hSame)
    · have hBase : e'.base = e.base := congrArg Allowance.acked hSame
      have hMark : e'.recoveryUntil = e.recoveryUntil := congrArg Allowance.recovery hSame
      exact .inr ⟨by omega, by rw [hCut', hSame]⟩
  · have hBase : e'.base = e.base := congrArg Allowance.acked hCut
    have hMark : e'.recoveryUntil = e.next := congrArg Allowance.recovery hCut
    rcases h' with hSame' | ⟨hOver', _⟩
    · exact .inr ⟨hOver, hSame'.trans hCut⟩
    · omega

variable {e e' : Engine} {f : Frame}

theorem Paced.change (h : Paced e e') (hOpen : e.base < e.next ∨ e'.pace = e.pace) :
    Allowance.Change e.pace e'.pace := by
  rcases h with hSame | ⟨hOver, hCut⟩
  · rw [hSame]
    exact .stay
  · rcases hOpen with hOpen | hSame
    · rw [hCut]
      exact .cut hOpen hOver
    · rw [hSame]
      exact .stay

theorem noteTimeout_paced (hPos : 1 ≤ e.sendAllowance) (seq : Nat) (b : Pending) : Paced e (e.noteTimeout seq b) := by
  unfold noteTimeout
  dsimp only
  split
  · rename_i hOver
    refine .inr ⟨hOver, ?_⟩
    simp only [pace, Allowance.halved, Int.tdiv_eq_ediv_of_nonneg (show 0 ≤ e.sendAllowance by omega)]
  · exact Paced.refl e

theorem retransmit_paced (now : Instant) (seqs : List Nat) (e : Engine) (output : List Frame)
    (hPos : 1 ≤ e.sendAllowance) (hOpen : e.base < e.next) : Paced e (retransmit now seqs e output).1 := by
  induction seqs generalizing e output with
  | nil => exact Paced.refl e
  | cons seq rest ih =>
    have hReady {b b₁ : Pending} {e₁ : Engine} (hReadied : Readied e seq b now e₁ b₁) : Paced e e₁ := by
      cases hReadied with
      | late => exact noteTimeout_paced hPos seq b
      | early => exact Paced.refl e
    have hVisit := retransmit_visit now seq rest e output
    generalize retransmit now (seq :: rest) e output = result at hVisit ⊢
    cases hVisit with
    | stuck => exact Paced.refl e
    | exhausted why _ hFrom =>
      rcases hFrom with rfl | ⟨b₁, hReadied⟩
      · exact Paced.refl _
      · have hPaced := hReady hReadied
        exact hPaced
    | skipped => exact ih e output hPos hOpen
    | sent hb _ _ hReadied =>
      have hRetimed := hReadied.retimed hb
      have hWindow : _ < _ := hRetimed.base ▸ hRetimed.next ▸ hOpen
      exact (hReady hReadied).trans hOpen (ih _ _ (hRetimed.allowance_pos hPos) hWindow)

theorem tick_paced (h : e.Inv) (now : Instant) :
    Paced e (e.tick now).1 ∧ (e.base < e.next ∨ (e.tick now).1.pace = e.pace) := by
  have hTicked := tick_cases e now
  generalize e.tick now = result at hTicked ⊢
  cases hTicked with
  | exhausted | opened | quiet => exact ⟨Paced.refl e, .inr rfl⟩
  | loop refresh output =>
    by_cases hOpen : e.base < e.next
    · exact ⟨retransmit_paced now _ { e with lastRefresh := refresh } output h.allowance_pos hOpen, .inl hOpen⟩
    · -- an empty window leaves the loop nothing to visit
      have hNone : e.next - e.base = 0 := by omega
      rw [hNone]
      exact ⟨Paced.refl e, .inr rfl⟩

theorem tick_change (h : e.Inv) (now : Instant) : Allowance.Change e.pace (e.tick now).1.pace :=
  (tick_paced h now).1.change (tick_paced h now).2

/-! ## One frame -/

theorem observeRTT_pace (e : Engine) (sample : Duration) : (e.observeRTT sample).pace = e.pace := by
  obtain ⟨smoothed, variation, hEq⟩ := observeRTT_eq e sample
  rw [hEq]
  rfl

theorem inputOpen_pace (e : Engine) (f : Frame) (now : Instant) : (e.inputOpen f now).1.pace = e.pace := by
  unfold inputOpen
  split
  · rfl
  split
  · have hSample := observeRTT_pace e (now.sub e.lastOpen)
    split
    · exact hSample
    · rfl
  split <;> rfl

theorem inputData_pace (e : Engine) (f : Frame) (now : Instant) : (e.inputData f now).1.pace = e.pace := by
  unfold inputData
  split
  · rfl
  split
  · rfl
  split
  · rfl
  split
  · split <;> rfl
  · dsimp only
    obtain ⟨gaps, detected, hNote⟩ := noteGaps_eq now (List.range' e.receive (f.seq - e.receive))
      { e with buffer := e.buffer.insert f.seq f.data, bufferedBytes := e.bufferedBytes + f.data.length }
    rw [hNote]
    unfold closeGap
    split <;> rfl

theorem growAllowance_change (hLow : e.base ≤ f.ack) (hHigh : f.ack < 2 ^ 64)
    (hPos : 1 ≤ e.sendAllowance) (hSmall : e.sendAllowance ≤ 32) :
    Allowance.Change e.pace { e.growAllowance f with base := f.ack }.pace ∧
      (f.ack ≤ e.base → (e.growAllowance f).sendAllowance = e.sendAllowance) ∧
      (e.sendAllowance < (e.growAllowance f).sendAllowance → e.smoothedRTT < e.config.maxAge.tdiv 4) := by
  have hStep : Word.sub 64 f.ack e.base = f.ack - e.base := Word.sub_of_le hLow hHigh
  have hSum : Word.add 64 e.ackCredit (f.ack - e.base) ≤ e.ackCredit + (f.ack - e.base) := Nat.mod_le _ _
  have hSize : Word.ofInt 64 e.sendAllowance = e.sendAllowance.toNat :=
    Word.ofInt_of_nonneg (by omega) (by omega)
  unfold growAllowance
  dsimp only
  split
  · rename_i hFast
    rw [hStep, hSize]
    split
    · rename_i hEarned
      refine ⟨?_, ?_, ?_⟩
      · apply Allowance.Change.grow hFast.1
        · simp only [pace]
          omega
        · simp only [pace]
          omega
      · omega
      · exact fun _ => hFast.2
    · exact ⟨.advance hLow hSum, fun _ => rfl, fun hRaise => absurd hRaise (lt_irrefl _)⟩
  split
  · exact ⟨.advance hLow (Nat.zero_le _), fun _ => rfl, fun hRaise => absurd hRaise (lt_irrefl _)⟩
  · exact ⟨.advance hLow (Nat.le_add_right _ _), fun _ => rfl, fun hRaise => absurd hRaise (lt_irrefl _)⟩

/-- What a frame may do to the allowance; only an ACK that advances the window on a fast path raises it. -/
structure Governed (e e' : Engine) (f : Frame) : Prop where
  change : Allowance.Change e.pace e'.pace
  still : f.ack ≤ e.base → e'.sendAllowance = e.sendAllowance
  raised : e.sendAllowance < e'.sendAllowance →
    f.kind = .ackFrame ∧ e'.base = f.ack ∧ e'.smoothedRTT < e.config.maxAge.tdiv 4

theorem Governed.of_pace (h : e'.pace = e.pace) : Governed e e' f where
  change := by rw [h]; exact .stay
  still _ := congrArg Allowance.size h
  raised hRaise := absurd hRaise (congrArg Allowance.size h : e'.sendAllowance = e.sendAllowance).not_gt

theorem inputAck_governed (h : e.Inv) (hKind : f.kind = .ackFrame) (now : Instant) :
    Governed e (e.inputAck f now).1 f := by
  unfold inputAck
  split
  · exact .of_pace rfl
  rename_i hStale
  split
  · exact .of_pace rfl
  rename_i hBeyond
  split
  · exact .of_pace rfl
  dsimp only
  obtain ⟨smoothed, variation, hSampled⟩ := observeRTT_eq (e.settled f now) (e.sampleRTT f now)
  rw [hSampled]
  have hNext := h.next_lt
  have hWindow := h.valid.sendWindow_le
  have hLe := h.allowance_le
  obtain ⟨hChange, hStill, hFast⟩ := growAllowance_change (f := f)
    (e := { e.settled f now with smoothedRTT := smoothed, rttVariation := variation })
    (by dsimp only; omega) (by omega) h.allowance_pos (by dsimp only; omega)
  refine ⟨hChange, hStill, ?_⟩
  intro hRaise
  obtain ⟨credit, allowance, hGrow, _⟩ :=
    growAllowance_eq { e.settled f now with smoothedRTT := smoothed, rttVariation := variation } f
  refine ⟨hKind, rfl, ?_⟩
  have hRTT := hFast hRaise
  rw [hGrow]
  exact hRTT

theorem input_governed (h : e.Inv) (f : Frame) (now : Instant) : Governed e (e.input f now).1 f := by
  unfold input
  split
  · exact .of_pace rfl
  split
  · exact .of_pace (inputOpen_pace e f now)
  split
  · exact .of_pace rfl
  split
  · exact .of_pace rfl
  · exact inputAck_governed h ‹_› now
  · exact .of_pace (inputData_pace e f now)
  · exact .of_pace rfl

/-! ## Runs -/

theorem Step.change (h : e.Inv) (hStep : Step e e') : Allowance.Change e.pace e'.pace := by
  cases hStep with
  | input => exact (input_governed h _ _).change
  | send hSend =>
    obtain ⟨_, _, _, _, _, _, hEq⟩ := send_ok h hSend
    rw [hEq]
    exact .issue
  | consume => exact .stay
  | tick => exact tick_change h _

theorem Step.config (h : e.Inv) (hStep : Step e e') : e'.config = e.config := by
  cases hStep with
  | input =>
    rename_i f now _ _ _
    have hCases := input_cases e f now
    generalize e.input f now = result at hCases ⊢
    cases hCases with
    | pinned e' _ _ _ hPinned => exact hPinned.config
    | settled e' _ _ _ _ _ hSettled => exact hSettled.config
    | stored e' _ _ _ _ hStored => exact hStored.config
    | _ => rfl
  | send hSend =>
    obtain ⟨_, _, _, _, _, _, hEq⟩ := send_ok h hSend
    rw [hEq]
  | consume => rfl
  | tick => exact (tick_spec _ _).1.config

theorem steps_change (h : e.Inv) (hSteps : ReflTransGen Step e e') :
    e'.Inv ∧ ReflTransGen Allowance.Change e.pace e'.pace := by
  induction hSteps with
  | refl => exact ⟨h, .refl⟩
  | tail _ hStep ih =>
    obtain ⟨hInv, hChanges⟩ := ih
    exact ⟨inv_step hInv hStep, hChanges.tail (hStep.change hInv)⟩

end Engine

open Engine

theorem engine_config {config : Config} (hValid : config.validate = none) {localEpoch : Epoch}
    {started : Instant} {e : Engine} (h : (engineSystem config localEpoch started).Reachable e) :
    e.config = config := by
  refine h.invariant (I := fun e => e.config = config) ?_ ?_
  · rintro s rfl
    rfl
  · intro s t hReach hConfig hStep
    exact (Step.config (engine_inv hValid hReach) hStep).trans hConfig

/-- The allowance of a sender over a whole run: always inside its window, raised by one block at a
time for a whole allowance of cumulative progress, halved at most once in a tick and once per flight. -/
theorem congestion_allowance (config : Config) (hValid : config.validate = none) (localEpoch : Epoch)
    (started : Instant) (e : Engine) (h : (engineSystem config localEpoch started).Reachable e) :
    (1 ≤ e.sendAllowance ∧ e.sendAllowance ≤ config.sendWindow) ∧
      (∀ raw f now, decode raw = .ok f →
        (e.input f now).1.sendAllowance ≤ e.sendAllowance + 1 ∧
          (e.sendAllowance < (e.input f now).1.sendAllowance →
            f.kind = .ackFrame ∧ (e.base < f.ack ∧ (e.input f now).1.base = f.ack) ∧
              (e.input f now).1.smoothedRTT < config.maxAge.tdiv 4) ∧
          (f.kind = .ackFrame → f.ack ≤ e.base → (e.input f now).1.sendAllowance = e.sendAllowance)) ∧
      (∀ e₁ e₂ e₃, Step e e₁ → e.sendAllowance < e₁.sendAllowance → ReflTransGen Step e₁ e₂ →
        Step e₂ e₃ → e₂.sendAllowance < e₃.sendAllowance → e₁.base + e₂.sendAllowance ≤ e₃.base) ∧
      (∀ now, (e.Halves now → (e.tick now).1.sendAllowance = max 1 (e.sendAllowance.tdiv 2)) ∧
        (¬e.Halves now → (e.tick now).1.sendAllowance = e.sendAllowance)) ∧
      (∀ now e₂ now', e.Halves now → ReflTransGen Step (e.tick now).1 e₂ → e₂.Halves now' →
        ∀ k ∈ e.sent, k < e₂.base) := by
  have hInv := engine_inv hValid h
  have hConfig := engine_config hValid h
  have hPos := hInv.allowance_pos
  refine ⟨⟨hPos, hConfig ▸ hInv.allowance_le⟩, ?_, ?_, ?_, ?_⟩
  · intro raw f now _
    have hGoverned := input_governed hInv f now
    constructor
    · by_cases hRaise : e.sendAllowance < (e.input f now).1.sendAllowance
      · exact (hGoverned.change.raise hPos hRaise).1
      · omega
    · refine ⟨?_, fun _ hStill => hGoverned.still hStill⟩
      intro hRaise
      obtain ⟨hKind, hBase, hFast⟩ := hGoverned.raised hRaise
      obtain ⟨_, _, hLater, _⟩ := hGoverned.change.raise hPos hRaise
      exact ⟨hKind, ⟨lt_of_lt_of_eq hLater hBase, hBase⟩, hConfig ▸ hFast⟩
  · intro e₁ e₂ e₃ hFirst hRaised hBetween hSecond hAgain
    obtain ⟨hInv₂, hChanges⟩ := steps_change (inv_step hInv hFirst) hBetween
    exact Allowance.raises_apart (hFirst.change hInv) hRaised hChanges (hSecond.change hInv₂) hAgain hPos
      hInv₂.allowance_pos
  · intro now
    constructor
    · intro hHalves
      have hSize := ((tick_change hInv now).halve hHalves).1
      rw [Int.tdiv_eq_ediv_of_nonneg (by omega)]
      exact hSize
    · intro hSame
      rcases (tick_paced hInv now).1 with hPace | ⟨hOver, hCut⟩
      · exact congrArg Allowance.size hPace
      · -- a cut would have moved the mark beyond the base
        rcases (tick_paced hInv now).2 with hOpen | hPace
        · have hMark : (e.tick now).1.recoveryUntil = e.next := congrArg Allowance.recovery hCut
          exact absurd (fun hEq => by omega) hSame
        · exact congrArg Allowance.size hPace
  · intro now e₂ now' hHalves hBetween hAgain k hk
    obtain ⟨hInv₂, hChanges⟩ := steps_change (inv_retimed hInv (tick_spec e now).1) hBetween
    have hAcked := Allowance.cuts_apart (tick_change hInv now) hHalves hChanges (tick_change hInv₂ now') hAgain
    have hHeld := (hInv.held k).mp (AList.lookup_isSome.mpr hk)
    exact lt_of_lt_of_le hHeld.2 hAcked

theorem congestion_allowance_grown : ∃ e f now,
    (engineSystem defaultConfig ⟨List.replicate 16 1, rfl⟩ 1).Reachable e ∧ e.sendAllowance = 4 ∧
      (e.input f now).1.sendAllowance = 5 ∧
      f.kind = .ackFrame ∧ (e.base < f.ack ∧ (e.input f now).1.base = f.ack) ∧
      (e.input f now).1.smoothedRTT < defaultConfig.maxAge.tdiv 4 := by
  let wide : Frame := { peerOpening with window := 8 }
  let ack : Frame := { kind := .ackFrame, source := wide.source, target := wide.target, ack := 4 }
  have hAck : decode (encode ack) = .ok ack := by decide +kernel
  have hPlay : ([Engine.Move.input wide 2, .send [1] 3, .send [2] 3, .send [3] 3, .send [4] 3].foldlM Engine.move
      (newEngine defaultConfig ⟨List.replicate 16 1, rfl⟩ 1)).map
        (fun e => (e.sendAllowance, (e.input ack 5).1.sendAllowance)) =
        some (4, 5) := by decide +kernel
  obtain ⟨e, hRun, hSizes⟩ := Option.map_eq_some_iff.mp hPlay
  obtain ⟨hFour, hFive⟩ := Prod.mk.inj hSizes
  have hReach := System.Reachable.play (S := engineSystem defaultConfig ⟨List.replicate 16 1, rfl⟩ 1)
    (fun _ _ _ => Engine.move_step _) (.start rfl) hRun
  refine ⟨e, ack, 5, hReach, hFour, hFive, ((congestion_allowance _ (by decide) _ _ _ hReach).2.1 _ _ _ hAck).2.1 ?_⟩
  rw [hFour, hFive]
  decide

end FamilyConnect.ReliableStream
