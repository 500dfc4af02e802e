import FamilyConnect.Lib.Transition
import FamilyConnect.ReliableStream.EngineStep

/-!
# Window safety of one engine against any peer

The peer chooses every decoded frame freely. `Engine.Inv` is the invariant of
a single engine; `engine_window_safety` reads from it that no run before the
first error leaves a hole in the send window, overruns the reorder buffer or
wraps a counter.
-/

namespace FamilyConnect.ReliableStream

open Lib

namespace Engine

structure Inv (e : Engine) : Prop where
  valid : e.config.Valid
  base_le : e.base ≤ e.next
  next_lt : e.next < 2 ^ 64
  receive_lt : e.receive < 2 ^ 64
  held : ∀ k, (e.sent.lookup k).isSome ↔ e.base ≤ k ∧ k < e.next
  window_send : (e.next : Int) - e.base ≤ e.config.sendWindow
  window_remote : (e.next : Int) - e.base ≤ e.remoteWindow
  unpinned : e.remote = Epoch.zero → e.remoteWindow = 0
  pinned : e.remote ≠ Epoch.zero → 1 ≤ e.remoteWindow ∧ e.remoteWindow ≤ 32
  allowance_pos : 1 ≤ e.sendAllowance
  allowance_le : e.sendAllowance ≤ e.config.sendWindow
  buffered : ∀ k d, e.buffer.lookup k = some d →
    e.receive ≤ k ∧ (k : Int) < e.receive + e.config.receiveWindow ∧ k < Word.greatest 64 ∧
      d ≠ [] ∧ (d.length : Int) ≤ e.config.payload
  buffer_pinned : ∀ k d, e.buffer.lookup k = some d → e.remote ≠ Epoch.zero
  bytes : e.bufferedBytes = Table.weight blockBytes e.sent + Table.weight List.length e.buffer

theorem inv_newEngine {config : Config} (hValid : config.Valid) (localEpoch : Epoch) (now : Instant) :
    (newEngine config localEpoch now).Inv where
  valid := hValid
  base_le := le_rfl
  next_lt := by simp [newEngine]
  receive_lt := by simp [newEngine]
  held k := by simp [newEngine]
  window_send := by
    have := hValid.sendWindow_pos
    simp only [newEngine]
    omega
  window_remote := by simp [newEngine]
  unpinned _ := rfl
  pinned h := absurd rfl h
  allowance_pos := by
    have := hValid.sendWindow_pos
    simp only [newEngine]
    omega
  allowance_le := by
    simp only [newEngine]
    omega
  buffered k d h := by simp [newEngine] at h
  buffer_pinned k d h := by simp [newEngine] at h
  bytes := rfl

variable {e : Engine} {k : Nat}

theorem Inv.next_sub (h : e.Inv) (hk : k ≤ e.next) : Word.sub 64 e.next k = e.next - k := Word.sub_of_le hk h.next_lt

theorem Inv.sendLimit_nonneg (h : e.Inv) (hRemote : e.remote ≠ Epoch.zero) : 1 ≤ e.sendLimit ∧ e.sendLimit ≤ 32 := by
  have hPinned := h.pinned hRemote
  have hAllowance := h.allowance_pos
  have hLow := h.valid.sendWindow_pos
  have hHigh := h.valid.sendWindow_le
  unfold sendLimit
  omega

theorem Inv.writable_iff (h : e.Inv) : e.writable = true ↔ e.remote ≠ Epoch.zero ∧
    (e.next : Int) - e.base < e.sendLimit := by
  have hBase := h.base_le
  unfold writable
  rw [Bool.and_eq_true, decide_eq_true_eq, decide_eq_true_eq]
  apply and_congr_right
  intro hRemote
  obtain ⟨hLow, hHigh⟩ := h.sendLimit_nonneg hRemote
  rw [h.next_sub hBase, Word.ofInt_of_nonneg (by omega) (by omega)]
  omega

theorem Inv.receiveWindow_word (h : e.Inv) : Word.ofInt 64 e.config.receiveWindow = e.config.receiveWindow.toNat := by
  have hLow := h.valid.receiveWindow_pos
  have hHigh := h.valid.receiveWindow_le
  exact Word.ofInt_of_nonneg (by omega) (by omega)

theorem Inv.buffer_sub (h : e.Inv) {d : List UInt8}
    (hk : e.buffer.lookup k = some d) : Word.sub 64 k e.receive = k - e.receive := by
  obtain ⟨hLow, _, hLt, _⟩ := h.buffered k d hk
  exact Word.sub_of_le hLow (by simp only [Word.greatest] at hLt; omega)

variable {e e' : Engine}

theorem inv_retimed (h : e.Inv) (hRetimed : Retimed e e') : e'.Inv where
  valid := hRetimed.config ▸ h.valid
  base_le := by rw [hRetimed.base, hRetimed.next]; exact h.base_le
  next_lt := by rw [hRetimed.next]; exact h.next_lt
  receive_lt := by rw [hRetimed.receive]; exact h.receive_lt
  held k := by rw [hRetimed.held, hRetimed.base, hRetimed.next]; exact h.held k
  window_send := by rw [hRetimed.base, hRetimed.next, hRetimed.config]; exact h.window_send
  window_remote := by rw [hRetimed.base, hRetimed.next, hRetimed.remoteWindow]; exact h.window_remote
  unpinned := by rw [hRetimed.remote, hRetimed.remoteWindow]; exact h.unpinned
  pinned := by rw [hRetimed.remote, hRetimed.remoteWindow]; exact h.pinned
  allowance_pos := hRetimed.allowance_pos h.allowance_pos
  allowance_le := by
    rw [hRetimed.config]
    exact (hRetimed.allowance_le h.allowance_pos).trans h.allowance_le
  buffered := by rw [hRetimed.buffer, hRetimed.receive, hRetimed.config]; exact h.buffered
  buffer_pinned := by rw [hRetimed.buffer, hRetimed.remote]; exact h.buffer_pinned
  bytes := by rw [hRetimed.bufferedBytes, hRetimed.bytes, hRetimed.buffer]; exact h.bytes

variable {f : Frame}

theorem inv_pinned (h : e.Inv) (hRemote : e.remote = Epoch.zero)
    (hSource : f.source ≠ Epoch.zero) (hWindow : 1 ≤ f.window ∧ f.window ≤ 32) (hPinned : Pinned e e' f) : e'.Inv where
  valid := hPinned.config ▸ h.valid
  base_le := by rw [hPinned.base, hPinned.next]; exact h.base_le
  next_lt := by rw [hPinned.next]; exact h.next_lt
  receive_lt := by rw [hPinned.receive]; exact h.receive_lt
  held k := by rw [hPinned.sent, hPinned.base, hPinned.next]; exact h.held k
  window_send := by rw [hPinned.base, hPinned.next, hPinned.config]; exact h.window_send
  window_remote := by
    have hEmpty := h.window_remote
    rw [h.unpinned hRemote] at hEmpty
    rw [hPinned.base, hPinned.next, hPinned.remoteWindow]
    omega
  unpinned hZero := absurd (hPinned.remote ▸ hZero) hSource
  pinned _ := by rw [hPinned.remoteWindow]; exact hWindow
  allowance_pos := by rw [hPinned.sendAllowance]; exact h.allowance_pos
  allowance_le := by rw [hPinned.sendAllowance, hPinned.config]; exact h.allowance_le
  buffered := by rw [hPinned.buffer, hPinned.receive, hPinned.config]; exact h.buffered
  buffer_pinned := by rw [hPinned.remote]; exact fun _ _ _ => hSource
  bytes := by rw [hPinned.bufferedBytes, hPinned.sent, hPinned.buffer]; exact h.bytes

theorem settle_data {b b' : Pending} (h : settle f k b = some b') : b'.data = b.data := by
  unfold settle at h
  split at h
  · cases h
  split at h <;> (cases h; rfl)

theorem settle_isSome (f : Frame) (k : Nat) (b : Pending) : (settle f k b).isSome ↔ f.ack ≤ k := by
  unfold settle
  split
  · simpa using by omega
  split <;> simpa using by omega

theorem inv_settled (h : e.Inv) (hRemote : e.remote ≠ Epoch.zero)
    (hLow : e.base ≤ f.ack) (hHigh : f.ack ≤ e.next) (hSettled : Settled e e' f) : e'.Inv where
  valid := hSettled.config ▸ h.valid
  base_le := by rw [hSettled.base, hSettled.next]; exact hHigh
  next_lt := by rw [hSettled.next]; exact h.next_lt
  receive_lt := by rw [hSettled.receive]; exact h.receive_lt
  held k := by
    rw [hSettled.sent, hSettled.base, hSettled.next, Table.lookup_filterMap]
    have hHeld := h.held k
    cases hk : e.sent.lookup k with
    | none =>
      rw [hk] at hHeld
      simp only [Option.isSome_none, Bool.false_eq_true, false_iff] at hHeld
      simp only [Option.bind_none, Option.isSome_none, Bool.false_eq_true, false_iff]
      omega
    | some b =>
      rw [hk] at hHeld
      simp only [Option.isSome_some, true_iff] at hHeld
      rw [Option.bind_some, settle_isSome]
      omega
  window_send := by
    have hWindow := h.window_send
    rw [hSettled.base, hSettled.next, hSettled.config]
    omega
  window_remote := by
    have hWindow := h.window_remote
    rw [hSettled.base, hSettled.next, hSettled.remoteWindow]
    omega
  unpinned := by rw [hSettled.remote, hSettled.remoteWindow]; exact h.unpinned
  pinned := by rw [hSettled.remote, hSettled.remoteWindow]; exact h.pinned
  allowance_pos := by
    have hPinned := h.pinned hRemote
    have hPos := h.allowance_pos
    have hWindow := h.valid.sendWindow_pos
    rcases hSettled.allowance with hSame | hGrown
    · omega
    · omega
  allowance_le := by
    have hLe := h.allowance_le
    rw [hSettled.config]
    rcases hSettled.allowance with hSame | hGrown
    · omega
    · omega
  buffered := by rw [hSettled.buffer, hSettled.receive, hSettled.config]; exact h.buffered
  buffer_pinned := by rw [hSettled.remote]; exact fun _ _ _ => hRemote
  bytes := by
    have hWeight := Table.weight_filterMap blockBytes (settle f)
      (fun k b b' hb => congrArg List.length (settle_data hb)) e.sent
    have hBytes := h.bytes
    rw [hSettled.bufferedBytes, hSettled.sent, hSettled.buffer]
    omega

theorem inv_stored (h : e.Inv) (hRemote : e.remote ≠ Epoch.zero)
    (hFresh : FreshData e f) (hSeq : f.seq < 2 ^ 64) (hData : f.data ≠ []) (hStored : Stored e e' f) : e'.Inv where
  valid := hStored.config ▸ h.valid
  base_le := by rw [hStored.base, hStored.next]; exact h.base_le
  next_lt := by rw [hStored.next]; exact h.next_lt
  receive_lt := by rw [hStored.receive]; exact h.receive_lt
  held k := by rw [hStored.sent, hStored.base, hStored.next]; exact h.held k
  window_send := by rw [hStored.base, hStored.next, hStored.config]; exact h.window_send
  window_remote := by rw [hStored.base, hStored.next, hStored.remoteWindow]; exact h.window_remote
  unpinned := by rw [hStored.remote, hStored.remoteWindow]; exact h.unpinned
  pinned := by rw [hStored.remote, hStored.remoteWindow]; exact h.pinned
  allowance_pos := by rw [hStored.sendAllowance]; exact h.allowance_pos
  allowance_le := by rw [hStored.sendAllowance, hStored.config]; exact h.allowance_le
  buffered k d hk := by
    rw [hStored.buffer] at hk
    rw [hStored.receive, hStored.config]
    by_cases hEq : k = f.seq
    · subst hEq
      rw [AList.lookup_insert, Option.some.injEq] at hk
      subst hk
      have hInside := hFresh.inside
      have hNe := hFresh.seq_ne
      rw [Word.sub_of_le hFresh.seq_ge hSeq, h.receiveWindow_word] at hInside
      simp only [Word.greatest] at hNe ⊢
      have hGe := hFresh.seq_ge
      exact ⟨hGe, by omega, by omega, hData, hFresh.size⟩
    · rw [AList.lookup_insert_ne hEq] at hk
      exact h.buffered k d hk
  buffer_pinned := by rw [hStored.remote]; exact fun _ _ _ => hRemote
  bytes := by
    have hBytes := h.bytes
    rw [hStored.bufferedBytes, hStored.sent, hStored.buffer, Table.weight_insert _ hFresh.absent]
    omega

theorem inv_input (h : e.Inv) (hFrame : f.WellFormed) (now : Instant) : (e.input f now).1.Inv := by
  have hCases := input_cases e f now
  generalize e.input f now = result at hCases ⊢
  cases hCases with
  | ignored | reply | changed | acked | reset | badAck | badData => exact h
  | pinned e' hKind _ hRemote hPinned =>
    have hWindow := hFrame.open_window hKind
    exact inv_pinned h hRemote hFrame.source_ne ⟨hWindow.1, hWindow.2.1⟩ hPinned
  | settled e' _ hRemote _ hLow hHigh hSettled => exact inv_settled h hRemote hLow hHigh hSettled
  | stored e' hKind hRemote _ hFresh hStored =>
    exact inv_stored h hRemote hFresh hFrame.seq_lt (hFrame.data_ne hKind) hStored

variable {data : List UInt8} {now : Instant}

/-- What a successful `send` did: it was allowed, and the block went to the end of the window. -/
theorem send_ok (h : e.Inv) (hSend : (e.send data now).2 = .ok f) :
    e.remote ≠ Epoch.zero ∧ (e.next : Int) - e.base < e.sendLimit ∧ data ≠ [] ∧
      (data.length : Int) ≤ min e.config.payload e.remoteSize ∧ e.next + 1 < 2 ^ 64 ∧
      f = { e.packet .dataFrame with seq := e.next, data := data } ∧
      (e.send data now).1 =
        { e with
          sent := e.sent.insert e.next { data := data, first := now, last := now }
          next := e.next + 1
          bufferedBytes := e.bufferedBytes + data.length } := by
  unfold send at hSend ⊢
  split at hSend
  · cases hSend
  · rename_i hAllowed
    rw [if_neg hAllowed]
    simp only [not_or, not_not, gt_iff_lt, not_lt] at hAllowed
    obtain ⟨hWritable, hLength, hSize, hLast⟩ := hAllowed
    obtain ⟨hRemote, hRoom⟩ := h.writable_iff.mp hWritable
    have hNext := h.next_lt
    have hWrap : e.next + 1 < 2 ^ 64 := by simp only [Word.greatest] at hLast; omega
    cases hSend
    refine ⟨hRemote, hRoom, ?_, hSize, hWrap, rfl, ?_⟩
    · rintro rfl
      exact hLength rfl
    · simp only [Word.add_of_lt hWrap]

theorem send_error {err : Err} (hSend : (e.send data now).2 = .error err) : (e.send data now).1 = e := by
  unfold send at hSend ⊢
  split at hSend
  · rw [if_pos ‹_›]
  · cases hSend

theorem inv_send (h : e.Inv) (hSend : (e.send data now).2 = .ok f) : (e.send data now).1.Inv := by
  obtain ⟨hRemote, hRoom, _, _, hWrap, _, hEq⟩ := send_ok h hSend
  have hFree : e.sent.lookup e.next = none := by
    have hHeld := h.held e.next
    cases hNext : e.sent.lookup e.next with
    | none => rfl
    | some b =>
      rw [hNext] at hHeld
      have := hHeld.mp rfl
      omega
  rw [hEq]
  simp only [sendLimit] at hRoom
  exact
    { valid := h.valid
      base_le := h.base_le.trans (Nat.le_succ _)
      next_lt := hWrap
      receive_lt := h.receive_lt
      held := by
        intro k
        have hHeld := h.held k
        have hBase := h.base_le
        by_cases hk : k = e.next
        · subst hk
          simp only [AList.lookup_insert, Option.isSome_some, true_iff]
          omega
        · simp only [AList.lookup_insert_ne hk, hHeld]
          omega
      window_send := by
        dsimp only
        omega
      window_remote := by
        dsimp only
        omega
      unpinned := h.unpinned
      pinned := h.pinned
      allowance_pos := h.allowance_pos
      allowance_le := h.allowance_le
      buffered := h.buffered
      buffer_pinned := h.buffer_pinned
      bytes := by
        have hBytes := h.bytes
        rw [Table.weight_insert _ hFree]
        simp only [blockBytes]
        omega }

/-- What `consume` does when the next block in order is buffered, as its caller has checked. -/
theorem consume_eq (h : e.Inv) (hHead : e.buffer.lookup e.receive = some data) :
    e.consume.2.1 = data ∧ e.receive + 1 < 2 ^ 64 ∧ e.consume.2.2 = e.consume.1.ack ∧
      e.consume.1 =
        { e with
          buffer := e.buffer.erase e.receive
          receive := e.receive + 1
          bufferedBytes := e.bufferedBytes - data.length } := by
  obtain ⟨_, _, hLt, _⟩ := h.buffered _ _ hHead
  have hWrap : e.receive + 1 < 2 ^ 64 := by simp only [Word.greatest] at hLt; omega
  refine ⟨?_, hWrap, rfl, ?_⟩
  · simp only [consume, hHead, Option.getD_some]
  · simp only [consume, hHead, Option.getD_some, Word.add_of_lt hWrap]

theorem inv_consume (h : e.Inv) (hHead : e.buffer.lookup e.receive = some data) : e.consume.1.Inv := by
  obtain ⟨_, hWrap, _, hEq⟩ := consume_eq h hHead
  rw [hEq]
  exact
    { valid := h.valid
      base_le := h.base_le
      next_lt := h.next_lt
      receive_lt := hWrap
      held := h.held
      window_send := h.window_send
      window_remote := h.window_remote
      unpinned := h.unpinned
      pinned := h.pinned
      allowance_pos := h.allowance_pos
      allowance_le := h.allowance_le
      buffered := by
        intro k d hk
        obtain ⟨hNe, hk⟩ := Table.lookup_erase_some hk
        obtain ⟨hLow, hHigh, hLt, hData, hSize⟩ := h.buffered k d hk
        refine ⟨?_, ?_, hLt, hData, hSize⟩
        · dsimp only
          omega
        · dsimp only
          omega
      buffer_pinned := fun _ _ _ => h.buffer_pinned _ _ hHead
      bytes := by
        have hBytes := h.bytes
        have hWeight := Table.weight_erase List.length hHead
        dsimp only
        omega }

inductive Step : Engine → Engine → Prop where
  | input {e : Engine} {raw : List UInt8} {f : Frame} {now : Instant} {frames : List Frame} :
      decode raw = .ok f → (e.input f now).2 = .ok frames → Step e (e.input f now).1
  | send {e : Engine} {data : List UInt8} {now : Instant} {f : Frame} :
      (e.send data now).2 = .ok f → Step e (e.send data now).1
  | consume {e : Engine} : (e.buffer.lookup e.receive).isSome → Step e e.consume.1
  | tick {e : Engine} {now : Instant} {frames : List Frame} :
      (e.tick now).2 = .ok frames → Step e (e.tick now).1

inductive Move where
  | input (f : Frame) (now : Instant)
  | send (data : List UInt8) (now : Instant)
  | consume

def move (e : Engine) : Move → Option Engine
  | .input f now =>
    if decode (encode f) = .ok f then (e.input f now).2.toOption.map fun _ => (e.input f now).1 else none
  | .send data now => (e.send data now).2.toOption.map fun _ => (e.send data now).1
  | .consume => if (e.buffer.lookup e.receive).isSome = true then some e.consume.1 else none

theorem ok_of_toOption {α : Type} {result : Except Err α} {a : α} (h : result.toOption = some a) : result = .ok a := by
  cases result with
  | ok value => exact congrArg Except.ok (Option.some.inj h)
  | error err => cases h

theorem move_step (m : Move) (h : e.move m = some e') : Step e e' := by
  cases m with
  | input f now =>
    obtain ⟨hDecode, hInput⟩ := Option.ite_none_right_eq_some.mp h
    obtain ⟨frames, hOk, rfl⟩ := Option.map_eq_some_iff.mp hInput
    exact .input hDecode (ok_of_toOption hOk)
  | send data now =>
    obtain ⟨f, hOk, rfl⟩ := Option.map_eq_some_iff.mp h
    exact .send (ok_of_toOption hOk)
  | consume =>
    obtain ⟨hHead, ⟨⟩⟩ := Option.ite_none_right_eq_some.mp h
    exact .consume hHead

theorem inv_step (h : e.Inv) (hStep : Step e e') : e'.Inv := by
  cases hStep with
  | input hDecode _ => exact inv_input h (decode_wellFormed hDecode) _
  | send hSend => exact inv_send h hSend
  | consume hHead =>
    obtain ⟨data, hHead⟩ := Option.isSome_iff_exists.mp hHead
    exact inv_consume h hHead
  | tick _ => exact inv_retimed h (tick_spec _ _).1

end Engine

/-- One engine, its configuration fixed, against an adversarial peer. -/
def engineSystem (config : Config) (localEpoch : Epoch) (started : Instant) : System Engine where
  initial e := e = newEngine config localEpoch started
  step := Engine.Step

theorem engine_inv {config : Config} (hValid : config.validate = none) {localEpoch : Epoch}
    {started : Instant} {e : Engine} (h : (engineSystem config localEpoch started).Reachable e) : e.Inv := by
  refine h.invariant ?_ ?_
  · rintro s rfl
    exact Engine.inv_newEngine ((Config.validate_eq_none_iff config).mp hValid) localEpoch started
  · intro s t _ hInv hStep
    exact Engine.inv_step hInv hStep

/-- Whatever the peer sends, before the first error: the send window has no holes and respects both
limits, the reorder buffer stays inside its window, byte accounting is exact, no counter wraps, no
missing block is dereferenced and no SACK shift reaches 32. -/
theorem engine_window_safety (config : Config) (hValid : config.validate = none) (localEpoch : Epoch)
    (started : Instant) (e : Engine) (h : (engineSystem config localEpoch started).Reachable e) :
    (∀ k, k ∈ e.sent ↔ e.base ≤ k ∧ k < e.next) ∧
      (e.base ≤ e.next ∧ (e.next : Int) - e.base ≤ min e.config.sendWindow e.remoteWindow) ∧
      (∀ k d, e.buffer.lookup k = some d →
        e.receive ≤ k ∧ (k : Int) < e.receive + e.config.receiveWindow ∧
          d ≠ [] ∧ (d.length : Int) ≤ e.config.payload) ∧
      e.bufferedBytes = Table.weight Engine.blockBytes e.sent + Table.weight List.length e.buffer ∧
      (e.next < 2 ^ 64 ∧ ∀ data now f, (e.send data now).2 = .ok f →
        (e.send data now).1.next = e.next + 1 ∧ e.next + 1 < 2 ^ 64) ∧
      (e.receive < 2 ^ 64 ∧ ((e.buffer.lookup e.receive).isSome →
        e.consume.1.receive = e.receive + 1 ∧ e.receive + 1 < 2 ^ 64)) ∧
      (∀ now, (e.tick now).2 ≠ .error .nilDereference) ∧
      (∀ seq block now, (e.fastRetransmit seq block now).isSome) ∧
      (∀ seq ∈ e.buffer, Word.sub 64 seq e.receive < 32) := by
  have hInv := engine_inv hValid h
  have hHeld : ∀ k, e.base ≤ k → k < e.next → (e.sent.lookup k).isSome :=
    fun k hLow hHigh => (hInv.held k).mpr ⟨hLow, hHigh⟩
  refine ⟨?_, ⟨hInv.base_le, ?_⟩, ?_, hInv.bytes, ⟨hInv.next_lt, ?_⟩, ⟨hInv.receive_lt, ?_⟩, ?_, ?_, ?_⟩
  · intro k
    rw [← AList.lookup_isSome]
    exact hInv.held k
  · exact le_min hInv.window_send hInv.window_remote
  · intro k d hk
    obtain ⟨hLow, hHigh, _, hData, hSize⟩ := hInv.buffered k d hk
    exact ⟨hLow, hHigh, hData, hSize⟩
  · intro data now f hSend
    obtain ⟨_, _, _, _, hWrap, _, hEq⟩ := Engine.send_ok hInv hSend
    exact ⟨by rw [hEq], hWrap⟩
  · intro hHead
    obtain ⟨data, hHead⟩ := Option.isSome_iff_exists.mp hHead
    obtain ⟨_, hWrap, _, hEq⟩ := Engine.consume_eq hInv hHead
    exact ⟨by rw [hEq], hWrap⟩
  · exact fun now => Engine.tick_ne_nil hHeld now
  · exact fun seq block now => Engine.fastRetransmit_isSome hHeld seq block now
  · intro seq hSeq
    obtain ⟨d, hd⟩ := Table.mem_iff_lookup.mp hSeq
    obtain ⟨hLow, hHigh, _⟩ := hInv.buffered seq d hd
    have hWindow := hInv.valid.receiveWindow_le
    rw [hInv.buffer_sub hd]
    omega

def peerOpening : Frame :=
  { kind := .openFrame, source := ⟨List.replicate 16 2, rfl⟩, target := ⟨List.replicate 16 1, rfl⟩, window := 2,
    payload := 100 }

theorem engine_window_safety_after_send : ∃ e,
    (engineSystem defaultConfig ⟨List.replicate 16 1, rfl⟩ 1).Reachable e ∧ e.next = 1 ∧
      (∀ k, k ∈ e.sent ↔ e.base ≤ k ∧ k < e.next) := by
  have hPlay : ([Engine.Move.input peerOpening 2, .send [7] 3].foldlM Engine.move
      (newEngine defaultConfig ⟨List.replicate 16 1, rfl⟩ 1)).map Engine.next = some 1 := by decide +kernel
  obtain ⟨e, hRun, hNext⟩ := Option.map_eq_some_iff.mp hPlay
  have hReach := System.Reachable.play (S := engineSystem defaultConfig ⟨List.replicate 16 1, rfl⟩ 1)
    (fun _ _ _ => Engine.move_step _) (.start rfl) hRun
  exact ⟨e, hReach, hNext, (engine_window_safety _ (by decide) _ _ _ hReach).1⟩

end FamilyConnect.ReliableStream
