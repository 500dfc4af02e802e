import FamilyConnect.ReliableStream.Engine

/-!
# What one engine operation can do

One lemma for each operation, stated so that no later proof unfolds it.
`Retimed` collects what `tick` may change: timers, retry counts, the
allowance. `input_cases` lists the outcomes of `input`.
-/

namespace FamilyConnect.ReliableStream

open Lib

theorem testBit_eq (bits : BitVec 32) (k : Nat) : testBit bits k = bits.getLsbD k := by
  unfold testBit
  rw [Bool.eq_iff_iff, bne_iff_ne]
  constructor
  · intro h
    by_contra hb
    apply h
    ext i hi
    rw [BitVec.getElem_and, BitVec.getElem_zero, ← BitVec.getLsbD_eq_getElem]
    by_cases hik : i = k
    · subst hik
      simp only [Bool.not_eq_true] at hb
      rw [hb, Bool.false_and]
    · have hShift : (1#32 <<< k)[i] = false := by
        simp only [BitVec.getElem_shiftLeft, BitVec.getElem_one]
        by_cases hlt : i < k
        · simp [hlt]
        · have : i - k ≠ 0 := by omega
          simp [this]
      rw [hShift, Bool.and_false]
  · intro h h0
    have hk : k < 32 := BitVec.lt_of_getLsbD h
    have hZero := congrArg (fun b => BitVec.getLsbD b k) h0
    rw [BitVec.getLsbD_and, h] at hZero
    simp [hk] at hZero

theorem getLsbD_foldl_or (f : Nat → Nat) (l : List Nat) (bits : BitVec 32) (i : Nat) :
    (l.foldl (fun bits seq => bits ||| (1#32 <<< f seq)) bits).getLsbD i = true ↔
      bits.getLsbD i = true ∨ i < 32 ∧ ∃ seq ∈ l, f seq = i := by
  induction l generalizing bits with
  | nil => simp
  | cons seq l ih =>
    rw [List.foldl_cons, ih, BitVec.getLsbD_or, Bool.or_eq_true]
    have hShift : (1#32 <<< f seq).getLsbD i = true ↔ i < 32 ∧ f seq = i := by
      rw [BitVec.getLsbD_shiftLeft, BitVec.getLsbD_one]
      simp only [Bool.and_eq_true, decide_eq_true_eq, Bool.not_eq_true', decide_eq_false_iff_not]
      omega
    rw [hShift]
    constructor
    · rintro ((h | ⟨hi, h⟩) | ⟨hi, s, hs, h⟩)
      · exact .inl h
      · exact .inr ⟨hi, seq, .head _, h⟩
      · exact .inr ⟨hi, s, .tail _ hs, h⟩
    · rintro (h | ⟨hi, s, hs, h⟩)
      · exact .inl (.inl h)
      · rcases List.mem_cons.mp hs with rfl | hs
        · exact .inl (.inr ⟨hi, h⟩)
        · exact .inr ⟨hi, s, hs, h⟩

namespace Engine

theorem getLsbD_sackBits (e : Engine) (i : Nat) :
    e.sackBits.getLsbD i = true ↔ i < 32 ∧ ∃ seq ∈ e.buffer, Word.sub 64 seq e.receive = i := by
  rw [sackBits, getLsbD_foldl_or]
  simp only [BitVec.getLsbD_zero, Bool.false_eq_true, false_or, AList.mem_keys]

structure Retimed (e e' : Engine) : Prop where
  config : e'.config = e.config
  localEpoch : e'.localEpoch = e.localEpoch
  remote : e'.remote = e.remote
  remoteWindow : e'.remoteWindow = e.remoteWindow
  remoteSize : e'.remoteSize = e.remoteSize
  next : e'.next = e.next
  base : e'.base = e.base
  receive : e'.receive = e.receive
  buffer : e'.buffer = e.buffer
  gaps : e'.gaps = e.gaps
  bufferedBytes : e'.bufferedBytes = e.bufferedBytes
  held : ∀ k, (e'.sent.lookup k).isSome = (e.sent.lookup k).isSome
  block : ∀ k b', e'.sent.lookup k = some b' →
    ∃ b, e.sent.lookup k = some b ∧ b'.data = b.data ∧ b'.sacked = b.sacked
  bytes : Table.weight blockBytes e'.sent = Table.weight blockBytes e.sent
  allowance_pos : 1 ≤ e.sendAllowance → 1 ≤ e'.sendAllowance
  allowance_le : 1 ≤ e.sendAllowance → e'.sendAllowance ≤ e.sendAllowance

theorem Retimed.refl (e : Engine) : Retimed e e where
  config := rfl
  localEpoch := rfl
  remote := rfl
  remoteWindow := rfl
  remoteSize := rfl
  next := rfl
  base := rfl
  receive := rfl
  buffer := rfl
  gaps := rfl
  bufferedBytes := rfl
  held _ := rfl
  block _ b' h := ⟨b', h, rfl, rfl⟩
  bytes := rfl
  allowance_pos := id
  allowance_le _ := le_rfl

theorem Retimed.trans {e e' e'' : Engine} (h : Retimed e e') (h' : Retimed e' e'') : Retimed e e'' where
  config := h'.config.trans h.config
  localEpoch := h'.localEpoch.trans h.localEpoch
  remote := h'.remote.trans h.remote
  remoteWindow := h'.remoteWindow.trans h.remoteWindow
  remoteSize := h'.remoteSize.trans h.remoteSize
  next := h'.next.trans h.next
  base := h'.base.trans h.base
  receive := h'.receive.trans h.receive
  buffer := h'.buffer.trans h.buffer
  gaps := h'.gaps.trans h.gaps
  bufferedBytes := h'.bufferedBytes.trans h.bufferedBytes
  held k := (h'.held k).trans (h.held k)
  block k b'' hb'' := by
    obtain ⟨b', hb', hData', hSacked'⟩ := h'.block k b'' hb''
    obtain ⟨b, hb, hData, hSacked⟩ := h.block k b' hb'
    exact ⟨b, hb, hData'.trans hData, hSacked'.trans hSacked⟩
  bytes := h'.bytes.trans h.bytes
  allowance_pos hPos := h'.allowance_pos (h.allowance_pos hPos)
  allowance_le hPos := (h'.allowance_le (h.allowance_pos hPos)).trans (h.allowance_le hPos)

variable {e : Engine} {b : Pending} {seq : Nat} {seqs : List Nat}

theorem Retimed.rewrite (b' : Pending) (h : e.sent.lookup seq = some b)
    (hData : b'.data = b.data) (hSacked : b'.sacked = b.sacked) : Retimed e { e with sent := e.sent.insert seq b' } :=
  { Retimed.refl e with
    held := by
      intro k
      by_cases hk : k = seq
      · subst hk
        simp only [AList.lookup_insert, h, Option.isSome_some]
      · simp only [AList.lookup_insert_ne hk]
    block := by
      intro k b'' hb''
      by_cases hk : k = seq
      · subst hk
        simp only [AList.lookup_insert, Option.some.injEq] at hb''
        subst hb''
        exact ⟨b, h, hData, hSacked⟩
      · simp only [AList.lookup_insert_ne hk] at hb''
        exact ⟨b'', hb'', rfl, rfl⟩
    bytes := by
      have hWeight := Table.weight_replace blockBytes b' h
      simp only [blockBytes, hData] at hWeight ⊢
      omega }

theorem noteTimeout_retimed (h : e.sent.lookup seq = some b) : Retimed e (e.noteTimeout seq b) := by
  have hRewrite := Retimed.rewrite { b with timeouts := b.timeouts + 1 } h rfl rfl
  unfold noteTimeout
  dsimp only
  split
  · refine { hRewrite with allowance_pos := ?_, allowance_le := ?_ }
    · intro _
      exact le_max_left _ _
    · intro hPos
      dsimp only
      have hHalf : e.sendAllowance.tdiv 2 ≤ e.sendAllowance := by
        rw [Int.tdiv_eq_ediv_of_nonneg (by omega)]
        omega
      omega
  · exact hRewrite

theorem noteTimeout_lookup : (e.noteTimeout seq b).sent.lookup seq = some { b with timeouts := b.timeouts + 1 } := by
  unfold noteTimeout
  dsimp only
  split <;> exact AList.lookup_insert _

theorem resend_retimed (now : Instant) (h : e.sent.lookup seq = some b) : Retimed e (e.resend seq b now).1 :=
  Retimed.rewrite { b with last := now, retries := b.retries + 1 } h rfl rfl

def dataOf (e : Engine) (seq : Nat) (b : Pending) : Frame :=
  { e.packet .dataFrame with seq := seq, data := b.data }

theorem Retimed.dataOf_eq {e' : Engine} (h : Retimed e e') (seq : Nat) {b' : Pending}
    (hData : b'.data = b.data) : e'.dataOf seq b' = e.dataOf seq b := by
  simp only [dataOf, packet, h.localEpoch, h.remote, hData]

def Emits (e : Engine) (seqs : List Nat) (f : Frame) : Prop :=
  ∃ seq ∈ seqs, ∃ b, e.sent.lookup seq = some b ∧ f = e.dataOf seq b

theorem Emits.of_retimed {e' : Engine} {f : Frame} (h : Retimed e e')
    (hf : Emits e' seqs f) : Emits e seqs f := by
  obtain ⟨seq, hSeq, b', hb', rfl⟩ := hf
  obtain ⟨b, hb, hData, _⟩ := h.block seq b' hb'
  exact ⟨seq, hSeq, b, hb, h.dataOf_eq seq hData⟩

/-- How a block is made ready to be sent again: its timeout is noted, or it goes early. -/
inductive Readied (e : Engine) (seq : Nat) (b : Pending) (now : Instant) : Engine → Pending → Prop where
  | late : e.retryInterval b ≤ now.sub b.last →
      Readied e seq b now (e.noteTimeout seq b) { b with timeouts := b.timeouts + 1 }
  | early : e.fastRetransmit seq b now = some true → Readied e seq b now e b

section

variable {e₁ : Engine} {b₁ : Pending} {now : Instant} (h : Readied e seq b now e₁ b₁) (hb : e.sent.lookup seq = some b)
include h hb

theorem Readied.retimed : Retimed e e₁ := by
  cases h with
  | late => exact noteTimeout_retimed hb
  | early => exact Retimed.refl e

theorem Readied.resent : Retimed e (e₁.resend seq b₁ now).1 := by
  refine (h.retimed hb).trans (resend_retimed now ?_)
  cases h with
  | late => exact noteTimeout_lookup
  | early => exact hb

theorem Readied.frame : (e₁.resend seq b₁ now).2 = e.dataOf seq b := by
  refine (h.retimed hb).dataOf_eq seq ?_
  cases h <;> rfl

end

/-- What the loop does with one block. -/
inductive Visit (now : Instant) (seq : Nat) (rest : List Nat) (e : Engine) (output : List Frame) :
    Engine × Except Err (List Frame) → Prop where
  | stuck : (∀ b, e.sent.lookup seq = some b → e.fastRetransmit seq b now = none) →
      Visit now seq rest e output (e, .error .nilDereference)
  | exhausted {b : Pending} {e₁ : Engine} (why : String) : e.sent.lookup seq = some b →
      (e₁ = e ∨ ∃ b₁, Readied e seq b now e₁ b₁) → Visit now seq rest e output (e₁.exhausted why)
  | skipped {b : Pending} : e.sent.lookup seq = some b → ¬e.config.maxAge ≤ now.sub b.first →
      Visit now seq rest e output (retransmit now rest e output)
  | sent {b b₁ : Pending} {e₁ : Engine} : e.sent.lookup seq = some b →
      ¬e.config.maxAge ≤ now.sub b.first → b.sacked = false → Readied e seq b now e₁ b₁ →
      (b₁.retries : Int) < e₁.config.maxRetries → Visit now seq rest e output
        (retransmit now rest (e₁.resend seq b₁ now).1 (output ++ [(e₁.resend seq b₁ now).2]))

theorem retransmit_visit (now : Instant) (seq : Nat) (rest : List Nat) (e : Engine) (output : List Frame) :
    Visit now seq rest e output (retransmit now (seq :: rest) e output) := by
  rw [retransmit]
  split
  · rename_i hNone
    exact .stuck fun b hb => by rw [hNone] at hb; cases hb
  rename_i b hb
  split
  · exact .exhausted _ hb (.inl rfl)
  rename_i hYoung
  split
  · exact .skipped hb hYoung
  rename_i hSacked
  split
  · rename_i hLate
    dsimp only
    split
    · exact .exhausted _ hb (.inr ⟨_, .late hLate⟩)
    · rename_i hRetries
      exact .sent hb hYoung (Bool.not_eq_true _ ▸ hSacked) (.late hLate) (not_le.mp hRetries)
  split
  · rename_i hNone
    refine .stuck fun b' hb' => ?_
    rw [hb] at hb'
    cases hb'
    exact hNone
  · exact .skipped hb hYoung
  · rename_i hEarly
    split
    · exact .exhausted _ hb (.inl rfl)
    · rename_i hRetries
      exact .sent hb hYoung (Bool.not_eq_true _ ▸ hSacked) (.early hEarly) (not_le.mp hRetries)

theorem retransmit_spec (now : Instant) (seqs : List Nat) (e : Engine) (output : List Frame) :
    Retimed e (retransmit now seqs e output).1 ∧
      ∀ frames, (retransmit now seqs e output).2 = .ok frames →
        ∀ f ∈ frames, f ∈ output ∨ Emits e seqs f := by
  induction seqs generalizing e output with
  | nil =>
    refine ⟨Retimed.refl e, ?_⟩
    rintro frames h f hf
    cases h
    exact .inl hf
  | cons seq rest ih =>
    have hVisit := retransmit_visit now seq rest e output
    generalize retransmit now (seq :: rest) e output = result at hVisit ⊢
    cases hVisit with
    | stuck => exact ⟨Retimed.refl e, nofun⟩
    | exhausted why hb hFrom =>
      refine ⟨?_, nofun⟩
      rcases hFrom with rfl | ⟨b₁, hReadied⟩
      · exact { Retimed.refl _ with }
      · exact { hReadied.retimed hb with }
    | skipped =>
      obtain ⟨hRest, hFrames⟩ := ih e output
      refine ⟨hRest, fun frames h f hf => (hFrames frames h f hf).imp_right ?_⟩
      exact fun ⟨s, hs, hEmit⟩ => ⟨s, .tail _ hs, hEmit⟩
    | sent hb _ _ hReadied =>
      have hRetimed := hReadied.resent hb
      obtain ⟨hRest, hFrames⟩ := ih _ _
      refine ⟨hRetimed.trans hRest, ?_⟩
      intro frames h f hf
      rcases hFrames frames h f hf with hf | hf
      · refine (List.mem_append.mp hf).imp_right fun hNew => ?_
        exact ⟨seq, .head _, _, hb, (List.mem_singleton.mp hNew).trans (hReadied.frame hb)⟩
      · obtain ⟨s, hs, hEmit⟩ := hf.of_retimed hRetimed
        exact .inr ⟨s, .tail _ hs, hEmit⟩

theorem confirmedAmong_isSome
    (h : ∀ seq ∈ seqs, (e.sent.lookup seq).isSome) : (e.confirmedAmong seqs).isSome := by
  induction seqs with
  | nil => rfl
  | cons seq rest ih =>
    obtain ⟨b, hb⟩ := Option.isSome_iff_exists.mp (h seq (.head _))
    rw [confirmedAmong, hb]
    simpa using ih fun s hs => h s (.tail _ hs)

theorem fastRetransmit_isSome (hHeld : ∀ k, e.base ≤ k → k < e.next → (e.sent.lookup k).isSome)
    (seq : Nat) (b : Pending) (now : Instant) : (e.fastRetransmit seq b now).isSome := by
  unfold fastRetransmit
  split
  · rfl
  · rename_i hHead
    rw [Option.isSome_map]
    apply confirmedAmong_isSome
    intro k hk
    rw [List.mem_range'_1] at hk
    simp only [not_or, ne_eq, not_not] at hHead
    exact hHeld k (by omega) (by omega)

/-- The loop is to go over blocks of a window that has no hole. -/
structure Covered (e : Engine) (seqs : List Nat) : Prop where
  held : ∀ k, e.base ≤ k → k < e.next → (e.sent.lookup k).isSome
  within : ∀ k ∈ seqs, e.base ≤ k ∧ k < e.next

theorem Covered.rest {e' : Engine} {rest : List Nat} (h : Covered e (seq :: rest))
    (hRetimed : Retimed e e') : Covered e' rest where
  held k hLow hHigh := by
    rw [hRetimed.held]
    exact h.held k (by rwa [← hRetimed.base]) (by rwa [← hRetimed.next])
  within k hk := by
    rw [hRetimed.base, hRetimed.next]
    exact h.within k (.tail _ hk)

theorem Covered.not_stuck {rest : List Nat} {now : Instant} (h : Covered e (seq :: rest)) :
    ¬∀ b, e.sent.lookup seq = some b → e.fastRetransmit seq b now = none := by
  intro hStuck
  obtain ⟨hLow, hHigh⟩ := h.within seq (.head _)
  obtain ⟨b, hb⟩ := Option.isSome_iff_exists.mp (h.held seq hLow hHigh)
  have hSome := fastRetransmit_isSome h.held seq b now
  rw [hStuck b hb] at hSome
  cases hSome

theorem retransmit_ne_nil (now : Instant) (seqs : List Nat) (e : Engine) (output : List Frame) (h : Covered e seqs) :
    (retransmit now seqs e output).2 ≠ .error .nilDereference := by
  induction seqs generalizing e output with
  | nil => nofun
  | cons seq rest ih =>
    have hVisit := retransmit_visit now seq rest e output
    generalize retransmit now (seq :: rest) e output = result at hVisit ⊢
    cases hVisit with
    | stuck hStuck => exact (h.not_stuck hStuck).elim
    | exhausted => nofun
    | skipped => exact ih e _ (h.rest (Retimed.refl e))
    | sent hb _ _ hReadied => exact ih _ _ (h.rest (hReadied.resent hb))

/-- What a tick does: `refresh` and `output` tell whether it refreshed the window. -/
inductive Ticked (e : Engine) (now : Instant) : Engine × Except Err (List Frame) → Prop where
  | exhausted (why : String) : Ticked e now (e.exhausted why)
  | opened : e.remote = Epoch.zero →
      Ticked e now ({ e with lastOpen := now, openAttempts := e.openAttempts + 1 }, .ok [e.opening Epoch.zero])
  | quiet : e.remote = Epoch.zero → Ticked e now (e, .ok [])
  | loop (refresh : Instant) (output : List Frame) : e.remote ≠ Epoch.zero → output = [] ∨ output = [e.ack] →
      Ticked e now (retransmit now (List.range' e.base (e.next - e.base)) { e with lastRefresh := refresh } output)

theorem tick_cases (e : Engine) (now : Instant) : Ticked e now (e.tick now) := by
  unfold tick
  split
  · rename_i hRemote
    split
    · exact .exhausted _
    split
    · exact .opened hRemote
    · exact .quiet hRemote
  · rename_i hRemote
    split
    · exact .exhausted _
    split
    · exact .loop now _ hRemote (.inr rfl)
    · exact .loop e.lastRefresh _ hRemote (.inl rfl)

/-- The frames a tick may emit: an opening while no peer is pinned; afterwards the current ACK and
blocks that are held. -/
def TickFrame (e : Engine) (f : Frame) : Prop :=
  (e.remote = Epoch.zero ∧ f = e.opening Epoch.zero) ∨
    (e.remote ≠ Epoch.zero ∧ (f = e.ack ∨ ∃ seq b, e.sent.lookup seq = some b ∧ f = e.dataOf seq b))

theorem tick_spec (e : Engine) (now : Instant) :
    Retimed e (e.tick now).1 ∧ ∀ frames, (e.tick now).2 = .ok frames → ∀ f ∈ frames, TickFrame e f := by
  have hTicked := tick_cases e now
  generalize e.tick now = result at hTicked ⊢
  cases hTicked with
  | exhausted => exact ⟨{ Retimed.refl e with }, nofun⟩
  | opened hRemote =>
    refine ⟨{ Retimed.refl e with }, ?_⟩
    rintro frames ⟨⟩ f hf
    exact .inl ⟨hRemote, List.mem_singleton.mp hf⟩
  | quiet =>
    refine ⟨Retimed.refl e, ?_⟩
    rintro frames ⟨⟩
    nofun
  | loop refresh output hRemote hOutput =>
    have hRefreshed : Retimed e { e with lastRefresh := refresh } := { Retimed.refl e with }
    obtain ⟨hRest, hFrames⟩ := retransmit_spec now (List.range' e.base (e.next - e.base))
      { e with lastRefresh := refresh } output
    refine ⟨hRefreshed.trans hRest, ?_⟩
    intro frames h f hf
    refine .inr ⟨hRemote, (hFrames frames h f hf).imp ?_ ?_⟩
    · intro hMem
      rcases hOutput with rfl | rfl
      · cases hMem
      · exact List.mem_singleton.mp hMem
    · intro hEmits
      obtain ⟨seq, _, b, hb, rfl⟩ := hEmits.of_retimed hRefreshed
      exact ⟨seq, b, hb, rfl⟩

theorem mem_window (h : seq ∈ List.range' e.base (e.next - e.base)) : e.base ≤ seq ∧ seq < e.next := by
  rw [List.mem_range'_1] at h
  omega

theorem tick_ne_nil (hHeld : ∀ k, e.base ≤ k → k < e.next → (e.sent.lookup k).isSome)
    (now : Instant) : (e.tick now).2 ≠ .error .nilDereference := by
  have hTicked := tick_cases e now
  generalize e.tick now = result at hTicked ⊢
  cases hTicked with
  | exhausted | opened | quiet => nofun
  | loop refresh output =>
    exact retransmit_ne_nil now _ { e with lastRefresh := refresh } output
      ⟨hHeld, fun _ => mem_window⟩

structure SameWindow (e e' : Engine) : Prop where
  config : e'.config = e.config
  localEpoch : e'.localEpoch = e.localEpoch
  next : e'.next = e.next
  receive : e'.receive = e.receive

structure Pinned (e e' : Engine) (f : Frame) : Prop extends SameWindow e e' where
  remote : e'.remote = f.source
  remoteWindow : e'.remoteWindow = f.window
  remoteSize : e'.remoteSize = f.payload
  base : e'.base = e.base
  sent : e'.sent = e.sent
  buffer : e'.buffer = e.buffer
  bufferedBytes : e'.bufferedBytes = e.bufferedBytes
  sendAllowance : e'.sendAllowance = e.sendAllowance

structure Settled (e e' : Engine) (f : Frame) : Prop extends SameWindow e e' where
  remote : e'.remote = e.remote
  remoteWindow : e'.remoteWindow = e.remoteWindow
  remoteSize : e'.remoteSize = e.remoteSize
  base : e'.base = f.ack
  sent : e'.sent = Table.filterMap (settle f) e.sent
  buffer : e'.buffer = e.buffer
  bufferedBytes : e'.bufferedBytes = e.bufferedBytes - Table.droppedWeight blockBytes (settle f) e.sent
  allowance : e'.sendAllowance = e.sendAllowance ∨
    e'.sendAllowance = min (min (e.sendAllowance + 1) e.config.sendWindow) e.remoteWindow

structure Stored (e e' : Engine) (f : Frame) : Prop extends SameWindow e e' where
  remote : e'.remote = e.remote
  remoteWindow : e'.remoteWindow = e.remoteWindow
  remoteSize : e'.remoteSize = e.remoteSize
  base : e'.base = e.base
  sent : e'.sent = e.sent
  buffer : e'.buffer = e.buffer.insert f.seq f.data
  bufferedBytes : e'.bufferedBytes = e.bufferedBytes + f.data.length
  sendAllowance : e'.sendAllowance = e.sendAllowance

def BadAck (e : Engine) (f : Frame) : Prop :=
  e.next < f.ack ∨ f.ack ≤ e.next ∧ ∃ bit < 32, f.bits.getLsbD bit = true ∧ Word.sub 64 e.next f.ack ≤ bit

def BadData (e : Engine) (f : Frame) : Prop :=
  e.config.payload < f.data.length ∨ f.seq = Word.greatest 64 ∨
    e.receive ≤ f.seq ∧ Word.ofInt 64 e.config.receiveWindow ≤ Word.sub 64 f.seq e.receive ∨
    ∃ previous, e.buffer.lookup f.seq = some previous ∧ previous ≠ f.data

structure FreshData (e : Engine) (f : Frame) : Prop where
  size : (f.data.length : Int) ≤ e.config.payload
  seq_ne : f.seq ≠ Word.greatest 64
  seq_ge : e.receive ≤ f.seq
  inside : Word.sub 64 f.seq e.receive < Word.ofInt 64 e.config.receiveWindow
  absent : e.buffer.lookup f.seq = none

inductive InputOutcome (e : Engine) (f : Frame) : Engine × Except Err (List Frame) → Prop where
  | ignored : InputOutcome e f (e, .ok [])
  | reply : f.kind = .openFrame → f.target = Epoch.zero → (e.remote ≠ Epoch.zero → f.source = e.remote) →
      InputOutcome e f (e, .ok [e.opening f.source])
  | pinned (e' : Engine) : f.kind = .openFrame → f.target = e.localEpoch → e.remote = Epoch.zero →
      Pinned e e' f → InputOutcome e f (e', .ok [e'.opening f.source, e'.ack])
  | changed : f.kind = .openFrame → f.target = e.localEpoch → e.remote ≠ Epoch.zero → f.source = e.remote →
      f.window ≠ e.remoteWindow ∨ f.payload ≠ e.remoteSize → InputOutcome e f (e, .error .protocol)
  | acked : e.remote ≠ Epoch.zero → f.source = e.remote → InputOutcome e f (e, .ok [e.ack])
  | reset : f.kind = .resetFrame → InputOutcome e f (e, .error .reset)
  | badAck : f.kind = .ackFrame → e.remote ≠ Epoch.zero → f.source = e.remote → BadAck e f →
      InputOutcome e f (e, .error .protocol)
  | settled (e' : Engine) : f.kind = .ackFrame → e.remote ≠ Epoch.zero → f.source = e.remote →
      e.base ≤ f.ack → f.ack ≤ e.next → Settled e e' f → InputOutcome e f (e', .ok [])
  | badData : f.kind = .dataFrame → e.remote ≠ Epoch.zero → f.source = e.remote → BadData e f →
      InputOutcome e f (e, .error .protocol)
  | stored (e' : Engine) : f.kind = .dataFrame → e.remote ≠ Epoch.zero → f.source = e.remote →
      FreshData e f → Stored e e' f → InputOutcome e f (e', .ok [e'.ack])

/-- The engine once an acknowledgement has released its blocks. -/
abbrev settled (e : Engine) (f : Frame) (now : Instant) : Engine :=
  { e with
    lastACK := now
    bufferedBytes := e.bufferedBytes - Table.droppedWeight blockBytes (settle f) e.sent
    sent := Table.filterMap (settle f) e.sent }

theorem observeRTT_eq (e : Engine) (sample : Duration) :
    ∃ smoothed variation, e.observeRTT sample = { e with smoothedRTT := smoothed, rttVariation := variation } := by
  unfold observeRTT
  split
  · exact ⟨_, _, rfl⟩
  split <;> exact ⟨_, _, rfl⟩

theorem growAllowance_eq (e : Engine) (f : Frame) :
    ∃ credit allowance, e.growAllowance f = { e with ackCredit := credit, sendAllowance := allowance } ∧
      (allowance = e.sendAllowance ∨
        allowance = min (min (e.sendAllowance + 1) e.config.sendWindow) e.remoteWindow) := by
  unfold growAllowance
  dsimp only
  split
  · split
    · exact ⟨_, _, rfl, .inr rfl⟩
    · exact ⟨_, _, rfl, .inl rfl⟩
  split <;> exact ⟨_, _, rfl, .inl rfl⟩

theorem inputOpen_cases (e : Engine) (f : Frame) (now : Instant) (hKind : f.kind = .openFrame)
    (hTarget : f.target = e.localEpoch ∨ f.target = Epoch.zero)
    (hSource : e.remote ≠ Epoch.zero → f.source = e.remote) :
    InputOutcome e f (e.inputOpen f now) := by
  unfold inputOpen
  split
  · rename_i hZero
    exact .reply hKind hZero hSource
  rename_i hZero
  have hTarget := hTarget.resolve_right hZero
  split
  · rename_i hRemote
    apply InputOutcome.pinned _ hKind hTarget hRemote
    obtain ⟨smoothed, variation, hRTT⟩ := observeRTT_eq e (now.sub e.lastOpen)
    rw [hRTT]
    split <;> constructor <;> first | rfl | constructor <;> rfl
  rename_i hRemote
  split
  · rename_i hParameters
    exact .changed hKind hTarget hRemote (hSource hRemote) hParameters
  · exact .acked hRemote (hSource hRemote)

theorem inputAck_cases (e : Engine) (f : Frame) (now : Instant) (hKind : f.kind = .ackFrame)
    (hRemote : e.remote ≠ Epoch.zero) (hSource : f.source = e.remote) : InputOutcome e f (e.inputAck f now) := by
  unfold inputAck
  split
  · exact .ignored
  rename_i hStale
  split
  · rename_i hBeyond
    exact .badAck hKind hRemote hSource (.inl hBeyond)
  rename_i hBeyond
  split
  · rename_i hBits
    obtain ⟨bit, hBit, hSet⟩ := List.any_eq_true.mp hBits
    rw [Bool.and_eq_true, decide_eq_true_eq, testBit_eq] at hSet
    exact .badAck hKind hRemote hSource
      (.inr ⟨by omega, bit, List.mem_range.mp hBit, hSet.1, hSet.2⟩)
  · apply InputOutcome.settled _ hKind hRemote hSource (by omega) (by omega)
    obtain ⟨smoothed, variation, hRTT⟩ := observeRTT_eq (e.settled f now) (e.sampleRTT f now)
    rw [hRTT]
    obtain ⟨credit, allowance, hGrow, hAllowance⟩ :=
      growAllowance_eq { e.settled f now with smoothedRTT := smoothed, rttVariation := variation } f
    rw [hGrow]
    exact { config := rfl, localEpoch := rfl, next := rfl, receive := rfl, remote := rfl,
            remoteWindow := rfl, remoteSize := rfl, base := rfl, sent := rfl, buffer := rfl,
            bufferedBytes := rfl, allowance := hAllowance }

/-- The gap scan and its closing touch only the gap table and its counters. -/
theorem noteGaps_eq (now : Instant) (l : List Nat) (e : Engine) :
    ∃ gaps detected, l.foldl (noteGap now) e = { e with gaps := gaps, gapsDetected := detected } := by
  induction l generalizing e with
  | nil => exact ⟨_, _, rfl⟩
  | cons k l ih =>
    rw [List.foldl_cons, noteGap]
    split
    · exact ih e
    split
    · exact ih e
    · obtain ⟨gaps, detected, h⟩ := ih { e with gaps := e.gaps.insert k now, gapsDetected := e.gapsDetected + 1 }
      exact ⟨gaps, detected, h⟩

theorem closeGap_eq (e : Engine) (seq : Nat) :
    ∃ gaps recovered, e.closeGap seq = { e with gaps := gaps, gapsRecovered := recovered } := by
  unfold closeGap
  split <;> exact ⟨_, _, rfl⟩

theorem inputData_cases (e : Engine) (f : Frame) (now : Instant) (hKind : f.kind = .dataFrame)
    (hRemote : e.remote ≠ Epoch.zero) (hSource : f.source = e.remote) : InputOutcome e f (e.inputData f now) := by
  unfold inputData
  split
  · rename_i hBad
    rcases hBad with hSize | hSeq
    · exact .badData hKind hRemote hSource (.inl hSize)
    · exact .badData hKind hRemote hSource (.inr (.inl hSeq))
  rename_i hFits
  simp only [not_or, gt_iff_lt, not_lt] at hFits
  split
  · exact .acked hRemote hSource
  rename_i hLate
  split
  · rename_i hOutside
    exact .badData hKind hRemote hSource (.inr (.inr (.inl ⟨by omega, hOutside⟩)))
  rename_i hOutside
  split
  · rename_i previous hPrevious
    split
    · rename_i hConflict
      exact .badData hKind hRemote hSource (.inr (.inr (.inr ⟨previous, hPrevious, hConflict⟩)))
    · exact .acked hRemote hSource
  · rename_i hAbsent
    dsimp only
    obtain ⟨gaps, detected, hNote⟩ := noteGaps_eq now (List.range' e.receive (f.seq - e.receive))
      { e with buffer := e.buffer.insert f.seq f.data, bufferedBytes := e.bufferedBytes + f.data.length }
    rw [hNote]
    obtain ⟨gaps', recovered, hClose⟩ := closeGap_eq
      { e with
        buffer := e.buffer.insert f.seq f.data
        bufferedBytes := e.bufferedBytes + f.data.length
        gaps := gaps
        gapsDetected := detected } f.seq
    rw [hClose]
    refine .stored _ hKind hRemote hSource ⟨hFits.1, hFits.2, by omega, by omega, hAbsent⟩ ?_
    exact { config := rfl, localEpoch := rfl, next := rfl, receive := rfl, remote := rfl,
            remoteWindow := rfl, remoteSize := rfl, base := rfl, sent := rfl, buffer := rfl,
            bufferedBytes := rfl, sendAllowance := rfl }

theorem input_cases (e : Engine) (f : Frame) (now : Instant) : InputOutcome e f (e.input f now) := by
  unfold input
  split
  · exact .ignored
  rename_i hAddressed
  simp only [not_or, not_and, not_not, ne_eq] at hAddressed
  obtain ⟨hTarget, hSource⟩ := hAddressed
  split
  · rename_i hKind
    apply inputOpen_cases e f now hKind
    · by_cases hLocal : f.target = e.localEpoch
      · exact .inl hLocal
      · exact .inr (not_not.mp fun hZero => hTarget hLocal fun _ => hZero)
    · exact hSource
  split
  · exact .ignored
  rename_i hRemote
  split
  · exact .reset ‹_›
  · exact inputAck_cases e f now ‹_› hRemote (hSource hRemote)
  · exact inputData_cases e f now ‹_› hRemote (hSource hRemote)
  · exact .ignored

/-! ## Frame equations: the fields an operation may write -/

theorem inputOpen_frame (e : Engine) (f : Frame) (now : Instant) :
    ∃ smoothed variation remote window size established, (e.inputOpen f now).1 =
      { e with
        smoothedRTT := smoothed, rttVariation := variation, remote := remote, remoteWindow := window,
        remoteSize := size, established := established } := by
  unfold inputOpen
  split
  · exact ⟨_, _, _, _, _, _, rfl⟩
  split
  · obtain ⟨smoothed, variation, hRTT⟩ := observeRTT_eq e (now.sub e.lastOpen)
    rw [hRTT]
    split <;> exact ⟨_, _, _, _, _, _, rfl⟩
  split <;> exact ⟨_, _, _, _, _, _, rfl⟩

theorem inputAck_frame (e : Engine) (f : Frame) (now : Instant) :
    ∃ lastACK bytes sent smoothed variation credit allowance base, (e.inputAck f now).1 =
      { e with
        lastACK := lastACK, bufferedBytes := bytes, sent := sent, smoothedRTT := smoothed,
        rttVariation := variation, ackCredit := credit, sendAllowance := allowance, base := base } := by
  unfold inputAck
  split
  · exact ⟨_, _, _, _, _, _, _, _, rfl⟩
  split
  · exact ⟨_, _, _, _, _, _, _, _, rfl⟩
  split
  · exact ⟨_, _, _, _, _, _, _, _, rfl⟩
  · dsimp only
    obtain ⟨smoothed, variation, hRTT⟩ := observeRTT_eq (e.settled f now) (e.sampleRTT f now)
    rw [hRTT]
    obtain ⟨credit, allowance, hGrow, _⟩ :=
      growAllowance_eq { e.settled f now with smoothedRTT := smoothed, rttVariation := variation } f
    rw [hGrow]
    exact ⟨_, _, _, _, _, _, _, _, rfl⟩

theorem Readied.window {e₁ : Engine} {b₁ : Pending} {now : Instant} (h : Readied e seq b now e₁ b₁) :
    ∃ sent allowance credit recovery,
      e₁ = { e with sent := sent, sendAllowance := allowance, ackCredit := credit, recoveryUntil := recovery } := by
  cases h with
  | late =>
    unfold noteTimeout
    dsimp only
    split <;> exact ⟨_, _, _, _, rfl⟩
  | early => exact ⟨_, _, _, _, rfl⟩

theorem retransmit_frame (now : Instant) (seqs : List Nat) (e : Engine) (output : List Frame) :
    ∃ sent allowance credit recovery reason, (retransmit now seqs e output).1 =
      { e with
        sent := sent, sendAllowance := allowance, ackCredit := credit, recoveryUntil := recovery,
        failureReason := reason } := by
  induction seqs generalizing e output with
  | nil => exact ⟨_, _, _, _, _, rfl⟩
  | cons seq rest ih =>
    have hVisit := retransmit_visit now seq rest e output
    generalize retransmit now (seq :: rest) e output = result at hVisit ⊢
    cases hVisit with
    | stuck => exact ⟨_, _, _, _, _, rfl⟩
    | exhausted why _ hFrom =>
      rcases hFrom with rfl | ⟨b₁, hReadied⟩
      · exact ⟨_, _, _, _, _, rfl⟩
      · obtain ⟨_, _, _, _, rfl⟩ := hReadied.window
        exact ⟨_, _, _, _, _, rfl⟩
    | skipped => exact ih e output
    | sent _ _ _ hReadied =>
      obtain ⟨_, _, _, _, rfl⟩ := hReadied.window
      obtain ⟨_, _, _, _, _, hRest⟩ := ih _ _
      rw [hRest]
      exact ⟨_, _, _, _, _, rfl⟩

theorem tick_frame (e : Engine) (now : Instant) :
    ∃ sent allowance credit recovery refresh lastOpen attempts reason, (e.tick now).1 =
      { e with
        sent := sent, sendAllowance := allowance, ackCredit := credit, recoveryUntil := recovery,
        lastRefresh := refresh, lastOpen := lastOpen, openAttempts := attempts, failureReason := reason } := by
  have hTicked := tick_cases e now
  generalize e.tick now = result at hTicked ⊢
  cases hTicked with
  | exhausted | opened | quiet => exact ⟨_, _, _, _, _, _, _, _, rfl⟩
  | loop refresh output =>
    obtain ⟨_, _, _, _, _, hEq⟩ := retransmit_frame now (List.range' e.base (e.next - e.base))
      { e with lastRefresh := refresh } output
    rw [hEq]
    exact ⟨_, _, _, _, _, _, _, _, rfl⟩

end Engine

end FamilyConnect.ReliableStream
