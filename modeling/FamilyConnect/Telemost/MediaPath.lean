import FamilyConnect.Lib.Blocks
import FamilyConnect.Lib.Transition
import FamilyConnect.Telemost.Reorder

/-!
# The media path never mixes frames

A sender cuts every VP8 frame into consecutively numbered packets. What the
payloader and `VP8Packet.Unmarshal` are trusted with is `Packetised`. The
receiver pushes packets that were sent, in any order, any number of times or
not at all, through the reorder buffer into the frame assembly.
-/

namespace FamilyConnect.Telemost

open Lib Lib.Serial

def content (unmarshal : List UInt8 → Option Descriptor) (packets : List Packet) : List UInt8 :=
  packets.flatMap fun pkt => ((unmarshal pkt.payload).map Descriptor.payload).getD []

structure Packetised (unmarshal : List UInt8 → Option Descriptor) (frame : List UInt8)
    (packets : List Packet) : Prop where
  timestamp : ∃ t, ∀ pkt ∈ packets, pkt.timestamp = t
  start : ∀ j pkt, packets[j]? = some pkt →
    ∃ d, unmarshal pkt.payload = some d ∧ (d.s = 1 ∧ d.pid = 0 ↔ j = 0)
  marker : ∀ j pkt, packets[j]? = some pkt → (pkt.marker = true ↔ j + 1 = packets.length)
  content : content unmarshal packets = frame

structure Broadcast where
  unmarshal : List UInt8 → Option Descriptor
  first : Nat
  sent : List (List UInt8 × List Packet)
  packetised : ∀ s ∈ sent, Packetised unmarshal s.1 s.2
  numbered : ∀ j pkt, (sent.map Prod.snd).flatten[j]? = some pkt → pkt.sequenceNumber = wire 16 (first + j)

variable {frame : List UInt8} {packets : List Packet}

namespace Broadcast

def frames (m : Broadcast) : List (List UInt8) := m.sent.map Prod.fst

def trains (m : Broadcast) : List (List Packet) := m.sent.map Prod.snd

def stream (m : Broadcast) (i : Nat) : Option Packet :=
  if i < m.first then none else m.trains.flatten[i - m.first]?

abbrev Sends (m : Broadcast) (i : Nat) (pkt : Packet) : Prop := m.stream i = some pkt

def start (m : Broadcast) (k : Nat) : Nat := m.first + Blocks.start m.trains k

variable {m : Broadcast} {i : Nat} {pkt : Packet}

theorem stream_numbered (h : m.stream i = some pkt) : pkt.sequenceNumber = wire 16 i := by
  unfold stream at h
  split at h
  · cases h
  rename_i hFirst
  have hSeq := m.numbered _ _ h
  rw [show m.first + (i - m.first) = i by omega] at hSeq
  exact hSeq

theorem stream_locate (h : m.stream i = some pkt) : ∃ k frame packets off, m.sent[k]? = some (frame, packets) ∧
    packets[off]? = some pkt ∧ i = m.start k + off := by
  unfold stream at h
  split at h
  · cases h
  obtain ⟨k, packets, off, hPackets, hOff, hEq⟩ := Blocks.locate h
  obtain ⟨⟨frame, packets'⟩, hSent, rfl⟩ := (List.getElem?_map ▸ hPackets : (m.sent[k]?).map Prod.snd = _) |>
    Option.map_eq_some_iff.mp
  exact ⟨k, frame, packets', off, hSent, hOff, by unfold start; omega⟩

theorem train_of_sent {k : Nat}
    (h : m.sent[k]? = some (frame, packets)) : m.trains[k]? = some packets ∧ m.frames[k]? = some frame := by
  simp [trains, frames, h]

end Broadcast

variable {delivered : List Packet}

namespace VP8FrameState

def feed (unmarshal : List UInt8 → Option Descriptor) (st : VP8FrameState) :
    List Packet → VP8FrameState × List (List UInt8)
  | [] => (st, [])
  | pkt :: rest =>
    let processed := st.process unmarshal pkt
    let fed := feed unmarshal processed.1 rest
    (fed.1, processed.2.toList ++ fed.2)

/-- The assembly before packet number `pos`: all frames returned are older than frame `k`, and a frame
under assembly is frame `k` with exactly its packets before `pos`. -/
structure Assembled (m : Broadcast) (st : VP8FrameState) (pos k : Nat) (returned : List (List UInt8)) : Prop where
  start_le : m.start k ≤ pos
  returned : returned.Sublist (m.frames.take k)
  last : st.haveLastSeq = true → st.lastSeq + 1#16 = wire 16 pos
  valid : st.frameValid = true → st.haveLastSeq = true ∧ ∃ frame packets off, m.sent[k]? = some (frame, packets) ∧
    off < packets.length ∧ pos = m.start k + off ∧ st.frameBuf = content m.unmarshal (packets.take off)

variable {m : Broadcast} {st : VP8FrameState} {pos k j : Nat} {returned : List (List UInt8)} {pkt : Packet}

section

variable (h : Assembled m st pos k returned)
include h

/-- A frame survives `observe` only if no packet is missing before this one. -/
theorem observe_valid (hSeq : pkt.sequenceNumber = wire 16 j) (hLow : pos ≤ j)
    (hHigh : j < pos + 2 ^ 16) (hValid : (st.observe pkt).frameValid = true) :
    st.frameValid = true ∧ j = pos ∧ (st.observe pkt).frameBuf = st.frameBuf := by
  unfold observe at hValid ⊢
  split at hValid
  · cases hValid
  · rename_i hGap
    refine ⟨hValid, ?_, by rw [if_neg hGap]⟩
    obtain ⟨hLast, _⟩ := h.valid hValid
    by_contra hNe
    refine hGap ⟨hLast, ?_⟩
    rw [h.last hLast, hSeq]
    exact fun hEq => hNe ((wire_eq_iff hHigh (by omega)).mp hEq)

variable {d : Descriptor}

omit h in
theorem align_valid (hValid : (st.align pkt d).frameValid = true) :
    (d.s = 1 ∧ d.pid = 0 ∧ (st.align pkt d).frameBuf = []) ∨
      (st.frameValid = true ∧ (st.align pkt d).frameBuf = st.frameBuf) := by
  unfold align at hValid ⊢
  by_cases hStart : d.s = 1 ∧ d.pid = 0
  · rw [if_pos hStart]
    exact .inl ⟨hStart.1, hStart.2, rfl⟩
  · rw [if_neg hStart] at hValid ⊢
    split at hValid
    · cases hValid
    · rename_i hSame
      rw [if_neg hSame]
      exact .inr ⟨hValid, rfl⟩

omit h in
theorem align_last (st : VP8FrameState) (pkt : Packet) (d : Descriptor) :
    (st.align pkt d).lastSeq = st.lastSeq ∧ (st.align pkt d).haveLastSeq = st.haveLastSeq := by
  unfold align discard
  by_cases hStart : d.s = 1 ∧ d.pid = 0 <;> by_cases hTime : st.timestamp ≠ pkt.timestamp <;> simp [hStart, hTime]

theorem Assembled.lapse (hLow : pos ≤ j) {st' : VP8FrameState}
    (hInvalid : st'.frameValid = false) (hLast : st'.lastSeq = wire 16 j) : Assembled m st' (j + 1) k returned where
  start_le := h.start_le.trans (hLow.trans (Nat.le_succ j))
  returned := h.returned
  last _ := by rw [hLast, wire_succ]
  valid hValid := absurd (hInvalid.symm.trans hValid) nofun

omit h in
theorem content_take_succ {unmarshal : List UInt8 → Option Descriptor} {off : Nat}
    (hPkt : packets[off]? = some pkt) (hd : unmarshal pkt.payload = some d) :
    content unmarshal (packets.take (off + 1)) = content unmarshal (packets.take off) ++ d.payload := by
  simp [content, List.take_add_one, hPkt, hd]

theorem align_content {k' off : Nat}
    (hSent : m.sent[k']? = some (frame, packets))
    (hPkt : packets[off]? = some pkt) (hj : j = m.start k' + off) (hSeq : pkt.sequenceNumber = wire 16 j)
    (hLow : pos ≤ j) (hHigh : j < pos + 2 ^ 16) (hStart : d.s = 1 ∧ d.pid = 0 ↔ off = 0)
    (hValid : ((st.observe pkt).align pkt d).frameValid = true) :
    ((st.observe pkt).align pkt d).frameBuf = content m.unmarshal (packets.take off) := by
  rcases align_valid hValid with ⟨hs, hpid, hBuf⟩ | ⟨hObserved, hBuf⟩
  · obtain rfl := hStart.mp ⟨hs, hpid⟩
    rw [hBuf]
    rfl
  · obtain ⟨hOld, hEq, hKept⟩ := observe_valid h hSeq hLow hHigh hObserved
    obtain ⟨_, frame₀, packets₀, off₀, hSent₀, hOff₀, hPos, hContent⟩ := h.valid hOld
    have hOff := (List.getElem?_eq_some_iff.mp hPkt).1
    have hPlace : Blocks.start m.trains k + off₀ = Blocks.start m.trains k' + off := by
      unfold Broadcast.start at hj hPos
      omega
    obtain ⟨rfl, rfl⟩ := Blocks.eq_of_start_eq (Broadcast.train_of_sent hSent).1 hOff
      (Broadcast.train_of_sent hSent₀).1 hOff₀ hPlace
    obtain ⟨rfl, rfl⟩ := Prod.mk.inj (Option.some.inj (hSent₀.symm.trans hSent))
    rw [hBuf, hKept, hContent]

/-- One packet: whatever comes out is a whole frame that was sent and is newer than all before it. -/
theorem process_assembled (hPkt : m.stream j = some pkt) (hLow : pos ≤ j)
    (hHigh : j < pos + 2 ^ 16) : ∃ k', Assembled m (st.process m.unmarshal pkt).1 (j + 1) k'
      (returned ++ (st.process m.unmarshal pkt).2.toList) := by
  have hSeq := Broadcast.stream_numbered hPkt
  obtain ⟨k', frame, packets, off, hSent, hOff, hj⟩ := Broadcast.stream_locate hPkt
  have hPacketised := m.packetised _ (List.mem_of_getElem? hSent)
  obtain ⟨d, hd, hStart⟩ := hPacketised.start off pkt hOff
  have hLt : off < packets.length := (List.getElem?_eq_some_iff.mp hOff).1
  obtain ⟨hTrain, hFrame⟩ := Broadcast.train_of_sent hSent
  have hkk' : k ≤ k' := by
    have hBegin := h.start_le
    unfold Broadcast.start at hj hBegin
    exact Blocks.le_of_start_le hTrain hLt (by omega)
  have hOlder : returned.Sublist (m.frames.take k') := h.returned.trans (List.take_sublist_take_left hkk')
  have hLast : ((st.observe pkt).align pkt d).lastSeq = wire 16 j :=
    (align_last (st.observe pkt) pkt d).1.trans hSeq
  unfold process
  simp only [hd]
  split
  · rename_i hInvalid
    rw [Option.toList_none, List.append_nil]
    exact ⟨k, h.lapse hLow hInvalid hLast⟩
  rename_i hValid
  rw [Bool.not_eq_false] at hValid
  have hBuf := align_content h hSent hOff hj hSeq hLow hHigh hStart hValid
  split
  · rw [Option.toList_none, List.append_nil]
    exact ⟨k, h.lapse hLow rfl hLast⟩
  have hNext : ((st.observe pkt).align pkt d).frameBuf ++ d.payload =
      content m.unmarshal (packets.take (off + 1)) := by rw [content_take_succ hOff hd, hBuf]
  have hMarker := hPacketised.marker off pkt hOff
  split
  · rename_i hMore
    rw [Option.toList_none, List.append_nil]
    refine ⟨k', by omega, hOlder, fun _ => ?_, fun _ => ⟨?_, frame, packets, off + 1, hSent, ?_, by omega, hNext⟩⟩
    · change ((st.observe pkt).align pkt d).lastSeq + 1#16 = _
      rw [hLast, wire_succ]
    · exact (align_last (st.observe pkt) pkt d).2
    · rw [hMore] at hMarker
      have : ¬ off + 1 = packets.length := fun hEnd => absurd (hMarker.mpr hEnd) nofun
      change off + 1 < packets.length
      omega
  rename_i hEnd
  rw [Bool.not_eq_false] at hEnd
  have hFull : off + 1 = packets.length := hMarker.mp hEnd
  split
  · refine ⟨k' + 1, ?_, ?_, fun _ => ?_, nofun⟩
    · unfold Broadcast.start at hj ⊢
      rw [Blocks.start_succ hTrain]
      omega
    · rw [Option.toList_some, List.take_add_one, hFrame]
      have hWhole : ((st.observe pkt).align pkt d).frameBuf ++ d.payload = frame := by
        rw [hNext, hFull, List.take_length]
        exact hPacketised.content
      rw [hWhole]
      exact hOlder.append (List.Sublist.refl [frame])
    · change ((st.observe pkt).align pkt d).lastSeq + 1#16 = _
      rw [hLast, wire_succ]
  · rw [Option.toList_none, List.append_nil]
    exact ⟨k, h.lapse hLow rfl hLast⟩

end

theorem feed_assembled {q : Nat} (hRun : Advances m.Sends pos delivered q)
    (h : Assembled m st pos k returned) : ∃ k', Assembled m (st.feed m.unmarshal delivered).1 q k'
      (returned ++ (st.feed m.unmarshal delivered).2) := by
  induction hRun generalizing st k returned with
  | nil =>
    rw [feed, List.append_nil]
    exact ⟨k, h⟩
  | cons hLow hHigh hPkt _ ih =>
    obtain ⟨k₁, h₁⟩ := process_assembled h hPkt hLow (hHigh.trans (by omega))
    obtain ⟨k₂, h₂⟩ := ih h₁
    rw [feed, ← List.append_assoc]
    exact ⟨k₂, h₂⟩

end VP8FrameState

/-! ## The receiving side of a track -/

/-- `position` counts where `nextSeq` stands without wrapping: it starts at the number of the first
packet taken and moves forward as `nextSeq` does. -/
structure Receiver where
  buffer : ReorderBuffer := newReorderBuffer
  frame : VP8FrameState := {}
  position : Nat := 0
  returned : List (List UInt8) := []

namespace Receiver

def push (unmarshal : List UInt8 → Option Descriptor) (r : Receiver) (i : Nat) (pkt : Packet) (since : Duration)
    (now : Instant) : Receiver :=
  let pushed := r.buffer.push pkt since now
  let fed := r.frame.feed unmarshal pushed.2
  { buffer := pushed.1
    frame := fed.1
    position := unwrap (if r.buffer.started then r.position else i) (r.buffer.place pkt).nextSeq pushed.1.nextSeq
    returned := r.returned ++ fed.2 }

def expire (unmarshal : List UInt8 → Option Descriptor) (r : Receiver) (now : Instant) : Receiver :=
  let expired := r.buffer.expire now
  let fed := r.frame.feed unmarshal expired.2
  { buffer := expired.1
    frame := fed.1
    position := unwrap r.position r.buffer.nextSeq expired.1.nextSeq
    returned := r.returned ++ fed.2 }

/-- Any packet that was sent may arrive next, again or never, as long as it is less than half the
sequence space away from where the buffer stands. -/
inductive Step (m : Broadcast) : Receiver → Receiver → Prop where
  | push {r : Receiver} {i : Nat} {pkt : Packet} (since : Duration) (now : Instant) : m.stream i = some pkt →
      (r.buffer.started = true → i < r.position + 2 ^ 15 ∧ r.position ≤ i + 2 ^ 15) →
      Step m r (r.push m.unmarshal i pkt since now)
  | expire {r : Receiver} (now : Instant) : Step m r (r.expire m.unmarshal now)

structure Inv (m : Broadcast) (r : Receiver) : Prop where
  settled : r.buffer.Settled m.Sends r.position
  fresh : r.buffer.started = false → r.frame = {} ∧ r.returned = []
  assembled : r.buffer.started = true → ∃ k, r.frame.Assembled m r.position k r.returned

variable {m : Broadcast} {r : Receiver}

theorem assembled_fresh {i : Nat} {pkt : Packet} (h : m.stream i = some pkt) : VP8FrameState.Assembled m {} i 0 [] where
  start_le := by
    unfold Broadcast.stream at h
    split at h
    · cases h
    · rename_i hFirst
      exact Nat.le_of_not_lt hFirst
  returned := List.nil_sublist _
  last h := by cases h
  valid h := by cases h

theorem inv_advanced {buffer : ReorderBuffer} {pos q k : Nat} {seq : BitVec 16}
    (hSeq : seq = wire 16 pos) (hRun : Advances m.Sends pos delivered q) (hNear : q < pos + 2 ^ 16)
    (hSettled : buffer.Settled m.Sends q) (hStarted : buffer.started = true)
    (h : r.frame.Assembled m pos k r.returned) : Inv m
      { buffer := buffer
        frame := (r.frame.feed m.unmarshal delivered).1
        position := unwrap pos seq buffer.nextSeq
        returned := r.returned ++ (r.frame.feed m.unmarshal delivered).2 } := by
  have hPosition : unwrap pos seq buffer.nextSeq = q := by
    rw [hSeq, (hSettled.tracks hStarted).next]
    exact unwrap_wire hRun.le hNear
  rw [hPosition]
  exact ⟨hSettled, fun hNot => absurd (hStarted.symm.trans hNot) nofun,
    fun _ => VP8FrameState.feed_assembled hRun h⟩

theorem Inv.silent (h : Inv m r) (hIdle : r.buffer.started = false) (position : Nat) :
    Inv m { r with position := position, returned := r.returned ++ [] } := by
  refine ⟨⟨fun hNot => absurd (hIdle.symm.trans hNot) nofun, h.settled.idle, h.settled.gap⟩, fun _ => ?_,
    fun hNot => absurd (hIdle.symm.trans hNot) nofun⟩
  obtain ⟨hFrame, hReturned⟩ := h.fresh hIdle
  exact ⟨hFrame, by rw [hReturned]; rfl⟩

theorem inv_push (h : Inv m r) {i : Nat} {pkt : Packet} (hPkt : m.stream i = some pkt)
    (hNear : r.buffer.started = true → i < r.position + 2 ^ 15 ∧ r.position ≤ i + 2 ^ 15) (since : Duration)
    (now : Instant) : Inv m (r.push m.unmarshal i pkt since now) := by
  have hSeq := Broadcast.stream_numbered hPkt
  unfold Receiver.push ReorderBuffer.push
  by_cases hSize : pkt.payload.length > 2048
  · rw [if_pos hSize]
    cases hStarted : r.buffer.started with
    | true =>
      obtain ⟨k, hAssembled⟩ := h.assembled hStarted
      have hPlace : r.buffer.place pkt = r.buffer := by rw [ReorderBuffer.place, hStarted]; rfl
      rw [hPlace]
      exact inv_advanced (h.settled.tracks hStarted).next .nil (Nat.lt_add_of_pos_right (by decide)) h.settled
        hStarted hAssembled
    | false => exact h.silent hStarted _
  · rw [if_neg hSize]
    obtain ⟨hPlaced, hOn⟩ := h.settled.place hSeq
    have hClose : i < (if r.buffer.started then r.position else i) + 2 ^ 15 ∧
        (if r.buffer.started then r.position else i) ≤ i + 2 ^ 15 := by
      cases hStarted : r.buffer.started with
      | true => exact hNear hStarted
      | false => exact ⟨Nat.lt_add_of_pos_right (by decide), Nat.le_add_right _ _⟩
    have hAssembled : ∃ k, r.frame.Assembled m (if r.buffer.started then r.position else i) k r.returned := by
      cases hStarted : r.buffer.started with
      | true => exact h.assembled hStarted
      | false =>
        obtain ⟨hFrame, hReturned⟩ := h.fresh hStarted
        rw [hFrame, hReturned]
        exact ⟨0, assembled_fresh hPkt⟩
    obtain ⟨k, hAssembled⟩ := hAssembled
    obtain ⟨q, hRun, hEnd, hSettled, hStarted', -⟩ :=
      ReorderBuffer.accept_spec hPlaced hOn hPkt hSeq hClose.1 hClose.2 since now
    exact inv_advanced (hPlaced.tracks hOn).next hRun hEnd hSettled hStarted' hAssembled

theorem inv_expire (h : Inv m r) (now : Instant) : Inv m (r.expire m.unmarshal now) := by
  unfold Receiver.expire
  obtain ⟨q, hRun, hEnd, hSettled, hSame⟩ := ReorderBuffer.expire_spec h.settled now
  cases hStarted : r.buffer.started with
  | true =>
    obtain ⟨k, hAssembled⟩ := h.assembled hStarted
    exact inv_advanced (h.settled.tracks hStarted).next hRun hEnd hSettled (hSame.trans hStarted) hAssembled
  | false =>
    have hIdle : r.buffer.expire now = (r.buffer, []) := by
      unfold ReorderBuffer.expire
      rw [if_pos (.inl (by rw [(h.settled.idle hStarted).1]; rfl))]
    rw [hIdle]
    exact h.silent hStarted _

theorem inv_step (h : Inv m r) {r' : Receiver} (hStep : Step m r r') : Inv m r' := by
  cases hStep with
  | push since now hPkt hNear => exact inv_push h hPkt hNear since now
  | expire now => exact inv_expire h now

end Receiver

def mediaSystem (m : Broadcast) : System Receiver where
  initial r := r = {}
  step := Receiver.Step m

theorem media_inv {m : Broadcast} {r : Receiver} (h : (mediaSystem m).Reachable r) : r.Inv m := by
  refine h.invariant ?_ ?_
  · rintro s rfl
    exact ⟨ReorderBuffer.settled_new 0, fun _ => ⟨rfl, rfl⟩, nofun⟩
  · intro s t _ hInv hStep
    exact Receiver.inv_step hInv hStep

theorem Receiver.Inv.returned_sublist {m : Broadcast} {r : Receiver} (h : r.Inv m) : r.returned.Sublist m.frames := by
  cases hStarted : r.buffer.started with
  | true =>
    obtain ⟨k, hAssembled⟩ := h.assembled hStarted
    exact hAssembled.returned.trans (List.take_sublist _ _)
  | false =>
    rw [(h.fresh hStarted).2]
    exact List.nil_sublist _

/-! ## The data-frame envelope -/

theorem decodeVP8Frame_encode (fragment : List UInt8) :
    decodeVP8Frame (encodeVP8DataFrame fragment) = some fragment ∨
      decodeVP8Frame (encodeVP8DataFrame fragment) = none := by
  unfold decodeVP8Frame encodeVP8DataFrame
  split
  · exact .inr rfl
  · split
    · split
      · exact .inr rfl
      · exact .inl (by rw [List.drop_left])
    · exact .inr (ite_self none)

/-- What comes out of the envelope of an increasing selection of data frames is an increasing selection
of their fragments. -/
theorem filterMap_decode_sublist {returned fragments : List (List UInt8)}
    (h : returned.Sublist (fragments.map encodeVP8DataFrame)) :
    (returned.filterMap decodeVP8Frame).Sublist fragments := by
  obtain ⟨kept, hKept, rfl⟩ := List.sublist_map_iff.mp h
  refine List.Sublist.trans ?_ hKept
  clear h hKept
  induction kept with
  | nil => exact List.nil_sublist _
  | cons fragment rest ih =>
    rw [List.map_cons, List.filterMap_cons]
    rcases decodeVP8Frame_encode fragment with hSome | hNone
    · rw [hSome]
      exact ih.cons_cons fragment
    · rw [hNone]
      exact ih.cons fragment

/-- Frames that come out are sent frames, byte for byte, each at most once and in sending order; through
the data-frame envelope come exactly the fragments put in, or nothing. -/
theorem media_frames_intact (m : Broadcast) (r : Receiver) (h : (mediaSystem m).Reachable r) :
    r.returned.Sublist m.frames ∧
      (∀ fragments, m.frames = fragments.map encodeVP8DataFrame →
        (r.returned.filterMap decodeVP8Frame).Sublist fragments) ∧
      (∀ fragment, encodeVP8DataFrame fragment ∈ r.returned →
        decodeVP8Frame (encodeVP8DataFrame fragment) = some fragment ∨
          decodeVP8Frame (encodeVP8DataFrame fragment) = none) := by
  have hReturned := (media_inv h).returned_sublist
  refine ⟨hReturned, ?_, ?_⟩
  · intro fragments hFrames
    exact filterMap_decode_sublist (hFrames ▸ hReturned)
  · intro fragment _
    exact decodeVP8Frame_encode fragment

def threePackets : Broadcast where
  unmarshal
    | [] => none
    | s :: payload => some ⟨s.toNat, 0, payload⟩
  first := 65535
  sent :=
    [(encodeVP8DataFrame (List.replicate 24 9),
      [⟨65535#16, 7#32, false, 1 :: vp8Interframe⟩, ⟨0#16, 7#32, false, 0 :: List.replicate 20 9⟩,
        ⟨1#16, 7#32, true, 0 :: List.replicate 4 9⟩])]
  packetised := by
    intro s hs
    obtain rfl := List.mem_singleton.mp hs
    refine ⟨⟨7#32, by decide⟩, ?_, ?_, by decide⟩
    · intro j pkt hj
      match j with
      | 0 | 1 | 2 =>
        cases hj
        exact ⟨_, rfl, by decide⟩
      | j + 3 => cases hj
    · intro j pkt hj
      match j with
      | 0 | 1 | 2 =>
        cases hj
        decide
      | j + 3 => cases hj
  numbered := by
    intro j pkt hj
    match j with
    | 0 | 1 | 2 =>
      cases hj
      decide
    | j + 3 => cases hj

theorem media_frames_intact_reordered : ∃ r, (mediaSystem threePackets).Reachable r ∧
    r.returned = [encodeVP8DataFrame (List.replicate 24 9)] ∧ r.returned.Sublist threePackets.frames := by
  let r₁ : Receiver := Receiver.push threePackets.unmarshal {} 65535 ⟨65535#16, 7#32, false, 1 :: vp8Interframe⟩ 0 1
  let r₂ : Receiver := r₁.push threePackets.unmarshal 65537 ⟨1#16, 7#32, true, 0 :: List.replicate 4 9⟩ 0 2
  let r₃ : Receiver := r₂.push threePackets.unmarshal 65536 ⟨0#16, 7#32, false, 0 :: List.replicate 20 9⟩ 0 3
  have h₁ : (mediaSystem threePackets).Reachable r₁ := .next (.start rfl) (.push 0 1 rfl nofun)
  have h₂ : (mediaSystem threePackets).Reachable r₂ := .next h₁ (.push 0 2 rfl fun _ => by decide +kernel)
  have h₃ : (mediaSystem threePackets).Reachable r₃ := .next h₂ (.push 0 3 rfl fun _ => by decide +kernel)
  exact ⟨r₃, h₃, by decide +kernel, (media_frames_intact threePackets r₃ h₃).1⟩

end FamilyConnect.Telemost
