import FamilyConnect.Telemost.Reorder

/-!
# The reorder buffer under arbitrary packets

Nothing is assumed about what arrives: any sequence number, in any order and
again and again, with calls of `expire` at any time. A number is told apart
from the one half a turn away only by where the buffer stands, so what is
delivered increases as long as one counts without wrapping.
-/

namespace FamilyConnect.Telemost

open Lib Lib.Serial

/-- A call of the buffer, with its readings of the clock. -/
inductive Arrival where
  | push (pkt : Packet) (since : Duration) (now : Instant)
  | expire (now : Instant)

/-- `time.Now()` is later than the zero time. -/
def Arrival.Timed : Arrival → Prop
  | .push _ _ now => 0 < now
  | .expire _ => True

def Arrival.pushed : Arrival → Option Packet
  | .push pkt _ _ => some pkt
  | .expire _ => none

namespace ReorderBuffer

def take (b : ReorderBuffer) : Arrival → ReorderBuffer × List Packet
  | .push pkt since now => b.push pkt since now
  | .expire now => b.expire now

def takeAll (b : ReorderBuffer) : List Arrival → ReorderBuffer × List Packet
  | [] => (b, [])
  | arrival :: rest =>
    let (next, delivered) := b.take arrival
    let (last, more) := next.takeAll rest
    (last, delivered ++ more)

/-! ## Numbers without wrapping -/

def Numbered (i : Nat) (pkt : Packet) : Prop := pkt.sequenceNumber = wire 16 i

theorem Timed.expire {b : ReorderBuffer} (h : b.Timed) (now : Instant) : (b.expire now).1.Timed := by
  unfold ReorderBuffer.expire
  split
  · exact h
  rename_i hDue
  rw [not_or, not_lt, Bool.not_eq_true] at hDue
  have hNow : 0 < now := by
    have hNonneg := h.nonneg
    have hLate := hDue.2
    rw [deadline, if_neg (by rw [hDue.1]; decide)] at hLate
    exact lt_of_lt_of_le (Int.add_pos_of_nonneg_of_pos hNonneg (by decide)) hLate
  dsimp only
  split
  · rename_i hNone
    exact ⟨le_rfl, fun hSome => absurd (List.eq_nil_of_length_eq_zero hNone) hSome⟩
  · exact ⟨hNow.le, fun _ => hNow.ne'⟩

variable {b : ReorderBuffer} {pos : Nat} {l : List Packet}

theorem place_timed (h : b.Timed) (pkt : Packet) : (b.place pkt).Timed := by
  unfold place
  split
  · exact h
  · exact ⟨h.nonneg, h.held⟩

section

variable (h : Settled Numbered b pos) (hTimed : b.Timed)
include h hTimed

theorem accept_numbered {pkt : Packet} (since : Duration) {now : Instant} (hStarted : b.started = true)
    (hFresh : seqLess pkt.sequenceNumber b.nextSeq = false) (hNow : 0 < now) :
    ∃ q, Advances Numbered pos (b.accept pkt since now).2 q ∧ Settled Numbered (b.accept pkt since now).1 q ∧
      (b.accept pkt since now).1.started = true ∧ (b.accept pkt since now).1.Timed := by
  have hAhead : (pkt.sequenceNumber - b.nextSeq).toNat < 2 ^ 15 := by
    rw [← not_le, ← seqLess_iff, hFresh]
    decide
  have hSeq : pkt.sequenceNumber = wire 16 (pos + (pkt.sequenceNumber - b.nextSeq).toNat) := by
    rw [(h.tracks hStarted).next]
    exact (wire_unwrap pos _).symm
  obtain ⟨q, hRun, -, hSettled, hOn, hKept⟩ :=
    accept_spec h hStarted (i := pos + (pkt.sequenceNumber - b.nextSeq).toNat) hSeq hSeq (by omega) (by omega) since now
  exact ⟨q, hRun, hSettled, hOn, hKept hTimed hNow⟩

/-- A call changes nothing, or takes the buffer on from where it stood. -/
theorem take_cases {arrival : Arrival} (hNow : arrival.Timed) : b.take arrival = (b, []) ∨
    ∃ p q, Advances Numbered p (b.take arrival).2 q ∧ Settled Numbered (b.take arrival).1 q ∧
      (b.take arrival).1.started = true ∧ (b.take arrival).1.Timed ∧ (b.started = true → p = pos) := by
  cases arrival with
  | expire now =>
    cases hStarted : b.started with
    | false =>
      refine .inl (if_pos (.inl ?_))
      rw [(h.idle hStarted).1]
      rfl
    | true =>
      obtain ⟨q, hRun, -, hSettled, hSame⟩ := expire_spec h now
      exact .inr ⟨pos, q, hRun, hSettled, hSame.trans hStarted, hTimed.expire now, fun _ => rfl⟩
  | push pkt since now =>
    rw [take, push]
    split
    · exact .inl rfl
    obtain ⟨hPlaced, hOn⟩ := h.place (wire_toNat pkt.sequenceNumber).symm
    cases hFresh : seqLess pkt.sequenceNumber (b.place pkt).nextSeq with
    | false =>
      obtain ⟨q, hRun, hSettled, hOn', hKept⟩ :=
        accept_numbered hPlaced (place_timed hTimed pkt) since hOn hFresh hNow
      exact .inr ⟨_, q, hRun, hSettled, hOn', hKept, fun hStarted => if_pos hStarted⟩
    | true =>
      refine .inl ?_
      rw [accept, if_pos hFresh]
      unfold place at hFresh ⊢
      split at hFresh
      · rename_i hStarted
        rw [if_pos hStarted]
      · rw [seqLess, BitVec.sub_self] at hFresh
        cases hFresh

theorem takeAll_numbered {arrivals : List Arrival} (hTimes : ∀ arrival ∈ arrivals, arrival.Timed) :
    ∃ p q, Advances Numbered p (b.takeAll arrivals).2 q ∧ Settled Numbered (b.takeAll arrivals).1 q ∧
      (b.takeAll arrivals).1.Timed ∧ (b.started = true → p = pos) := by
  induction arrivals generalizing b pos with
  | nil => exact ⟨pos, pos, .nil, h, hTimed, fun _ => rfl⟩
  | cons arrival rest ih =>
    have hRest : ∀ later ∈ rest, later.Timed := fun later hMem => hTimes later (.tail _ hMem)
    rw [takeAll]
    rcases take_cases h hTimed (hTimes arrival (.head _)) with hSame | ⟨p, q, hRun, hSettled, hOn, hKept, hFrom⟩
    · rw [hSame]
      exact ih h hTimed hRest
    · obtain ⟨p', q', hMore, hSettled', hKept', hOnward⟩ := ih hSettled hKept hRest
      rw [hOnward hOn] at hMore
      exact ⟨p, q', hRun.append hMore, hSettled', hKept', hFrom⟩

end

theorem Advances.numbers {q : Nat} (h : Advances Numbered pos l q) :
    ∃ numbers : List Nat, (∀ i ∈ numbers.head?, pos ≤ i ∧ i < pos + 2 ^ 15) ∧
      numbers.IsChain (fun i j => i < j ∧ j ≤ i + 2 ^ 15) ∧ l.map Packet.sequenceNumber = numbers.map (wire 16) := by
  induction h with
  | nil => exact ⟨[], nofun, .nil, rfl⟩
  | @cons pos j q pkt rest hLow hHigh hPkt _ ih =>
    obtain ⟨numbers, hHead, hChain, hSame⟩ := ih
    refine ⟨j :: numbers, ?_, List.isChain_cons.mpr ⟨fun i hi => ?_, hChain⟩, ?_⟩
    · rintro i ⟨⟩
      exact ⟨hLow, hHigh⟩
    · have hNext := hHead i hi
      omega
    · rw [List.map_cons, List.map_cons, hSame, hPkt]

/-- A gap that has lasted too long is given up. -/
def fires (b : ReorderBuffer) : Arrival → Prop
  | .push _ since _ => b.gapSince.isZero = false ∧ since > reorderGapTimeout
  | .expire now => ¬(b.gapSince.isZero = true ∨ now < b.deadline)

structure Sound (b : ReorderBuffer) : Prop where
  window : ∀ seq ∈ b.pkts.keys, (seq - b.nextSeq).toNat < reorderWindow
  gap : b.gapSince = 0 ↔ b.pkts.keys = []
  skip : ∀ now, b.fires (.expire now) → b.pkts.keys ≠ []
  /-- The loop of `push` has ended because its condition fails. -/
  room : ∀ pkt : Packet, ¬((makeRoom pkt.sequenceNumber (b.place pkt).pkts.keys.length
    (b.place pkt)).1.pkts.keys.length > 0 ∧ (pkt.sequenceNumber -
      (makeRoom pkt.sequenceNumber (b.place pkt).pkts.keys.length
      (b.place pkt)).1.nextSeq).toNat ≥ reorderWindow)

theorem Settled.sound (h : Settled Numbered b pos) (hTimed : b.Timed) : b.Sound := by
  have hWindow : reorderWindow = 256 := rfl
  constructor
  case window =>
    intro seq hSeq
    cases hStarted : b.started with
    | false =>
      rw [(h.idle hStarted).2] at hSeq
      cases hSeq
    | true =>
      have hTracks := h.tracks hStarted
      obtain ⟨i, hLow, hHigh, -, rfl⟩ := hTracks.key hSeq
      rw [hTracks.next, toNat_sub_of_le hLow (by omega)]
      omega
  case gap =>
    constructor
    · intro hZero
      by_contra hSome
      exact hTimed.held hSome hZero
    · intro hNone
      by_contra hOpen
      exact h.gap hOpen hNone
  case skip => exact fun now hFires => h.gap fun hZero => hFires (.inl (by rw [hZero]; rfl))
  case room =>
    intro pkt hGuard
    obtain ⟨hPlaced, hOn⟩ := h.place (wire_toNat pkt.sequenceNumber).symm
    rcases makeRoom_stops pkt.sequenceNumber _ (hPlaced.tracks hOn) le_rfl with hNone | hNear
    · rw [hNone] at hGuard
      exact absurd hGuard.1 (by decide)
    · omega

/-! ## Packets that arrive within the window -/

/-- No timeout fires. -/
def Patient (b : ReorderBuffer) : List Arrival → Prop
  | [] => True
  | arrival :: rest => ¬b.fires arrival ∧ (b.take arrival).1.Patient rest

variable {packet : Nat → Packet} {first i : Nat} {arrived : List Nat}

def Arrived (packet : Nat → Packet) (arrived : List Nat) (i : Nat) (pkt : Packet) : Prop := pkt = packet i ∧ i ∈ arrived

/-- Everything from `first` on that has arrived was delivered, or is held behind the missing packet `pos`. -/
structure Filling (packet : Nat → Packet) (first pos : Nat) (arrived : List Nat) (b : ReorderBuffer) : Prop where
  tracks : Tracks (Arrived packet arrived) b pos (pos + reorderWindow)
  started : b.started = true
  missing : b.pkts.lookup b.nextSeq = none
  low : first ≤ pos
  below : ∀ j, first ≤ j → j < pos → j ∈ arrived
  above : ∀ j ∈ arrived, pos ≤ j → j < pos + reorderWindow ∧ (b.pkts.lookup (wire 16 j)).isSome = true

theorem Consecutive.delivered {q : Nat} (h : Consecutive (Arrived packet arrived) pos l q) :
    l = (List.range' pos (q - pos)).map packet ∧ pos ≤ q ∧ ∀ j, pos ≤ j → j < q → j ∈ arrived := by
  induction h with
  | nil => exact ⟨by rw [Nat.sub_self]; rfl, le_rfl, fun j hLow hHigh => absurd hLow (Nat.not_le.mpr hHigh)⟩
  | @cons pos q pkt rest hPkt _ ih =>
    obtain ⟨hRest, hLe, hAll⟩ := ih
    refine ⟨?_, by omega, fun j hLow hHigh => ?_⟩
    · rw [show q - pos = q - (pos + 1) + 1 by omega, List.range'_succ, List.map_cons, ← hRest, hPkt.1]
    · rcases hLow.eq_or_lt with rfl | hLater
      · exact hPkt.2
      · exact hAll j hLater hHigh

/-- With 256 packets held the missing one is among them, so giving up on it changes nothing. -/
theorem skipToOldest_full {sends : Nat → Packet → Prop} {top : Nat} (h : Tracks sends b pos top)
    (hFull : reorderWindow ≤ b.pkts.keys.length) : b.skipToOldest = b := by
  have hWindow : reorderWindow = 256 := rfl
  have hNext : wire 16 pos ∈ b.pkts.keys := by
    by_contra hMissing
    have hSub : b.pkts.keys ⊆ (List.range' (pos + 1) 255).map (wire 16) := by
      intro seq hSeq
      obtain ⟨i, hLow, hHigh, -, rfl⟩ := h.key hSeq
      refine List.mem_map_of_mem (List.mem_range'_1.mpr ⟨?_, by omega⟩)
      exact lt_of_le_of_ne hLow fun hSame => hMissing (hSame ▸ hSeq)
    have hLength := (b.pkts.keys_nodup.subperm hSub).length_le
    rw [List.length_map, List.length_range'] at hLength
    omega
  obtain ⟨q, hLow, hHigh, -, hTracks, -⟩ := skipToOldest_spec h (List.ne_nil_of_mem hNext)
  obtain ⟨k, hkLow, hkHigh, -, hSame⟩ := hTracks.key hNext
  rw [wire_eq_iff (by omega) (by omega)] at hSame
  obtain rfl : q = pos := by omega
  have hStays : b.skipToOldest.nextSeq = b.nextSeq := hTracks.next.trans h.next.symm
  unfold skipToOldest at hStays ⊢
  dsimp only at hStays
  rw [hStays]

theorem Filling.accept (h : Filling packet first pos arrived b) (hNumbered : ∀ i, (packet i).sequenceNumber = wire 16 i)
    (hHigh : i < pos + reorderWindow) (hLow : pos ≤ i + 2 ^ 15) (hNew : i ∉ arrived) {since : Duration} (now : Instant)
    (hPatient : ¬(b.gapSince.isZero = false ∧ since > reorderGapTimeout)) :
    ∃ q, Filling packet first q (i :: arrived) (b.accept (packet i) since now).1 ∧ pos ≤ q ∧
      (b.accept (packet i) since now).2 = (List.range' pos (q - pos)).map packet := by
  have hWindow : reorderWindow = 256 := rfl
  have hTracks : Tracks (Arrived packet (i :: arrived)) b pos (pos + reorderWindow) := by
    refine ⟨h.tracks.next, h.tracks.pos_le, fun seq pkt hPkt => ?_⟩
    obtain ⟨k, hkLow, hkHigh, hkTop, hSeq, hSame, hMem⟩ := h.tracks.held seq pkt hPkt
    exact ⟨k, hkLow, hkHigh, hkTop, hSeq, hSame, .tail _ hMem⟩
  have hBelow : ∀ j, first ≤ j → j < pos → j ∈ i :: arrived := fun j hj hjPos => .tail _ (h.below j hj hjPos)
  have hOrder := seqLess_wire (i := i) (p := pos) (by omega) hLow
  rw [← hNumbered, ← h.tracks.next] at hOrder
  unfold ReorderBuffer.accept
  split
  · rename_i hOld
    refine ⟨pos, ⟨hTracks, h.started, h.missing, h.low, hBelow, fun j hMem hj => ?_⟩, le_rfl, by rw [Nat.sub_self]; rfl⟩
    rcases List.mem_cons.mp hMem with rfl | hMem
    · exact absurd hj (not_le.mpr (hOrder.mp hOld))
    · exact h.above j hMem hj
  rename_i hFresh
  rw [hOrder, not_lt] at hFresh
  have hAdvance : b.advance (packet i).sequenceNumber = (b, []) := by
    rw [advance, hNumbered, h.tracks.next, toNat_sub_of_le hFresh (by omega), if_neg (by omega)]
  have hInsert := hTracks.insert ⟨rfl, .head _⟩ (hNumbered i) hFresh hHigh
  have hStore : b.store (packet i) since = { b with pkts := b.pkts.insert (packet i).sequenceNumber (packet i) } := by
    unfold store
    dsimp only
    split
    · rename_i hGiven
      exact skipToOldest_full hInsert (hGiven.resolve_right hPatient)
    · rfl
  rw [hAdvance]
  dsimp only
  rw [hStore]
  obtain ⟨q, hRun, hDrained, hStarted, -, hKept⟩ := drain_spec hInsert
  obtain ⟨hDelivered, hLe, hAll⟩ := Consecutive.delivered hRun
  have hMissing := drain_stops { b with pkts := b.pkts.insert (packet i).sequenceNumber (packet i) }
  obtain ⟨hPkts, hNext, hSame⟩ := noteGap_same
    (drain { b with pkts := b.pkts.insert (packet i).sequenceNumber (packet i) }).1 b.nextSeq now
  refine ⟨q, ⟨(hDrained.congr hPkts hNext).tighten, hSame.trans (hStarted.trans h.started), ?_,
    h.low.trans hLe, fun j hj hjPos => ?_, fun j hMem hj => ?_⟩, hLe, hDelivered⟩
  · rw [hPkts, hNext]
    exact hMissing
  · rcases Nat.lt_or_ge j pos with hBefore | hAfter
    · exact hBelow j hj hBefore
    · exact hAll j hAfter hjPos
  · rw [hPkts]
    have hHeld : j < pos + reorderWindow ∧
        ((b.pkts.insert (packet i).sequenceNumber (packet i)).lookup (wire 16 j)).isSome = true := by
      rw [hNumbered]
      rcases List.mem_cons.mp hMem with rfl | hMem
      · exact ⟨hHigh, by rw [AList.lookup_insert]; rfl⟩
      · obtain ⟨hjHigh, hjHeld⟩ := h.above j hMem (hLe.trans hj)
        refine ⟨hjHigh, ?_⟩
        rw [AList.lookup_insert_ne fun hEq => hNew ?_]
        · exact hjHeld
        · rwa [← (wire_eq_iff (by omega) (by omega)).mp hEq]
    refine ⟨by omega, ?_⟩
    rw [hKept j hj hHeld.1]
    exact hHeld.2

theorem range_join {q e : Nat} (hLow : pos ≤ q) (hHigh : q ≤ e) :
    List.range' pos (q - pos) ++ List.range' q (e - q) = List.range' pos (e - pos) := by
  have hJoin := List.range'_append_1 (s := pos) (m := q - pos) (n := e - q)
  rwa [show pos + (q - pos) = q by omega, show q - pos + (e - q) = e - pos by omega] at hJoin

section

variable (h : Filling packet first pos arrived b) (hFirst : first ∈ List.range' base count)
  (hPerm : (arrived ++ numbers).Perm (List.range' base count))
  (hNear : numbers.Pairwise fun i j => i < j + reorderWindow)
  (hLater : ∀ j ∈ numbers, first < j + reorderWindow ∧ ∀ i ∈ arrived, i < j + reorderWindow)
include h hFirst hPerm

theorem Filling.range : base ≤ first ∧ pos ≤ base + count := by
  have hRange := List.mem_range'_1.mp hFirst
  refine ⟨hRange.1, ?_⟩
  rcases h.low.eq_or_lt with rfl | hLater
  · exact hRange.2.le
  · have hMem := List.mem_append_left numbers (h.below (pos - 1) (by omega) (by omega))
    have hLast := List.mem_range'_1.mp (hPerm.mem_iff.mp hMem)
    omega

theorem Filling.next_mem (hEnd : pos < base + count) : pos ∈ numbers := by
  have hBase := (h.range hFirst hPerm).1
  have hMem := hPerm.mem_iff.mpr (List.mem_range'_1.mpr ⟨hBase.trans h.low, hEnd⟩)
  refine (List.mem_append.mp hMem).resolve_left fun hArrived => ?_
  have hHeld := (h.above pos hArrived le_rfl).2
  rw [← h.tracks.next, h.missing] at hHeld
  cases hHeld

include hNear hLater

/-- What has not been delivered so far is delivered. -/
theorem Filling.takeAll (hPackets : ∀ i, (packet i).sequenceNumber = wire 16 i ∧ (packet i).payload.length ≤ 2048)
    (hPushed : arrivals.filterMap Arrival.pushed = numbers.map packet) (hPatient : b.Patient arrivals) :
    (b.takeAll arrivals).2 = (List.range' pos (base + count - pos)).map packet := by
  induction arrivals generalizing b pos arrived numbers with
  | nil =>
    obtain rfl := List.map_eq_nil_iff.mp hPushed.symm
    have hEnd : base + count ≤ pos := not_lt.mp fun hEnd => List.not_mem_nil (h.next_mem hFirst hPerm hEnd)
    rw [Nat.sub_eq_zero_of_le hEnd]
    rfl
  | cons arrival rest ih =>
    obtain ⟨hQuiet, hPatient⟩ := hPatient
    cases arrival with
    | expire now =>
      have hSame : b.take (.expire now) = (b, []) := if_pos (not_not.mp hQuiet)
      rw [hSame] at hPatient
      rw [ReorderBuffer.takeAll, hSame]
      exact ih h hPerm hNear hLater hPushed hPatient
    | push pkt since now =>
      cases numbers with
      | nil => cases hPushed
      | cons i more =>
        obtain ⟨rfl, hMore⟩ := List.cons.inj hPushed
        obtain ⟨hBefore, hNear⟩ := List.pairwise_cons.mp hNear
        obtain ⟨hFrom, hArrived⟩ := hLater i (.head _)
        have hWindow : reorderWindow = 256 := rfl
        have hNodup := hPerm.nodup_iff.mpr List.nodup_range'
        have hNew : i ∉ arrived := fun hMem => List.disjoint_of_nodup_append hNodup hMem (.head _)
        have hTake : b.take (.push (packet i) since now) = b.accept (packet i) since now := by
          rw [take, push, if_neg (not_lt.mpr (hPackets i).2), place, if_pos h.started]
        have hHigh : i < pos + reorderWindow := by
          have hMem : i ∈ List.range' base count := hPerm.mem_iff.mp (List.mem_append_right arrived (.head _))
          by_contra hFar
          have hEnd := (List.mem_range'_1.mp hMem).2
          rcases List.mem_cons.mp (h.next_mem hFirst hPerm (by omega)) with hSame | hLast
          · omega
          · exact hFar (hBefore pos hLast)
        have hLow : pos ≤ i + 2 ^ 15 := by
          rcases h.low.eq_or_lt with hSame | hBeyond
          · omega
          · have hApart := hArrived (pos - 1) (h.below (pos - 1) (by omega) (by omega))
            omega
        obtain ⟨q, hFilling, hLe, hDelivered⟩ := h.accept (fun i => (hPackets i).1) hHigh hLow hNew now hQuiet
        have hPerm' : (i :: arrived ++ more).Perm (List.range' base count) := List.perm_middle.symm.trans hPerm
        have hEnd := (hFilling.range hFirst hPerm').2
        rw [hTake] at hPatient
        rw [ReorderBuffer.takeAll, hTake]
        dsimp only
        rw [hDelivered, ih hFilling hPerm' hNear ?_ hMore hPatient, ← List.map_append, range_join hLe hEnd]
        intro j hj
        obtain ⟨hFrom, hArrived⟩ := hLater j (.tail _ hj)
        exact ⟨hFrom, List.forall_mem_cons.mpr ⟨hBefore j hj, hArrived⟩⟩

end

theorem takeAll_window (hPackets : ∀ i, (packet i).sequenceNumber = wire 16 i ∧ (packet i).payload.length ≤ 2048)
    (hPerm : (first :: numbers).Perm (List.range' base count))
    (hNear : (first :: numbers).Pairwise fun i j => i < j + reorderWindow)
    (hPushed : arrivals.filterMap Arrival.pushed = (first :: numbers).map packet)
    (hPatient : newReorderBuffer.Patient arrivals) :
    (newReorderBuffer.takeAll arrivals).2 = (List.range' first (base + count - first)).map packet := by
  induction arrivals with
  | nil => cases hPushed
  | cons arrival rest ih =>
    obtain ⟨hQuiet, hPatient⟩ := hPatient
    cases arrival with
    | expire now => exact ih hPushed hPatient
    | push pkt since now =>
      obtain ⟨rfl, -⟩ := List.cons.inj hPushed
      -- The first packet places the buffer, which then waits for it.
      have hPlaced : Filling packet first first [] (newReorderBuffer.place (packet first)) :=
        ⟨⟨(hPackets first).1, Nat.le_add_right _ _, nofun⟩, rfl, rfl, le_rfl,
          fun j hLow hHigh => absurd hLow (Nat.not_le.mpr hHigh), nofun⟩
      have hSame : newReorderBuffer.take (.push (packet first) since now) =
          (newReorderBuffer.place (packet first)).take (.push (packet first) since now) := by
        rw [take, take, push, push, if_neg (not_lt.mpr (hPackets first).2), if_neg (not_lt.mpr (hPackets first).2)]
        rfl
      rw [hSame] at hPatient
      rw [takeAll, hSame]
      refine hPlaced.takeAll (hPerm.subset (.head _)) hPerm hNear
        (fun j hj => ⟨?_, nofun⟩) hPackets hPushed ⟨hQuiet, hPatient⟩
      rcases List.mem_cons.mp hj with rfl | hj
      · exact Nat.lt_add_of_pos_right (by decide)
      · exact List.rel_of_pairwise_cons hNear hj

end ReorderBuffer

/-- The order of RFC 1982, which leaves numbers half a turn apart unordered. -/
def SerialLess (a b : BitVec 16) : Prop :=
  a.toNat < b.toNat ∧ b.toNat - a.toNat < 2 ^ 15 ∨ b.toNat < a.toNat ∧ 2 ^ 15 < a.toNat - b.toNat
  deriving Decidable

/-- After any pushes and expirations the buffer is sound and what was delivered moves forward.
Packets that arrive within the window are all delivered, in order, from the first one on. -/
theorem reorder_safe {arrivals : List Arrival} (hTimes : ∀ arrival ∈ arrivals, arrival.Timed) :
    (newReorderBuffer.takeAll arrivals).1.Sound ∧
      (∃ numbers : List Nat, numbers.IsChain (fun i j => i < j ∧ j ≤ i + 2 ^ 15) ∧
        (newReorderBuffer.takeAll arrivals).2.map Packet.sequenceNumber = numbers.map (wire 16)) ∧
      ∀ (packet : Nat → Packet) (base count first : Nat) (numbers : List Nat),
        (∀ i, (packet i).sequenceNumber = wire 16 i ∧ (packet i).payload.length ≤ 2048) →
        (first :: numbers).Perm (List.range' base count) →
        (first :: numbers).Pairwise (fun i j => i < j + reorderWindow) →
        arrivals.filterMap Arrival.pushed = (first :: numbers).map packet →
        newReorderBuffer.Patient arrivals → (newReorderBuffer.takeAll arrivals).2 =
          (List.range' first (base + count - first)).map packet := by
  obtain ⟨p, q, hRun, hSettled, hTimed, -⟩ :=
    ReorderBuffer.takeAll_numbered (ReorderBuffer.settled_new 0) ⟨le_rfl, fun hSome => absurd rfl hSome⟩ hTimes
  obtain ⟨numbers, -, hChain, hNumbers⟩ := ReorderBuffer.Advances.numbers hRun
  refine ⟨hSettled.sound hTimed, ⟨numbers, hChain, hNumbers⟩, ?_⟩
  exact fun packet base count first numbers hPackets hPerm hNear hPushed hPatient =>
    ReorderBuffer.takeAll_window hPackets hPerm hNear hPushed hPatient

def samplePacket (i : Nat) : Packet := ⟨wire 16 i, 0, false, []⟩

def sampleArrivals (numbers : List Nat) : List Arrival := numbers.map fun i => .push (samplePacket i) 0 1

theorem timed_sample (numbers : List Nat) : ∀ arrival ∈ sampleArrivals numbers, arrival.Timed := by
  intro arrival hMem
  obtain ⟨i, -, rfl⟩ := List.mem_map.mp hMem
  exact Int.one_pos

def longPacket : Packet := ⟨0, 0, false, List.replicate 2049 0⟩

/-- The second number is half a turn after the first, and so the first one is new again after it. A
packet of 2049 bytes is not delivered, although it arrives alone and in time. -/
theorem reorder_half_turn : (∀ arrival ∈ sampleArrivals [0, 2 ^ 15, 0], arrival.Timed) ∧
    (newReorderBuffer.takeAll (sampleArrivals [0, 2 ^ 15, 0])).2 = [0, 2 ^ 15, 0].map samplePacket ∧
    ¬SerialLess (samplePacket 0).sequenceNumber (samplePacket (2 ^ 15)).sequenceNumber ∧
    newReorderBuffer.Patient [.push longPacket 0 1] ∧ (newReorderBuffer.takeAll [.push longPacket 0 1]).2 = [] :=
  ⟨timed_sample _, by decide +kernel, by decide +kernel, ⟨fun hFires => absurd hFires.2 (by decide), trivial⟩, by decide +kernel⟩

theorem reorder_safe_swapped : (newReorderBuffer.takeAll (sampleArrivals [65535, 65537, 65536])).1.Sound ∧
    (newReorderBuffer.takeAll (sampleArrivals [65535, 65537, 65536])).2 = [65535, 65536, 65537].map samplePacket := by
  have hSafe := reorder_safe (timed_sample [65535, 65537, 65536])
  refine ⟨hSafe.1, hSafe.2.2 samplePacket 65535 3 65535 [65537, 65536] (fun i => ⟨rfl, Nat.zero_le _⟩) ?_ ?_ rfl ?_⟩
  · decide
  · decide
  · refine ⟨?_, ?_, ?_, trivial⟩ <;> exact fun hFires => absurd hFires.2 (by decide)

end FamilyConnect.Telemost
