import FamilyConnect.Lib.Serial
import FamilyConnect.Telemost.Rtp

/-!
# The reorder buffer delivers in sending order

The packets of a track are numbered from the beginning without wrapping;
`sends i pkt` says that `pkt` is packet number `i`. `Tracks` ties the
sixteen-bit buffer to these numbers. Whatever the buffer hands over is a run of
packets with increasing numbers, each at most half a turn of the counter after
the one before it.
-/

namespace FamilyConnect.Telemost

open Lib Lib.Serial

theorem seqLess_iff (a b : BitVec 16) : seqLess a b = true ↔ 2 ^ 15 ≤ (a - b).toNat := by
  have hTop : (0x8000#16 : BitVec 16) = BitVec.twoPow 16 15 := by decide
  unfold seqLess
  rw [hTop, BitVec.and_twoPow]
  have hMsb := BitVec.msb_eq_decide (a - b)
  rw [BitVec.msb_eq_getLsbD_last] at hMsb
  rw [show 16 - 1 = 15 from rfl] at hMsb
  rw [hMsb]
  by_cases h : 2 ^ 15 ≤ (a - b).toNat
  · simp only [h, decide_true, if_true, iff_true]
    decide
  · simp only [h, decide_false, Bool.false_eq_true, if_false, iff_false]
    decide

variable {i : Nat}

/-- Within half a turn the comparison of wrapped numbers is the comparison of the numbers. -/
theorem seqLess_wire {p : Nat} (hAhead : i < p + 2 ^ 15) (hBehind : p ≤ i + 2 ^ 15) :
    seqLess (wire 16 i) (wire 16 p) = true ↔ i < p := by
  rw [seqLess_iff]
  rcases Nat.lt_or_ge i p with h | h
  · rw [toNat_sub_of_lt h (by omega)]
    omega
  · rw [toNat_sub_of_le h (by omega)]
    omega

section numbered

variable (sends : Nat → Packet → Prop)

/-- `delivered` are packets with increasing numbers from `pos` on, ending before `q`; a receiver can
tell every gap because it is shorter than half a turn of the counter. -/
inductive Advances : Nat → List Packet → Nat → Prop where
  | nil {pos : Nat} : Advances pos [] pos
  | cons {pos j q : Nat} {pkt : Packet} {rest : List Packet} : pos ≤ j → j < pos + 2 ^ 15 →
      sends j pkt → Advances (j + 1) rest q → Advances pos (pkt :: rest) q

/-- The same with no gap at all. -/
inductive Consecutive : Nat → List Packet → Nat → Prop where
  | nil {pos : Nat} : Consecutive pos [] pos
  | cons {pos q : Nat} {pkt : Packet} {rest : List Packet} : sends pos pkt →
      Consecutive (pos + 1) rest q → Consecutive pos (pkt :: rest) q

structure Tracks (b : ReorderBuffer) (pos top : Nat) : Prop where
  next : b.nextSeq = wire 16 pos
  pos_le : pos ≤ top
  held : ∀ seq pkt, b.pkts.lookup seq = some pkt →
    ∃ i, pos ≤ i ∧ i < pos + reorderWindow ∧ i < top ∧ seq = wire 16 i ∧ sends i pkt

end numbered

variable {sends : Nat → Packet → Prop}

theorem Advances.append {pos mid q : Nat} {l l' : List Packet} (h : Advances sends pos l mid)
    (h' : Advances sends mid l' q) : Advances sends pos (l ++ l') q := by
  induction h with
  | nil => exact h'
  | cons hLe hNear hPkt _ ih => exact .cons hLe hNear hPkt (ih h')

variable {l : List Packet}

theorem Advances.le {pos q : Nat} (h : Advances sends pos l q) : pos ≤ q := by
  induction h with
  | nil => exact le_rfl
  | cons hLe _ _ _ ih => omega

theorem Consecutive.advances {pos q : Nat} (h : Consecutive sends pos l q) : Advances sends pos l q := by
  induction h with
  | nil => exact .nil
  | cons hPkt _ ih => exact .cons le_rfl (by omega) hPkt ih

/-- A jump is visible in what is delivered as soon as something is. -/
theorem Consecutive.advances_from {pos start q : Nat} (h : Consecutive sends start l q)
    (hLe : pos ≤ start) (hNear : start < pos + 2 ^ 15) (hSome : start = pos ∨ l ≠ []) : Advances sends pos l q := by
  cases h with
  | nil =>
    obtain rfl := hSome.resolve_right (fun h => h rfl)
    exact .nil
  | cons hPkt hRest => exact .cons hLe hNear hPkt hRest.advances

namespace Tracks

variable {b : ReorderBuffer} {pos top : Nat}

section

variable (h : Tracks sends b pos top)
include h

/-- The bound on held numbers never has to be more than a window ahead. -/
theorem tighten : Tracks sends b pos (pos + reorderWindow) where
  next := h.next
  pos_le := Nat.le_add_right _ _
  held seq pkt hPkt := by
    obtain ⟨i, hLow, hHigh, _, hSeq, hStream⟩ := h.held seq pkt hPkt
    exact ⟨i, hLow, hHigh, hHigh, hSeq, hStream⟩

theorem congr {b' : ReorderBuffer} (hPkts : b'.pkts = b.pkts)
    (hNext : b'.nextSeq = b.nextSeq) : Tracks sends b' pos top where
  next := hNext.trans h.next
  pos_le := h.pos_le
  held := by rw [hPkts]; exact h.held

theorem key {seq : BitVec 16} (hSeq : seq ∈ b.pkts.keys) :
    ∃ i, pos ≤ i ∧ i < pos + reorderWindow ∧ i < top ∧ seq = wire 16 i := by
  obtain ⟨pkt, hPkt⟩ := Table.mem_iff_lookup.mp (AList.mem_keys.mpr hSeq)
  obtain ⟨i, hLow, hHigh, hLt, hEq, -⟩ := h.held seq pkt hPkt
  exact ⟨i, hLow, hHigh, hLt, hEq⟩

theorem insert {pkt : Packet} (hPkt : sends i pkt) (hSeq : pkt.sequenceNumber = wire 16 i) (hLow : pos ≤ i)
    (hHigh : i < pos + reorderWindow) :
    Tracks sends { b with pkts := b.pkts.insert pkt.sequenceNumber pkt } pos (max top (i + 1)) := by
  refine ⟨h.next, h.pos_le.trans (le_max_left _ _), fun seq pkt' hPkt' => ?_⟩
  rcases Table.lookup_insert_some hPkt' with ⟨rfl, rfl⟩ | ⟨_, hPkt'⟩
  · exact ⟨i, hLow, hHigh, by omega, hSeq, hPkt⟩
  · obtain ⟨k, hkLow, hkHigh, hkLt, hk⟩ := h.held seq pkt' hPkt'
    exact ⟨k, hkLow, hkHigh, by omega, hk⟩

theorem deliver_next {pkt : Packet} (hPkt : b.pkts.lookup b.nextSeq = some pkt) :
    sends pos pkt ∧
      Tracks sends { b with pkts := b.pkts.erase b.nextSeq, nextSeq := b.nextSeq + 1#16 } (pos + 1) top := by
  have hWindow : reorderWindow = 256 := rfl
  obtain ⟨i, hLow, hHigh, hLt, hSeq, hStream⟩ := h.held _ _ hPkt
  rw [h.next, eq_comm, wire_eq_iff (by omega) (by omega)] at hSeq
  subst hSeq
  refine ⟨hStream, ?_, hLt, ?_⟩
  · change b.nextSeq + 1#16 = _
    rw [h.next, wire_succ]
  · intro seq pkt' hPkt'
    obtain ⟨hNe, hPkt'⟩ := Table.lookup_erase_some hPkt'
    obtain ⟨k, hkLow, hkHigh, hkLt, hkSeq, hkStream⟩ := h.held seq pkt' hPkt'
    have hkNe : k ≠ i := by
      rintro rfl
      exact hNe (hkSeq.trans h.next.symm)
    exact ⟨k, by omega, by omega, hkLt, hkSeq, hkStream⟩

end

end Tracks

namespace ReorderBuffer

variable {b : ReorderBuffer} {pos top : Nat}

theorem drainLoop_none (fuel : Nat) (h : b.pkts.lookup b.nextSeq = none) : drainLoop fuel b = (b, []) := by
  cases fuel with
  | zero => rfl
  | succ fuel => rw [drainLoop, h]

variable {pkt : Packet}

theorem drainLoop_some (fuel : Nat) (h : b.pkts.lookup b.nextSeq = some pkt) :
    drainLoop (fuel + 1) b =
      ((drainLoop fuel { b with pkts := b.pkts.erase b.nextSeq, nextSeq := b.nextSeq + 1#16 }).1,
        pkt :: (drainLoop fuel { b with pkts := b.pkts.erase b.nextSeq, nextSeq := b.nextSeq + 1#16 }).2) := by
  rw [drainLoop, h]

theorem drainLoop_spec (fuel : Nat) (h : Tracks sends b pos top) :
    ∃ q, Consecutive sends pos (drainLoop fuel b).2 q ∧ Tracks sends (drainLoop fuel b).1 q top ∧
      (drainLoop fuel b).1.started = b.started ∧ (drainLoop fuel b).1.gapSince = b.gapSince ∧
      ∀ j, q ≤ j → j < pos + reorderWindow →
        (drainLoop fuel b).1.pkts.lookup (wire 16 j) = b.pkts.lookup (wire 16 j) := by
  have hWindow : reorderWindow = 256 := rfl
  induction fuel generalizing b pos with
  | zero => exact ⟨pos, .nil, h, rfl, rfl, fun _ _ _ => rfl⟩
  | succ fuel ih =>
    cases hPkt : b.pkts.lookup b.nextSeq with
    | none =>
      rw [drainLoop_none _ hPkt]
      exact ⟨pos, .nil, h, rfl, rfl, fun _ _ _ => rfl⟩
    | some pkt =>
      obtain ⟨hSends, hNext⟩ := h.deliver_next hPkt
      obtain ⟨q, hRun, hTracks, hStarted, hGap, hRest⟩ := ih hNext
      have hLater := hRun.advances.le
      rw [drainLoop_some _ hPkt]
      refine ⟨q, .cons hSends hRun, hTracks, hStarted, hGap, fun j hLow hHigh => (hRest j hLow (by omega)).trans ?_⟩
      refine AList.lookup_erase_ne fun hSame => ?_
      rw [h.next, wire_eq_iff (by omega) (by omega)] at hSame
      omega

section

variable (h : Tracks sends b pos top)
include h

theorem drain_spec :
    ∃ q, Consecutive sends pos b.drain.2 q ∧ Tracks sends b.drain.1 q top ∧
      b.drain.1.started = b.started ∧ b.drain.1.gapSince = b.gapSince ∧
      ∀ j, q ≤ j → j < pos + reorderWindow → b.drain.1.pkts.lookup (wire 16 j) = b.pkts.lookup (wire 16 j) :=
  drainLoop_spec _ h

omit h in
/-- The rounds allowed to `drain` are enough: it ends because the next packet is missing. -/
theorem drainLoop_stops (fuel : Nat) (h : b.pkts.keys.length ≤ fuel) :
    (drainLoop fuel b).1.pkts.lookup (drainLoop fuel b).1.nextSeq = none := by
  induction fuel generalizing b with
  | zero =>
    cases hPkt : b.pkts.lookup b.nextSeq with
    | none => exact hPkt
    | some pkt =>
      have hPos := Table.length_keys_pos hPkt
      omega
  | succ fuel ih =>
    cases hPkt : b.pkts.lookup b.nextSeq with
    | none =>
      rw [drainLoop_none _ hPkt]
      exact hPkt
    | some pkt =>
      have hLength := Table.length_keys_erase hPkt
      rw [drainLoop_some _ hPkt]
      exact ih (by dsimp only; omega)

omit h in
theorem drain_stops (b : ReorderBuffer) : b.drain.1.pkts.lookup b.drain.1.nextSeq = none :=
  drainLoop_stops _ le_rfl

omit h in
theorem drainLoop_length (fuel : Nat) : (drainLoop fuel b).1.pkts.keys.length + (drainLoop fuel b).2.length =
    b.pkts.keys.length := by
  induction fuel generalizing b with
  | zero => rfl
  | succ fuel ih =>
    cases hPkt : b.pkts.lookup b.nextSeq with
    | none =>
      rw [drainLoop_none _ hPkt]
      rfl
    | some pkt =>
      have hLength := Table.length_keys_erase hPkt
      have hRest := ih (b := { b with pkts := b.pkts.erase b.nextSeq, nextSeq := b.nextSeq + 1#16 })
      rw [drainLoop_some _ hPkt, List.length_cons]
      dsimp only at hRest ⊢
      omega

omit h in
theorem drain_ne_nil (h : (b.pkts.lookup b.nextSeq).isSome) : b.drain.2 ≠ [] := by
  obtain ⟨pkt, hPkt⟩ := Option.isSome_iff_exists.mp h
  obtain ⟨n, hn⟩ := Nat.exists_eq_succ_of_ne_zero (Table.length_keys_pos hPkt).ne'
  rw [drain, hn, drainLoop_some _ hPkt]
  exact List.cons_ne_nil _ _

omit h in
/-- The running minimum over wrapped numbers of one window finds the least number. -/
theorem foldl_older {q : Nat} {l : List (BitVec 16)} (hLow : pos ≤ q) (hHigh : q < pos + reorderWindow)
    (hl : ∀ seq ∈ l, ∃ i, pos ≤ i ∧ i < pos + reorderWindow ∧ seq = wire 16 i) :
    ∃ least, l.foldl older (some (wire 16 q)) = some (wire 16 least) ∧ pos ≤ least ∧ least ≤ q ∧
      (least = q ∨ wire 16 least ∈ l) ∧
      ∀ i, pos ≤ i → i < pos + reorderWindow → wire 16 i ∈ l → least ≤ i := by
  have hWindow : reorderWindow = 256 := rfl
  induction l generalizing q with
  | nil => exact ⟨q, rfl, hLow, le_rfl, .inl rfl, nofun⟩
  | cons seq rest ih =>
    obtain ⟨i, hiLow, hiHigh, rfl⟩ := hl seq (.head _)
    have hRest : ∀ seq ∈ rest, ∃ i, pos ≤ i ∧ i < pos + reorderWindow ∧ seq = wire 16 i :=
      fun s hs => hl s (.tail _ hs)
    have hOlder : older (some (wire 16 q)) (wire 16 i) = some (wire 16 (min i q)) := by
      rcases Nat.lt_or_ge i q with hLt | hGe
      · rw [older, if_pos ((seqLess_wire (by omega) (by omega)).mpr hLt), min_eq_left hLt.le]
      · rw [older, if_neg (fun h => absurd ((seqLess_wire (by omega) (by omega)).mp h) (by omega)),
          min_eq_right hGe]
    obtain ⟨least, hFold, hLeast, hLe, hMem, hMin⟩ := ih (q := min i q) (by omega) (by omega) hRest
    rw [List.foldl_cons, hOlder]
    refine ⟨least, hFold, hLeast, by omega, ?_, ?_⟩
    · rcases hMem with hEq | hMem
      · rcases Nat.lt_or_ge i q with hLt | hGe
        · exact .inr (by rw [hEq, min_eq_left hLt.le]; exact .head _)
        · exact .inl (by omega)
      · exact .inr (.tail _ hMem)
    · intro k hkLow hkHigh hk
      rcases List.mem_cons.mp hk with hEq | hk
      · have hki : k = i := (wire_eq_iff (by omega) (by omega)).mp hEq
        omega
      · exact hMin k hkLow hkHigh hk

theorem skipToOldest_spec (hSome : b.pkts.keys ≠ []) :
    ∃ q, pos ≤ q ∧ q < pos + reorderWindow ∧ q < top ∧ Tracks sends b.skipToOldest q top ∧
      (b.skipToOldest.pkts.lookup b.skipToOldest.nextSeq).isSome := by
  have hWindow : reorderWindow = 256 := rfl
  obtain ⟨seq, rest, hKeys⟩ := List.exists_cons_of_ne_nil hSome
  obtain ⟨i, hLow, hHigh, hLt, rfl⟩ := h.key (hKeys ▸ List.mem_cons_self)
  have hRest : ∀ s ∈ rest, ∃ i, pos ≤ i ∧ i < pos + reorderWindow ∧ s = wire 16 i := by
    intro s hs
    obtain ⟨k, hkLow, hkHigh, _, hk⟩ := h.key (hKeys ▸ List.mem_cons_of_mem _ hs)
    exact ⟨k, hkLow, hkHigh, hk⟩
  obtain ⟨least, hFold, hLeast, hLe, hMem, hMin⟩ := foldl_older hLow hHigh hRest
  have hNext : b.skipToOldest.nextSeq = wire 16 least := by
    change (b.pkts.keys.foldl older none).getD 0#16 = _
    rw [hKeys, List.foldl_cons, older, hFold]
    rfl
  have hHeld : wire 16 least ∈ b.pkts := by
    rw [AList.mem_keys, hKeys]
    rcases hMem with rfl | hMem
    · exact .head _
    · exact .tail _ hMem
  refine ⟨least, hLeast, by omega, by omega, ⟨hNext, by omega, ?_⟩, ?_⟩
  · intro s pkt hPkt
    obtain ⟨k, hkLow, hkHigh, hkLt, rfl, hkStream⟩ := h.held s pkt hPkt
    have hkMem : wire 16 k ∈ b.pkts.keys := AList.mem_keys.mp (Table.mem_iff_lookup.mpr ⟨pkt, hPkt⟩)
    have hkLeast : least ≤ k := by
      rw [hKeys] at hkMem
      rcases List.mem_cons.mp hkMem with hEq | hkMem
      · have hki : k = i := (wire_eq_iff (by omega) (by omega)).mp hEq
        omega
      · exact hMin k hkLow hkHigh hkMem
    exact ⟨k, hkLeast, by omega, hkLt, rfl, hkStream⟩
  · rw [hNext]
    exact AList.lookup_isSome.mpr hHeld

variable {from' : Nat}

theorem drain_from (hLe : from' ≤ pos) (hNear : pos < from' + 2 ^ 15)
    (hSome : pos = from' ∨ (b.pkts.lookup b.nextSeq).isSome) :
    ∃ q, Advances sends from' b.drain.2 q ∧ Tracks sends b.drain.1 q top ∧
      b.drain.1.started = b.started ∧ b.drain.1.gapSince = b.gapSince := by
  obtain ⟨q, hRun, hTracks, hStarted, hGap, -⟩ := drain_spec h
  exact ⟨q, hRun.advances_from hLe hNear (hSome.imp id drain_ne_nil), hTracks, hStarted, hGap⟩

theorem skip_drain (hLe : from' ≤ pos)
    (hNear : min (pos + reorderWindow) top ≤ from' + 2 ^ 15) (hSome : b.pkts.keys ≠ []) :
    ∃ q, Advances sends from' b.skipToOldest.drain.2 q ∧ Tracks sends b.skipToOldest.drain.1 q top ∧
      b.skipToOldest.drain.1.started = b.started ∧ b.skipToOldest.drain.1.gapSince = b.gapSince := by
  obtain ⟨q, hLow, hHigh, hTop, hTracks, hHead⟩ := skipToOldest_spec h hSome
  exact drain_from hTracks (hLe.trans hLow) (by omega) (.inr hHead)

omit h in
theorem makeRoom_spec (seq : BitVec 16) (fuel : Nat) (h : Tracks sends b pos top) :
    ∃ q, Advances sends pos (makeRoom seq fuel b).2 q ∧ Tracks sends (makeRoom seq fuel b).1 q top ∧
      (makeRoom seq fuel b).1.started = b.started ∧ (makeRoom seq fuel b).1.gapSince = b.gapSince := by
  induction fuel generalizing b pos with
  | zero => exact ⟨pos, .nil, h, rfl, rfl⟩
  | succ fuel ih =>
    rw [makeRoom]
    split
    · rename_i hGuard
      have hWindow : reorderWindow = 256 := rfl
      obtain ⟨mid, hFirst, hMid, hStarted, hGap⟩ :=
        skip_drain h le_rfl (by omega) (List.ne_nil_of_length_pos hGuard.1)
      obtain ⟨q, hRest, hTracks, hStarted', hGap'⟩ := ih hMid
      exact ⟨q, hFirst.append hRest, hTracks, hStarted'.trans hStarted, hGap'.trans hGap⟩
    · exact ⟨pos, .nil, h, rfl, rfl⟩

omit h in
/-- The rounds allowed to `makeRoom` are enough: it ends because its guard fails. -/
theorem makeRoom_stops (seq : BitVec 16) (fuel : Nat) (h : Tracks sends b pos top) (hFuel : b.pkts.keys.length ≤ fuel) :
    (makeRoom seq fuel b).1.pkts.keys = [] ∨ (seq - (makeRoom seq fuel b).1.nextSeq).toNat < reorderWindow := by
  induction fuel generalizing b pos with
  | zero => exact .inl (List.eq_nil_of_length_eq_zero (Nat.le_zero.mp hFuel))
  | succ fuel ih =>
    rw [makeRoom]
    split
    · rename_i hGuard
      have hWindow : reorderWindow = 256 := rfl
      have hSome := List.ne_nil_of_length_pos hGuard.1
      obtain ⟨q, _, _, _, hSkip, hHead⟩ := skipToOldest_spec h hSome
      obtain ⟨mid, _, hMid, _⟩ := drain_spec hSkip
      have hLength := drainLoop_length (b := b.skipToOldest) b.skipToOldest.pkts.keys.length
      have hPos := List.length_pos_of_ne_nil (drain_ne_nil hHead)
      refine ih hMid ?_
      change (b.skipToOldest.drain.1.pkts.keys.length) + b.skipToOldest.drain.2.length = b.pkts.keys.length at hLength
      omega
    · rename_i hGuard
      by_cases hEmpty : b.pkts.keys.length > 0
      · exact .inr (Nat.lt_of_not_le fun hFar => hGuard ⟨hEmpty, hFar⟩)
      · exact .inl (List.eq_nil_of_length_eq_zero (Nat.eq_zero_of_not_pos hEmpty))

omit h in
/-- After `advance` the packet `i` fits the window. Either everything up to the new position was
delivered, or the buffer is empty and now stands at `i` itself. -/
theorem advance_spec (h : Tracks sends b pos (pos + reorderWindow)) (hLow : pos ≤ i) (hHigh : i < pos + 2 ^ 15) :
    ∃ q r top, Advances sends pos (b.advance (wire 16 i)).2 q ∧ q ≤ r ∧ r ≤ i ∧ i < r + reorderWindow ∧ pos ≤ q ∧
      top ≤ max (pos + reorderWindow) i ∧ Tracks sends (b.advance (wire 16 i)).1 r top ∧ (r = q ∨ r = i ∧ top ≤ i) ∧
      (b.advance (wire 16 i)).1.started = b.started ∧ (b.advance (wire 16 i)).1.gapSince = b.gapSince := by
  have hWindow : reorderWindow = 256 := rfl
  have hOffset : (wire 16 i - b.nextSeq).toNat = i - pos := by
    rw [h.next]
    exact toNat_sub_of_le hLow (by omega)
  unfold advance
  split
  · rename_i hFar
    rw [hOffset] at hFar
    obtain ⟨q, hRun, hTracks, hStarted, hGap⟩ := makeRoom_spec (wire 16 i) b.pkts.keys.length h
    have hStops := makeRoom_stops (wire 16 i) b.pkts.keys.length h le_rfl
    have hq := hTracks.pos_le
    have hqLow : pos ≤ q := hRun.le
    have hOffset' : (wire 16 i - (makeRoom (wire 16 i) b.pkts.keys.length b).1.nextSeq).toNat = i - q := by
      rw [hTracks.next]
      exact toNat_sub_of_le (by omega) (by omega)
    rw [hOffset'] at hStops
    dsimp only
    rw [hOffset']
    split
    · rename_i hStill
      have hEmpty := hStops.resolve_right (by omega)
      refine ⟨q, i, i, hRun, by omega, le_rfl, by omega, hqLow, le_max_right _ _, ⟨rfl, le_rfl, ?_⟩, .inr ⟨rfl, le_rfl⟩, hStarted, hGap⟩
      intro seq pkt hPkt
      have hMem := Table.length_keys_pos hPkt
      rw [hEmpty] at hMem
      cases hMem
    · exact ⟨q, q, _, hRun, le_rfl, by omega, by omega, hqLow, le_max_left _ _, hTracks, .inl rfl, hStarted, hGap⟩
  · rename_i hClose
    rw [hOffset] at hClose
    exact ⟨pos, pos, _, .nil, le_rfl, hLow, by omega, le_rfl, le_max_left _ _, h, .inl rfl, rfl, rfl⟩

/-- The buffer between two operations: it stands at `pos` once it has started, and a gap is timed
only while something is held. -/
structure Settled (sends : Nat → Packet → Prop) (b : ReorderBuffer) (pos : Nat) : Prop where
  tracks : b.started = true → Tracks sends b pos (pos + reorderWindow)
  idle : b.started = false → b.gapSince = 0 ∧ b.pkts = ∅
  gap : b.gapSince ≠ 0 → b.pkts.keys ≠ []

omit h in
theorem settled_new (pos : Nat) : Settled sends newReorderBuffer pos := 
  ⟨nofun, fun _ => ⟨rfl, rfl⟩, fun h => absurd rfl h⟩

theorem Settled.of_tracks (hStarted : b.started = true)
    (hGap : b.gapSince ≠ 0 → b.pkts.keys ≠ []) : Settled sends b pos :=
  ⟨fun _ => h.tighten, fun hNot => absurd (hStarted.symm.trans hNot) nofun, hGap⟩

/-- Storing packet `i` and draining delivers from `from'` on, whether or not the gap is given up. -/
theorem store_drain (hPkt : sends i pkt)
    (hSeq : pkt.sequenceNumber = wire 16 i) (hLow : pos ≤ i) (hHigh : i < pos + reorderWindow)
    (hLe : from' ≤ pos) (hNear : i < from' + 2 ^ 15) (hJump : pos = from' ∨ pos = i ∧ top ≤ i) (since : Duration) :
    ∃ q, Advances sends from' (b.store pkt since).drain.2 q ∧
      Tracks sends (b.store pkt since).drain.1 q (max top (i + 1)) ∧
      (b.store pkt since).drain.1.started = b.started ∧ (b.store pkt since).drain.1.gapSince = b.gapSince := by
  have hWindow : reorderWindow = 256 := rfl
  have hInsert := h.insert hPkt hSeq hLow hHigh
  unfold store
  dsimp only
  split
  · have hSome : (b.pkts.insert pkt.sequenceNumber pkt).keys ≠ [] :=
      List.ne_nil_of_length_pos (Table.length_keys_pos (AList.lookup_insert _))
    exact skip_drain hInsert hLe (by omega) hSome
  · have hHead : pos = from' ∨ ((b.pkts.insert pkt.sequenceNumber pkt).lookup b.nextSeq).isSome := by
      refine hJump.imp id ?_
      rintro ⟨rfl, -⟩
      rw [h.next, ← hSeq, AList.lookup_insert]
      rfl
    exact drain_from hInsert hLe (by omega) hHead

omit h in
theorem noteGap_same (b : ReorderBuffer) (previousNext : BitVec 16) (now : Instant) :
    (b.noteGap previousNext now).pkts = b.pkts ∧ (b.noteGap previousNext now).nextSeq = b.nextSeq ∧
      (b.noteGap previousNext now).started = b.started := by
  unfold noteGap
  split
  · exact ⟨rfl, rfl, rfl⟩
  · split <;> exact ⟨rfl, rfl, rfl⟩

theorem noteGap_settled (hStarted : b.started = true) (previousNext : BitVec 16)
    (now : Instant) : Settled sends (b.noteGap previousNext now) pos ∧
      (b.noteGap previousNext now).started = true := by
  obtain ⟨hPkts, hNext, hSame⟩ := b.noteGap_same previousNext now
  have hOn := hSame.trans hStarted
  refine ⟨.of_tracks (h.congr hPkts hNext) hOn fun hGap hNone => hGap ?_, hOn⟩
  rw [hPkts] at hNone
  rw [noteGap, if_pos (by rw [hNone]; rfl)]

end

/-- With positive clock readings a gap is timed whenever something is held. -/
structure Timed (b : ReorderBuffer) : Prop where
  nonneg : 0 ≤ b.gapSince
  held : b.pkts.keys ≠ [] → b.gapSince ≠ 0

theorem noteGap_timed {previousNext : BitVec 16} {now : Instant} (h : 0 ≤ b.gapSince) (hNow : 0 < now) :
    (b.noteGap previousNext now).Timed := by
  unfold noteGap
  split
  · rename_i hNone
    exact ⟨le_rfl, fun hSome => absurd (List.eq_nil_of_length_eq_zero hNone) hSome⟩
  · split
    · exact ⟨hNow.le, fun _ => hNow.ne'⟩
    · rename_i hOpen
      refine ⟨h, fun _ hZero => hOpen (.inl ?_)⟩
      rw [hZero]
      rfl

theorem Settled.place (h : Settled sends b pos) (hSeq : pkt.sequenceNumber = wire 16 i) :
    Settled sends (b.place pkt) (if b.started then pos else i) ∧ (b.place pkt).started = true := by
  unfold ReorderBuffer.place
  cases hStarted : b.started with
  | true => exact ⟨h, hStarted⟩
  | false =>
    obtain ⟨hGap, hEmpty⟩ := h.idle hStarted
    have hTracks : Tracks sends { b with started := true, nextSeq := pkt.sequenceNumber } i i := by
      refine ⟨hSeq, le_rfl, ?_⟩
      rw [hEmpty]
      exact nofun
    exact ⟨.of_tracks hTracks rfl fun hOpen => absurd hGap hOpen, rfl⟩

theorem accept_spec (h : Settled sends b pos) (hStarted : b.started = true)
    (hPkt : sends i pkt) (hSeq : pkt.sequenceNumber = wire 16 i) (hAhead : i < pos + 2 ^ 15)
    (hBehind : pos ≤ i + 2 ^ 15) (since : Duration) (now : Instant) :
    ∃ q, Advances sends pos (b.accept pkt since now).2 q ∧ q < pos + 2 ^ 16 ∧
      Settled sends (b.accept pkt since now).1 q ∧ (b.accept pkt since now).1.started = true ∧
      (b.Timed → 0 < now → (b.accept pkt since now).1.Timed) := by
  have hWindow : reorderWindow = 256 := rfl
  have hTracks := h.tracks hStarted
  unfold accept
  split
  · exact ⟨pos, .nil, Nat.lt_add_of_pos_right (by decide), h, hStarted, fun hTimed _ => hTimed⟩
  rename_i hFresh
  rw [hSeq, hTracks.next, seqLess_wire hAhead hBehind] at hFresh
  obtain ⟨q, r, top, hEarly, hqr, hri, hir, hpq, hTop, hAdvanced, hJump, hSame, hGap⟩ :=
    advance_spec hTracks (Nat.le_of_not_lt hFresh) hAhead
  rw [← hSeq] at hEarly hAdvanced hSame hGap
  obtain ⟨q', hLate, hDrained, hSame', hGap'⟩ :=
    store_drain hAdvanced hPkt hSeq hri hir hqr (by omega) hJump since
  obtain ⟨hSettled, hOn⟩ := noteGap_settled hDrained (hSame'.trans (hSame.trans hStarted)) b.nextSeq now
  have hEnd := hDrained.pos_le
  dsimp only
  refine ⟨q', hEarly.append hLate, by omega, hSettled, hOn, fun hTimed hNow => noteGap_timed ?_ hNow⟩
  rw [hGap', hGap]
  exact hTimed.nonneg

theorem expire_spec (h : Settled sends b pos) (now : Instant) :
    ∃ q, Advances sends pos (b.expire now).2 q ∧ q < pos + 2 ^ 16 ∧ Settled sends (b.expire now).1 q ∧
      (b.expire now).1.started = b.started := by
  have hWindow : reorderWindow = 256 := rfl
  unfold expire
  split
  · exact ⟨pos, .nil, Nat.lt_add_of_pos_right (by decide), h, rfl⟩
  rename_i hDue
  have hGap : b.gapSince ≠ 0 := by
    intro hZero
    exact hDue (.inl (by rw [hZero]; rfl))
  have hStarted : b.started = true := by
    cases hOn : b.started with
    | true => rfl
    | false => exact absurd (h.idle hOn).1 hGap
  obtain ⟨q, hRun, hTracks, hSame, _⟩ := skip_drain (h.tracks hStarted) le_rfl (by omega) (h.gap hGap)
  have hEnd := hTracks.pos_le
  have hOn := hSame.trans hStarted
  dsimp only
  split
  · exact ⟨q, hRun, by omega, .of_tracks (hTracks.congr rfl rfl) hOn fun hZero => absurd rfl hZero, hSame⟩
  · rename_i hSome
    have hKeys : b.skipToOldest.drain.1.pkts.keys ≠ [] := fun hNil => hSome (by rw [hNil]; rfl)
    exact ⟨q, hRun, by omega, .of_tracks (hTracks.congr rfl rfl) hOn fun _ => hKeys, hSame⟩

end ReorderBuffer

end FamilyConnect.Telemost
