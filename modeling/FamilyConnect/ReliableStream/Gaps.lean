import FamilyConnect.ReliableStream.EngineInvariant

/-!
# Gap accounting

The gap table holds the missing blocks below the highest buffered one. A run
is recorded in a `GapLog`: the sequence numbers that entered the table and
those that left it, in the order in which the calls did it.
-/

namespace FamilyConnect.ReliableStream

open Lib

namespace Engine

structure Intake where
  receive : Nat
  buffer : Table Nat (List UInt8)
  gaps : Table Nat Instant
  detected : Nat
  recovered : Nat

def intake (e : Engine) : Intake := ⟨e.receive, e.buffer, e.gaps, e.gapsDetected, e.gapsRecovered⟩

def opened (e e' : Engine) : List Nat := e'.gaps.keys.filter fun m => (e.gaps.lookup m).isNone

def closed (e e' : Engine) : List Nat := opened e' e

def Missing (e : Engine) (m : Nat) : Prop := e.receive ≤ m ∧ m ∉ e.buffer ∧ ∃ k ∈ e.buffer, m < k

theorem noteGaps_spec (now : Instant) (l : List Nat) (e : Engine) :
    ∃ fresh : List Nat, (l.foldl (noteGap now) e).gaps.keys.Perm (fresh ++ e.gaps.keys) ∧
      (l.foldl (noteGap now) e).gapsDetected = e.gapsDetected + fresh.length ∧
      ∀ m, m ∈ fresh ↔ m ∈ l ∧ m ∉ e.buffer ∧ m ∉ e.gaps := by
  induction l generalizing e with
  | nil => exact ⟨[], .refl _, rfl, by simp⟩
  | cons k l ih =>
    rw [List.foldl_cons, noteGap]
    split
    · rename_i hBuffered
      obtain ⟨fresh, hKeys, hCount, hMem⟩ := ih e
      refine ⟨fresh, hKeys, hCount, ?_⟩
      intro m
      rw [hMem, List.mem_cons]
      have hk : k ∈ e.buffer := AList.lookup_isSome.mp hBuffered
      grind
    split
    · rename_i hKnown
      obtain ⟨fresh, hKeys, hCount, hMem⟩ := ih e
      refine ⟨fresh, hKeys, hCount, ?_⟩
      intro m
      rw [hMem, List.mem_cons]
      have hk : k ∈ e.gaps := AList.lookup_isSome.mp hKnown
      grind
    · rename_i hBuffered hKnown
      have hAbsent : k ∉ e.buffer := fun hk => hBuffered (AList.lookup_isSome.mpr hk)
      have hNew : k ∉ e.gaps := fun hk => hKnown (AList.lookup_isSome.mpr hk)
      obtain ⟨fresh, hKeys, hCount, hMem⟩ :=
        ih { e with gaps := e.gaps.insert k now, gapsDetected := e.gapsDetected + 1 }
      refine ⟨k :: fresh, ?_, ?_, ?_⟩
      · refine hKeys.trans ?_
        rw [AList.keys_insert, List.erase_of_not_mem hNew]
        exact List.perm_middle
      · rw [hCount, List.length_cons]
        dsimp only
        omega
      · intro m
        rw [List.mem_cons, hMem, List.mem_cons]
        simp only [AList.mem_insert]
        grind

theorem closeGap_spec (e : Engine) (seq : Nat) :
    (e.closeGap seq).gaps.keys = e.gaps.keys.erase seq ∧
      (e.closeGap seq).gapsRecovered = e.gapsRecovered + e.gaps.keys.count seq := by
  have hNodup : e.gaps.keys.Nodup := e.gaps.keys_nodup
  unfold closeGap
  split
  · rename_i hKnown
    have hMem : seq ∈ e.gaps.keys := AList.lookup_isSome.mp hKnown
    exact ⟨AList.keys_erase _ _, by rw [List.count_eq_one_of_mem hNodup hMem]⟩
  · rename_i hKnown
    have hMem : seq ∉ e.gaps.keys := fun hk => hKnown (AList.lookup_isSome.mpr hk)
    exact ⟨(List.erase_of_not_mem hMem).symm, by rw [List.count_eq_zero_of_not_mem hMem]; rfl⟩

/-- What a block buffered for the first time does: `fresh` are the gaps it opens below itself, and
its own gap is closed. -/
structure Arrival (e e' : Engine) (seq : Nat) (data : List UInt8) (fresh : List Nat) : Prop where
  low : e.receive ≤ seq
  absent : seq ∉ e.buffer
  receive : e'.receive = e.receive
  buffer : e'.buffer = e.buffer.insert seq data
  keys : e'.gaps.keys.Perm (fresh ++ e.gaps.keys.erase seq)
  detected : e'.gapsDetected = e.gapsDetected + fresh.length
  recovered : e'.gapsRecovered = e.gapsRecovered + e.gaps.keys.count seq
  mem_fresh : ∀ m, m ∈ fresh ↔ (e.receive ≤ m ∧ m < seq) ∧ m ∉ e.buffer ∧ m ∉ e.gaps

theorem inputData_intake (e : Engine) (f : Frame) (now : Instant) :
    (e.inputData f now).1.intake = e.intake ∨ ∃ fresh, Arrival e (e.inputData f now).1 f.seq f.data fresh := by
  unfold inputData
  split
  · exact .inl rfl
  split
  · exact .inl rfl
  rename_i hLow
  split
  · exact .inl rfl
  split
  · split <;> exact .inl rfl
  rename_i hNone
  right
  dsimp only
  let stored : Engine :=
    { e with buffer := e.buffer.insert f.seq f.data, bufferedBytes := e.bufferedBytes + f.data.length }
  obtain ⟨fresh, hKeys, hDetected, hMem⟩ := noteGaps_spec now (List.range' e.receive (f.seq - e.receive)) stored
  obtain ⟨gaps, detected, hNote⟩ := noteGaps_eq now (List.range' e.receive (f.seq - e.receive)) stored
  obtain ⟨hErase, hRecovered⟩ :=
    closeGap_spec ((List.range' e.receive (f.seq - e.receive)).foldl (noteGap now) stored) f.seq
  obtain ⟨gaps', recovered, hClose⟩ :=
    closeGap_eq ((List.range' e.receive (f.seq - e.receive)).foldl (noteGap now) stored) f.seq
  have hFresh : ∀ m, m ∈ fresh ↔ (e.receive ≤ m ∧ m < f.seq) ∧ m ∉ e.buffer ∧ m ∉ e.gaps := by
    intro m
    rw [hMem, List.mem_range'_1, AList.mem_insert]
    constructor
    · rintro ⟨hRange, hBuffer, hGaps⟩
      exact ⟨by omega, fun hm => hBuffer (.inr hm), hGaps⟩
    · rintro ⟨hRange, hBuffer, hGaps⟩
      refine ⟨by omega, ?_, hGaps⟩
      rintro (hEq | hm)
      · omega
      · exact hBuffer hm
  have hOutside : f.seq ∉ fresh := fun hm => by
    have := ((hFresh f.seq).mp hm).1
    omega
  refine ⟨fresh, ?_⟩
  constructor
  case low => omega
  case absent =>
    intro hm
    obtain ⟨d, hd⟩ := Table.mem_iff_lookup.mp hm
    rw [hd] at hNone
    cases hNone
  case receive | buffer => rw [hClose, hNote]
  case keys =>
    rw [hErase]
    refine (hKeys.erase f.seq).trans ?_
    rw [List.erase_append_right _ hOutside]
  case detected =>
    rw [hClose]
    exact hDetected
  case recovered =>
    rw [hRecovered, hKeys.count_eq, List.count_append, List.count_eq_zero_of_not_mem hOutside, hNote, Nat.zero_add]
  case mem_fresh => exact hFresh

theorem input_intake (e : Engine) (f : Frame) (now : Instant) :
    (e.input f now).1.intake = e.intake ∨ ∃ fresh, Arrival e (e.input f now).1 f.seq f.data fresh := by
  unfold input
  split
  · exact .inl rfl
  split
  · obtain ⟨_, _, _, _, _, _, hEq⟩ := inputOpen_frame e f now
    rw [hEq]
    exact .inl rfl
  split
  · exact .inl rfl
  split
  · exact .inl rfl
  · obtain ⟨_, _, _, _, _, _, _, _, hEq⟩ := inputAck_frame e f now
    rw [hEq]
    exact .inl rfl
  · exact inputData_intake e f now
  · exact .inl rfl

theorem Step.intake {e e' : Engine} (h : e.Inv) (hStep : Step e e') :
    e'.intake = e.intake ∨ (∃ seq data fresh, Arrival e e' seq data fresh) ∨
      (e.receive ∈ e.buffer ∧
        e'.intake = { e.intake with receive := e.receive + 1, buffer := e.buffer.erase e.receive }) := by
  cases hStep with
  | input =>
    rename_i f now _ _ _
    rcases input_intake e f now with hSame | ⟨fresh, hArrival⟩
    · exact .inl hSame
    · exact .inr (.inl ⟨_, _, fresh, hArrival⟩)
  | send hSend =>
    obtain ⟨_, _, _, _, _, _, hEq⟩ := send_ok h hSend
    rw [hEq]
    exact .inl rfl
  | consume hHead =>
    obtain ⟨data, hData⟩ := Option.isSome_iff_exists.mp hHead
    obtain ⟨_, _, _, hEq⟩ := consume_eq h hData
    rw [hEq]
    exact .inr (.inr ⟨AList.lookup_isSome.mp hHead, rfl⟩)
  | tick =>
    obtain ⟨_, _, _, _, _, _, _, _, hEq⟩ := tick_frame e _
    rw [hEq]
    exact .inl rfl

/-! ## What the two ghost lists gain -/

theorem opened_self {e e' : Engine} (h : e'.gaps = e.gaps) : opened e e' = [] := by
  rw [opened, List.filter_eq_nil_iff, h]
  intro m hm
  have hSome : (e.gaps.lookup m).isSome := AList.lookup_isSome.mpr hm
  cases hLookup : e.gaps.lookup m with
  | none => rw [hLookup] at hSome; cases hSome
  | some t => simp

variable {e e' : Engine} {seq : Nat} {data : List UInt8} {fresh : List Nat}

theorem isNone_gaps (e : Engine) (m : Nat) : (e.gaps.lookup m).isNone = true ↔ m ∉ e.gaps := by
  rw [AList.lookup_eq_none.symm, Option.isNone_iff_eq_none]

section

variable (h : Arrival e e' seq data fresh)
include h

theorem Arrival.mem_gaps (m : Nat) : m ∈ e'.gaps ↔ m ∈ fresh ∨ m ≠ seq ∧ m ∈ e.gaps := by
  rw [AList.mem_keys, AList.mem_keys, h.keys.mem_iff, List.mem_append, e.gaps.keys_nodup.mem_erase_iff]

theorem Arrival.opened : (Engine.opened e e').Perm fresh := by
  have hFresh : fresh.filter (fun m => (e.gaps.lookup m).isNone) = fresh := by
    rw [List.filter_eq_self]
    intro m hm
    exact (isNone_gaps e m).mpr ((h.mem_fresh m).mp hm).2.2
  have hOld : (e.gaps.keys.erase seq).filter (fun m => (e.gaps.lookup m).isNone) = [] := by
    rw [List.filter_eq_nil_iff]
    intro m hm hNone
    exact (isNone_gaps e m).mp hNone (AList.mem_keys.mpr (List.mem_of_mem_erase hm))
  have hFilter := h.keys.filter fun m => (e.gaps.lookup m).isNone
  rw [List.filter_append, hFresh, hOld, List.append_nil] at hFilter
  exact hFilter

theorem Arrival.closed : Engine.closed e e' = List.replicate (e.gaps.keys.count seq) seq := by
  rw [Engine.closed, Engine.opened, ← List.filter_beq]
  apply List.filter_congr
  intro m hm
  rw [Bool.eq_iff_iff, isNone_gaps, h.mem_gaps, beq_iff_eq]
  have hFresh : m ∉ fresh := fun hf => ((h.mem_fresh m).mp hf).2.2 (AList.mem_keys.mpr hm)
  have hGap : m ∈ e.gaps := AList.mem_keys.mpr hm
  tauto

theorem Arrival.keys_perm :
    (e.gaps.keys ++ Engine.opened e e').Perm (Engine.closed e e' ++ e'.gaps.keys) := by
  have hSplit : e.gaps.keys.Perm (Engine.closed e e' ++ e.gaps.keys.erase seq) := by
    rw [h.closed]
    by_cases hMem : seq ∈ e.gaps.keys
    · rw [List.count_eq_one_of_mem e.gaps.keys_nodup hMem]
      exact List.perm_cons_erase hMem
    · rw [List.count_eq_zero_of_not_mem hMem, List.erase_of_not_mem hMem]
      exact .refl _
  refine (hSplit.append h.opened).trans ?_
  rw [List.append_assoc]
  exact (List.perm_append_comm.trans h.keys.symm).append_left _

end

end Engine

open Engine

/-! ## Runs with their log -/

structure GapLog where
  engine : Engine
  detected : List Nat := []
  recovered : List Nat := []

namespace GapLog

def after (L : GapLog) (e' : Engine) : GapLog :=
  ⟨e', L.detected ++ opened L.engine e', L.recovered ++ closed L.engine e'⟩

inductive Step : GapLog → GapLog → Prop where
  | call {L : GapLog} {e' : Engine} : Engine.Step L.engine e' → Step L (L.after e')

structure Inv (L : GapLog) : Prop where
  exact : ∀ m, m ∈ L.engine.gaps ↔ L.engine.Missing m
  split : L.detected.Perm (L.recovered ++ L.engine.gaps.keys)
  once : L.detected.Nodup
  passed : ∀ m ∈ L.recovered, m < L.engine.receive ∨ m ∈ L.engine.buffer
  detected_count : L.engine.gapsDetected = L.detected.length
  recovered_count : L.engine.gapsRecovered = L.recovered.length

variable {L : GapLog} {e' : Engine}

theorem inv_start (config : Config) (localEpoch : Epoch) (now : Instant) :
    Inv { engine := newEngine config localEpoch now } where
  exact m := by
    constructor
    · intro h
      cases h
    · rintro ⟨_, _, k, hk, _⟩
      cases hk
  split := .refl _
  once := .nil
  passed _ h := by cases h
  detected_count := rfl
  recovered_count := rfl

theorem Inv.same (h : L.Inv) (hSame : e'.intake = L.engine.intake) : (L.after e').Inv := by
  have hReceive : e'.receive = L.engine.receive := congrArg Intake.receive hSame
  have hBuffer : e'.buffer = L.engine.buffer := congrArg Intake.buffer hSame
  have hGaps : e'.gaps = L.engine.gaps := congrArg Intake.gaps hSame
  rw [after, opened_self hGaps, closed, opened_self hGaps.symm, List.append_nil, List.append_nil]
  constructor
  case exact =>
    intro m
    rw [hGaps, Missing, hReceive, hBuffer]
    exact h.exact m
  case split => exact hGaps ▸ h.split
  case once => exact h.once
  case passed =>
    rw [hReceive, hBuffer]
    exact h.passed
  case detected_count => exact (congrArg Intake.detected hSame).trans h.detected_count
  case recovered_count => exact (congrArg Intake.recovered hSame).trans h.recovered_count

/-- Consuming the head moves the lower end past a block that is buffered, so no gap changes. -/
theorem Inv.consumed (h : L.Inv) (hHead : L.engine.receive ∈ L.engine.buffer)
    (hNext : e'.intake = { L.engine.intake with
      receive := L.engine.receive + 1, buffer := L.engine.buffer.erase L.engine.receive }) : (L.after e').Inv := by
  have hReceive : e'.receive = L.engine.receive + 1 := congrArg Intake.receive hNext
  have hBuffer : e'.buffer = L.engine.buffer.erase L.engine.receive := congrArg Intake.buffer hNext
  have hGaps : e'.gaps = L.engine.gaps := congrArg Intake.gaps hNext
  rw [after, opened_self hGaps, closed, opened_self hGaps.symm, List.append_nil, List.append_nil]
  constructor
  case exact =>
    intro m
    rw [hGaps, h.exact, Missing, Missing, hReceive, hBuffer]
    simp only [AList.mem_erase]
    constructor
    · rintro ⟨hLow, hAbsent, k, hk, hBelow⟩
      have hNe : m ≠ L.engine.receive := fun hEq => hAbsent (hEq ▸ hHead)
      exact ⟨by omega, fun hm => hAbsent hm.2, k, ⟨by omega, hk⟩, hBelow⟩
    · rintro ⟨hLow, hAbsent, k, ⟨_, hk⟩, hBelow⟩
      exact ⟨by omega, fun hm => hAbsent ⟨by omega, hm⟩, k, hk, hBelow⟩
  case split => exact hGaps ▸ h.split
  case once => exact h.once
  case passed =>
    intro m hm
    rw [hReceive, hBuffer, AList.mem_erase]
    rcases h.passed m hm with hBelow | hBuffered
    · exact .inl (by omega)
    · by_cases hEq : m = L.engine.receive
      · exact .inl (by omega)
      · exact .inr ⟨hEq, hBuffered⟩
  case detected_count => exact (congrArg Intake.detected hNext).trans h.detected_count
  case recovered_count => exact (congrArg Intake.recovered hNext).trans h.recovered_count

theorem Inv.missing_arrival (h : L.Inv) {seq : Nat} {data : List UInt8} {fresh : List Nat}
    (hArrival : Arrival L.engine e' seq data fresh) (m : Nat) : m ∈ e'.gaps ↔ e'.Missing m := by
  rw [hArrival.mem_gaps, hArrival.mem_fresh, h.exact, Missing, Missing, hArrival.receive, hArrival.buffer]
  simp only [AList.mem_insert]
  have hLow := hArrival.low
  constructor
  · rintro (⟨⟨hm, hBelow⟩, hAbsent, _⟩ | ⟨hNe, hm, hAbsent, k, hk, hBelow⟩)
    · refine ⟨hm, ?_, seq, .inl rfl, hBelow⟩
      rintro (hEq | hBuffered)
      · omega
      · exact hAbsent hBuffered
    · refine ⟨hm, ?_, k, .inr hk, hBelow⟩
      rintro (hEq | hBuffered)
      · exact hNe hEq
      · exact hAbsent hBuffered
  · rintro ⟨hm, hAbsent, k, hk, hBelow⟩
    have hNe : m ≠ seq := fun hEq => hAbsent (.inl hEq)
    have hOut : m ∉ L.engine.buffer := fun hBuffered => hAbsent (.inr hBuffered)
    by_cases hKnown : m ∈ L.engine.gaps
    · exact .inr ⟨hNe, (h.exact m).mp hKnown⟩
    · refine .inl ⟨⟨hm, ?_⟩, hOut, fun hMissing => hKnown ((h.exact m).mpr hMissing)⟩
      rcases hk with rfl | hk
      · exact hBelow
      · exact absurd ((h.exact m).mpr ⟨hm, hOut, k, hk, hBelow⟩) hKnown

theorem Inv.arrived (h : L.Inv) {seq : Nat} {data : List UInt8} {fresh : List Nat}
    (hArrival : Arrival L.engine e' seq data fresh) : (L.after e').Inv := by
  have hOpened : ∀ m, m ∈ opened L.engine e' → m ∈ fresh := fun m => hArrival.opened.mem_iff.mp
  have hClosed : ∀ m ∈ closed L.engine e', m = seq := by
    intro m hm
    rw [hArrival.closed] at hm
    exact List.eq_of_mem_replicate hm
  unfold after
  constructor
  case exact => exact h.missing_arrival hArrival
  case split =>
    refine (h.split.append_right _).trans ?_
    rw [List.append_assoc, List.append_assoc]
    exact hArrival.keys_perm.append_left _
  case once =>
    have hKeys : (opened L.engine e').Nodup := e'.gaps.keys_nodup.filter _
    refine h.once.append hKeys ?_
    -- a block that was a gap before is still one, or buffered, or consumed
    intro m hOld hNew
    obtain ⟨hRange, hAbsent, hUnknown⟩ := (hArrival.mem_fresh m).mp (hOpened m hNew)
    rcases List.mem_append.mp (h.split.mem_iff.mp hOld) with hRecovered | hGap
    · rcases h.passed m hRecovered with hBelow | hBuffered
      · omega
      · exact hAbsent hBuffered
    · exact hUnknown (AList.mem_keys.mpr hGap)
  case passed =>
    intro m hm
    rw [hArrival.receive, hArrival.buffer, AList.mem_insert]
    rcases List.mem_append.mp hm with hm | hm
    · rcases h.passed m hm with hBelow | hBuffered
      · exact .inl hBelow
      · exact .inr (.inr hBuffered)
    · exact .inr (.inl (hClosed m hm))
  case detected_count =>
    rw [List.length_append, hArrival.opened.length_eq, ← h.detected_count]
    exact hArrival.detected
  case recovered_count =>
    rw [List.length_append, hArrival.closed, List.length_replicate, ← h.recovered_count]
    exact hArrival.recovered

end GapLog

def gapSystem (config : Config) (localEpoch : Epoch) (started : Instant) : System GapLog where
  initial L := L = { engine := newEngine config localEpoch started }
  step := GapLog.Step

section

variable {config : Config} {localEpoch : Epoch} {started : Instant} {L : GapLog}

theorem gapSystem_engine (h : (gapSystem config localEpoch started).Reachable L) :
    (engineSystem config localEpoch started).Reachable L.engine := by
  refine h.invariant (I := fun L => (engineSystem config localEpoch started).Reachable L.engine) ?_ ?_
  · rintro s rfl
    exact .start rfl
  · rintro s t _ hReach ⟨hStep⟩
    exact hReach.next hStep

theorem gapSystem_inv (hValid : config.validate = none)
    (h : (gapSystem config localEpoch started).Reachable L) : L.Inv := by
  refine h.invariant ?_ ?_
  · rintro s rfl
    exact GapLog.inv_start config localEpoch started
  · rintro s t hReach hInv ⟨hStep⟩
    rcases hStep.intake (engine_inv hValid (gapSystem_engine hReach)) with hSame | ⟨_, _, _, hArrival⟩ | ⟨hHead, hNext⟩
    · exact hInv.same hSame
    · exact hInv.arrived hArrival
    · exact hInv.consumed hHead hNext

end

/-- The gap table is exactly the set of missing blocks, the counters differ by its size, and each
gap enters the table once; with an empty buffer each of them has also left it, once. -/
theorem gap_accounting (config : Config) (hValid : config.validate = none) (localEpoch : Epoch)
    (started : Instant) (L : GapLog) (h : (gapSystem config localEpoch started).Reachable L) :
    (∀ m, m ∈ L.engine.gaps ↔
      L.engine.receive ≤ m ∧ m ∉ L.engine.buffer ∧ ∃ k ∈ L.engine.buffer, m < k) ∧
      L.engine.gapsDetected = L.engine.gapsRecovered + L.engine.gaps.keys.length ∧
      (L.engine.gapsDetected = L.detected.length ∧ L.engine.gapsRecovered = L.recovered.length ∧
        L.detected.Nodup) ∧
      (L.engine.buffer = ∅ → L.recovered.Perm L.detected) := by
  have hInv := gapSystem_inv hValid h
  refine ⟨hInv.exact, ?_, ⟨hInv.detected_count, hInv.recovered_count, hInv.once⟩, ?_⟩
  · rw [hInv.detected_count, hInv.recovered_count, hInv.split.length_eq, List.length_append]
  · intro hEmpty
    have hNone : L.engine.gaps.keys = [] := by
      apply List.eq_nil_iff_forall_not_mem.mpr
      intro m hm
      obtain ⟨_, _, k, hk, _⟩ := (hInv.exact m).mp (AList.mem_keys.mpr hm)
      rw [hEmpty] at hk
      cases hk
    have hSplit := hInv.split
    rw [hNone, List.append_nil] at hSplit
    exact hSplit.symm

def peerBlock (seq : Nat) : Frame :=
  { kind := .dataFrame, source := peerOpening.source, target := peerOpening.target, seq := seq, data := [7] }

def GapLog.move (L : GapLog) (m : Engine.Move) : Option GapLog :=
  (L.engine.move m).map L.after

theorem gap_accounting_reordered : ∃ L,
    (gapSystem defaultConfig ⟨List.replicate 16 1, rfl⟩ 1).Reachable L ∧ L.detected = [0] ∧
      L.engine.gapsRecovered = 1 ∧ L.recovered.Perm L.detected := by
  have hPlay : ([Engine.Move.input peerOpening 2, .input (peerBlock 1) 3, .input (peerBlock 0) 4,
    .consume, .consume].foldlM GapLog.move
      { engine := newEngine defaultConfig ⟨List.replicate 16 1, rfl⟩ 1 }).map
        (fun L => (L.detected, L.engine.gapsRecovered, L.engine.buffer.entries)) = some
          ([0], 1, []) := by decide +kernel
  obtain ⟨L, hRun, hEnd⟩ := Option.map_eq_some_iff.mp hPlay
  simp only [Prod.mk.injEq] at hEnd
  obtain ⟨hDetected, hRecovered, hBuffer⟩ := hEnd
  have hReach : (gapSystem defaultConfig ⟨List.replicate 16 1, rfl⟩ 1).Reachable L := by
    refine System.Reachable.play (fun L m L' hMove => ?_) (.start rfl) hRun
    obtain ⟨e', hEngine, rfl⟩ := Option.map_eq_some_iff.mp hMove
    exact GapLog.Step.call (Engine.move_step m hEngine)
  exact ⟨L, hReach, hDetected, hRecovered, (gap_accounting _ (by decide) _ _ _ hReach).2.2.2 (AList.ext hBuffer)⟩

end FamilyConnect.ReliableStream
