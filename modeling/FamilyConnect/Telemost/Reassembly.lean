import FamilyConnect.Lib.Transition
import FamilyConnect.Telemost.Fragments

/-!
# Safety of the reassembler against any input

`ingestLocked_cases` lists what one accepted fragment can do. A `Intake` is
a reassembler that is fed arbitrary byte strings, with the log of what it
delivered; its clock never goes back.
-/

namespace FamilyConnect.Telemost

open Lib

namespace Reassembler

/-! ## One fragment -/

inductive Takes (r : Reassembler) (f : Fragment) (reading : Reading) : FragmentBuilder → Prop where
  | held {b : FragmentBuilder} : r.builds.lookup f.key = some b → b.received.lookup f.sequence = none →
      b.total = f.total → b.length = f.length → b.checksum = f.checksum → Takes r f reading b
  | fresh : r.builds.lookup f.key = none → r.builds.keys.length < 16 →
      r.recent.keys.length + r.builds.keys.length < 4096 →
      Takes r f reading
        { total := f.total, length := f.length, checksum := f.checksum,
          deadline := reading.build + reassemblyTimeout }

def taken (b : FragmentBuilder) (f : Fragment) : FragmentBuilder :=
  { b with received := b.received.insert f.sequence f.payload }

def close (r : Reassembler) (key : Key) (deadline : Instant) : Reassembler :=
  { r with builds := r.builds.erase key, recent := r.recent.insert key deadline }

inductive Locked (checksumIEEE : List UInt8 → UInt32) (r : Reassembler) (f : Fragment) (reading : Reading) :
    Reassembler × Outcome → Prop where
  | recent : f.key ∈ r.recent → Locked checksumIEEE r f reading (r, .recent)
  | capacity : f.key ∉ r.recent → f.key ∉ r.builds →
      16 ≤ r.builds.keys.length ∨ 4096 ≤ r.recent.keys.length + r.builds.keys.length →
      Locked checksumIEEE r f reading (r, .capacity)
  | refused {b : FragmentBuilder} {outcome : Outcome} : f.key ∉ r.recent → r.builds.lookup f.key = some b →
      (outcome = .duplicate ∧ (b.received.lookup f.sequence).isSome ∨
        outcome = .conflict ∧ (b.total ≠ f.total ∨ b.length ≠ f.length ∨ b.checksum ≠ f.checksum)) →
      Locked checksumIEEE r f reading (r.close f.key b.deadline, outcome)
  | buffered {b : FragmentBuilder} : f.key ∉ r.recent → Takes r f reading b →
      (taken b f).received.keys.length ≠ f.total →
      Locked checksumIEEE r f reading ({ r with builds := r.builds.insert f.key (taken b f) }, .buffered)
  | completed {b : FragmentBuilder} : f.key ∉ r.recent → Takes r f reading b →
      (taken b f).received.keys.length = f.total →
      Locked checksumIEEE r f reading (r.close f.key (reading.done + reassemblyTimeout),
        if checksumIEEE (assemble (taken b f) f.total) = f.checksum then .delivered (assemble (taken b f) f.total)
        else .crc)

variable {checksumIEEE : List UInt8 → UInt32} {r : Reassembler} {f : Fragment} {reading : Reading}

theorem place_fresh (h : r.builds.lookup f.key = none) (hRecent : f.key ∉ r.recent)
    (hPending : r.builds.keys.length < 16)
    (hKnown : r.recent.keys.length + r.builds.keys.length < 4096) {b : FragmentBuilder}
    (hb : b = { total := f.total, length := f.length, checksum := f.checksum,
                deadline := reading.build + reassemblyTimeout }) :
    Locked checksumIEEE r f reading
      ({ r with builds := r.builds.insert f.key b }.place checksumIEEE f b reading) := by
  subst hb
  have hTakes : Takes r f reading _ := .fresh h hPending hKnown
  unfold place
  dsimp only
  rw [AList.lookup_empty, Option.isSome_none, if_neg (by decide), if_neg (by simp), AList.insert_insert,
    Table.erase_insert]
  split
  · exact .buffered hRecent hTakes ‹_›
  · rename_i hAll
    exact .completed hRecent hTakes (not_not.mp hAll)

theorem place_held {b : FragmentBuilder} (h : r.builds.lookup f.key = some b) (hRecent : f.key ∉ r.recent) :
    Locked checksumIEEE r f reading (r.place checksumIEEE f b reading) := by
  unfold place
  dsimp only
  split
  · rename_i hSeen
    exact .refused hRecent h (.inl ⟨rfl, hSeen⟩)
  rename_i hUnseen
  split
  · rename_i hConflict
    exact .refused hRecent h (.inr ⟨rfl, hConflict⟩)
  rename_i hAgree
  simp only [not_or, not_not, ne_eq] at hAgree
  have hNone : b.received.lookup f.sequence = none := by
    rwa [Bool.not_eq_true, Option.isSome_eq_false_iff, Option.isNone_iff_eq_none] at hUnseen
  have hTakes : Takes r f reading b := .held h hNone hAgree.1 hAgree.2.1 hAgree.2.2
  split
  · exact .buffered hRecent hTakes ‹_›
  · rename_i hAll
    exact .completed hRecent hTakes (not_not.mp hAll)

theorem ingestLocked_cases (checksumIEEE : List UInt8 → UInt32) (r : Reassembler) (f : Fragment) (reading : Reading) :
    Locked checksumIEEE (r.pruneLocked reading.prune) f reading (r.ingestLocked checksumIEEE f reading) := by
  unfold ingestLocked
  dsimp only
  split
  · rename_i hRecent
    exact .recent (AList.lookup_isSome.mp hRecent)
  rename_i hRecent
  have hRecent : f.key ∉ (r.pruneLocked reading.prune).recent := fun hMem => hRecent (AList.lookup_isSome.mpr hMem)
  cases hLookup : (r.pruneLocked reading.prune).builds.lookup f.key with
  | some b => exact place_held hLookup hRecent
  | none =>
    dsimp only
    split
    · rename_i hFull
      exact .capacity hRecent (AList.lookup_eq_none.mp hLookup) hFull
    · rename_i hRoom
      simp only [not_or, ge_iff_le, not_le, maxPendingMessages, maxRecentMessages] at hRoom
      exact place_fresh hLookup hRecent hRoom.1 hRoom.2 rfl

theorem ingest_cases (checksumIEEE : List UInt8 → UInt32) (r : Reassembler) (data : List UInt8) (reading : Reading) :
    (∃ outcome, (∀ message, outcome ≠ .delivered message) ∧ r.ingest checksumIEEE data reading = (r, outcome)) ∨
      ∃ f, parse data = some f ∧ f.Sound ∧
        r.ingest checksumIEEE data reading = r.ingestLocked checksumIEEE f reading := by
  unfold ingest
  cases hParse : parse data with
  | none => exact .inl ⟨.malformed, by simp, rfl⟩
  | some f =>
    dsimp only
    split
    · exact .inl ⟨.own, by simp, rfl⟩
    split
    · exact .inl ⟨.malformed, by simp, rfl⟩
    · rename_i hFormed
      exact .inr ⟨f, rfl, (f.malformed_eq_false_iff).mp (Bool.not_eq_true _ ▸ hFormed), rfl⟩

end Reassembler

/-! ## Builders -/

structure FragmentBuilder.Shaped (b : FragmentBuilder) : Prop where
  length_le : b.length ≤ 65536
  total : b.total = fragmentCount b.length
  piece : ∀ sequence payload, b.received.lookup sequence = some payload →
    sequence < b.total ∧ sequence * 8192 ≤ b.length ∧ payload.length = fragmentSize b.length sequence

structure FragmentBuilder.Sound (b : FragmentBuilder) : Prop extends b.Shaped where
  fewer : b.received.keys.length < b.total

variable {result : Reassembler × Outcome}

namespace Reassembler

theorem lookup_of_full {b : FragmentBuilder} (hKeys : ∀ sequence ∈ b.received, sequence < b.total)
    (hFull : b.received.keys.length = b.total) {sequence : Nat} (h : sequence < b.total) : sequence ∈ b.received := by
  have hSub : b.received.keys ⊆ List.range b.total := by
    intro k hk
    exact List.mem_range.mpr (hKeys k (AList.mem_keys.mpr hk))
  have hPerm : b.received.keys.Perm (List.range b.total) :=
    (List.subperm_of_subset b.received.keys_nodup hSub).perm_of_length_le
      (by rw [List.length_range, hFull])
  exact AList.mem_keys.mpr (hPerm.mem_iff.mpr (List.mem_range.mpr h))

theorem length_assemble {b : FragmentBuilder} (h : b.Shaped) (hFull : b.received.keys.length = b.total) :
    (assemble b b.total).length = b.length := by
  have hKeys : ∀ sequence ∈ b.received, sequence < b.total := by
    intro sequence hMem
    obtain ⟨payload, hPayload⟩ := Table.mem_iff_lookup.mp hMem
    exact (h.piece sequence payload hPayload).1
  have hSizes : ∀ sequence ∈ List.range b.total,
      ((b.received.lookup sequence).getD []).length = fragmentSize b.length sequence := by
    intro sequence hMem
    obtain ⟨payload, hPayload⟩ :=
      Table.mem_iff_lookup.mp (lookup_of_full hKeys hFull (List.mem_range.mp hMem))
    rw [hPayload, Option.getD_some]
    exact (h.piece sequence payload hPayload).2.2
  rw [assemble, List.length_flatten, List.map_map]
  have hMap : (List.range b.total).map (List.length ∘ fun index => (b.received.lookup index).getD []) =
      (List.range b.total).map (fragmentSize b.length) := List.map_congr_left hSizes
  rw [hMap, h.total]
  exact sum_fragmentSizes h.length_le

/-! ## The invariant of the tables -/

structure Inv (r : Reassembler) : Prop where
  pending_le : r.builds.keys.length ≤ 16
  known_le : r.recent.keys.length + r.builds.keys.length ≤ 4096
  apart : ∀ key ∈ r.builds, key ∉ r.recent
  sound : ∀ key b, r.builds.lookup key = some b → b.Sound

variable {checksumIEEE : List UInt8 → UInt32} {r : Reassembler} {f : Fragment} {reading : Reading}
  {b : FragmentBuilder}

theorem inv_new (selfID : Nat) : Inv { selfID := selfID } where
  pending_le := Nat.zero_le _
  known_le := Nat.zero_le _
  apart key h := absurd h (AList.notMem_empty key)
  sound key b h := by cases h

theorem Inv.prune (h : r.Inv) (now : Instant) : (r.pruneLocked now).Inv where
  pending_le := (length_prune_le r now).1.trans h.pending_le
  known_le := (length_prune_le r now).2.trans h.known_le
  apart key hBuilds hRecent := by
    obtain ⟨b, hb⟩ := Table.mem_iff_lookup.mp hBuilds
    obtain ⟨hFound, hLive⟩ := builds_prune_some.mp hb
    obtain ⟨deadline, hDeadline⟩ := Table.mem_iff_lookup.mp hRecent
    rcases recent_prune_some.mp hDeadline with ⟨b', hb', hOver, _⟩ | ⟨_, hKept, _⟩
    · rw [hFound] at hb'
      cases hb'
      exact absurd hLive (not_lt.mpr hOver)
    · exact h.apart key (Table.mem_iff_lookup.mpr ⟨b, hFound⟩) (Table.mem_iff_lookup.mpr ⟨deadline, hKept⟩)
  sound key b hb := h.sound key b (builds_prune_some.mp hb).1

structure Fits (f : Fragment) (b : FragmentBuilder) : Prop extends b.Shaped where
  sameTotal : b.total = f.total
  sameLength : b.length = f.length
  sameChecksum : b.checksum = f.checksum
  count_le : b.received.keys.length ≤ b.total

theorem piece_taken (hf : f.Sound) (hTotal : b.total = f.total) (hLength : b.length = f.length)
    (h : ∀ sequence payload, b.received.lookup sequence = some payload →
      sequence < b.total ∧ sequence * 8192 ≤ b.length ∧ payload.length = fragmentSize b.length sequence)
    (sequence : Nat) (payload : List UInt8) (hLookup : (taken b f).received.lookup sequence = some payload) :
    sequence < b.total ∧ sequence * 8192 ≤ b.length ∧ payload.length = fragmentSize b.length sequence := by
  rcases Table.lookup_insert_some hLookup with ⟨rfl, rfl⟩ | ⟨_, hOld⟩
  · rw [hTotal, hLength]
    exact ⟨hf.sequence_lt, hf.no_underflow, hf.size⟩
  · exact h sequence payload hOld

theorem Takes.fits (h : Takes r f reading b) (hInv : r.Inv) (hf : f.Sound) : Fits f (taken b f) := by
  cases h with
  | held hBuild hNone hTotal hLength hChecksum =>
    have hSound := hInv.sound _ _ hBuild
    have hCount := Table.length_keys_insert_of_not_mem f.payload (AList.lookup_eq_none.mp hNone)
    refine ⟨⟨hSound.length_le, hSound.total, ?_⟩, hTotal, hLength, hChecksum, ?_⟩
    · exact piece_taken hf hTotal hLength hSound.piece
    · exact hCount.trans_le hSound.fewer
  | fresh hNone hPending hKnown =>
    refine ⟨⟨hf.length_le, hf.total, ?_⟩, rfl, rfl, rfl, ?_⟩
    · exact piece_taken hf rfl rfl fun sequence payload hLookup => by cases hLookup
    · exact Nat.zero_lt_of_lt hf.sequence_lt

theorem Takes.room (h : Takes r f reading b) (hInv : r.Inv) (b' : FragmentBuilder) :
    (r.builds.insert f.key b').keys.length ≤ 16 ∧
      r.recent.keys.length + (r.builds.insert f.key b').keys.length ≤ 4096 := by
  cases h with
  | held hBuild _ _ _ _ =>
    rw [Table.length_keys_insert_of_mem b' (Table.mem_iff_lookup.mpr ⟨b, hBuild⟩)]
    exact ⟨hInv.pending_le, hInv.known_le⟩
  | fresh hNone hPending hKnown =>
    rw [Table.length_keys_insert_of_not_mem b' (AList.lookup_eq_none.mp hNone)]
    omega

theorem Inv.close (h : r.Inv) (key : Key) (deadline : Instant)
    (hRoom : r.recent.keys.length + (r.builds.erase key).keys.length < 4096) : (r.close key deadline).Inv where
  pending_le := (Table.length_keys_erase_le key r.builds).trans h.pending_le
  known_le := by
    have hInsert := Table.length_keys_insert_le key deadline r.recent
    simp only [Reassembler.close]
    omega
  apart other hBuilds hRecent := by
    obtain ⟨b, hb⟩ := Table.mem_iff_lookup.mp hBuilds
    obtain ⟨hOther, hFound⟩ := Table.lookup_erase_some hb
    have hOld := (AList.mem_insert _).mp hRecent
    exact h.apart other (Table.mem_iff_lookup.mpr ⟨b, hFound⟩) (hOld.resolve_left hOther)
  sound other b hb := h.sound other b (Table.lookup_erase_some hb).2

theorem room_of_held (h : r.Inv) {key : Key} (hBuild : r.builds.lookup key = some b) :
    r.recent.keys.length + (r.builds.erase key).keys.length < 4096 := by
  have hErase := Table.length_keys_erase hBuild
  have hKnown := h.known_le
  omega

theorem Takes.room_erase (h : Takes r f reading b) (hInv : r.Inv) :
    r.recent.keys.length + (r.builds.erase f.key).keys.length < 4096 := by
  cases h with
  | held hBuild _ _ _ _ => exact room_of_held hInv hBuild
  | fresh hNone hPending hKnown =>
    have hErase := Table.length_keys_erase_le f.key r.builds
    omega

theorem Inv.locked (h : r.Inv) (hf : f.Sound)
    (hLocked : Locked checksumIEEE r f reading result) : result.1.Inv := by
  cases hLocked with
  | recent _ | capacity _ _ _ => exact h
  | refused _ hBuild _ => exact h.close _ _ (room_of_held h hBuild)
  | completed _ hTakes _ => exact h.close _ _ (hTakes.room_erase h)
  | @buffered b hRecent hTakes hMore =>
    have hFits := hTakes.fits h hf
    have hRoom := hTakes.room h (taken b f)
    refine ⟨hRoom.1, hRoom.2, ?_, ?_⟩
    · intro key hKey
      rcases (AList.mem_insert _).mp hKey with rfl | hOld
      · exact hRecent
      · exact h.apart key hOld
    · intro key b' hb'
      rcases Table.lookup_insert_some hb' with ⟨rfl, rfl⟩ | ⟨_, hOld⟩
      · exact ⟨hFits.toShaped, lt_of_le_of_ne hFits.count_le (hFits.sameTotal ▸ hMore)⟩
      · exact h.sound key b' hOld

theorem Locked.delivered (h : r.Inv) (hf : f.Sound) {r' : Reassembler} {message : List UInt8}
    (hLocked : Locked checksumIEEE r f reading (r', .delivered message)) :
    message.length = f.length ∧ checksumIEEE message = f.checksum ∧ f.key ∉ r.recent ∧
      r'.recent.lookup f.key = some (reading.done + reassemblyTimeout) := by
  generalize hResult : (r', Outcome.delivered message) = result at hLocked
  cases hLocked with
  | recent _ | capacity _ _ _ | buffered _ _ _ => cases hResult
  | refused _ _ hOutcome =>
    rcases hOutcome with ⟨rfl, _⟩ | ⟨rfl, _⟩
    · cases hResult
    · cases hResult
  | @completed b hRecent hTakes hFull =>
    have hFits := hTakes.fits h hf
    rw [Prod.mk.injEq] at hResult
    obtain ⟨rfl, hOutcome⟩ := hResult
    split at hOutcome
    · rename_i hChecksum
      cases hOutcome
      have hLength := length_assemble hFits.toShaped (hFull.trans hFits.sameTotal.symm)
      rw [hFits.sameTotal, hFits.sameLength] at hLength
      exact ⟨hLength, hChecksum, hRecent, AList.lookup_insert _⟩
    · cases hOutcome

end Reassembler

/-! ## A receiver over time -/

structure Delivery where
  key : Key
  length : Nat
  checksum : UInt32
  message : List UInt8
  time : Instant
  deriving DecidableEq

structure Intake where
  reassembler : Reassembler
  clock : Instant
  log : List Delivery := []

def deliveries (data : List UInt8) (outcome : Outcome) (time : Instant) : List Delivery :=
  match parse data, outcome with
  | some f, .delivered message => [⟨f.key, f.length, f.checksum, message, time⟩]
  | _, _ => []

def Reading.After (reading : Reading) (clock : Instant) : Prop :=
  clock ≤ reading.prune ∧ reading.prune ≤ reading.build ∧ reading.build ≤ reading.done

namespace Intake

variable (checksumIEEE : List UInt8 → UInt32)

def ingest (S : Intake) (data : List UInt8) (reading : Reading) : Intake :=
  let result := S.reassembler.ingest checksumIEEE data reading
  { reassembler := result.1, clock := reading.done, log := S.log ++ deliveries data result.2 reading.done }

inductive Step : Intake → Intake → Prop where
  | ingest {S : Intake} (data : List UInt8) (reading : Reading) : reading.After S.clock →
      Step S (S.ingest checksumIEEE data reading)
  | prune {S : Intake} (now : Instant) : S.clock ≤ now →
      Step S { S with reassembler := S.reassembler.pruneLocked now, clock := now }

def system (selfID : Nat) : System Intake where
  initial S := S.reassembler = { selfID := selfID } ∧ S.log = []
  step := Step checksumIEEE

def Kept (r : Reassembler) (clock : Instant) (d : Delivery) : Prop :=
  d.time + reassemblyTimeout ≤ clock ∨
    ∃ deadline, r.recent.lookup d.key = some deadline ∧ d.time + reassemblyTimeout ≤ deadline

structure Inv (S : Intake) : Prop where
  reassembler : S.reassembler.Inv
  genuine : ∀ d ∈ S.log, d.message.length = d.length ∧ d.length ≤ 65536 ∧ checksumIEEE d.message = d.checksum
  kept : ∀ d ∈ S.log, Kept S.reassembler S.clock d
  apart : S.log.Pairwise fun d d' => d.key = d'.key → d.time + reassemblyTimeout ≤ d'.time

variable {checksumIEEE} {r : Reassembler} {d : Delivery} {clock now : Instant} {f : Fragment} {reading : Reading}

theorem Kept.later (h : Kept r clock d) (hClock : clock ≤ now) : Kept r now d :=
  h.imp_left fun hOver => hOver.trans hClock

theorem Kept.prune (hInv : r.Inv) (h : Kept r clock d) (hClock : clock ≤ now) : Kept (r.pruneLocked now) now d := by
  rcases h with hOver | ⟨deadline, hDeadline, hEnd⟩
  · exact .inl (hOver.trans hClock)
  · by_cases hNow : now < deadline
    · refine .inr ⟨deadline, Reassembler.recent_prune_some.mpr (.inr ⟨?_, hDeadline, hNow⟩), hEnd⟩
      rintro ⟨b, hb, _⟩
      exact hInv.apart d.key (Table.mem_iff_lookup.mpr ⟨b, hb⟩) (Table.mem_iff_lookup.mpr ⟨deadline, hDeadline⟩)
    · exact .inl (hEnd.trans (not_lt.mp hNow))

theorem Kept.over (h : Kept r clock d) (hKey : d.key ∉ r.recent) : d.time + reassemblyTimeout ≤ clock := by
  rcases h with hOver | ⟨deadline, hDeadline, _⟩
  · exact hOver
  · exact absurd (Table.mem_iff_lookup.mpr ⟨deadline, hDeadline⟩) hKey

theorem Kept.close (h : Kept r clock d) {key : Key} (hKey : key ∉ r.recent) (deadline : Instant) :
    Kept (r.close key deadline) clock d := by
  by_cases hSame : d.key = key
  · exact .inl (h.over (hSame ▸ hKey))
  · refine h.imp_right ?_
    rintro ⟨found, hFound, hEnd⟩
    exact ⟨found, (AList.lookup_insert_ne hSame).trans hFound, hEnd⟩

theorem Kept.locked (h : Kept r clock d)
    (hLocked : Reassembler.Locked checksumIEEE r f reading result) : Kept result.1 clock d := by
  cases hLocked with
  | recent _ | capacity _ _ _ | buffered _ _ _ => exact h
  | refused hRecent _ _ | completed hRecent _ _ => exact h.close hRecent _

variable {data : List UInt8}

theorem deliveries_of_not_delivered {outcome : Outcome} (time : Instant)
    (h : ∀ message, outcome ≠ .delivered message) : deliveries data outcome time = [] := by
  unfold deliveries
  split
  · exact absurd rfl (h _)
  · rfl

theorem deliveries_of_delivered (hParse : parse data = some f) (message : List UInt8) (time : Instant) :
    deliveries data (.delivered message) time = [⟨f.key, f.length, f.checksum, message, time⟩] := by
  simp only [deliveries, hParse]

variable {S : Intake}

theorem Inv.ingestLocked (h : S.Inv checksumIEEE) (hf : f.Sound) (hAfter : reading.After S.clock)
    (hParse : parse data = some f) : Inv checksumIEEE
      { reassembler := (S.reassembler.ingestLocked checksumIEEE f reading).1
        clock := reading.done
        log := S.log ++ deliveries data (S.reassembler.ingestLocked checksumIEEE f reading).2 reading.done } := by
  obtain ⟨hPrune, hBuild, hDone⟩ := hAfter
  have hEnd := hBuild.trans hDone
  have hCases := Reassembler.ingestLocked_cases checksumIEEE S.reassembler f reading
  generalize S.reassembler.ingestLocked checksumIEEE f reading = result at hCases ⊢
  obtain ⟨r', outcome⟩ := result
  have hPruned := h.reassembler.prune reading.prune
  have hKept : ∀ d ∈ S.log, Kept (S.reassembler.pruneLocked reading.prune) reading.prune d :=
    fun d hd => (h.kept d hd).prune h.reassembler hPrune
  have hOld : ∀ d ∈ S.log, Kept r' reading.done d := fun d hd => ((hKept d hd).locked hCases).later hEnd
  have hInv := hPruned.locked hf hCases
  by_cases hDelivered : ∃ message, outcome = .delivered message
  · obtain ⟨message, rfl⟩ := hDelivered
    obtain ⟨hLength, hChecksum, hFree, hRecent⟩ := hCases.delivered hPruned hf
    rw [deliveries_of_delivered hParse]
    refine ⟨hInv, ?_, ?_, ?_⟩
    · exact List.forall_mem_append.mpr ⟨h.genuine, List.forall_mem_singleton.mpr ⟨hLength, hf.length_le, hChecksum⟩⟩
    · exact List.forall_mem_append.mpr ⟨hOld, List.forall_mem_singleton.mpr (.inr ⟨_, hRecent, le_rfl⟩)⟩
    · refine List.pairwise_append.mpr ⟨h.apart, List.pairwise_singleton _ _, ?_⟩
      intro d hd d' hd' hKey
      obtain rfl := List.mem_singleton.mp hd'
      exact ((hKept d hd).over (hKey ▸ hFree)).trans hEnd
  · rw [deliveries_of_not_delivered _ fun message hMessage => hDelivered ⟨message, hMessage⟩, List.append_nil]
    exact ⟨hInv, h.genuine, hOld, h.apart⟩

theorem Inv.idle (h : S.Inv checksumIEEE) (hClock : S.clock ≤ now) : Inv checksumIEEE { S with clock := now } :=
  ⟨h.reassembler, h.genuine, fun d hd => (h.kept d hd).later hClock, h.apart⟩

theorem Inv.ingest (h : S.Inv checksumIEEE) (data : List UInt8) (hAfter : reading.After S.clock) :
    (S.ingest checksumIEEE data reading).Inv checksumIEEE := by
  have hClock : S.clock ≤ reading.done := hAfter.1.trans (hAfter.2.1.trans hAfter.2.2)
  unfold Intake.ingest
  rcases Reassembler.ingest_cases checksumIEEE S.reassembler data reading with
    ⟨outcome, hOutcome, hResult⟩ | ⟨f, hParse, hf, hResult⟩
  · rw [hResult]
    dsimp only
    rw [deliveries_of_not_delivered _ hOutcome, List.append_nil]
    exact h.idle hClock
  · rw [hResult]
    exact h.ingestLocked hf hAfter hParse

theorem Step.inv {S' : Intake} (hStep : Step checksumIEEE S S') (h : S.Inv checksumIEEE) : S'.Inv checksumIEEE := by
  cases hStep with
  | ingest data reading hAfter => exact h.ingest data hAfter
  | prune now hClock =>
    exact ⟨h.reassembler.prune now, h.genuine, fun d hd => (h.kept d hd).prune h.reassembler hClock, h.apart⟩

theorem system_inv {selfID : Nat} (h : (system checksumIEEE selfID).Reachable S) : S.Inv checksumIEEE := by
  induction h with
  | start hInitial =>
    obtain ⟨hNew, hLog⟩ := hInitial
    constructor
    case reassembler =>
      rw [hNew]
      exact Reassembler.inv_new selfID
    all_goals simp [hLog]
  | next _ hStep ih => exact hStep.inv ih

end Intake

/-- The tables stay within their bounds, and what is delivered is what its header declares, whatever arrives. -/
theorem reassembler_safety (checksumIEEE : List UInt8 → UInt32) (selfID : Nat) (S : Intake)
    (h : (Intake.system checksumIEEE selfID).Reachable S) : S.reassembler.builds.keys.length ≤ 16 ∧
    S.reassembler.builds.keys.length + S.reassembler.recent.keys.length ≤ 4096 ∧
    (∀ key ∈ S.reassembler.builds, key ∉ S.reassembler.recent) ∧
    (∀ key b, S.reassembler.builds.lookup key = some b → b.received.keys.length < b.total ∧
      ∀ sequence payload, b.received.lookup sequence = some payload →
        sequence * 8192 ≤ b.length ∧ payload.length = min 8192 (b.length - sequence * 8192)) ∧
    (∀ data f, parse data = some f → f.malformed = false →
      f.sequence * 8192 < 2 ^ 32 ∧ f.sequence * 8192 ≤ f.length ∧
        f.payload.length = min 8192 (f.length - f.sequence * 8192)) ∧
    (∀ d ∈ S.log, d.message.length = d.length ∧ d.length ≤ 65536 ∧ checksumIEEE d.message = d.checksum) ∧
    S.log.Pairwise fun d d' => d.key = d'.key → d.time + reassemblyTimeout ≤ d'.time := by
  have hInv := Intake.system_inv h
  have hKnown := hInv.reassembler.known_le
  refine ⟨hInv.reassembler.pending_le, by omega, hInv.reassembler.apart, ?_, ?_, hInv.genuine, hInv.apart⟩
  · intro key b hb
    have hSound := hInv.reassembler.sound key b hb
    exact ⟨hSound.fewer, fun sequence payload hLookup => (hSound.piece sequence payload hLookup).2⟩
  · intro data f _ hFormed
    have hf := (f.malformed_eq_false_iff).mp hFormed
    have hSmall := hf.no_underflow
    have hLength := hf.length_le
    exact ⟨by omega, hSmall, hf.size⟩

namespace Sample

def single : List UInt8 :=
  [0, 0, 0, 7, 0, 0, 0, 1, 0, 0, 0, 0, 0, 0, 0, 1, 0, 0, 0, 1, 0, 0, 0, 9, 42]

def constant : List UInt8 → UInt32 := fun _ => 9

def reading (now : Instant) : Reading := ⟨now, now, now⟩

def started : Intake := { reassembler := { selfID := 1 }, clock := 0 }

def received : Intake :=
  ((started.ingest constant single (reading 1)).ingest constant single (reading 2)).ingest constant single
    (reading (1 + reassemblyTimeout))

end Sample

open Sample

theorem reassembler_safety_repeated :
    received.log.map Delivery.time = [1, 1 + reassemblyTimeout] ∧
      received.log.Pairwise fun d d' => d.key = d'.key → d.time + reassemblyTimeout ≤ d'.time := by
  have hLog : received.log.map Delivery.time = [1, 1 + reassemblyTimeout] := by decide +kernel
  have hStart : (Intake.system constant 1).Reachable started := .start ⟨rfl, rfl⟩
  have hFirst := hStart.next (.ingest single (reading 1) ⟨by decide, le_rfl, le_rfl⟩)
  have hSecond := hFirst.next (.ingest single (reading 2) ⟨by decide +kernel, le_rfl, le_rfl⟩)
  have hThird := hSecond.next (.ingest single (reading (1 + reassemblyTimeout))
    ⟨by decide +kernel, le_rfl, le_rfl⟩)
  exact ⟨hLog, (reassembler_safety constant 1 _ hThird).2.2.2.2.2.2⟩

end FamilyConnect.Telemost
