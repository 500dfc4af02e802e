import FamilyConnect.Lib.BigEndian
import FamilyConnect.Lib.Blocks
import FamilyConnect.Lib.Clock
import FamilyConnect.Lib.Table
import FamilyConnect.Lib.Word
import FamilyConnect.Telemost.Rtp

/-!
# Message fragments and their reassembly

A message is cut into at most eight fragments. The receiver keeps one builder
for each message that is under way and, for a while, the key of every message
that is done with. `Reading` are the three times an `ingest` asks for.
-/

namespace FamilyConnect.Telemost

open Lib

def maxMessageSize : Nat := 64 * 1024
def maxFragmentsPerMessage : Nat := maxMessageSize / maxFragmentPayload
def reassemblyTimeout : Duration := 10 * Duration.second
def maxPendingMessages : Nat := 16
def maxRecentMessages : Nat := 4096

/-- Sender and message number. -/
abbrev Key := Nat × Nat

structure Fragment where
  sender : Nat
  messageID : Nat
  sequence : Nat
  total : Nat
  length : Nat
  checksum : UInt32
  payload : List UInt8
  deriving DecidableEq

def Fragment.key (f : Fragment) : Key := (f.sender, f.messageID)

structure FragmentBuilder where
  total : Nat
  length : Nat
  checksum : UInt32
  received : Table Nat (List UInt8) := ∅
  deadline : Instant

structure Reassembler where
  selfID : Nat
  builds : Table Key FragmentBuilder := ∅
  recent : Table Key Instant := ∅

inductive Outcome where
  | malformed
  | own
  | recent
  | capacity
  | duplicate
  | conflict
  | buffered
  | crc
  | delivered (message : List UInt8)
  deriving DecidableEq

structure Reading where
  prune : Instant
  build : Instant
  done : Instant

/-! ## The wire -/

def word (data : List UInt8) (i : Nat) : Nat := BigEndian.get ((data.drop (4 * i)).take 4)

def parse (data : List UInt8) : Option Fragment :=
  if data.length < fragmentHeaderLen ∨ data.length > fragmentHeaderLen + maxFragmentPayload then none
  else some
    { sender := word data 0, messageID := word data 1, sequence := word data 2, total := word data 3,
      length := word data 4, checksum := UInt32.ofNat (word data 5), payload := data.drop fragmentHeaderLen }

def expectedTotal (length : Nat) : Nat :=
  max 1 (Word.sub 32 (Word.add 32 length maxFragmentPayload) 1 / maxFragmentPayload)

/-- In 32-bit arithmetic, as `ingest` computes it before it knows that `sequence` is in range. -/
def expectedLength (length sequence : Nat) : Nat :=
  min maxFragmentPayload (Word.sub 32 length (sequence * maxFragmentPayload % 2 ^ 32))

def Fragment.malformed (f : Fragment) : Bool :=
  decide (f.length > maxMessageSize ∨ f.total = 0 ∨ f.total > maxFragmentsPerMessage ∨ f.sequence ≥ f.total) ||
    decide (f.total ≠ expectedTotal f.length ∨ f.payload.length ≠ expectedLength f.length f.sequence)

namespace Reassembler

def pruneLocked (r : Reassembler) (now : Instant) : Reassembler :=
  let live := fun (_ : Key) (builder : FragmentBuilder) => if now < builder.deadline then some builder else none
  { r with
    recent := Table.insertAll (now + reassemblyTimeout) (Table.dropped live r.builds)
      (Table.filterMap (fun _ deadline => if now < deadline then some deadline else none) r.recent)
    builds := Table.filterMap live r.builds }

def assemble (builder : FragmentBuilder) (total : Nat) : List UInt8 :=
  ((List.range total).map fun index => (builder.received.lookup index).getD []).flatten

section

variable (checksumIEEE : List UInt8 → UInt32)

def place (r : Reassembler) (f : Fragment) (builder : FragmentBuilder) (reading : Reading) :
    Reassembler × Outcome :=
  let closed (deadline : Instant) : Reassembler :=
    { r with builds := r.builds.erase f.key, recent := r.recent.insert f.key deadline }
  if (builder.received.lookup f.sequence).isSome then (closed builder.deadline, .duplicate)
  else if builder.total ≠ f.total ∨ builder.length ≠ f.length ∨ builder.checksum ≠ f.checksum then
    (closed builder.deadline, .conflict)
  else
    let builder := { builder with received := builder.received.insert f.sequence f.payload }
    if builder.received.keys.length ≠ f.total then
      ({ r with builds := r.builds.insert f.key builder }, .buffered)
    else
      let output := assemble builder f.total
      (closed (reading.done + reassemblyTimeout),
        if checksumIEEE output = f.checksum then .delivered output else .crc)

/-- The part of `ingest` that holds the lock. -/
def ingestLocked (r : Reassembler) (f : Fragment) (reading : Reading) : Reassembler × Outcome :=
  let r := r.pruneLocked reading.prune
  if (r.recent.lookup f.key).isSome then (r, .recent)
  else
    match r.builds.lookup f.key with
    | some builder => r.place checksumIEEE f builder reading
    | none =>
      if r.builds.keys.length ≥ maxPendingMessages ∨
          r.recent.keys.length + r.builds.keys.length ≥ maxRecentMessages then (r, .capacity)
      else
        let builder : FragmentBuilder :=
          { total := f.total, length := f.length, checksum := f.checksum,
            deadline := reading.build + reassemblyTimeout }
        { r with builds := r.builds.insert f.key builder }.place checksumIEEE f builder reading

def ingest (r : Reassembler) (data : List UInt8) (reading : Reading) : Reassembler × Outcome :=
  match parse data with
  | none => (r, .malformed)
  | some f =>
    if f.sender = r.selfID then (r, .own)
    else if f.malformed then (r, .malformed)
    else r.ingestLocked checksumIEEE f reading

end

end Reassembler

/-- `encodeFragments`; a message that is too large has no fragments. -/
def encodeFragments (checksumIEEE : List UInt8 → UInt32) (senderID messageID : Nat) (payload : List UInt8) :
    Option (List (List UInt8)) :=
  if payload.length > maxMessageSize then none
  else
    let total := max 1 ((payload.length + maxFragmentPayload - 1) / maxFragmentPayload)
    some ((List.range total).map fun sequence =>
      BigEndian.put 4 senderID ++ BigEndian.put 4 messageID ++ BigEndian.put 4 sequence ++
        BigEndian.put 4 total ++ BigEndian.put 4 payload.length ++
        BigEndian.put 4 (checksumIEEE payload).toNat ++ Blocks.piece maxFragmentPayload payload sequence)

/-! ## What an accepted header says -/

/-- The number of fragments of a message, in exact arithmetic. -/
def fragmentCount (length : Nat) : Nat := max 1 ((length + 8191) / 8192)

/-- The size of fragment `sequence`, in exact arithmetic. -/
def fragmentSize (length sequence : Nat) : Nat := min 8192 (length - sequence * 8192)

structure Fragment.Sound (f : Fragment) : Prop where
  length_le : f.length ≤ 65536
  total : f.total = fragmentCount f.length
  sequence_lt : f.sequence < f.total
  no_underflow : f.sequence * 8192 ≤ f.length
  size : f.payload.length = fragmentSize f.length f.sequence

variable {length : Nat}

theorem expectedTotal_eq (h : length ≤ 65536) : expectedTotal length = fragmentCount length := by
  unfold expectedTotal fragmentCount
  rw [Word.add_of_lt (by simp only [maxFragmentPayload]; omega),
    Word.sub_of_le (by simp only [maxFragmentPayload]; omega) (by simp only [maxFragmentPayload]; omega)]
  rfl

theorem sequence_mul_le {sequence : Nat} (h : sequence < fragmentCount length) : sequence * 8192 ≤ length := by
  simp only [fragmentCount] at h
  omega

theorem expectedLength_eq {sequence : Nat} (hLength : length ≤ 65536) (h : sequence * 8192 ≤ length) :
    expectedLength length sequence = fragmentSize length sequence := by
  have hSmall : sequence * 8192 % 2 ^ 32 = sequence * 8192 := Nat.mod_eq_of_lt (by omega)
  simp only [expectedLength, maxFragmentPayload, Nat.reduceMul]
  rw [hSmall, Word.sub_of_le h (by omega)]
  rfl

theorem fragmentCount_le (h : length ≤ 65536) : fragmentCount length ≤ 8 := by
  simp only [fragmentCount]
  omega

theorem Fragment.malformed_eq_false_iff (f : Fragment) : f.malformed = false ↔ f.Sound := by
  unfold malformed
  rw [Bool.or_eq_false_iff, decide_eq_false_iff_not, decide_eq_false_iff_not]
  simp only [not_or, not_lt, gt_iff_lt, ge_iff_le, not_le, ne_eq, not_not, maxMessageSize, maxFragmentsPerMessage,
    maxFragmentPayload, Nat.reduceMul, Nat.reduceDiv]
  constructor
  · rintro ⟨⟨hLength, _, _, hSequence⟩, hTotal, hSize⟩
    rw [expectedTotal_eq hLength] at hTotal
    have hUnder := sequence_mul_le (hTotal ▸ hSequence)
    rw [expectedLength_eq hLength hUnder] at hSize
    exact ⟨hLength, hTotal, hSequence, hUnder, hSize⟩
  · rintro ⟨hLength, hTotal, hSequence, hUnder, hSize⟩
    have hMost := fragmentCount_le hLength
    refine ⟨⟨hLength, ?_, ?_, hSequence⟩, ?_, ?_⟩
    · omega
    · omega
    · rw [expectedTotal_eq hLength]
      exact hTotal
    · rw [expectedLength_eq hLength hUnder]
      exact hSize

theorem sum_fragmentSizes (h : length ≤ 65536) :
    ((List.range (fragmentCount length)).map (fragmentSize length)).sum = length := by
  have hSum := Blocks.sum_sizes 8192 length (fragmentCount length)
  have hEnough : length ≤ fragmentCount length * 8192 := by
    simp only [fragmentCount]
    omega
  rw [min_eq_right hEnough] at hSum
  exact hSum

/-! ## One prune -/

namespace Reassembler

theorem lookup_builds_prune (r : Reassembler) (now : Instant) (key : Key) :
    (r.pruneLocked now).builds.lookup key =
      (r.builds.lookup key).bind fun builder => if now < builder.deadline then some builder else none :=
  Table.lookup_filterMap _ _ _

variable {r : Reassembler} {now : Instant}

theorem builds_prune_some {key : Key} {builder : FragmentBuilder} :
    (r.pruneLocked now).builds.lookup key = some builder ↔
      r.builds.lookup key = some builder ∧ now < builder.deadline := by
  rw [lookup_builds_prune, Option.bind_eq_some_iff]
  constructor
  · rintro ⟨found, hFound, hLive⟩
    split at hLive
    · cases hLive
      exact ⟨hFound, ‹_›⟩
    · cases hLive
  · rintro ⟨hFound, hLive⟩
    exact ⟨builder, hFound, if_pos hLive⟩

/-- A key is kept until its deadline; the key of an expired builder is kept from now on. -/
theorem recent_prune_some {key : Key} {deadline : Instant} :
    (r.pruneLocked now).recent.lookup key = some deadline ↔
      (∃ builder, r.builds.lookup key = some builder ∧ builder.deadline ≤ now ∧
        deadline = now + reassemblyTimeout) ∨
      (¬(∃ builder, r.builds.lookup key = some builder ∧ builder.deadline ≤ now) ∧
        r.recent.lookup key = some deadline ∧ now < deadline) := by
  have hDropped : key ∈ Table.dropped (fun (_ : Key) (builder : FragmentBuilder) =>
      if now < builder.deadline then some builder else none) r.builds ↔
      ∃ builder, r.builds.lookup key = some builder ∧ builder.deadline ≤ now := by
    rw [Table.mem_dropped]
    simp only [ite_eq_right_iff, reduceCtorEq, imp_false, not_lt]
  have hLookup : (r.pruneLocked now).recent.lookup key = _ := Table.lookup_insertAll _ _ _ _
  rw [hLookup, Table.lookup_filterMap]
  split
  · rename_i hMem
    obtain ⟨builder, hBuilder, hOver⟩ := hDropped.mp hMem
    rw [Option.some.injEq]
    constructor
    · intro hEq
      exact .inl ⟨builder, hBuilder, hOver, hEq.symm⟩
    · rintro (⟨_, _, _, hEq⟩ | ⟨hNot, _⟩)
      · exact hEq.symm
      · exact absurd ⟨builder, hBuilder, hOver⟩ hNot
  · rename_i hMem
    rw [hDropped] at hMem
    rw [Option.bind_eq_some_iff]
    constructor
    · rintro ⟨found, hFound, hKept⟩
      split at hKept
      · cases hKept
        exact .inr ⟨hMem, hFound, ‹_›⟩
      · cases hKept
    · rintro (⟨builder, hBuilder, hOver, _⟩ | ⟨_, hFound, hKept⟩)
      · exact absurd ⟨builder, hBuilder, hOver⟩ hMem
      · exact ⟨deadline, hFound, if_pos hKept⟩

theorem length_prune_le (r : Reassembler) (now : Instant) :
    (r.pruneLocked now).builds.keys.length ≤ r.builds.keys.length ∧
      (r.pruneLocked now).recent.keys.length + (r.pruneLocked now).builds.keys.length ≤
        r.recent.keys.length + r.builds.keys.length := by
  have hBuilds := Table.length_keys_filterMap (fun (_ : Key) (builder : FragmentBuilder) =>
    if now < builder.deadline then some builder else none) r.builds
  have hRecent := Table.length_keys_filterMap (fun (_ : Key) (deadline : Instant) =>
    if now < deadline then some deadline else none) r.recent
  have hInsert := Table.length_keys_insertAll_le (now + reassemblyTimeout)
    (Table.dropped (fun (_ : Key) (builder : FragmentBuilder) =>
      if now < builder.deadline then some builder else none) r.builds)
    (Table.filterMap (fun (_ : Key) (deadline : Instant) => if now < deadline then some deadline else none) r.recent)
  constructor
  · simp only [pruneLocked]
    omega
  · simp only [pruneLocked]
    omega

end Reassembler

end FamilyConnect.Telemost
