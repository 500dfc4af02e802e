import FamilyConnect.Telemost.Reassembly

/-!
# Messages survive fragmentation

A `Transfer` is a receiver together with the record of what a family of
messages has sent to it: which fragments have arrived, and when the first one
did. `Track` says what the receiver holds of one message at any time.
-/

namespace FamilyConnect.Telemost

open Lib

/-! ## The fragments of a message -/

/-- Fragment `sequence` of a message, before it is written out. -/
def cut (checksumIEEE : List UInt8 → UInt32) (key : Key) (payload : List UInt8) (sequence : Nat) : Fragment :=
  { sender := key.1, messageID := key.2, sequence := sequence, total := fragmentCount payload.length,
    length := payload.length, checksum := checksumIEEE payload, payload := Blocks.piece 8192 payload sequence }

theorem word_flatMap (words : List Nat) (rest : List UInt8) (i : Nat) (h : i < words.length) :
    word (words.flatMap (BigEndian.put 4) ++ rest) i = words[i] % 2 ^ 32 := by
  induction words generalizing i with
  | nil => cases h
  | cons w words ih =>
    have hWord : (BigEndian.put 4 w).length = 4 := BigEndian.length_put 4 w
    rw [List.flatMap_cons, List.append_assoc]
    cases i with
    | zero =>
      rw [word, Nat.mul_zero, List.drop_zero, List.take_left' hWord, BigEndian.get_put]
      rfl
    | succ i =>
      have hDrop : 4 * (i + 1) = (BigEndian.put 4 w).length + 4 * i := by omega
      rw [word, hDrop, List.drop_length_add_append]
      exact ih i (Nat.lt_of_succ_lt_succ h)

section

variable {checksumIEEE : List UInt8 → UInt32} {key : Key} {payload data : List UInt8} {frames : List (List UInt8)}
  {sequence : Nat}

theorem sound_cut (hSmall : payload.length ≤ 65536) (hSequence : sequence < fragmentCount payload.length) :
    (cut checksumIEEE key payload sequence).Sound where
  length_le := hSmall
  total := rfl
  sequence_lt := hSequence
  no_underflow := sequence_mul_le hSequence
  size := Blocks.length_piece 8192 payload sequence

theorem parse_of_encode (hKey : key.1 < 2 ^ 32 ∧ key.2 < 2 ^ 32)
    (hEncode : encodeFragments checksumIEEE key.1 key.2 payload = some frames) (hData : frames[sequence]? = some data) :
    payload.length ≤ 65536 ∧ sequence < fragmentCount payload.length ∧
      parse data = some (cut checksumIEEE key payload sequence) := by
  unfold encodeFragments at hEncode
  split at hEncode
  · cases hEncode
  rename_i hSmall
  simp only [maxMessageSize, Nat.reduceMul, not_lt] at hSmall
  rw [Option.some.injEq] at hEncode
  subst hEncode
  rw [List.getElem?_map, Option.map_eq_some_iff] at hData
  obtain ⟨index, hIndex, rfl⟩ := hData
  obtain ⟨hBound, rfl⟩ := List.getElem?_eq_some_iff.mp hIndex
  rw [List.length_range] at hBound
  rw [List.getElem_range]
  have hSequence : sequence < fragmentCount payload.length := hBound
  have hCount := fragmentCount_le hSmall
  have hPiece := Blocks.length_piece 8192 payload sequence
  have hChecksum := (checksumIEEE payload).toNat_lt
  refine ⟨hSmall, hSequence, ?_⟩
  -- the header as one list of words
  have hWords : ∀ tail : List UInt8,
      BigEndian.put 4 key.1 ++ BigEndian.put 4 key.2 ++ BigEndian.put 4 sequence ++
        BigEndian.put 4 (fragmentCount payload.length) ++ BigEndian.put 4 payload.length ++
        BigEndian.put 4 (checksumIEEE payload).toNat ++ tail =
      [key.1, key.2, sequence, fragmentCount payload.length, payload.length, (checksumIEEE payload).toNat].flatMap
        (BigEndian.put 4) ++ tail := by
    intro tail
    simp [List.flatMap_cons]
  have hEq := hWords (Blocks.piece 8192 payload sequence)
  have hTotal : max 1 ((payload.length + maxFragmentPayload - 1) / maxFragmentPayload) =
      fragmentCount payload.length := rfl
  have hHeader : ([key.1, key.2, sequence, fragmentCount payload.length, payload.length,
      (checksumIEEE payload).toNat].flatMap (BigEndian.put 4)).length = fragmentHeaderLen := by simp [fragmentHeaderLen]
  rw [hTotal]
  have hMax : maxFragmentPayload = 8192 := rfl
  rw [hMax, hEq, parse, if_neg]
  · rw [word_flatMap _ _ 0 (by simp), word_flatMap _ _ 1 (by simp), word_flatMap _ _ 2 (by simp),
      word_flatMap _ _ 3 (by simp), word_flatMap _ _ 4 (by simp), word_flatMap _ _ 5 (by simp),
      List.drop_left' hHeader]
    simp only [List.getElem_cons_zero, List.getElem_cons_succ, cut]
    rw [Nat.mod_eq_of_lt hKey.1, Nat.mod_eq_of_lt hKey.2, Nat.mod_eq_of_lt (by omega), Nat.mod_eq_of_lt (by omega),
      Nat.mod_eq_of_lt (by omega), Nat.mod_eq_of_lt hChecksum, UInt32.ofNat_toNat]
  · rw [List.length_append, hHeader, hPiece]
    simp only [fragmentHeaderLen, maxFragmentPayload]
    omega

end

/-! ## Transfers -/

structure Family (selfID : Nat) where
  payloads : Table Key (List UInt8)
  words : ∀ key ∈ payloads, key.1 < 2 ^ 32 ∧ key.2 < 2 ^ 32
  foreign : ∀ key ∈ payloads, key.1 ≠ selfID
  small : ∀ key payload, payloads.lookup key = some payload → payload.length ≤ 65536

/-- `arrived` are the fragments of a message up to its completion, `opened` the time of the first one. -/
structure Transfer where
  receiver : Intake
  arrived : Key → List Nat := fun _ => []
  opened : Key → Instant := fun _ => 0

namespace Transfer

def Complete (payload : List UInt8) (arrived : List Nat) : Prop :=
  ∀ sequence < fragmentCount payload.length, sequence ∈ arrived

instance (payload : List UInt8) (arrived : List Nat) : Decidable (Complete payload arrived) :=
  inferInstanceAs (Decidable (∀ sequence < fragmentCount payload.length, sequence ∈ arrived))

variable {selfID : Nat}

def underway (family : Family selfID) (S : Transfer) : List Key :=
  family.payloads.keys.filter fun key =>
    decide (S.arrived key ≠ [] ∧ ∀ payload ∈ family.payloads.lookup key, ¬Complete payload (S.arrived key))

variable (checksumIEEE : List UInt8 → UInt32) (family : Family selfID)

def fragment (S : Transfer) (key : Key) (sequence : Nat) (data : List UInt8) (reading : Reading) : Transfer where
  receiver := S.receiver.ingest checksumIEEE data reading
  arrived := Function.update S.arrived key (S.arrived key ++ [sequence])
  opened := if S.arrived key = [] then Function.update S.opened key reading.build else S.opened

/-- How many messages may be under way when a fragment of `key` takes the first transfer to the second. -/
abbrev Room (selfID : Nat) := Family selfID → Transfer → Key → Transfer → Prop

/-- The message counts as soon as its first fragment arrives, even if it has no other. -/
def Counted : Room selfID := fun family S key _ => ((S.underway family).insert key).length ≤ 16

/-- Only messages that are still incomplete afterwards count. -/
def Remaining : Room selfID := fun family _ _ S' => (S'.underway family).length ≤ 16

inductive Step (room : Room selfID) : Transfer → Transfer → Prop where
  | fragment {S : Transfer} {key : Key} {payload data : List UInt8} {frames : List (List UInt8)} {sequence : Nat}
      {reading : Reading} : family.payloads.lookup key = some payload →
      encodeFragments checksumIEEE key.1 key.2 payload = some frames → frames[sequence]? = some data →
      sequence ∉ S.arrived key → reading.After S.receiver.clock →
      (S.arrived key ≠ [] → reading.prune < S.opened key + reassemblyTimeout) →
      S.receiver.reassembler.recent.keys.length + S.receiver.reassembler.builds.keys.length < 4096 →
      room family S key (S.fragment checksumIEEE key sequence data reading) →
      Step room S (S.fragment checksumIEEE key sequence data reading)
  -- a copy of a fragment whose message was delivered, while its key is kept
  | again {S : Transfer} {key : Key} {payload data : List UInt8} {frames : List (List UInt8)} {reading : Reading} :
      family.payloads.lookup key = some payload → encodeFragments checksumIEEE key.1 key.2 payload = some frames →
      data ∈ frames → Complete payload (S.arrived key) →
      (∀ d ∈ S.receiver.log, d.key = key → reading.prune < d.time + reassemblyTimeout) →
      reading.After S.receiver.clock → Step room S { S with receiver := S.receiver.ingest checksumIEEE data reading }
  | prune {S : Transfer} (now : Instant) : S.receiver.clock ≤ now →
      Step room S
        { S with
          receiver :=
            { S.receiver with reassembler := S.receiver.reassembler.pruneLocked now, clock := now } }

def system (room : Room selfID) : System Transfer where
  initial S := S.receiver.reassembler = { selfID := selfID } ∧ S.receiver.log = [] ∧ ∀ key, S.arrived key = []
  step := Step checksumIEEE family room

/-! ## One message -/

def handed (log : List Delivery) (key : Key) : List (List UInt8) :=
  (log.filter fun d => d.key = key).map Delivery.message

structure Track (r : Reassembler) (clock : Instant) (log : List Delivery) (arrived : List Nat) (opened : Instant)
    (key : Key) (payload : List UInt8) : Prop where
  fresh : arrived = [] → key ∉ r.builds ∧ key ∉ r.recent
  builder : ∀ b, r.builds.lookup key = some b → arrived ≠ [] ∧ ¬Complete payload arrived ∧
    b.total = fragmentCount payload.length ∧ b.length = payload.length ∧ b.checksum = checksumIEEE payload ∧
    b.deadline = opened + reassemblyTimeout ∧
    ∀ sequence, b.received.lookup sequence =
      if sequence ∈ arrived then some (Blocks.piece 8192 payload sequence) else none
  live : arrived ≠ [] → ¬Complete payload arrived → clock < opened + reassemblyTimeout → key ∈ r.builds
  done : Complete payload arrived → handed log key = [payload]
  waiting : ¬Complete payload arrived → handed log key = []

variable {checksumIEEE} {family} {r r' : Reassembler} {clock now opened : Instant} {log log' : List Delivery}
  {arrived : List Nat} {key other : Key} {payload : List UInt8} {reading : Reading} {sequence : Nat}
  {b : FragmentBuilder} {deadline : Instant}

theorem handed_append (log log' : List Delivery) (key : Key) :
    handed (log ++ log') key = handed log key ++ handed log' key := by
  rw [handed, List.filter_append, List.map_append]
  rfl

section

variable (h : Track checksumIEEE r clock log arrived opened key payload)
include h

theorem Track.prune (hClock : clock ≤ now) :
    Track checksumIEEE (r.pruneLocked now) now log arrived opened key payload where
  fresh hNone := by
    obtain ⟨hBuilds, hRecent⟩ := h.fresh hNone
    constructor
    · intro hMem
      obtain ⟨b, hb⟩ := Table.mem_iff_lookup.mp hMem
      exact hBuilds (Table.mem_iff_lookup.mpr ⟨b, (Reassembler.builds_prune_some.mp hb).1⟩)
    · intro hMem
      obtain ⟨deadline, hDeadline⟩ := Table.mem_iff_lookup.mp hMem
      rcases Reassembler.recent_prune_some.mp hDeadline with ⟨b, hb, _⟩ | ⟨_, hKept, _⟩
      · exact hBuilds (Table.mem_iff_lookup.mpr ⟨b, hb⟩)
      · exact hRecent (Table.mem_iff_lookup.mpr ⟨deadline, hKept⟩)
  builder b hb := h.builder b (Reassembler.builds_prune_some.mp hb).1
  live hSome hOpen hNow := by
    obtain ⟨b, hb⟩ := Table.mem_iff_lookup.mp (h.live hSome hOpen (hClock.trans_lt hNow))
    obtain ⟨_, _, _, _, _, hDeadline, _⟩ := h.builder b hb
    exact Table.mem_iff_lookup.mpr ⟨b, Reassembler.builds_prune_some.mpr ⟨hb, hDeadline ▸ hNow⟩⟩
  done := h.done
  waiting := h.waiting

theorem Track.later (hClock : clock ≤ now) : Track checksumIEEE r now log arrived opened key payload :=
  { h with live := fun hSome hOpen hNow => h.live hSome hOpen (hClock.trans_lt hNow) }

theorem Track.frame (hBuilds : r'.builds.lookup key = r.builds.lookup key) (hRecent : key ∉ r.recent → key ∉ r'.recent)
    (hLog : handed log' key = []) : Track checksumIEEE r' clock (log ++ log') arrived opened key payload where
  fresh hNone := by
    obtain ⟨hNoBuild, hNoRecent⟩ := h.fresh hNone
    refine ⟨?_, hRecent hNoRecent⟩
    rw [← AList.lookup_eq_none, hBuilds]
    exact AList.lookup_eq_none.mpr hNoBuild
  builder b hb := h.builder b (hBuilds ▸ hb)
  live hSome hOpen hNow := by
    obtain ⟨b, hb⟩ := Table.mem_iff_lookup.mp (h.live hSome hOpen hNow)
    exact Table.mem_iff_lookup.mpr ⟨b, hBuilds.trans hb⟩
  done hDone := by
    rw [handed_append, hLog, List.append_nil]
    exact h.done hDone
  waiting hOpen := by
    rw [handed_append, hLog, List.append_nil]
    exact h.waiting hOpen

theorem Track.idle (hOpen : ¬Complete payload arrived)
    (hTime : arrived ≠ [] → clock < opened + reassemblyTimeout) (hNone : key ∉ r.builds) : arrived = [] := by
  by_contra hSome
  exact hNone (h.live hSome hOpen (hTime hSome))

structure Held (checksumIEEE : List UInt8 → UInt32) (b : FragmentBuilder) (arrived : List Nat) (deadline : Instant)
    (payload : List UInt8) : Prop where
  total : b.total = fragmentCount payload.length
  length : b.length = payload.length
  checksum : b.checksum = checksumIEEE payload
  deadline : b.deadline = deadline
  pieces : ∀ sequence, b.received.lookup sequence =
    if sequence ∈ arrived then some (Blocks.piece 8192 payload sequence) else none

omit h in
theorem lookup_taken {f : Fragment} (hCut : f = cut checksumIEEE key payload sequence)
    (h : ∀ index, b.received.lookup index =
      if index ∈ arrived then some (Blocks.piece 8192 payload index) else none) (index : Nat) :
    (Reassembler.taken b f).received.lookup index =
      if index ∈ arrived ++ [sequence] then some (Blocks.piece 8192 payload index) else none := by
  subst hCut
  change (b.received.insert sequence (Blocks.piece 8192 payload sequence)).lookup index = _
  by_cases hIndex : index = sequence
  · subst hIndex
    simp
  · simp [AList.lookup_insert_ne hIndex, h, hIndex]

theorem Track.held {f : Fragment} (hCut : f = cut checksumIEEE key payload sequence) (hOpen : ¬Complete payload arrived)
    (hTime : arrived ≠ [] → clock < opened + reassemblyTimeout)
    (hTakes : Reassembler.Takes r f reading b) : Held checksumIEEE (Reassembler.taken b f) (arrived ++ [sequence])
      ((if arrived = [] then reading.build else opened) + reassemblyTimeout) payload := by
  subst hCut
  cases hTakes with
  | held hBuild _ _ _ _ =>
    obtain ⟨hSome, _, hTotal, hLength, hChecksum, hDeadline, hPieces⟩ := h.builder b hBuild
    rw [if_neg hSome]
    exact ⟨hTotal, hLength, hChecksum, hDeadline, lookup_taken rfl hPieces⟩
  | fresh hNone _ _ =>
    obtain rfl := h.idle hOpen hTime (AList.lookup_eq_none.mp hNone)
    rw [if_pos rfl]
    exact ⟨rfl, rfl, rfl, rfl, lookup_taken rfl fun index => rfl⟩

end

theorem Held.assemble (h : Held checksumIEEE b arrived deadline payload)
    (hDone : Complete payload arrived) : Reassembler.assemble b (fragmentCount payload.length) = payload := by
  have hPieces : (List.range (fragmentCount payload.length)).map (fun index => (b.received.lookup index).getD []) =
      (List.range (fragmentCount payload.length)).map (Blocks.piece 8192 payload) := by
    refine List.map_congr_left fun index hIndex => ?_
    rw [h.pieces, if_pos (hDone index (List.mem_range.mp hIndex)), Option.getD_some]
  have hAll : payload.length ≤ fragmentCount payload.length * 8192 := by
    simp only [fragmentCount]
    omega
  rw [Reassembler.assemble, hPieces, Blocks.flatten_pieces, List.take_of_length_le hAll]

theorem Held.full_iff {f : Fragment}
    (h : Held checksumIEEE b arrived deadline payload) (hFits : Reassembler.Fits f b) :
    b.received.keys.length = f.total ↔ Complete payload arrived := by
  have hMem : ∀ index, index ∈ b.received ↔ index ∈ arrived := by
    intro index
    rw [← AList.lookup_isSome, h.pieces]
    split <;> simp [*]
  rw [← hFits.sameTotal]
  constructor
  · intro hFull index hIndex
    have hKeys : ∀ k ∈ b.received, k < b.total := by
      intro k hk
      obtain ⟨p, hp⟩ := Table.mem_iff_lookup.mp hk
      exact (hFits.piece k p hp).1
    exact (hMem index).mp (Reassembler.lookup_of_full hKeys hFull (h.total ▸ hIndex))
  · intro hDone
    have hSub : List.range b.total ⊆ b.received.keys := by
      intro index hIndex
      exact AList.mem_keys.mp ((hMem index).mpr (hDone index (h.total ▸ List.mem_range.mp hIndex)))
    have hLe := (List.subperm_of_subset List.nodup_range hSub).length_le
    rw [List.length_range] at hLe
    exact Nat.le_antisymm hFits.count_le hLe

theorem Track.fragment {data : List UInt8} {result : Reassembler × Outcome} {f : Fragment} (hInv : r.Inv)
    (h : Track checksumIEEE r clock log arrived opened key payload) (hCut : f = cut checksumIEEE key payload sequence)
    (hParse : parse data = some f) (hSound : f.Sound) (hNew : sequence ∉ arrived)
    (hTime : arrived ≠ [] → clock < opened + reassemblyTimeout)
    (hRoom : key ∉ r.builds → r.builds.keys.length < 16 ∧ r.recent.keys.length + r.builds.keys.length < 4096)
    (hLocked : Reassembler.Locked checksumIEEE r f reading result) :
    Track checksumIEEE result.1 clock (log ++ deliveries data result.2 reading.done) (arrived ++ [sequence])
      (if arrived = [] then reading.build else opened) key payload := by
  obtain ⟨hKey, hTotal, hChecksum⟩ : f.key = key ∧ f.total = fragmentCount payload.length ∧
    f.checksum = checksumIEEE payload :=
    hCut ▸ ⟨rfl, rfl, rfl⟩
  subst hCut
  have hOpen : ¬Complete payload arrived := fun hDone => hNew (hDone sequence hSound.sequence_lt)
  have hSome : arrived ++ [sequence] ≠ [] := by simp
  cases hLocked with
  | recent hRecent =>
    by_cases hBuild : key ∈ r.builds
    · exact absurd hRecent (hInv.apart key hBuild)
    · exact absurd hRecent (h.fresh (h.idle hOpen hTime hBuild)).2
  | capacity _ hNone hFull =>
    have hSpace := hRoom hNone
    omega
  | refused _ hBuild hOutcome =>
    obtain ⟨_, _, hTotal, hLength, hChecksum, _, hPieces⟩ := h.builder _ hBuild
    rcases hOutcome with ⟨_, hSeen⟩ | ⟨_, hDiffer⟩
    · have hLookup := hPieces sequence
      rw [if_neg hNew] at hLookup
      have hSeen : (AList.lookup sequence _).isSome = true := hSeen
      rw [hLookup] at hSeen
      cases hSeen
    · rcases hDiffer with hDiffer | hDiffer | hDiffer
      · exact absurd hTotal hDiffer
      · exact absurd hLength hDiffer
      · exact absurd hChecksum hDiffer
  | @buffered b hRecent hTakes hMore =>
    have hHeld := h.held rfl hOpen hTime hTakes
    have hStill : ¬Complete payload (arrived ++ [sequence]) :=
      fun hDone => hMore ((hHeld.full_iff (hTakes.fits hInv hSound)).mpr hDone)
    have hQuiet : deliveries data .buffered reading.done = [] :=
      Intake.deliveries_of_not_delivered _ (by simp)
    rw [hQuiet, List.append_nil]
    constructor
    case fresh => exact fun hNil => absurd hNil hSome
    case builder =>
      intro b' hb'
      change (AList.insert key _ r.builds).lookup key = some b' at hb'
      rw [AList.lookup_insert, Option.some.injEq] at hb'
      subst hb'
      exact ⟨hSome, hStill, hHeld.total, hHeld.length, hHeld.checksum, hHeld.deadline, hHeld.pieces⟩
    case live => exact fun _ _ _ => (AList.mem_insert _).mpr (.inl rfl)
    case done => exact fun hDone => absurd hDone hStill
    case waiting => exact fun _ => h.waiting hOpen
  | @completed b hRecent hTakes hFull =>
    have hHeld := h.held rfl hOpen hTime hTakes
    have hDone := (hHeld.full_iff (hTakes.fits hInv hSound)).mp hFull
    have hMessage := hHeld.assemble hDone
    rw [hTotal, hMessage, hChecksum, if_pos rfl]
    have hNone : key ∉ r.builds.erase key := by
      rw [← AList.lookup_eq_none]
      exact AList.lookup_erase _ _
    constructor
    case fresh => exact fun hNil => absurd hNil hSome
    case builder =>
      intro b' hb'
      exact absurd (Table.mem_iff_lookup.mpr ⟨b', hb'⟩) hNone
    case live => exact fun _ hStill _ => absurd hDone hStill
    case done =>
      intro _
      rw [handed_append, h.waiting hOpen, Intake.deliveries_of_delivered hParse]
      simp [handed, hKey]
    case waiting => exact fun hStill => absurd hDone hStill

/-! ## All messages -/

structure Inv (checksumIEEE : List UInt8 → UInt32) (family : Family selfID) (S : Transfer) : Prop where
  receiver : S.receiver.Inv checksumIEEE
  self : S.receiver.reassembler.selfID = selfID
  known : ∀ key ∈ S.receiver.reassembler.builds, key ∈ family.payloads
  logged : ∀ d ∈ S.receiver.log, d.key ∈ family.payloads
  track : ∀ key payload, family.payloads.lookup key = some payload →
    Track checksumIEEE S.receiver.reassembler S.receiver.clock S.receiver.log (S.arrived key) (S.opened key) key payload

variable {S : Transfer} {data : List UInt8} {frames : List (List UInt8)}

theorem Inv.pending_le (h : S.Inv checksumIEEE family) (now : Instant) :
    (S.receiver.reassembler.pruneLocked now).builds.keys.length ≤ (S.underway family).length := by
  refine (List.subperm_of_subset (AList.keys_nodup _) ?_).length_le
  intro key hKey
  obtain ⟨b, hb⟩ := Table.mem_iff_lookup.mp (AList.mem_keys.mpr hKey)
  have hBuild := (Reassembler.builds_prune_some.mp hb).1
  have hKnown := h.known key (Table.mem_iff_lookup.mpr ⟨b, hBuild⟩)
  refine List.mem_filter.mpr ⟨AList.mem_keys.mp hKnown, ?_⟩
  rw [decide_eq_true_eq]
  obtain ⟨payload, hPayload⟩ := Table.mem_iff_lookup.mp hKnown
  obtain ⟨hSome, hOpen, _⟩ := (h.track key payload hPayload).builder b hBuild
  refine ⟨hSome, fun payload' hPayload' => ?_⟩
  rw [hPayload] at hPayload'
  cases hPayload'
  exact hOpen

theorem ingest_of_parse {f : Fragment} (hParse : parse data = some f) (hSound : f.Sound)
    (hSelf : f.sender ≠ r.selfID) : r.ingest checksumIEEE data reading = r.ingestLocked checksumIEEE f reading := by
  have hFormed := (f.malformed_eq_false_iff).mpr hSound
  simp [Reassembler.ingest, hParse, hSelf, hFormed]

theorem Inv.reads (h : S.Inv checksumIEEE family) (hLookup : family.payloads.lookup key = some payload)
    (hEncode : encodeFragments checksumIEEE key.1 key.2 payload = some frames)
    (hData : frames[sequence]? = some data) (reading : Reading) :
    parse data = some (cut checksumIEEE key payload sequence) ∧ (cut checksumIEEE key payload sequence).Sound ∧
      Reassembler.Locked checksumIEEE (S.receiver.reassembler.pruneLocked reading.prune)
        (cut checksumIEEE key payload sequence) reading
        (S.receiver.reassembler.ingest checksumIEEE data reading) := by
  have hMem : key ∈ family.payloads := Table.mem_iff_lookup.mpr ⟨payload, hLookup⟩
  obtain ⟨hSmall, hSequence, hParse⟩ := parse_of_encode (family.words key hMem) hEncode hData
  have hSound : (cut checksumIEEE key payload sequence).Sound := sound_cut hSmall hSequence
  refine ⟨hParse, hSound, ?_⟩
  rw [ingest_of_parse hParse hSound (h.self ▸ family.foreign key hMem)]
  exact Reassembler.ingestLocked_cases _ _ _ reading

end Transfer

namespace Reassembler

variable {checksumIEEE : List UInt8 → UInt32} {r : Reassembler} {f : Fragment} {reading : Reading}
  {result : Reassembler × Outcome}

section

variable (h : Locked checksumIEEE r f reading result)
include h

theorem Locked.other {key : Key} (hKey : key ≠ f.key) :
    result.1.builds.lookup key = r.builds.lookup key ∧ (key ∉ r.recent → key ∉ result.1.recent) := by
  have hClose : ∀ deadline, (r.close f.key deadline).builds.lookup key = r.builds.lookup key ∧
      (key ∉ r.recent → key ∉ (r.close f.key deadline).recent) := by
    intro deadline
    refine ⟨AList.lookup_erase_ne hKey, fun hNot hMem => ?_⟩
    exact hNot (((AList.mem_insert _).mp hMem).resolve_left hKey)
  cases h with
  | recent | capacity => exact ⟨rfl, id⟩
  | refused | completed => exact hClose _
  | buffered _ _ _ => exact ⟨AList.lookup_insert_ne hKey, id⟩

theorem Locked.selfID : result.1.selfID = r.selfID := by
  cases h <;> rfl

end

end Reassembler

namespace Transfer

variable {selfID : Nat} {family : Family selfID} {checksumIEEE : List UInt8 → UInt32} {key : Key} {S S' : Transfer}
  {payload data : List UInt8} {frames : List (List UInt8)} {sequence : Nat} {reading : Reading}

theorem key_of_mem_deliveries {f : Fragment} (hParse : parse data = some f) {outcome : Outcome} {time : Instant}
    {d : Delivery} (hd : d ∈ deliveries data outcome time) : d.key = f.key := by
  unfold deliveries at hd
  rw [hParse] at hd
  split at hd
  · rename_i hSome
    cases hSome
    rw [List.mem_singleton.mp hd]
  · cases hd

theorem handed_deliveries {f : Fragment} (hParse : parse data = some f) (outcome : Outcome) (time : Instant)
    (hKey : key ≠ f.key) : handed (deliveries data outcome time) key = [] := by
  have hNone : (deliveries data outcome time).filter (fun d => d.key = key) = [] := by
    refine List.filter_eq_nil_iff.mpr fun d hd hSame => ?_
    rw [decide_eq_true_eq] at hSame
    exact hKey (hSame.symm.trans (key_of_mem_deliveries hParse hd))
  rw [handed, hNone, List.map_nil]

theorem Inv.fragment (h : S.Inv checksumIEEE family) (hLookup : family.payloads.lookup key = some payload)
    (hEncode : encodeFragments checksumIEEE key.1 key.2 payload = some frames)
    (hData : frames[sequence]? = some data) (hNew : sequence ∉ S.arrived key) (hAfter : reading.After S.receiver.clock)
    (hTime : S.arrived key ≠ [] → reading.prune < S.opened key + reassemblyTimeout)
    (hKnown : S.receiver.reassembler.recent.keys.length + S.receiver.reassembler.builds.keys.length < 4096)
    (hCounted : ((S.underway family).insert key).length ≤ 16) :
    (S.fragment checksumIEEE key sequence data reading).Inv checksumIEEE family := by
  obtain ⟨hParse, hSound, hLocked⟩ := h.reads hLookup hEncode hData reading
  have hMem : key ∈ family.payloads := Table.mem_iff_lookup.mpr ⟨payload, hLookup⟩
  have hReceiver := h.receiver.ingest data hAfter
  have hEnd : reading.prune ≤ reading.done := hAfter.2.1.trans hAfter.2.2
  have hTrack := (h.track key payload hLookup).prune hAfter.1
  have hRoom : key ∉ (S.receiver.reassembler.pruneLocked reading.prune).builds →
      (S.receiver.reassembler.pruneLocked reading.prune).builds.keys.length < 16 ∧
        (S.receiver.reassembler.pruneLocked reading.prune).recent.keys.length +
          (S.receiver.reassembler.pruneLocked reading.prune).builds.keys.length < 4096 := by
    intro hNone
    have hIdle := hTrack.idle (fun hDone => hNew (hDone sequence hSound.sequence_lt)) hTime hNone
    have hApart : key ∉ S.underway family := by
      intro hUnder
      have hSome := (List.mem_filter.mp hUnder).2
      rw [decide_eq_true_eq] at hSome
      exact hSome.1 hIdle
    rw [List.length_insert_of_not_mem hApart] at hCounted
    have hPending := h.pending_le reading.prune
    have hPruned := Reassembler.length_prune_le S.receiver.reassembler reading.prune
    omega
  constructor
  case receiver => exact hReceiver
  case self => exact hLocked.selfID.trans h.self
  case known =>
    intro other hOther
    by_cases hSame : other = key
    · exact hSame ▸ hMem
    · obtain ⟨b, hb⟩ := Table.mem_iff_lookup.mp hOther
      have hOld := ((hLocked.other hSame).1.symm.trans hb)
      exact h.known other (Table.mem_iff_lookup.mpr ⟨b, (Reassembler.builds_prune_some.mp hOld).1⟩)
  case logged =>
    intro d hd
    rcases List.mem_append.mp hd with hd | hd
    · exact h.logged d hd
    · rw [key_of_mem_deliveries hParse hd]
      exact hMem
  case track =>
    intro other payload' hPayload'
    by_cases hSame : other = key
    · subst hSame
      rw [hLookup] at hPayload'
      cases hPayload'
      have hNext := hTrack.fragment (h.receiver.reassembler.prune _) rfl hParse hSound hNew hTime hRoom hLocked
      have hArrived : (S.fragment checksumIEEE other sequence data reading).arrived other =
          S.arrived other ++ [sequence] := Function.update_self _ _ _
      have hOpened : (S.fragment checksumIEEE other sequence data reading).opened other =
          if S.arrived other = [] then reading.build else S.opened other := by
        simp only [Transfer.fragment]
        split
        · exact Function.update_self _ _ _
        · rfl
      rw [hArrived, hOpened]
      exact hNext.later hEnd
    · have hFrame := hLocked.other hSame
      have hArrived : (S.fragment checksumIEEE key sequence data reading).arrived other = S.arrived other :=
        Function.update_of_ne hSame _ _
      have hOpened : (S.fragment checksumIEEE key sequence data reading).opened other = S.opened other := by
        simp only [Transfer.fragment]
        split
        · exact Function.update_of_ne hSame _ _
        · rfl
      rw [hArrived, hOpened]
      refine (((h.track other payload' hPayload').prune hAfter.1).frame hFrame.1 hFrame.2 ?_).later hEnd
      exact handed_deliveries hParse _ reading.done hSame

/-- A fragment that comes again while its key is kept changes nothing but the clock. -/
theorem Inv.repeated (h : S.Inv checksumIEEE family) (hLookup : family.payloads.lookup key = some payload)
    (hEncode : encodeFragments checksumIEEE key.1 key.2 payload = some frames) (hData : data ∈ frames)
    (hDone : Complete payload (S.arrived key))
    (hTime : ∀ d ∈ S.receiver.log, d.key = key → reading.prune < d.time + reassemblyTimeout)
    (hAfter : reading.After S.receiver.clock) :
    S.receiver.ingest checksumIEEE data reading =
      { S.receiver with
        reassembler := S.receiver.reassembler.pruneLocked reading.prune
        clock := reading.done } := by
  obtain ⟨sequence, hSequence⟩ := List.mem_iff_getElem?.mp hData
  obtain ⟨_, _, hLocked⟩ := h.reads hLookup hEncode hSequence reading
  -- its delivery is in the log
  have hHanded := (h.track key payload hLookup).done hDone
  have hSome : S.receiver.log.filter (fun d => d.key = key) ≠ [] := by
    intro hNil
    rw [handed, hNil] at hHanded
    cases hHanded
  obtain ⟨d, hd⟩ := List.exists_mem_of_ne_nil _ hSome
  obtain ⟨hLog, hKey⟩ := List.mem_filter.mp hd
  rw [decide_eq_true_eq] at hKey
  have hKept := (h.receiver.kept d hLog).prune h.receiver.reassembler hAfter.1
  have hRecent : key ∈ (S.receiver.reassembler.pruneLocked reading.prune).recent := by
    by_contra hNone
    exact absurd (hKept.over (hKey ▸ hNone)) (not_le.mpr (hTime d hLog hKey))
  have hResult : S.receiver.reassembler.ingest checksumIEEE data reading =
      (S.receiver.reassembler.pruneLocked reading.prune, .recent) := by
    generalize S.receiver.reassembler.ingest checksumIEEE data reading = result at hLocked ⊢
    cases hLocked with
    | recent _ => rfl
    | capacity hNot _ _ | refused hNot _ _ | buffered hNot _ _ | completed hNot _ _ => exact absurd hRecent hNot
  unfold Intake.ingest
  rw [hResult]
  dsimp only
  rw [Intake.deliveries_of_not_delivered _ (by simp), List.append_nil]

theorem Inv.prune (h : S.Inv checksumIEEE family) {now later : Instant}
    (hClock : S.receiver.clock ≤ now) (hLater : now ≤ later) : Inv checksumIEEE family
      { S with
        receiver := { S.receiver with reassembler := S.receiver.reassembler.pruneLocked now, clock := later } } where
  receiver :=
    Intake.Inv.idle (S := { S.receiver with reassembler := S.receiver.reassembler.pruneLocked now, clock := now })
      (Intake.Step.inv (.prune now hClock) h.receiver) hLater
  self := h.self
  known key hKey := by
    obtain ⟨b, hb⟩ := Table.mem_iff_lookup.mp hKey
    exact h.known key (Table.mem_iff_lookup.mpr ⟨b, (Reassembler.builds_prune_some.mp hb).1⟩)
  logged := h.logged
  track key payload hPayload := ((h.track key payload hPayload).prune hClock).later hLater

theorem Step.inv (hStep : Step checksumIEEE family Counted S S') (h : S.Inv checksumIEEE family) :
    S'.Inv checksumIEEE family := by
  cases hStep with
  | fragment hLookup hEncode hData hNew hAfter hTime hKnown hCounted =>
    exact h.fragment hLookup hEncode hData hNew hAfter hTime hKnown hCounted
  | again hLookup hEncode hData hDone hTime hAfter =>
    rw [h.repeated hLookup hEncode hData hDone hTime hAfter]
    exact h.prune hAfter.1 (hAfter.2.1.trans hAfter.2.2)
  | prune now hClock => exact h.prune hClock le_rfl

theorem system_inv (h : (system checksumIEEE family Counted).Reachable S) : S.Inv checksumIEEE family := by
  induction h with
  | start hInitial =>
    obtain ⟨hNew, hLog, hArrived⟩ := hInitial
    constructor
    case receiver =>
      have hStart : (Intake.system checksumIEEE selfID).Reachable _ := .start ⟨hNew, hLog⟩
      exact Intake.system_inv hStart
    case self => rw [hNew]
    case known =>
      rw [hNew]
      exact fun key hKey => absurd hKey (AList.notMem_empty key)
    case logged =>
      rw [hLog]
      exact fun d hd => by cases hd
    case track =>
      intro key payload hPayload
      rw [hNew, hLog, hArrived]
      constructor
      case fresh => exact fun _ => ⟨AList.notMem_empty key, AList.notMem_empty key⟩
      case builder => exact fun b hb => by cases hb
      case live => exact fun hSome => absurd rfl hSome
      case done =>
        intro hDone
        have hFirst := hDone 0 (Nat.lt_of_lt_of_le Nat.zero_lt_one (Nat.le_max_left _ _))
        cases hFirst
      case waiting => exact fun _ => rfl
  | next _ hStep ih => exact hStep.inv ih

end Transfer

/-- Messages whose fragments arrive in any order are delivered once and unchanged, and copies deliver nothing. -/
theorem fragment_round_trip (checksumIEEE : List UInt8 → UInt32) (selfID : Nat) (family : Family selfID) (S : Transfer)
    (h : (Transfer.system checksumIEEE family Transfer.Counted).Reachable S) :
    (∀ key payload, family.payloads.lookup key = some payload →
      Transfer.handed S.receiver.log key = if Transfer.Complete payload (S.arrived key) then [payload] else []) ∧
    (∀ d ∈ S.receiver.log, d.key ∈ family.payloads) ∧
    ∀ key payload frames, family.payloads.lookup key = some payload →
      encodeFragments checksumIEEE key.1 key.2 payload = some frames → Transfer.Complete payload (S.arrived key) →
      ∀ data ∈ frames, ∀ reading : Reading, reading.After S.receiver.clock →
        (∀ d ∈ S.receiver.log, d.key = key → reading.prune < d.time + reassemblyTimeout) →
        (S.receiver.ingest checksumIEEE data reading).log = S.receiver.log := by
  have hInv := Transfer.system_inv h
  refine ⟨fun key payload hLookup => ?_, hInv.logged, ?_⟩
  · split
    · exact (hInv.track key payload hLookup).done ‹_›
    · exact (hInv.track key payload hLookup).waiting ‹_›
  · intro key payload frames hLookup hEncode hDone data hData reading hAfter hTime
    rw [hInv.repeated hLookup hEncode hData hDone hTime hAfter]

/-! ## Runs that are computed -/

namespace Transfer

variable {selfID : Nat} (checksumIEEE : List UInt8 → UInt32) (family : Family selfID) (room : Room selfID)
  [∀ S key S', Decidable (room family S key S')]

/-- A fragment of the family arrives, all at one instant. -/
def arrive (S : Transfer) (key : Key) (sequence : Nat) : Option Transfer := do
  let payload ← family.payloads.lookup key
  let frames ← encodeFragments checksumIEEE key.1 key.2 payload
  let data ← frames[sequence]?
  let now := S.receiver.clock
  let S' := S.fragment checksumIEEE key sequence data ⟨now, now, now⟩
  if Complete payload (S.arrived key) then
    if ∀ d ∈ S.receiver.log, d.key = key → now < d.time + reassemblyTimeout then some { S with receiver := S'.receiver }
    else none
  else if sequence ∉ S.arrived key ∧ (S.arrived key ≠ [] → now < S.opened key + reassemblyTimeout) ∧
      S.receiver.reassembler.recent.keys.length + S.receiver.reassembler.builds.keys.length < 4096 ∧
      room family S key S' then some S'
  else none

variable {checksumIEEE family room} {S S' : Transfer} {key : Key} {sequence : Nat}

theorem arrive_step (h : S.arrive checksumIEEE family room key sequence = some S') :
    Step checksumIEEE family room S S' := by
  obtain ⟨payload, hLookup, h⟩ := Option.bind_eq_some_iff.mp h
  obtain ⟨frames, hEncode, h⟩ := Option.bind_eq_some_iff.mp h
  obtain ⟨data, hData, h⟩ := Option.bind_eq_some_iff.mp h
  have hAfter : Reading.After ⟨S.receiver.clock, S.receiver.clock, S.receiver.clock⟩ S.receiver.clock :=
    ⟨le_rfl, le_rfl, le_rfl⟩
  dsimp only at h
  split at h
  · rename_i hDone
    split at h
    · rename_i hKept
      cases h
      exact .again hLookup hEncode (List.mem_of_getElem? hData) hDone hKept hAfter
    · cases h
  split at h
  · rename_i hNew
    cases h
    exact .fragment hLookup hEncode hData hNew.1 hAfter hNew.2.1 hNew.2.2.1 hNew.2.2.2
  · cases h

end Transfer

namespace Sample

instance (family : Family 1) (S : Transfer) (key : Key) (S' : Transfer) :
    Decidable (Transfer.Counted family S key S') :=
  inferInstanceAs (Decidable (_ ≤ _))

instance (family : Family 1) (S : Transfer) (key : Key) (S' : Transfer) :
    Decidable (Transfer.Remaining family S key S') :=
  inferInstanceAs (Decidable (_ ≤ _))

def familyOf (payloads : Table Key (List UInt8))
    (h : ∀ key ∈ payloads.keys, key.1 < 2 ^ 32 ∧ key.2 < 2 ^ 32 ∧ key.1 ≠ 1 ∧
      ∀ payload ∈ payloads.lookup key, payload.length ≤ 65536) : Family 1 where
  payloads := payloads
  words key hKey := ⟨(h key hKey).1, (h key hKey).2.1⟩
  foreign key hKey := (h key hKey).2.2.1
  small key payload hLookup := (h key (Table.mem_iff_lookup.mpr ⟨payload, hLookup⟩)).2.2.2 payload hLookup

def arrivals (family : Family 1) (room : Transfer.Room 1)
    [∀ S key S', Decidable (room family S key S')] (order : List (Key × Nat)) : Option Transfer :=
  order.foldlM (fun S arrival => S.arrive constant family room arrival.1 arrival.2) { receiver := started }

theorem reachable_arrivals {family : Family 1} {room : Transfer.Room 1} [∀ S key S', Decidable (room family S key S')]
    {order : List (Key × Nat)} {S : Transfer} (h : arrivals family room order = some S) :
    (Transfer.system constant family room).Reachable S :=
  System.Reachable.play (fun _ _ _ hMove => Transfer.arrive_step hMove) (.start ⟨rfl, rfl, fun _ => rfl⟩) h

/-- Two messages of two fragments each. -/
def pair : Family 1 :=
  familyOf (((∅ : Table Key (List UInt8)).insert (7, 1) (List.replicate 8193 42)).insert (8, 1)
    (List.replicate 8200 43))
    (by decide +kernel)

/-- Sixteen messages of two fragments each, and an empty one. -/
def crowd : Family 1 :=
  familyOf (Table.insertAll (List.replicate 8193 0) ((List.range 16).map (Prod.mk 2))
    ((∅ : Table Key (List UInt8)).insert (2, 16) []))
    (by decide +kernel)

end Sample

open Sample

/-- The fragments of two messages in turns; one that was already delivered comes again. -/
theorem fragment_round_trip_pair :
    ∃ S, arrivals pair Transfer.Counted [((7, 1), 1), ((8, 1), 0), ((7, 1), 0), ((7, 1), 1), ((8, 1), 1)] = some S ∧
      Transfer.handed S.receiver.log (7, 1) = [List.replicate 8193 42] ∧
      Transfer.handed S.receiver.log (8, 1) = [List.replicate 8200 43] := by
  have hRun : (arrivals pair Transfer.Counted [((7, 1), 1), ((8, 1), 0), ((7, 1), 0), ((7, 1), 1), ((8, 1), 1)]).map
      (fun S => (S.arrived (7, 1), S.arrived (8, 1))) = some ([1, 0], [0, 1]) := by decide +kernel
  obtain ⟨S, hArrivals, hFragments⟩ := Option.map_eq_some_iff.mp hRun
  obtain ⟨hFirst, hSecond⟩ := Prod.mk.inj hFragments
  have hHanded := (fragment_round_trip constant 1 pair S (reachable_arrivals hArrivals)).1
  refine ⟨S, hArrivals, ?_, ?_⟩
  · rw [hHanded (7, 1) (List.replicate 8193 42) rfl, hFirst, if_pos (by decide +kernel)]
  · rw [hHanded (8, 1) (List.replicate 8200 43) rfl, hSecond, if_pos (by decide +kernel)]

/-- Sixteen messages stay incomplete throughout, and the seventeenth, of one fragment, is lost. -/
theorem fragment_round_trip_crowded :
    ∃ S : Transfer, (Transfer.system constant crowd Transfer.Remaining).Reachable S ∧
      crowd.payloads.lookup (2, 16) = some [] ∧ Transfer.Complete [] (S.arrived (2, 16)) ∧
      Transfer.handed S.receiver.log (2, 16) = [] := by
  have hRun : (arrivals crowd Transfer.Remaining ((List.range 17).map fun i => ((2, i), 0))).map
      (fun S => (S.arrived (2, 16), Transfer.handed S.receiver.log (2, 16))) = some ([0], []) := by decide +kernel
  obtain ⟨S, hArrivals, hEnd⟩ := Option.map_eq_some_iff.mp hRun
  obtain ⟨hArrived, hHanded⟩ := Prod.mk.inj hEnd
  refine ⟨S, reachable_arrivals hArrivals, by decide +kernel, ?_, hHanded⟩
  rw [hArrived]
  decide

end FamilyConnect.Telemost
