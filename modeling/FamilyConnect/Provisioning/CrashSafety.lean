import FamilyConnect.Provisioning.Transaction

/-!
# Provisioning over crashes

A history lists the records that were written and the calls of the application, also those of
processes that were killed. It is lawful if each entry is justified by what came before it. The
invariant says which envelopes the floor has put an end to, and how much room each phase leaves
in the outbox.
-/

namespace FamilyConnect.Provisioning

open Lib Program

variable {V : ConfigVerifier} {w : World V} {record record' : Record} {raw : Bytes}
  {verified : VerifiedConfiguration V} {entry : Entry} {floor : Nat} {ack : Ack} {outbox : List Ack}

/-! ## What a history shows -/

/-- The envelope was committed, or rolled back. -/
def Finished (past : List (Event V)) (raw : Bytes) : Prop :=
  (∃ record entry, .write record ∈ past ∧ record.committed = some entry ∧ entry.envelope = raw) ∨
    ∃ staged, .rollback staged true ∈ past ∧ staged.envelope = raw

structure Applicable (past : List (Event V)) (verified : VerifiedConfiguration V) : Prop where
  staged : ∃ entry, (journalOf past).staged = some entry ∧ entry.envelope = verified.envelope
  above : ∀ earlier done, .apply earlier done ∈ past → earlier.state.revision < verified.state.revision
  previous : verified.state.previousConfigHash = (journalOf past).committed.map (·.digest)
  alone : ∀ record entry, .write record ∈ past → record.staged = some entry → entry.envelope ≠ verified.envelope →
    Finished past entry.envelope
  fresh : ¬Finished past verified.envelope ∧ .rejected verified.envelope .replay ∉ past

/-- The candidate was applied and found healthy, and is valid at the time that was read after that. -/
def Approved (past : List (Event V)) (record : Record) : Prop :=
  ∃ entry verified pending time older, record.committed = some entry ∧
    V.verify entry.envelope record.lastNow = .ok verified ∧
      past = .clock record.lastNow :: .healthy verified true :: .write pending :: .clock
      time :: .apply verified true :: older

def Event.Justified (past : List (Event V)) : Event V → Prop
  | .write record =>
    (journalOf past).floor ≤ record.floor ∧ (record.committed ≠ (journalOf past).committed → Approved past record)
  | .apply verified _ => Applicable past verified
  | _ => True

def Lawful : List (Event V) → Prop
  | [] => True
  | event :: past => event.Justified past ∧ Lawful past

theorem Finished.mono {past : List (Event V)} (event : Event V) (h : Finished past raw) :
    Finished (event :: past) raw := by
  rcases h with ⟨record, entry, hMem, hEntry⟩ | ⟨staged, hMem, hRaw⟩
  · exact .inl ⟨record, entry, .tail _ hMem, hEntry⟩
  · exact .inr ⟨staged, .tail _ hMem, hRaw⟩

/-! ## Envelopes -/

theorem verify_envelope {now : Nat} (h : V.verify raw now = .ok verified) : verified.envelope = raw := by
  unfold ConfigVerifier.verify at h
  split at h
  · cases h
  · split at h
    · cases h
    · split at h
      · cases h
      · split at h <;> cases h
        rfl

theorem verify_replay {now : Nat} {state : ControlConfiguration}
    (h : V.verify raw now = .error .replay) : V.decode raw ≠ .ok state := by
  intro hState
  unfold ConfigVerifier.verify at h
  split at h
  · cases h
  · split at h
    · rename_i hDecode
      cases hState.symm.trans hDecode
    · split at h
      · cases h
      · split at h <;> cases h

theorem verified_eq {other : VerifiedConfiguration V} (h : verified.envelope = other.envelope) :
    verified = other := by
  obtain ⟨state, envelope, hState⟩ := verified
  obtain ⟨state', envelope', hState'⟩ := other
  cases h
  cases hState.symm.trans hState'
  rfl

theorem unpack_ok {now : Nat} : V.unpack entry now = .ok verified ↔ V.verify entry.envelope now = .ok verified ∧
    verified.digest = entry.digest ∧ ∀ time, entry.appliedAt = some time → entry.at_ ≤ time := by
  unfold ConfigVerifier.unpack
  cases hVerify : V.verify entry.envelope now with
  | error category => simp
  | ok other =>
    cases hTime : entry.appliedAt with
    | none | some time => simp; grind

/-- A configuration in this envelope is not above the floor. -/
def Covered (V : ConfigVerifier) (floor : Nat) (raw : Bytes) : Prop :=
  ∀ state, V.decode raw = .ok state → state.revision ≤ floor

theorem Covered.mono {floor' : Nat} (h : Covered V floor raw) (hLe : floor ≤ floor') : Covered V floor' raw :=
  fun state hState => Nat.le_trans (h state hState) hLe

theorem covered_envelope (h : verified.state.revision ≤ floor) : Covered V floor verified.envelope := by
  intro state hState
  cases verified.genuine.symm.trans hState
  exact h

def Event.envelopes : Event V → List Bytes
  | .write record => (record.committed.toList ++ record.staged.toList).map (·.envelope)
  | .rejected raw .replay => [raw]
  | .apply verified _ | .rollback verified _ => [verified.envelope]
  | _ => []

/-! ## Records -/

def Entry.Sound (V : ConfigVerifier) (floor now : Nat) (entry : Entry) : Prop :=
  ∃ verified, V.unpack entry entry.at_ = .ok verified ∧ verified.state.revision ≤ floor ∧ entry.at_ ≤ now

structure Ack.Sound (V : ConfigVerifier) (floor : Nat) (ack : Ack) : Prop where
  valid : ack.verify = true
  device : ack.device = V.device
  sequence : ack.sequence ≤ floor

/-- What `read` asks for, and a little more. -/
structure Record.Formed (V : ConfigVerifier) (record : Record) : Prop where
  floor : record.floor < 2 ^ 63
  phase : record.phase = .idle ↔ record.staged = none
  committed : ∀ entry, record.committed = some entry → entry.Sound V record.floor record.lastNow
  staged : ∀ entry, record.staged = some entry → entry.Sound V record.floor record.lastNow
  outbox : ∀ ack ∈ record.outbox, ack.Sound V record.floor
  result : ∀ ack, record.result = some ack → ack.Sound V record.floor

def Phase.limit : Phase → Nat
  | .idle => 62
  | .staged | .applying => 59
  | .appliedPending | .rollingBack => 60

/-- A rollback that has failed before does not need another place for that. -/
def Record.Room (record : Record) : Prop :=
  record.outbox.length ≤ record.phase.limit ∨ record.phase = .rollingBack ∧ record.outbox.length ≤ 61 ∧
    ∃ entry, record.staged = some entry ∧ ∃ ack ∈ record.outbox, ack.reports entry.digest .failed .rollback = true

theorem Record.Room.length_le (h : record.Room) : record.outbox.length ≤ 62 := by
  rcases h with hLimit | ⟨-, hLength, -⟩
  · cases hPhase : record.phase <;> rw [hPhase] at hLimit <;> simp only [Phase.limit] at hLimit <;> omega
  · omega

theorem Entry.Sound.covered {now : Nat} (h : entry.Sound V floor now) : Covered V floor entry.envelope := by
  obtain ⟨verified, hUnpack, hFloor, -⟩ := h
  rw [← verify_envelope (unpack_ok.mp hUnpack).1]
  exact covered_envelope hFloor

theorem Entry.Sound.mono {floor' now now' : Nat} (h : entry.Sound V floor now) (hFloor : floor ≤ floor')
    (hNow : now ≤ now') : entry.Sound V floor' now' := by
  obtain ⟨verified, hUnpack, hRevision, hTime⟩ := h
  exact ⟨verified, hUnpack, Nat.le_trans hRevision hFloor, Nat.le_trans hTime hNow⟩

theorem Entry.Sound.valid (h : entry.Sound V record.floor record.lastNow) : V.entryValid record entry = true := by
  obtain ⟨verified, hUnpack, hRevision, hTime⟩ := h
  simp [ConfigVerifier.entryValid, hUnpack, hRevision, hTime]

theorem Record.Formed.read (h : record.Formed V) (hRoom : record.Room) : V.read record = .ok record := by
  have hIdle : decide (record.phase = .idle) = record.staged.isNone := by
    rw [Bool.eq_iff_iff, decide_eq_true_eq, Option.isNone_iff_eq_none, h.phase]
  have hCommitted := (Option.all_eq_true _ _).mpr fun entry hEntry => (h.committed entry hEntry).valid
  have hStaged := (Option.all_eq_true _ _).mpr fun entry hEntry => (h.staged entry hEntry).valid
  have hResult : record.result.all (fun ack => ack.verify && ack.device == V.device &&
      decide (ack.sequence ≤ record.floor)) = true := by
    rw [Option.all_eq_true]
    intro ack hAck
    simp [(h.result ack hAck).valid, (h.result ack hAck).device, (h.result ack hAck).sequence]
  have hOutbox : record.outbox.all (fun ack => ack.verify && ack.device == V.device) = true := by
    rw [List.all_eq_true]
    intro ack hAck
    simp [(h.outbox ack hAck).valid, (h.outbox ack hAck).device]
  have hFloor := decide_eq_true h.floor
  have hLength := decide_eq_true (Nat.le_trans hRoom.length_le (show 62 ≤ 64 by decide))
  simp only [ConfigVerifier.read, hFloor, hIdle, hLength, hCommitted, hStaged, hOutbox, hResult,
    beq_self_eq_true, Bool.and_self, if_true]

theorem Record.Formed.later (h : record.Formed V) {now : Nat} (hNow : record.lastNow ≤ now) :
    { record with lastNow := now }.Formed V where
  floor := h.floor
  phase := h.phase
  committed entry hEntry := (h.committed entry hEntry).mono Nat.le.refl hNow
  staged entry hEntry := (h.staged entry hEntry).mono Nat.le.refl hNow
  outbox := h.outbox
  result := h.result

/-! ## Acknowledgements -/

section

variable {digest : Digest} {status : Status} {error : Category} {now : Nat} {final : Bool}
  {about : Option (VerifiedConfiguration V)}

theorem create_sound (h : ∀ verified, about = some verified → verified.state.revision ≤ floor) :
    (V.create digest about status error now).Sound V floor := by
  cases about with
  | none => exact ⟨rfl, rfl, Nat.zero_le floor⟩
  | some verified =>
    refine ⟨?_, rfl, h verified rfl⟩
    rw [Ack.verify, Bool.and_eq_true]
    exact ⟨decide_eq_true verified.state.bounded, verified.state.named⟩

/-- What `_ack` leaves. -/
structure Acked (record record' : Record) (digest : Digest) (status : Status) (error : Category) : Prop where
  committed : record'.committed = record.committed
  staged : record'.staged = record.staged
  phase : record'.phase = record.phase
  floor : record'.floor = record.floor
  lastNow : record'.lastNow = record.lastNow
  length : record'.outbox.length ≤ record.outbox.length + 1
  same : (∃ ack ∈ record.outbox, ack.reports digest status error = true) → record'.outbox = record.outbox
  reported : ∃ ack ∈ record'.outbox, ack.reports digest status error = true

theorem Record.Formed.finish (h : record.Formed V) (hAck : ack ∈ record.outbox) :
    (record.finish final ack).Formed V := by
  unfold Record.finish
  split
  · refine { h with result := ?_ }
    rintro other ⟨⟩
    exact h.outbox ack hAck
  · exact h

theorem acked_finish (hAck : ack ∈ outbox) (hReports : ack.reports digest status error = true)
    (hLength : outbox.length ≤ record.outbox.length + 1)
    (hSame : (∃ ack ∈ record.outbox, ack.reports digest status error = true) → outbox = record.outbox) :
    Acked record ({ record with outbox := outbox }.finish final ack) digest status error := by
  unfold Record.finish
  split <;> exact ⟨rfl, rfl, rfl, rfl, rfl, hLength, hSame, ack, hAck, hReports⟩

theorem ack_ok (h : record.Formed V) (hRoom : record.outbox.length < 64)
    (hAbout : ∀ verified, about = some verified → verified.state.revision ≤ record.floor) :
    ∃ record', V.ack record digest about status error now final = .ok record' ∧ record'.Formed V ∧
      Acked record record' digest status error := by
  have hCreate : (V.create digest about status error now).Sound V record.floor := create_sound hAbout
  have hReports : (V.create digest about status error now).reports digest status error = true := by
    simp [Ack.reports, ConfigVerifier.create]
  unfold ConfigVerifier.ack
  cases hFind : record.outbox.find? (Ack.reports digest status error) with
  | some existing =>
    have hMem := List.mem_of_find?_eq_some hFind
    exact ⟨_, rfl, h.finish hMem, acked_finish hMem (List.find?_some hFind) (Nat.le_succ _) fun _ => rfl⟩
  | none =>
    have hNone := List.find?_eq_none.mp hFind
    have hNew : V.create digest about status error now ∉ record.outbox := fun hMem => hNone _ hMem hReports
    simp only [if_neg hNew, if_neg (Nat.not_le.mpr hRoom)]
    have hMem := List.mem_append_right record.outbox
      (List.mem_singleton_self (V.create digest about status error now))
    refine ⟨_, rfl, Record.Formed.finish { h with outbox := ?_ } hMem, acked_finish hMem hReports ?_ ?_⟩
    · exact List.forall_mem_append.mpr ⟨h.outbox, List.forall_mem_singleton.mpr hCreate⟩
    · simp
    · rintro ⟨ack, hAck, hAckReports⟩
      exact absurd hAckReports (hNone ack hAck)

end

/-! ## The invariant -/

structure World.Inv (w : World V) : Prop where
  lawful : Lawful w.history
  written : ∀ record, .write record ∈ w.history → record.Formed V ∧ record.Room
  clock : w.journal.lastNow ≤ w.clock
  covered : ∀ event ∈ w.history, ∀ raw ∈ event.envelopes, Covered V w.journal.floor raw
  alone : ∀ record entry, .write record ∈ w.history → record.staged = some entry →
    Finished w.history entry.envelope ∨ ∃ current, w.journal.staged = some current ∧
      current.envelope = entry.envelope

theorem journalOf_cases (past : List (Event V)) : journalOf past = {} ∨ .write (journalOf past) ∈ past := by
  induction past with
  | nil => exact .inl rfl
  | cons event past ih =>
    cases event with
    | write record => exact .inr (.head _)
    | _ => exact ih.imp_right (List.mem_cons_of_mem _)

theorem blank_formed : ({} : Record).Formed V :=
  ⟨by decide, by decide, nofun, nofun, nofun, nofun⟩

theorem World.Inv.journal (h : w.Inv) : w.journal.Formed V ∧ w.journal.Room := by
  rcases journalOf_cases w.history with hBlank | hMem
  · have hJournal : w.journal = {} := hBlank
    rw [hJournal]
    exact ⟨blank_formed, .inl (Nat.zero_le _)⟩
  · exact h.written _ hMem

variable {event : Event V}

theorem journalOf_cons (past : List (Event V)) (hWrite : ∀ record, event ≠ .write record) :
    journalOf (event :: past) = journalOf past := by
  cases event with
  | write record => exact absurd rfl (hWrite record)
  | _ => rfl

theorem World.Inv.note {clock : Nat} (h : w.Inv) (hWrite : ∀ record, event ≠ .write record)
    (hClock : w.clock ≤ clock) (hJustified : event.Justified w.history)
    (hCovered : ∀ raw ∈ event.envelopes, Covered V w.journal.floor raw) :
    (World.mk clock (event :: w.history)).Inv := by
  have hJournal : (World.mk clock (event :: w.history)).journal = w.journal := journalOf_cons w.history hWrite
  have hOld : ∀ record, .write record ∈ event :: w.history → .write record ∈ w.history := by
    intro record hMem
    exact (List.mem_cons.mp hMem).resolve_left fun hEq => hWrite record hEq.symm
  constructor
  case lawful => exact ⟨hJustified, h.lawful⟩
  case written => exact fun record hMem => h.written record (hOld record hMem)
  case clock => exact hJournal ▸ Nat.le_trans h.clock hClock
  case covered =>
    rw [hJournal]
    exact List.forall_mem_cons.mpr ⟨hCovered, h.covered⟩
  case alone =>
    rw [hJournal]
    intro record entry hMem hEntry
    exact (h.alone record entry (hOld record hMem) hEntry).imp_left (Finished.mono event)

theorem World.Inv.write (h : w.Inv) (hFormed : record.Formed V) (hRoom : record.Room)
    (hClock : record.lastNow ≤ w.clock) (hFloor : w.journal.floor ≤ record.floor)
    (hCommitted : record.committed ≠ w.journal.committed → Approved w.history record)
    (hStaged : ∀ entry, w.journal.staged = some entry → record.staged = some entry ∨
        Finished (.write record :: w.history) entry.envelope) : (w.note (.write record)).Inv := by
  constructor
  case lawful => exact ⟨⟨hFloor, hCommitted⟩, h.lawful⟩
  case written =>
    intro other hMem
    rcases List.mem_cons.mp hMem with hEq | hPast
    · cases hEq
      exact ⟨hFormed, hRoom⟩
    · exact h.written other hPast
  case clock => exact hClock
  case covered =>
    intro event hMem raw hRaw
    rcases List.mem_cons.mp hMem with rfl | hPast
    · obtain ⟨entry, hEntry, rfl⟩ := List.mem_map.mp hRaw
      rcases List.mem_append.mp hEntry with hMem | hMem
      · exact (hFormed.committed entry (Option.mem_toList.mp hMem)).covered
      · exact (hFormed.staged entry (Option.mem_toList.mp hMem)).covered
    · exact (h.covered event hPast raw hRaw).mono hFloor
  case alone =>
    intro other entry hMem hEntry
    rcases List.mem_cons.mp hMem with hEq | hPast
    · cases hEq
      exact .inr ⟨entry, hEntry, rfl⟩
    · rcases h.alone other entry hPast hEntry with hFinished | ⟨current, hCurrent, hEnvelope⟩
      · exact .inl (hFinished.mono _)
      · rcases hStaged current hCurrent with hSame | hFinished
        · exact .inr ⟨current, hSame, hEnvelope⟩
        · exact .inl (hEnvelope ▸ hFinished)

/-- The process holds the record of the journal, but for the time, the phase and the outbox. -/
structure Holds (w : World V) (record : Record) : Prop where
  inv : w.Inv
  formed : record.Formed V
  room : record.Room
  clock : record.lastNow ≤ w.clock
  floor : record.floor = w.journal.floor
  committed : record.committed = w.journal.committed
  staged : record.staged = w.journal.staged

section

variable (h : Holds w record)
include h

theorem Holds.write : (w.note (.write record)).Inv := by
  apply h.inv.write h.formed h.room h.clock (Nat.le_of_eq h.floor.symm) (absurd h.committed)
  exact fun entry hEntry => .inl (h.staged.trans hEntry)

theorem Holds.note {clock : Nat} (hInv : World.Inv ⟨clock, event :: w.history⟩)
    (hWrite : ∀ record, event ≠ .write record) (hClock : w.clock ≤ clock) :
    Holds ⟨clock, event :: w.history⟩ record := by
  have hJournal : (World.mk clock (event :: w.history)).journal = w.journal := journalOf_cons w.history hWrite
  exact ⟨hInv, h.formed, h.room, Nat.le_trans h.clock hClock, hJournal ▸ h.floor,
    hJournal ▸ h.committed, hJournal ▸ h.staged⟩

theorem Holds.tick {now : Nat} (hInv : World.Inv ⟨now, .clock now :: w.history⟩) (hNow : w.clock ≤ now) :
    Holds ⟨now, .clock now :: w.history⟩ { record with lastNow := now } := by
  have hNote := h.note hInv (by simp) hNow
  exact { hNote with formed := h.formed.later (Nat.le_trans h.clock hNow), clock := Nat.le.refl }

theorem Holds.acked {digest : Digest} {status : Status} {error : Category} (hFormed : record'.Formed V)
    (hAcked : Acked record record' digest status error) (hRoom : record'.Room) : Holds w record' where
  inv := h.inv
  formed := hFormed
  room := hRoom
  clock := Nat.le_trans (Nat.le_of_eq hAcked.lastNow) h.clock
  floor := hAcked.floor.trans h.floor
  committed := hAcked.committed.trans h.committed
  staged := hAcked.staged.trans h.staged

omit h in
theorem holds_written (h : (w.note (.write record)).Inv) : Holds (w.note (.write record)) record := by
  obtain ⟨hFormed, hRoom⟩ := h.journal
  exact ⟨h, hFormed, hRoom, h.clock, rfl, rfl, rfl⟩

/-! ## The rules -/

section

variable {α β : Type} {p : Action V α} {f : α → Action V β} {Q : α → World V → Prop} {R : β → World V → Prop}

/-- The errors that are left: a call outside fails, or the outbox is to be delivered first. -/
def Failure.Tolerable (failure : Failure) : Prop := failure = .system ∨ failure = .requiresDelivery

def Guarantees (p : Action V α) (w : World V) (Q : α → World V → Prop) : Prop :=
  p.Ensures (machine V) (fun _ => True) World.Inv
    (fun result w' => match result with | .ok a => Q a w' | .error failure => failure.Tolerable) w

omit h in
theorem Guarantees.bind (h : Guarantees p w fun a w' => Guarantees (f a) w' R) : Guarantees (p >>= f) w R := by
  apply ensures_bind
  apply Ensures.mono h
  intro result w' _ hPost
  cases result with
  | ok a | error failure => exact hPost

omit h in
theorem Guarantees.andThen (h : Guarantees p w Q) (hNext : ∀ a w', w'.Inv → Q a w' → Guarantees (f a) w' R) :
    Guarantees (p >>= f) w R := by
  apply Guarantees.bind
  apply Ensures.mono h
  intro result w' hInv hPost
  cases result with
  | ok a => exact hNext a w' hInv hPost
  | error failure => exact hPost

omit h in
theorem guarantees_pure {a : α} (h : w.Inv) (hQ : Q a w) : Guarantees (pure a : Action V α) w Q :=
  ensures_pure h hQ

omit h in
theorem guarantees_look {c : Call V} {answer : Choice → (calls V).Answer c}
    {Q : (calls V).Answer c → World V → Prop} (h : w.Inv)
    (hExec : ∀ choice, exec c choice w = (choice.reply (answer choice), w))
    (hQ : ∀ choice, Q (answer choice) w) : Guarantees (perform (I := calls V) c) w Q := by
  apply ensures_perform h
  intro choice _
  have hMachine : (machine V).exec c choice w = (choice.reply (answer choice), w) := hExec choice
  rw [hMachine]
  refine ⟨h, ?_⟩
  unfold Choice.reply
  cases choice.fault.isSome with
  | true => exact .inl rfl
  | false => exact hQ choice

omit h in
theorem guarantees_write {Q : Unit → World V → Prop} (h : w.Inv) (hWrite : (w.note (.write record)).Inv)
    (hQ : Q () (w.note (.write record))) : Guarantees (write record) w Q := by
  apply ensures_perform h
  intro choice _
  simp only [machine, exec, Choice.reply]
  cases hFault : choice.fault with
  | none => exact ⟨hWrite, hQ⟩
  | some fault =>
    cases fault with
    | before => exact ⟨h, .inl rfl⟩
    | after => exact ⟨hWrite, .inl rfl⟩

omit h in
theorem guarantees_attempt {c : Call V} {Q : Except Failure ((calls V).Answer c) → World V → Prop} (h : w.Inv)
    (hQ : ∀ choice, (exec c choice w).2.Inv ∧ Q (exec c choice w).1 (exec c choice w).2) :
    Guarantees (attempt (I := calls V) c) w Q :=
  ensures_attempt h fun choice _ => hQ choice

omit h in
theorem guarantees_clock {Q : Nat → World V → Prop} (h : w.Inv)
    (hQ : ∀ now, w.clock ≤ now → World.Inv ⟨now, .clock now :: w.history⟩ → Q now ⟨now, .clock now :: w.history⟩) :
    Guarantees clock w Q := by
  apply ensures_perform h
  intro choice _
  have hLe : w.clock ≤ w.clock + choice.elapsed := Nat.le_add_right _ _
  have hNext : World.Inv ⟨w.clock + choice.elapsed, .clock (w.clock + choice.elapsed) :: w.history⟩ :=
    h.note (by simp) hLe trivial (by simp [Event.envelopes])
  simp only [machine, exec]
  exact ⟨hNext, hQ _ hLe hNext⟩

omit h in
theorem guarantees_time {Q : Nat × Record → World V → Prop} (h : w.Inv) (hClock : record.lastNow ≤ w.clock)
    (hQ : ∀ now, w.clock ≤ now → World.Inv ⟨now, .clock now :: w.history⟩ →
      Q (now, { record with lastNow := now }) ⟨now, .clock now :: w.history⟩) :
    Guarantees (V.time record) w Q := by
  apply Guarantees.bind
  apply guarantees_clock h
  intro now hNow hInv
  rw [if_neg (Nat.not_lt.mpr (Nat.le_trans hClock hNow))]
  exact guarantees_pure hInv (hQ now hNow hInv)

end

/-! ## Rolling back -/

omit h in
theorem guarantees_ack {β : Type} {f : Record → Action V β} {R : β → World V → Prop}
    {digest : Digest} {status : Status} {error : Category} {now : Nat} {final : Bool}
    {about : Option (VerifiedConfiguration V)} (h : record.Formed V)
    (hRoom : record.outbox.length < 64) (hAbout : ∀ verified, about = some verified →
      verified.state.revision ≤ record.floor)
    (hNext : ∀ record', record'.Formed V → Acked record record' digest status error → Guarantees (f record') w R) :
    Guarantees (Program.ofExcept (V.ack record digest about status error now final) >>= f) w R := by
  obtain ⟨record', hAck, hFormed, hAcked⟩ := ack_ok (V := V) h hRoom hAbout
  rw [hAck]
  exact hNext record' hFormed hAcked

theorem guarantees_rollbackTo {staged : VerifiedConfiguration V} {Q : Except Failure Unit → World V → Prop}
    (hCovered : Covered V w.journal.floor staged.envelope)
    (hFailed : ∀ failure w', Holds w' record → Q (.error failure) w')
    (hDone : (w.note (.rollback staged true)).Inv → Q (.ok ()) (w.note (.rollback staged true)))
    (target : Except Failure (Option (VerifiedConfiguration V) × Option Baseline)) :
    Guarantees (V.rollbackTo staged target) w Q := by
  cases target with
  | error failure => exact guarantees_pure h.inv (hFailed failure w h)
  | ok target =>
    apply guarantees_attempt h.inv
    intro choice
    have hInv : ∀ done, (w.note (.rollback staged done)).Inv := by
      intro done
      exact h.inv.note (by simp) Nat.le.refl trivial (by simpa [Event.envelopes] using hCovered)
    refine ⟨hInv _, ?_⟩
    simp only [exec, Choice.reply]
    cases choice.fault with
    | none => exact hDone (hInv true)
    | some fault => exact hFailed .system _ (h.note (hInv false) (by simp) Nat.le.refl)

omit h in
theorem Record.Room.length_lt (h : record.Room) (hIdle : record.phase ≠ .idle) : record.outbox.length < 62 := by
  rcases h with hLimit | ⟨-, hLength, -⟩
  · cases hPhase : record.phase <;> simp_all [Phase.limit] <;> omega
  · omega

omit h in
theorem Record.Room.rollingBack (h : record.Room) (hIdle : record.phase ≠ .idle) :
    { record with phase := .rollingBack }.Room := by
  rcases h with hLimit | ⟨-, hLength⟩
  · left
    cases hPhase : record.phase <;> simp_all [Phase.limit] <;> omega
  · exact .inr ⟨rfl, hLength⟩

omit h in
theorem Acked.room {digest : Digest} {status : Status} {error : Category}
    (h : Acked record record' digest status error)
    (hLimit : record.outbox.length < record.phase.limit) : record'.Room := by
  left
  rw [h.phase]
  exact Nat.le_trans h.length hLimit

omit h in
theorem Acked.room_failed (h : Acked record record' entry.digest .failed .rollback) (hRoom : record.Room)
    (hPhase : record.phase = .rollingBack) (hStaged : record.staged = some entry) : record'.Room := by
  have hLength : record'.outbox.length ≤ 61 := by
    rcases hRoom with hLimit | ⟨-, hLength, other, hOther, hReported⟩
    · rw [hPhase] at hLimit
      exact Nat.le_trans h.length (Nat.succ_le_succ hLimit)
    · cases hStaged.symm.trans hOther
      rw [h.same hReported]
      exact hLength
  exact .inr ⟨h.phase.trans hPhase, hLength, entry, h.staged.trans hStaged, h.reported⟩

theorem guarantees_rollback {error : Category} (hStaged : record.staged = some entry) :
    Guarantees (V.rollback record error) w fun result w' => Holds w' result.2 := by
  apply Guarantees.bind
  apply guarantees_time h.inv h.clock
  intro now hNow hInv
  have hSound := h.formed.staged entry hStaged
  have hCovered := hSound.covered
  obtain ⟨staged, hUnpack, hRevision, -⟩ := hSound
  obtain ⟨hVerify, hDigest, -⟩ := unpack_ok.mp hUnpack
  have hEnvelope := verify_envelope hVerify
  have hAbout : ∀ verified, some staged = some verified → verified.state.revision ≤ record.floor := by
    rintro verified ⟨⟩
    exact hRevision
  have hPhase : record.phase ≠ .idle := by
    rw [Ne, h.formed.phase, hStaged]
    exact nofun
  have hTick := h.tick hInv hNow
  have hRolling : Holds ⟨now, .clock now :: w.history⟩ { record with lastNow := now, phase := .rollingBack } :=
    { hTick with
      formed := { hTick.formed with phase := by simp [hStaged] }
      room := h.room.rollingBack hPhase }
  have hMatch : (record.staged.map fun entry => V.unpack entry entry.at_) = some (.ok staged) := by
    rw [hStaged, Option.map_some, hUnpack]
  dsimp only
  rw [hMatch]
  apply Guarantees.bind
  apply guarantees_write hRolling.inv hRolling.write
  apply Guarantees.bind
  apply guarantees_rollbackTo (holds_written hRolling.write) (hEnvelope ▸ hCovered)
  case hFailed =>
    intro failure w' hFailed
    apply guarantees_ack hFailed.formed (Nat.lt_of_le_of_lt hFailed.room.length_le (by decide)) hAbout
    intro record' hFormed hAcked
    have hNext := hFailed.acked hFormed hAcked ((hDigest ▸ hAcked).room_failed hFailed.room rfl hStaged)
    apply Guarantees.bind
    apply guarantees_write hNext.inv hNext.write
    exact guarantees_pure hNext.write (holds_written hNext.write)
  case hDone =>
    intro hDone
    have hFormed : { record with lastNow := now, phase := .idle, staged := none, baseline := none : Record }.Formed V :=
      { hTick.formed with phase := by simp, staged := nofun }
    have hLength : record.outbox.length < 62 := h.room.length_lt hPhase
    apply guarantees_ack hFormed (Nat.lt_trans hLength (by decide)) hAbout
    intro record' hFormed' hAcked
    have hWrite := hDone.write hFormed' (hAcked.room hLength) (Nat.le_of_eq hAcked.lastNow)
      (Nat.le_of_eq hAcked.floor.symm)
      (absurd hAcked.committed) fun other hOther => by
        cases hStaged.symm.trans hOther
        exact .inr (.inr ⟨staged, .tail _ (.head _), hEnvelope⟩)
    apply Guarantees.bind
    apply guarantees_write hDone hWrite
    exact guarantees_pure hWrite (holds_written hWrite)

/-! ## Receiving -/

theorem Holds.applicable {first second : Record} (hIdle : record.staged = none)
    (hFloor : record.floor < verified.state.revision)
    (hPrevious : verified.state.previousConfigHash = record.committed.map (·.digest))
    (hEnvelope : entry.envelope = verified.envelope)
    (hFirst : first.staged = some entry ∧ first.committed = record.committed)
    (hSecond : second.staged = some entry ∧ second.committed = record.committed) :
    Applicable (.write second :: .write first :: w.history) verified := by
  have hPast : ∀ event, event ∈ Event.write second :: .write first :: w.history →
      event ∈ w.history ∨ ∃ record', event = .write record' ∧ record'.staged = some entry ∧
        record'.committed = record.committed := by
    intro event hMem
    rcases List.mem_cons.mp hMem with rfl | hMem
    · exact .inr ⟨second, rfl, hSecond⟩
    · rcases List.mem_cons.mp hMem with rfl | hMem
      · exact .inr ⟨first, rfl, hFirst⟩
      · exact .inl hMem
  have hNew : ∀ raw, Covered V record.floor raw → raw ≠ verified.envelope := by
    rintro raw hCovered rfl
    exact absurd (hCovered verified.state verified.genuine) (Nat.not_le.mpr hFloor)
  have hCovered : ∀ event ∈ w.history, ∀ raw ∈ event.envelopes, Covered V record.floor raw :=
    h.floor ▸ h.inv.covered
  constructor
  case staged => exact ⟨entry, hSecond.1, hEnvelope⟩
  case above =>
    intro earlier done hMem
    rcases hPast _ hMem with hMem | ⟨_, ⟨⟩, -⟩
    exact Nat.lt_of_le_of_lt (hCovered _ hMem _ (.head _) earlier.state earlier.genuine) hFloor
  case previous => exact hPrevious.trans (congrArg _ hSecond.2.symm)
  case alone =>
    intro record' other hMem hOther hDiffer
    rcases hPast _ hMem with hMem | ⟨_, ⟨⟩, hEntry, -⟩
    · rcases h.inv.alone record' other hMem hOther with hFinished | ⟨current, hCurrent, -⟩
      · exact (hFinished.mono _).mono _
      · cases (h.staged.symm.trans hIdle).symm.trans hCurrent
    · cases hEntry.symm.trans hOther
      exact absurd hEnvelope hDiffer
  case fresh =>
    constructor
    · rintro (⟨record', other, hMem, hOther, hEq⟩ | ⟨staged, hMem, hEq⟩)
      · rcases hPast _ hMem with hMem | ⟨_, ⟨⟩, -, hSame⟩
        · exact hNew _ (hCovered _ hMem _ (by simp [Event.envelopes, hOther])) hEq
        · exact hNew _ (h.formed.committed other (hSame.symm.trans hOther)).covered hEq
      · rcases hPast _ hMem with hMem | ⟨_, ⟨⟩, -⟩
        exact hNew _ (hCovered _ hMem _ (.head _)) hEq
    · intro hMem
      rcases hPast _ hMem with hMem | ⟨_, ⟨⟩, -⟩
      exact hNew _ (hCovered _ hMem _ (.head _)) rfl

theorem guarantees_status {error : Category} (hStaged : record.staged = some entry) :
    Guarantees (do let (status, _) ← V.rollback record error; pure status) w fun _ _ => True :=
  (guarantees_rollback h hStaged).andThen fun _ _ hInv _ => guarantees_pure hInv trivial

theorem guarantees_checked {Q : Bool × Record → World V → Prop} (hEnvelope : verified.envelope = raw)
    (hFailed : ∀ record' w', Holds w' record' → record'.staged = record.staged → Q (false, record') w')
    (hHealthy : ∀ now, Holds ⟨now, .clock now :: .healthy verified true :: w.history⟩
      { record with lastNow := now } → V.verify raw now = .ok verified →
        Q (true, { record with lastNow := now }) ⟨now, .clock now :: .healthy verified true :: w.history⟩) :
    Guarantees (V.checked raw verified record) w Q := by
  apply Guarantees.bind
  apply guarantees_attempt h.inv
  intro choice
  have hInv : ∀ answer, (w.note (.healthy verified answer)).Inv :=
    fun answer => h.inv.note (by simp) Nat.le.refl trivial (by simp [Event.envelopes])
  have hNote : ∀ answer, Holds (w.note (.healthy verified answer)) record :=
    fun answer => h.note (hInv answer) (by simp) Nat.le.refl
  refine ⟨hInv _, ?_⟩
  simp only [exec, Choice.reply]
  cases choice.fault with
  | some fault => exact guarantees_pure (hInv _) (hFailed _ _ (hNote _) rfl)
  | none =>
    change Guarantees (clock >>= _) (w.note (.healthy verified choice.answer)) Q
    apply Guarantees.bind
    apply guarantees_clock (hInv _)
    intro now hNow hNext
    have hTick := (hNote choice.answer).tick hNext hNow
    rw [if_neg (Nat.not_lt.mpr (Nat.le_trans h.clock hNow))]
    cases hVerify : V.verify raw now with
    | error error => exact guarantees_pure hNext (hFailed _ _ hTick rfl)
    | ok other =>
      cases hAnswer : choice.answer with
      | false => exact guarantees_pure (hAnswer ▸ hNext) (hFailed _ _ (hAnswer ▸ hTick) rfl)
      | true =>
        rw [hAnswer] at hTick
        cases verified_eq ((verify_envelope hVerify).trans hEnvelope.symm)
        exact guarantees_pure hTick.inv (hHealthy now hTick hVerify)

theorem guarantees_settle {older : List (Event V)} (hStaged : record.staged = some entry)
    (hEntry : entry.envelope = raw) (hEnvelope : verified.envelope = raw)
    (hHistory : w.history = .apply verified true :: older) (hLength : record.outbox.length ≤ 59) :
    Guarantees (V.settle raw verified record) w fun _ _ => True := by
  have hRevision : verified.state.revision ≤ record.floor := by
    have hCovered := h.inv.covered (.apply verified true) (hHistory ▸ .head _) _ (.head _)
    exact h.floor ▸ hCovered verified.state verified.genuine
  have hAbout : ∀ other, some verified = some other → other.state.revision ≤ record.floor := by
    rintro other ⟨⟩
    exact hRevision
  have hPending : Holds w { record with phase := .appliedPending } :=
    { h with
      formed := { h.formed with phase := by simp [hStaged] }
      room := .inl (Nat.le_succ_of_le hLength) }
  apply Guarantees.bind
  apply guarantees_time hPending.inv hPending.clock
  intro now hNow hInv
  have hTick := hPending.tick hInv hNow
  apply guarantees_ack hTick.formed (Nat.lt_of_le_of_lt hLength (by decide)) hAbout
  intro pending hFormed hAcked
  have hNext := hTick.acked hFormed hAcked (hAcked.room (Nat.lt_succ_of_le hLength))
  have hOutbox : pending.outbox.length ≤ 60 := Nat.le_trans hAcked.length (Nat.succ_le_succ hLength)
  apply Guarantees.bind
  apply guarantees_write hNext.inv hNext.write
  apply Guarantees.bind
  apply guarantees_checked (holds_written hNext.write) hEnvelope
  case hFailed =>
    intro record' w' hFailed hSame
    exact guarantees_status hFailed (hSame.trans (hAcked.staged.trans hStaged))
  case hHealthy =>
    intro time hHolds hVerify
    obtain ⟨first, hUnpack, hFirst, hAt⟩ := hHolds.formed.staged entry (hAcked.staged.trans hStaged)
    obtain ⟨hFirstVerify, hDigest, -⟩ := unpack_ok.mp hUnpack
    apply Guarantees.bind
    apply guarantees_look hHolds.inv fun _ => rfl
    intro choice
    have hCommitted : (pending.staged.map fun entry =>
        { entry with appliedAt := some time, runtime := some choice.baseline }) =
        some { entry with appliedAt := some time, runtime := some choice.baseline } := by
      rw [hAcked.staged, hStaged, Option.map_some]
    have hNew : { pending with
        committed := some { entry with appliedAt := some time, runtime := some choice.baseline }, staged := none,
        baseline := none, phase := .idle, lastNow := time : Record }.Formed V :=
      { hHolds.formed with
        phase := by simp
        staged := nofun
        committed := by
          rintro other ⟨⟩
          refine ⟨first, unpack_ok.mpr ⟨hFirstVerify, hDigest, ?_⟩, hFirst, hAt⟩
          rintro applied ⟨⟩
          exact hAt }
    rw [hCommitted]
    apply guarantees_ack hNew (Nat.lt_of_le_of_lt hOutbox (by decide)) (hAcked.floor ▸ hAbout)
    intro record' hFormed' hAcked'
    have hRoom := hAcked'.room (Nat.lt_succ_of_le (Nat.le_succ_of_le hOutbox))
    have hWrite := hHolds.inv.write hFormed' hRoom (Nat.le_of_eq hAcked'.lastNow) (Nat.le_of_eq hAcked'.floor.symm)
      (fun _ => ⟨_, verified, pending, now, older, hAcked'.committed, by rw [hAcked'.lastNow, hEntry, hVerify], by
        rw [hAcked'.lastNow]
        simp [World.note, hHistory]⟩)
      fun other hOther => by
        cases (hAcked.staged.trans hStaged).symm.trans hOther
        exact .inr (.inl ⟨record', _, .head _, hAcked'.committed, rfl⟩)
    apply Guarantees.bind
    apply guarantees_write hHolds.inv hWrite
    exact guarantees_pure hWrite trivial

theorem guarantees_transact (hIdle : record.staged = none)
    (hVerify : V.verify raw record.lastNow = .ok verified) (hFloor : record.floor < verified.state.revision)
    (hPrevious : verified.state.previousConfigHash = record.committed.map (·.digest))
    (hLength : record.outbox.length ≤ 58) :
    Guarantees (V.transact raw verified record.lastNow record) w fun _ _ => True := by
  have hEnvelope := verify_envelope hVerify
  have hEntry : (V.pack verified record.lastNow).Sound V verified.state.revision record.lastNow := by
    refine ⟨verified, unpack_ok.mpr ⟨?_, rfl, nofun⟩, Nat.le.refl, Nat.le.refl⟩
    change V.verify verified.envelope record.lastNow = .ok verified
    rw [hEnvelope, hVerify]
  have hLe := Nat.le_of_lt hFloor
  have hAck : ∀ ack : Ack, ack.Sound V record.floor → ack.Sound V verified.state.revision :=
    fun ack hAck => { hAck with sequence := Nat.le_trans hAck.sequence hLe }
  apply Guarantees.bind
  apply guarantees_look h.inv fun _ => rfl
  intro choice
  apply Guarantees.bind
  apply guarantees_look h.inv fun _ => rfl
  intro _
  have hFormed : { record with
      staged := some (V.pack verified record.lastNow), baseline := some choice.baseline, phase := .staged,
      floor := verified.state.revision : Record }.Formed V :=
    { floor := verified.state.bounded
      phase := by simp
      committed := fun entry hCommitted => (h.formed.committed entry hCommitted).mono hLe Nat.le.refl
      staged := by
        rintro entry ⟨⟩
        exact hEntry
      outbox := fun ack hMem => hAck ack (h.formed.outbox ack hMem)
      result := fun ack hResult => hAck ack (h.formed.result ack hResult) }
  apply guarantees_ack hFormed (Nat.lt_of_le_of_lt hLength (by decide))
  · rintro other ⟨⟩
    exact Nat.le.refl
  intro first hFirst hAcked
  have hOutbox : first.outbox.length ≤ 59 := Nat.le_trans hAcked.length (Nat.succ_le_succ hLength)
  have hWrite := h.inv.write hFirst (hAcked.room (Nat.lt_succ_of_le hLength)) (hAcked.lastNow ▸ h.clock)
    (by rw [hAcked.floor, ← h.floor]; exact hLe) (absurd (hAcked.committed.trans h.committed))
    fun entry hOther => by cases (h.staged.symm.trans hIdle).symm.trans hOther
  have hHolds := holds_written hWrite
  have hApplying : Holds (w.note (.write first)) { first with phase := .applying } :=
    { hHolds with
      formed := { hFirst with phase := by simp [hAcked.staged] }
      room := .inl hOutbox }
  have hApplicable : Applicable (.write { first with phase := .applying } :: .write first :: w.history) verified :=
    h.applicable hIdle hFloor hPrevious rfl ⟨hAcked.staged, hAcked.committed⟩ ⟨hAcked.staged, hAcked.committed⟩
  have hCovered : Covered V first.floor verified.envelope := covered_envelope (Nat.le_of_eq hAcked.floor.symm)
  apply Guarantees.bind
  apply guarantees_write h.inv hWrite
  apply Guarantees.bind
  apply guarantees_write hWrite hApplying.write
  apply Guarantees.bind
  apply guarantees_attempt hApplying.write
  intro choice
  have hInv : ∀ done, (((w.note (.write first)).note
      (.write { first with phase := .applying })).note (.apply verified done)).Inv :=
    fun done => hApplying.write.note (by simp) Nat.le.refl hApplicable fun raw hRaw =>
      List.mem_singleton.mp hRaw ▸ hCovered
  have hNote := fun done => (holds_written hApplying.write).note (hInv done) (by simp) Nat.le.refl
  refine ⟨hInv _, ?_⟩
  simp only [exec, Choice.reply]
  cases choice.fault with
  | none => exact guarantees_settle (hNote true) hAcked.staged hEnvelope hEnvelope rfl hOutbox
  | some fault => exact guarantees_status (hNote false) hAcked.staged

omit h in
theorem judge_rejected {now : Nat} {error : Category} (h : V.judge raw now record = .rejected error)
    (hReplay : error = .replay) : Covered V record.floor raw := by
  subst hReplay
  intro state hState
  unfold ConfigVerifier.judge at h
  cases hVerify : V.verify raw now with
  | error error =>
    rw [hVerify] at h
    cases h
    exact absurd hState (verify_replay hVerify)
  | ok verified =>
    have hGenuine := verified.genuine
    rw [verify_envelope hVerify, hState] at hGenuine
    grind

omit h in
theorem judge_fresh {now : Nat} (h : V.judge raw now record = .fresh verified) : V.verify raw now = .ok verified ∧
    record.floor < verified.state.revision ∧ verified.state.previousConfigHash =
      record.committed.map (·.digest) := by
  unfold ConfigVerifier.judge at h
  grind

theorem judge_repeated {now : Nat} {status : Status} {result : Except Failure Record}
    (hLength : record.outbox.length ≤ 58) (hIdle : record.phase = .idle)
    (hJudge : V.judge raw now record = .repeated status result) :
    ∃ record', result = .ok record' ∧ Holds w record' := by
  unfold ConfigVerifier.judge at hJudge
  cases hVerify : V.verify raw now with
  | error error => simp [hVerify] at hJudge
  | ok verified =>
    rw [hVerify] at hJudge
    dsimp only at hJudge
    split at hJudge
    · rename_i ack hFilter
      have hSound := h.formed.result ack (Option.filter_eq_some_iff.mp hFilter).1
      cases hJudge
      refine ⟨_, rfl, ?_⟩
      split
      · exact h
      · refine { h with formed := { h.formed with outbox := ?_ }, room := .inl ?_ }
        · exact List.forall_mem_append.mpr ⟨h.formed.outbox, List.forall_mem_singleton.mpr hSound⟩
        · simp only [List.length_append, List.length_singleton, hIdle, Phase.limit]
          omega
    · split at hJudge
      · rename_i hDigest
        obtain ⟨entry, hCommitted, hEntry⟩ := Option.map_eq_some_iff.mp hDigest
        obtain ⟨first, hUnpack, hRevision, -⟩ := h.formed.committed entry hCommitted
        have hHash : first.digest = verified.digest := by
          rw [(unpack_ok.mp hUnpack).2.1, hEntry, VerifiedConfiguration.digest, verify_envelope hVerify]
        have hSame := verified_eq (V.distinct _ _ _ _ first.genuine verified.genuine hHash)
        have hAbout : ∀ other, some verified = some other → other.state.revision ≤ record.floor := by
          rintro other ⟨⟩
          exact hSame ▸ hRevision
        cases hJudge
        obtain ⟨record', hAck, hFormed, hAcked⟩ := ack_ok (V := V) h.formed
          (Nat.lt_of_le_of_lt hLength (by decide)) hAbout
        exact ⟨record', hAck, h.acked hFormed hAcked
          (hAcked.room (by rw [hIdle]; exact Nat.lt_of_le_of_lt hLength (by decide)))⟩
      · split at hJudge
        · cases hJudge
        · split at hJudge <;> cases hJudge

theorem guarantees_deliver (hIdle : record.staged = none) :
    Guarantees (V.deliver raw record) w fun _ _ => True := by
  apply Guarantees.bind
  apply guarantees_time h.inv h.clock
  intro now hNow hInv
  have hTick := h.tick hInv hNow
  have hPhase := hTick.formed.phase.mpr hIdle
  dsimp only
  by_cases hLength : 58 < record.outbox.length
  · rw [if_pos hLength]
    exact ensures_throw hInv (.inr rfl)
  rw [if_neg hLength]
  have hLe := Nat.le_of_not_lt hLength
  cases hJudge : V.judge raw now { record with lastNow := now } with
  | fresh verified =>
    obtain ⟨hVerify, hFloor, hPrevious⟩ := judge_fresh hJudge
    exact guarantees_transact hTick hIdle hVerify hFloor hPrevious hLe
  | repeated status result =>
    obtain ⟨record', rfl, hHolds⟩ := judge_repeated hTick hLe hPhase hJudge
    change Guarantees (write record' >>= _) _ _
    apply Guarantees.bind
    apply guarantees_write hHolds.inv hHolds.write
    exact guarantees_pure hHolds.write trivial
  | rejected error =>
    have hNote : (World.mk now (.clock now :: w.history) |>.note (.rejected raw error)).Inv := by
      refine hInv.note (by simp) Nat.le.refl (trivial : Event.Justified _ (.rejected raw error))
        fun other hOther => ?_
      cases error with
      | replay =>
        cases List.mem_singleton.mp hOther
        exact (judge_rejected hJudge rfl).mono (Nat.le_of_eq h.floor)
      | _ => cases hOther
    have hHolds := hTick.note hNote (by simp) Nat.le.refl
    apply Guarantees.bind
    apply ensures_perform hInv
    intro choice _
    refine ⟨hNote, ?_⟩
    apply guarantees_ack hHolds.formed (Nat.lt_of_le_of_lt hLe (by decide)) (by simp)
    intro record' hFormed hAcked
    have hNext := hHolds.acked hFormed hAcked (hAcked.room
      (by rw [hPhase]; exact Nat.lt_of_le_of_lt hLe (by decide)))
    apply Guarantees.bind
    apply guarantees_write hNext.inv hNext.write
    exact guarantees_pure hNext.write trivial

end

/-! ## Runs -/

theorem Record.Room.tail {rest : List Ack} (h : { record with outbox := ack :: rest }.Room) :
    { record with outbox := rest }.Room := by
  rcases h with hLimit | ⟨hPhase, hLength, entry, hStaged, failed, hMem, hReports⟩
  · exact .inl (Nat.le_of_succ_le hLimit)
  · rcases List.mem_cons.mp hMem with rfl | hRest
    · left
      change rest.length ≤ record.phase.limit
      rw [show record.phase = .rollingBack from hPhase]
      exact Nat.le_of_succ_le_succ hLength
    · exact .inr ⟨hPhase, Nat.le_of_succ_le hLength, entry, hStaged, failed, hRest, hReports⟩

theorem guarantees_flush (h : Holds w { record with outbox := outbox }) :
    Guarantees (V.flush record outbox) w fun _ _ => True := by
  induction outbox generalizing w with
  | nil => exact guarantees_pure h.inv trivial
  | cons ack rest ih =>
    have hRest : Holds w { record with outbox := rest } :=
      { h with
        formed := { h.formed with outbox := fun other hOther => h.formed.outbox other (.tail _ hOther) }
        room := h.room.tail }
    apply Guarantees.bind
    apply guarantees_attempt h.inv
    intro choice
    refine ⟨h.inv, ?_⟩
    simp only [exec, Choice.reply]
    cases choice.fault with
    | some fault => exact guarantees_pure h.inv trivial
    | none =>
      cases choice.answer with
      | false => exact guarantees_pure h.inv trivial
      | true =>
        apply Guarantees.bind
        apply guarantees_write h.inv hRest.write
        exact ih (holds_written hRest.write)

theorem guarantees_read {β : Type} {f : Record → Action V β} {R : β → World V → Prop} (h : w.Inv)
    (hNext : Holds w w.journal → Guarantees (f w.journal) w R) :
    Guarantees (do let record ← Program.ofExcept (V.read (← load)); f record) w R := by
  obtain ⟨hFormed, hRoom⟩ := h.journal
  apply Guarantees.bind
  apply guarantees_look h fun _ => rfl
  intro _
  rw [hFormed.read hRoom]
  exact hNext ⟨h, hFormed, hRoom, h.clock, rfl, rfl, rfl⟩

theorem guarantees_receive (h : w.Inv) : Guarantees (V.receive raw) w fun _ _ => True := by
  apply guarantees_read h
  intro hHolds
  cases hStaged : w.journal.staged with
  | none => exact guarantees_deliver hHolds hStaged
  | some entry =>
    apply (guarantees_rollback hHolds hStaged).andThen
    intro result w' hInv hResult
    cases hLeft : result.2.staged with
    | none => simpa [hLeft] using guarantees_deliver hResult hLeft
    | some other => simpa [hLeft] using guarantees_pure hInv trivial

theorem guarantees_recover (h : w.Inv) : Guarantees V.recover w fun _ _ => True := by
  apply guarantees_read h
  intro hHolds
  apply Guarantees.bind
  apply guarantees_time h hHolds.clock
  intro now hNow hInv
  have hTick := hHolds.tick hInv hNow
  dsimp only
  by_cases hSome : w.journal.staged.isSome = true
  · rw [if_pos hSome]
    obtain ⟨entry, hStaged⟩ := Option.isSome_iff_exists.mp hSome
    exact (guarantees_rollback hTick hStaged).andThen fun _ _ hInv _ => guarantees_pure hInv trivial
  · rw [if_neg hSome]
    apply Guarantees.bind
    apply guarantees_write hTick.inv hTick.write
    exact guarantees_pure hTick.write trivial

theorem guarantees_program (h : w.Inv) (operation : Operation) :
    Guarantees (operation.program V) w fun _ _ => True := by
  cases operation with
  | receive raw => exact (guarantees_receive h).andThen fun _ _ hInv _ => guarantees_pure hInv trivial
  | recover => exact (guarantees_recover h).andThen fun _ _ hInv _ => guarantees_pure hInv trivial
  | flushAcks =>
    apply Guarantees.andThen (guarantees_read h guarantees_flush)
    exact fun _ _ hInv _ => guarantees_pure hInv trivial

theorem inv_reachable (h : (provisioning V).Reachable w) : w.Inv := by
  apply h.invariant
  · rintro ⟨clock, _⟩ ⟨⟩
    exact ⟨trivial, by simp, Nat.zero_le clock, by simp, by simp⟩
  · rintro start _ - hInv ⟨operation, choices, rfl⟩
    exact ((guarantees_program hInv operation).run fun _ _ => trivial).1

/-- Whatever the application does and wherever a process is killed, every write and every call of
`apply` is in order. -/
theorem provisioning_crash_safe (h : (provisioning V).Reachable w) : Lawful w.history := (inv_reachable h).lawful

namespace Sample

/-- One envelope is genuine. -/
def verifier : ConfigVerifier where
  device := "device"
  clientVersion := [1, 0, 0]
  decode raw := if raw = [1] then .ok ⟨"first", 1, 0, 100, [1, 0, 0], none, by decide, by decide⟩
    else .error .malformed
  sha256 raw := BitVec.ofNat 256 raw.length
  distinct raw raw' state state' h h' _ := by
    by_cases hRaw : raw = [1]
    · by_cases hRaw' : raw' = [1]
      · rw [hRaw, hRaw']
      · simp [hRaw'] at h'
    · simp [hRaw] at h

/-- It is received, and every call succeeds. -/
def committed : World verifier := (Operation.run verifier (.receive [1]) (List.replicate 13 {}) ⟨5, []⟩).2

theorem reachable_committed : (provisioning verifier).Reachable committed := by
  have hStart : (provisioning verifier).Reachable ⟨5, []⟩ := .start rfl
  exact hStart.next ⟨.receive [1], List.replicate 13 {}, rfl⟩

end Sample

open Sample

theorem provisioning_crash_safe_committed :
    committed.journal.committed.map (·.envelope) = some [1] ∧ Lawful committed.history :=
  ⟨by decide +kernel, provisioning_crash_safe reachable_committed⟩

/-- Every record that was written can be read again, and no call fails because of the journal. -/
theorem journal_readable (h : (provisioning V).Reachable w) :
    (∀ record, .write record ∈ w.history → V.read record = .ok record ∧ record.outbox.length ≤ 62) ∧
      ∀ operation choices failure, (Operation.run V operation choices w).1 = some (.error failure) →
        failure = .system ∨ failure = .requiresDelivery := by
  have hInv := inv_reachable h
  constructor
  · intro record hMem
    obtain ⟨hFormed, hRoom⟩ := hInv.written record hMem
    exact ⟨hFormed.read hRoom, hRoom.length_le⟩
  · intro operation choices failure hRun
    exact ((guarantees_program hInv operation).run fun _ _ => trivial).2 _ hRun

theorem journal_readable_committed : committed.journal.outbox.length = 3 ∧
    verifier.read committed.journal = .ok committed.journal := by
  have hLength : committed.journal.outbox.length = 3 := by decide +kernel
  have hMem : .write committed.journal ∈ committed.history := by
    refine (journalOf_cases committed.history).resolve_left fun hBlank => ?_
    rw [World.journal, hBlank] at hLength
    cases hLength
  exact ⟨hLength, ((journal_readable reachable_committed).1 _ hMem).1⟩

end FamilyConnect.Provisioning
