import FamilyConnect.Lib.Program
import FamilyConnect.Lib.Transition

/-!
# Provisioning transactions

Source: `provisioning/transaction.py`, with `verify` of `configuration.py` and the acknowledgements of
`ack.py`. The journal is one record, which is replaced as a whole; the application and the carrier
answer anything. A process can be killed at any call, and a write can raise before or after the record
was replaced. Signatures are correct, and no record is too large.
-/

namespace FamilyConnect.Provisioning

open Lib Program

abbrev Bytes := List UInt8
abbrev Digest := BitVec 256

/-! ## Configurations -/

/-- `STATUSES` -/
inductive Status where
  | received | rejected | applied | committed | rolledBack | failed
  deriving DecidableEq

/-- `ERRORS` -/
inductive Category where
  | none | size | clock | signature | malformed | schema | target | signer | structural | lease | clientVersion
  | unsupportedTransportVersion | replay | previousHash | apply | health | recovery | rollback
  deriving DecidableEq

/-- `[a-zA-Z0-9_-]{1,64}` -/
def identifier (text : String) : Bool :=
  text.length != 0 && decide (text.length ≤ 64) && text.toList.all fun c => c.isAlphanum || c == '_' || c == '-'

structure ControlConfiguration where
  configId : String
  revision : Nat
  issuedAt : Nat
  expiresAt : Nat
  minClientVersion : List Nat
  previousConfigHash : Option Digest
  named : identifier configId = true
  bounded : revision < 2 ^ 63

/-- `decode` stands for the checks of `ConfigVerifier.verify` on signature, target and format. No two
envelopes that pass them have the same hash. -/
structure ConfigVerifier where
  device : String
  clientVersion : List Nat
  decode : Bytes → Except Category ControlConfiguration
  sha256 : Bytes → Digest
  distinct : ∀ raw raw' state state', decode raw = .ok state → decode raw' = .ok state' →
    sha256 raw = sha256 raw' → raw = raw'

structure VerifiedConfiguration (V : ConfigVerifier) where
  state : ControlConfiguration
  envelope : Bytes
  genuine : V.decode envelope = .ok state

def maxEnvelopeBytes : Nat := 65536

namespace ConfigVerifier

def verify (V : ConfigVerifier) (raw : Bytes) (now : Nat) : Except Category (VerifiedConfiguration V) :=
  if maxEnvelopeBytes < raw.length then .error .size
  else
    match h : V.decode raw with
    | .error category => .error category
    | .ok state =>
      if ¬(state.issuedAt ≤ now ∧ now < state.expiresAt) then .error .lease
      else if V.clientVersion < state.minClientVersion then .error .clientVersion
      else .ok ⟨state, raw, h⟩

end ConfigVerifier

variable {V : ConfigVerifier}

def VerifiedConfiguration.digest (verified : VerifiedConfiguration V) : Digest := V.sha256 verified.envelope

/-! ## The journal -/

/-- The body of an acknowledgement. -/
structure Ack where
  device : String
  envelopeHash : Digest
  configId : Option String
  sequence : Nat
  status : Status
  error : Category
  timestamp : Nat
  deriving DecidableEq

def Ack.verify (ack : Ack) : Bool := decide (ack.sequence < 2 ^ 63) && ack.configId.all identifier

/-- What `snapshot` returns, with the field that `_rollback` adds. -/
structure Baseline where
  known : List String
  active : List String
  expiredActive : List String := []

inductive Phase where
  | idle | staged | applying | appliedPending | rollingBack
  deriving DecidableEq

structure Entry where
  envelope : Bytes
  at_ : Nat
  digest : Digest
  appliedAt : Option Nat
  runtime : Option Baseline

structure Record where
  committed : Option Entry := none
  staged : Option Entry := none
  phase : Phase := .idle
  baseline : Option Baseline := none
  floor : Nat := 0
  lastNow : Nat := 0
  outbox : List Ack := []
  result : Option Ack := none

inductive Failure where
  | clock
  | invalidJournal
  | outboxFull
  | requiresDelivery
  | system
  deriving DecidableEq

namespace ConfigVerifier

variable (V)

/-- The error is the category of a `ConfigError`, and none for a hash mismatch. -/
def unpack (entry : Entry) (now : Nat) : Except (Option Category) (VerifiedConfiguration V) :=
  match V.verify entry.envelope now with
  | .error category => .error (some category)
  | .ok verified =>
    if verified.digest ≠ entry.digest ∨ entry.appliedAt.any (· < entry.at_) = true then .error none
      else .ok verified

def entryValid (record : Record) (entry : Entry) : Bool :=
  match V.unpack entry entry.at_ with
  | .error _ => false
  | .ok verified => decide (verified.state.revision ≤ record.floor) && decide (entry.at_ ≤ record.lastNow)

/-- `read`, on what has been parsed. -/
def read (record : Record) : Except Failure Record :=
  if decide (record.floor < 2 ^ 63) && (decide (record.phase = .idle) == record.staged.isNone) &&
      decide (record.outbox.length ≤ 64) && record.committed.all (V.entryValid record) &&
        record.staged.all (V.entryValid record) &&
      record.outbox.all (fun ack => ack.verify && ack.device == V.device) &&
      record.result.all (fun ack => ack.verify && ack.device == V.device && decide (ack.sequence ≤ record.floor))
  then .ok record else .error .invalidJournal

def pack (verified : VerifiedConfiguration V) (now : Nat) : Entry :=
  ⟨verified.envelope, now, verified.digest, none, none⟩

def create (digest : Digest) (verified : Option (VerifiedConfiguration V)) (status : Status)
    (error : Category) (now : Nat) : Ack :=
  ⟨V.device, digest, verified.map (·.state.configId), (verified.map (·.state.revision)).getD 0, status, error, now⟩

end ConfigVerifier

def Ack.reports (digest : Digest) (status : Status) (error : Category) (ack : Ack) : Bool :=
  ack.envelopeHash == digest && ack.status == status && ack.error == error

def Record.finish (record : Record) (final : Bool) (ack : Ack) : Record :=
  if final then { record with result := some ack } else record

/-- `_ack` -/
def ConfigVerifier.ack (V : ConfigVerifier) (record : Record) (digest : Digest)
    (verified : Option (VerifiedConfiguration V)) (status : Status) (error : Category) (now : Nat)
    (final : Bool) : Except Failure Record :=
  match record.outbox.find? (Ack.reports digest status error) with
  | some existing => .ok (record.finish final existing)
  | none =>
    let raw := V.create digest verified status error now
    if raw ∈ record.outbox then .ok (record.finish final raw)
    else if 64 ≤ record.outbox.length then .error .outboxFull
    else .ok ({ record with outbox := record.outbox ++ [raw] }.finish final raw)

/-! ## The transaction -/

/-- The calls of the process: to the clock, the journal, the log, the application and the carrier. -/
inductive Call (V : ConfigVerifier) where
  | clock
  | load
  | write (record : Record)
  | rejected (raw : Bytes) (error : Category)
  | snapshot (previous : Option Baseline)
  | reserve
  | apply (verified : VerifiedConfiguration V) (baseline : Baseline)
  | healthy (verified : VerifiedConfiguration V)
  | rollback (staged : VerifiedConfiguration V) (previous : Option (VerifiedConfiguration V))
      (baseline : Option Baseline)
  | sendAck (ack : Ack)

def calls (V : ConfigVerifier) : Interface where
  Call := Call V
  Answer
    | .clock => Nat
    | .load => Record
    | .snapshot _ => Baseline
    | .healthy _ | .sendAck _ => Bool
    | _ => Unit

abbrev Action (V : ConfigVerifier) (α : Type) : Type := Program (calls V) Failure α

def clock : Action V Nat := perform (I := calls V) .clock

def load : Action V Record := perform (I := calls V) .load

def write (record : Record) : Action V Unit := perform (I := calls V) (.write record)

def snapshot (previous : Option Baseline) : Action V Baseline := perform (I := calls V) (.snapshot previous)

namespace ConfigVerifier

variable (V)

/-- `_time` -/
def time (record : Record) : Action V (Nat × Record) := do
  let now ← clock
  if now < record.lastNow then throw .clock else pure (now, { record with lastNow := now })

/-- What `_rollback` tells the application to go back to. An expired configuration is not connected again. -/
def restored (record : Record) (now : Nat) : Except Failure (Option (VerifiedConfiguration V) × Option Baseline) :=
  match record.committed with
  | none => .ok (none, record.baseline)
  | some entry =>
    match V.unpack entry now, record.baseline with
    | .ok previous, baseline => .ok (some previous, baseline)
    | .error (some _), some baseline =>
      .ok (none, some { baseline with expiredActive := baseline.active, active := [] })
    | .error _, _ => .error .system

def rollbackTo (staged : VerifiedConfiguration V) :
    Except Failure (Option (VerifiedConfiguration V) × Option Baseline) → Action V (Except Failure Unit)
  | .error failure => pure (.error failure)
  | .ok (previous, baseline) => attempt (I := calls V) (.rollback staged previous baseline)

/-- `_rollback`, with the record that it leaves in memory. -/
def rollback (record : Record) (error : Category) : Action V (Status × Record) := do
  let (now, record) ← V.time record
  match record.staged.map fun entry => V.unpack entry entry.at_ with
  | some (.ok staged) =>
    let record := { record with phase := .rollingBack }
    write record
    match ← V.rollbackTo staged (V.restored record now) with
    | .error _ =>
      let record ← .ofExcept (V.ack record staged.digest (some staged) .failed .rollback now false)
      write record
      pure (.failed, record)
    | .ok () =>
      let record := { record with phase := .idle, staged := none, baseline := none }
      let record ← .ofExcept (V.ack record staged.digest (some staged) .rolledBack error now true)
      write record
      pure (.rolledBack, record)
  | _ => throw .invalidJournal

/-- Returns nothing for `IDLE`. -/
def recover : Action V (Option Status) := do
  let stored ← load
  let record ← .ofExcept (V.read stored)
  let (_, record) ← V.time record
  if record.staged.isSome then
    let (status, _) ← V.rollback record .recovery
    pure (some status)
  else
    write record
    pure none

/-- The `try` block around `healthy`. -/
def checked (raw : Bytes) (verified : VerifiedConfiguration V) (record : Record) : Action V (Bool × Record) := do
  match ← attempt (I := calls V) (.healthy verified) with
  | .error _ => pure (false, record)
  | .ok healthy =>
    let now ← clock
    if now < record.lastNow then pure (false, record)
    else
      match V.verify raw now with
      | .error _ => pure (false, { record with lastNow := now })
      | .ok _ => pure (healthy, { record with lastNow := now })

/-- The part of `receive` after `apply` has returned. -/
def settle (raw : Bytes) (verified : VerifiedConfiguration V) (record : Record) : Action V Status := do
  let (now, record) ← V.time { record with phase := .appliedPending }
  let record ← .ofExcept (V.ack record (V.sha256 raw) (some verified) .applied .none now false)
  write record
  let (healthy, record) ← V.checked raw verified record
  if healthy then
    let runtime ← snapshot none
    let committed := record.staged.map fun entry =>
      { entry with appliedAt := some record.lastNow, runtime := some runtime }
    let record := { record with committed := committed, staged := none, baseline := none, phase := .idle }
    let record ← .ofExcept (V.ack record (V.sha256 raw) (some verified) .committed .none record.lastNow true)
    write record
    pure .committed
  else
    let (status, _) ← V.rollback record .health
    pure status

/-- The part of `receive` for a configuration that is new. -/
def transact (raw : Bytes) (verified : VerifiedConfiguration V) (now : Nat) (record : Record) :
    Action V Status := do
  let baseline ← snapshot (record.committed.bind (·.runtime))
  perform (I := calls V) .reserve
  let record := { record with
    staged := some (V.pack verified now), baseline := some baseline, phase := .staged
    floor := verified.state.revision }
  let record ← .ofExcept (V.ack record (V.sha256 raw) (some verified) .received .none now false)
  write record
  let record := { record with phase := .applying }
  write record
  match ← attempt (I := calls V) (.apply verified baseline) with
  | .error _ =>
    let (status, _) ← V.rollback record .apply
    pure status
  | .ok () => V.settle raw verified record

end ConfigVerifier

/-- The outcomes of the `try` block in `receive`: an error, a delivery that was answered before, or
a new configuration. -/
inductive Verdict (V : ConfigVerifier) where
  | rejected (error : Category)
  | repeated (status : Status) (record : Except Failure Record)
  | fresh (verified : VerifiedConfiguration V)

namespace ConfigVerifier

variable (V)

def judge (raw : Bytes) (now : Nat) (record : Record) : Verdict V :=
  match V.verify raw now with
  | .error error => .rejected error
  | .ok verified =>
    match record.result.filter (·.envelopeHash == V.sha256 raw) with
    | some result =>
      .repeated result.status (.ok (if result ∈ record.outbox then record
        else { record with outbox := record.outbox ++ [result] }))
    | none =>
      if record.committed.map (·.digest) = some (V.sha256 raw) then
        .repeated .committed (V.ack record (V.sha256 raw) (some verified) .committed .none now false)
      else if verified.state.revision ≤ record.floor then .rejected .replay
      else if verified.state.previousConfigHash ≠ record.committed.map (·.digest) then .rejected .previousHash
      else .fresh verified

/-- The part of `receive` once nothing is left to roll back. -/
def deliver (raw : Bytes) (record : Record) : Action V Status := do
  let (now, record) ← V.time record
  if 58 < record.outbox.length then throw .requiresDelivery
  else
    match V.judge raw now record with
    | .rejected error =>
      perform (I := calls V) (.rejected raw error)
      let record ← .ofExcept (V.ack record (V.sha256 raw) none .rejected error now false)
      write record
      pure .rejected
    | .repeated status record =>
      let record ← .ofExcept record
      write record
      pure status
    | .fresh verified => V.transact raw verified now record

def receive (raw : Bytes) : Action V Status := do
  let stored ← load
  let record ← .ofExcept (V.read stored)
  if record.staged.isSome then
    let (_, record) ← V.rollback record .recovery
    if record.staged.isSome then pure .failed else V.deliver raw record
  else V.deliver raw record

/-- The loop of `flush_acks`. -/
def flush (record : Record) : List Ack → Action V Bool
  | [] => pure true
  | ack :: rest => do
    match ← attempt (I := calls V) (.sendAck ack) with
    | .ok true =>
      write { record with outbox := rest }
      flush record rest
    | _ => pure false

def flushAcks : Action V Bool := do
  let stored ← load
  let record ← .ofExcept (V.read stored)
  V.flush record record.outbox

end ConfigVerifier

/-! ## Runs -/

/-- What has happened, as far as it matters. -/
inductive Event (V : ConfigVerifier) where
  | clock (now : Nat)
  | write (record : Record)
  | rejected (raw : Bytes) (error : Category)
  | apply (verified : VerifiedConfiguration V) (done : Bool)
  | healthy (verified : VerifiedConfiguration V) (answer : Bool)
  | rollback (staged : VerifiedConfiguration V) (done : Bool)

/-- The journal is the record that was written last; events are newest first. -/
def journalOf : List (Event V) → Record
  | [] => {}
  | .write record :: _ => record
  | _ :: past => journalOf past

/-- `clock` is the last reading of the clock. -/
structure World (V : ConfigVerifier) where
  clock : Nat
  history : List (Event V)

def World.journal (w : World V) : Record := journalOf w.history

def World.note (w : World V) (event : Event V) : World V := { w with history := event :: w.history }

inductive Fault where
  | before | after
  deriving DecidableEq

/-- What is decided outside of the process at a call. -/
structure Choice where
  elapsed : Nat := 0
  fault : Option Fault := none
  answer : Bool := true
  baseline : Baseline := ⟨[], [], []⟩

def Choice.reply {α : Type} (choice : Choice) (answer : α) : Except Failure α :=
  if choice.fault.isSome then .error .system else .ok answer

def exec : (c : Call V) → Choice → World V → Except Failure ((calls V).Answer c) × World V
  | .clock, choice, w => (.ok (w.clock + choice.elapsed),
      ⟨w.clock + choice.elapsed, .clock (w.clock + choice.elapsed) :: w.history⟩)
  | .load, choice, w => (choice.reply w.journal, w)
  | .write record, choice, w => (choice.reply (),
      if choice.fault = some .before then w else w.note (.write record))
  | .rejected raw error, _, w => (.ok (), w.note (.rejected raw error))
  | .snapshot _, choice, w => (choice.reply choice.baseline, w)
  | .reserve, choice, w => (choice.reply (), w)
  | .apply verified _, choice, w => (choice.reply (), w.note (.apply verified choice.fault.isNone))
  | .healthy verified, choice, w => (choice.reply choice.answer,
      w.note (.healthy verified (choice.fault.isNone && choice.answer)))
  | .rollback staged _ _, choice, w => (choice.reply (), w.note (.rollback staged choice.fault.isNone))
  | .sendAck _, choice, w => (choice.reply choice.answer, w)

def machine (V : ConfigVerifier) : Machine (calls V) Failure where
  World := World V
  Choice := Choice
  exec := exec

inductive Operation where
  | receive (raw : Bytes)
  | recover
  | flushAcks

def Operation.program (V : ConfigVerifier) : Operation → Action V Unit
  | .receive raw => do let _ ← V.receive raw
  | .recover => do let _ ← V.recover
  | .flushAcks => do let _ ← V.flushAcks

/-- A call whose choices are used up was cut: the process is gone. -/
def Operation.run (V : ConfigVerifier) (operation : Operation) (choices : List Choice) (w : World V) :
    Option (Except Failure Unit) × World V := (operation.program V).run (machine V) choices w

def provisioning (V : ConfigVerifier) : System (World V) where
  initial w := w.history = []
  step w w' := ∃ operation choices, w' = (Operation.run V operation choices w).2

end FamilyConnect.Provisioning
