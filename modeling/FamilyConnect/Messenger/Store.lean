import FamilyConnect.Lib.Rows

/-!
# The history and outbox of a chat

Source: `Store` of `messenger/store.py`. The rows are the plain values: sealing
and unsealing them with the key of the application gives them back. Messages
come from `codec.unpack` and `Chat.queue`; what neither the store nor the chat
reads of them (text, audio, time stamps) is left out.
-/

namespace FamilyConnect.Messenger

open Lib

abbrev Bytes := List UInt8

abbrev Time := Rat

abbrev Address := Bytes

abbrev Public := Bytes

abbrev Id := Bytes

structure Event where
  eventId : String
  revision : Nat
  kind : String
  title : String
  body : String
  created : Nat
  expires : Nat
  platforms : List String
  minVersion : Nat
  maxVersion : Nat
  deriving DecidableEq

inductive Kind where
  | text
  | audio
  | edit (target : Id) (revision : Nat)
  | service (event : Event)
  | stored (target : Id)
  deriving DecidableEq

def Kind.isReceipt : Kind → Bool
  | .stored _ => true
  | _ => false

/-- A message with a deadline has `require_stored`. Receipts never have it. -/
structure Message where
  id : Id
  peer : Address
  kind : Kind
  expiresAt : Option Time := none
  plain : kind.isReceipt = true → expiresAt = none := by simp
  deriving DecidableEq

inductive Status where
  | received
  | queued
  | sending
  | relayed
  | delivered
  | recipientStored
  | expired
  deriving DecidableEq

/-- `epoch + ':' + uuid`; the random numbers are natural numbers here. -/
structure Token where
  epoch : Nat
  uuid : Nat
  deriving DecidableEq

structure Record extends Message where
  packed : Bytes
  outgoing : Bool
  status : Status
  attempt : Option Token := none
  relayBlob : Option Bytes := none
  receiptId : Option Id := none
  relayAttempts : Nat := 0
  retryAt : Option Time := none
  deriving DecidableEq

def Record.key (record : Record) : Id := record.id

structure Notice where
  publisher : Address
  lxmfId : Id
  event : Event
  read : Bool
  notified : Bool
  suppressed : Bool
  deriving DecidableEq

def Notice.key (notice : Notice) : Address × String := (notice.publisher, notice.event.eventId)

structure Flags where
  read : Bool
  notified : Bool
  deriving DecidableEq

structure Db where
  messages : List Record := []
  notices : List Notice := []
  contacts : List (Address × Public) := []
  publishers : List (Address × Public) := []
  inbox : List (Id × Flags) := []
  deriving DecidableEq

/-- Exceptions; all but the last two are `ValueError`s. -/
inductive Failure where
  | invalidPackedMessage
  | historyQuota
  | staleRevision
  | conflictingRevision
  | serviceQuota
  | unrelatedReceipt
  | notPending
  | inFlight
  | outgoingRequired
  | invalidCiphertext
  | notDelivery
  | invalidMessage
  | verificationRequired
  | notPinned
  | notApplicable
  | keyError
  | noneType
  deriving DecidableEq

def Failure.isValueError : Failure → Bool
  | .keyError | .noneType => false
  | _ => true

namespace Db

def message (db : Db) (id : Id) : Option Record := Rows.get Record.key id db.messages

def putMessage (db : Db) (record : Record) : Db :=
  { db with messages := Rows.put Record.key record db.messages }

end Db

/-- `with self._db`: an exception takes back what was written. -/
def transaction {α : Type} (body : Db → Except Failure (α × Db)) (db : Db) : Except Failure α × Db :=
  match body db with
  | .ok (a, db') => (.ok a, db')
  | .error failure => (.error failure, db)

/-! ## Messages as they are shown -/

structure Visible where
  id : Id
  peer : Address
  outgoing : Bool
  audio : Bool
  revision : Nat := 0
  deriving DecidableEq

def Record.visible (record : Record) : Option Visible :=
  match record.kind with
  | .edit _ _ | .stored _ | .service _ => none
  | kind => some { id := record.id, peer := record.peer, outgoing := record.outgoing, audio := kind = .audio }

def Record.revise (edit : Record) (original : Visible) : Visible :=
  match edit.kind with
  | .edit target revision =>
    if original.id = target ∧ original.audio = false ∧ original.peer = edit.peer ∧ original.outgoing = edit.outgoing ∧
        original.revision < revision then { original with revision := revision }
    else original
  | _ => original

def visibleMessages (messages : List Record) : List Visible :=
  messages.foldl (fun visible edit => visible.map edit.revise) (messages.filterMap Record.visible)

/-- The part of `_add` for an edit that comes in. -/
def Db.noteEdit (db : Db) (message : Message) : Db :=
  match message.kind with
  | .edit target revision =>
    match (visibleMessages db.messages).find? (·.id = target) with
    | some original =>
      if original.outgoing = false ∧ original.peer = message.peer ∧ original.revision < revision then
        { db with inbox := Rows.put Prod.fst (target, ⟨false, false⟩) db.inbox }
      else db
    | none => db
  | _ => db

/-! ## Adding -/

/-- `_add` -/
def addRecord (message : Message) (raw : Bytes) (outgoing : Bool) (db : Db) : Except Failure (Bool × Db) :=
  if (db.message message.id).isSome then .ok (false, db)
  else if 1000 ≤ db.messages.length then .error .historyQuota
  else
    let status := if outgoing then .queued else .received
    .ok (true, (if outgoing then db else db.noteEdit message).putMessage
      { message with packed := raw, outgoing := outgoing, status := status })

def add (message : Message) (raw : Bytes) (outgoing : Bool) (db : Db) : Except Failure Bool × Db :=
  if raw.length ≤ 96 ∨ 131584 < raw.length then (.error .invalidPackedMessage, db)
  else transaction (addRecord message raw outgoing) db

variable (now : Time)

/-- The part of `commit_received` for a service notice. -/
def commitNotice (message : Message) (db : Db) : Except Failure Db :=
  match message.kind with
  | .service event =>
    let notice : Notice := ⟨message.peer, message.id, event, false, false, (86400 : Time) < now - event.created⟩
    match Rows.get Notice.key notice.key db.notices with
    | some previous =>
      if event.revision < previous.event.revision then .error .staleRevision
      else if event.revision = previous.event.revision ∧ event ≠ previous.event then .error .conflictingRevision
      else if previous.event.revision < event.revision
        then .ok { db with notices := Rows.put Notice.key notice db.notices }
      else .ok db
    | none =>
      if 1000 ≤ db.notices.length then .error .serviceQuota
      else .ok { db with notices := Rows.put Notice.key notice db.notices }
  | _ => .ok db

/-- The part of `commit_received` for the receipt; `existing` is the row from before. -/
def queueReceipt (message : Message) (existing : Option Record) (factory : Except Failure (Message × Bytes)) (db : Db) :
    Except Failure Db :=
  match existing.bind (·.receiptId) with
  | some receiptId =>
    match db.message receiptId with
    | none => .error .noneType
    | some receipt =>
      if receipt.status ≠ .sending then .ok (db.putMessage
        { receipt with status := .queued, attempt := none }) else .ok db
  | none => do
    let (receipt, packed) ← factory
    let (_, db) ← addRecord receipt packed true db
    match db.message message.id with
    | none => .error .noneType
    | some saved => .ok (db.putMessage { saved with receiptId := some receipt.id })

def commitReceived (message : Message) (raw : Bytes) (receiptFactory : Option (Except Failure (Message × Bytes))) :
    Db → Except Failure Bool × Db :=
  transaction fun db => do
    let noticed ← commitNotice now message db
    let (added, stored) ← addRecord message raw false noticed
    match receiptFactory with
    | none => .ok (added, stored)
    | some factory => do
      let queued ← queueReceipt message (db.message message.id) factory stored
      .ok (added, queued)

def acceptStoredReceipt (peer : Address) (target : Id) : Db → Except Failure Bool × Db :=
  transaction fun db =>
    match db.message target with
    | none => .error .unrelatedReceipt
    | some message =>
      if message.outgoing = false ∨ message.peer ≠ peer ∨ message.kind.isReceipt = true then .error .unrelatedReceipt
      else .ok (decide (message.status ≠ .recipientStored),
        db.putMessage { message with status := .recipientStored, attempt := none })

/-! ## The outbox -/

def Record.ownedBy (record : Record) (epoch : Nat) : Bool := record.attempt.any (·.epoch = epoch)

def Record.overdue (record : Record) : Bool :=
  record.expiresAt.any (· ≤ now) && !(record.status = .recipientStored ||
    record.status = .delivered || record.status = .expired)

def Record.expire (record : Record) : Record :=
  if record.overdue now then { record with status := .expired, attempt := none } else record

def Record.pending (epoch : Nat) (record : Record) : Bool :=
  record.outgoing && (record.status = .queued ||
    (record.status = .relayed && record.expiresAt.isSome && decide (record.retryAt.getD 0 ≤ now)) ||
    (record.status = .sending && !record.ownedBy epoch))

def pendingOutbox (epoch : Nat) : Db → Except Failure (List Id) × Db :=
  transaction fun db =>
    let messages := db.messages.map (Record.expire now)
    .ok ((messages.filter (Record.pending now epoch)).map Record.key, { db with messages := messages })

def beginAttempt (epoch uuid : Nat) (id : Id) : Db → Except Failure (Token × Bytes) × Db :=
  transaction fun db =>
    match db.message id with
    | none => .error .notPending
    | some message =>
      if message.outgoing = false ∨ message.status = .delivered ∨
        message.status = .recipientStored ∨ message.status = .expired then
        .error .notPending
      else if message.status = .sending ∧ message.ownedBy epoch = true then .error .inFlight
      else
        let token : Token := ⟨epoch, uuid⟩
        .ok ((token, message.packed), db.putMessage { message with status := .sending, attempt := some token })

def relayBlob (id : Id) (create : Except Failure Bytes) : Db → Except Failure Bytes × Db :=
  transaction fun db =>
    match db.message id with
    | none => .error .outgoingRequired
    | some message =>
      if message.outgoing = false then .error .outgoingRequired
      else
        match message.relayBlob with
        | some blob => .ok (blob, db)
        | none => do
          let blob ← create
          if blob.length < 112 ∨ 131840 < blob.length then .error .invalidCiphertext
          else .ok (blob, db.putMessage { message with relayBlob := some blob })

def Record.finish (delivered relayed : Bool) (message : Record) : Record :=
  let status := if delivered then .delivered else if relayed then .relayed else .queued
  if relayed = true ∧ message.expiresAt.isSome = true then
    let attempts := min (message.relayAttempts + 1) 7
    { message with status := status, attempt := none, relayAttempts := attempts, retryAt := some (now + min 3600 (60 * 2 ^ (attempts - 1))) }
  else { message with status := status, attempt := none }

def finishAttempt (epoch : Nat) (id : Id) (token : Token) (delivered relayed : Bool) (db : Db) :
    Except Failure Bool × Db :=
  if delivered = true ∧ relayed = true then (.error .notDelivery, db)
  else
    transaction (fun db =>
      match db.message id with
      | none => .ok (false, db)
      | some message =>
        if message.status ≠ .sending ∨ message.attempt ≠ some token ∨ token.epoch ≠ epoch then .ok (false, db)
        else .ok (true, db.putMessage (message.finish now delivered relayed))) db

end FamilyConnect.Messenger
