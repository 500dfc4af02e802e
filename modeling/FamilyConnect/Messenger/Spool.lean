import FamilyConnect.Messenger.Store

/-!
# The mailbox node

Source: `Spool` and `ClosedRelay` of `messenger/relay.py`. A member is known by
the address of their deliveries, which goes with their identity. Whether the
rate limit, the size of the file or the disk refuses a request is decided
outside of the model.
-/

namespace FamilyConnect.Messenger

structure Row where
  id : Bytes
  sender : Address
  recipient : Address
  received : Time
  body : Bytes
  deriving DecidableEq

structure Limits where
  maxBytes : Nat := 1048576
  maxMessages : Nat := 128
  senderBytes : Nat := 262144
  senderMessages : Nat := 32
  retention : Nat := 86400

def maxBlob : Nat := 131584 + 256

inductive Refusal where
  | full
  | rateLimited
  | rejected
  | unavailable
  deriving DecidableEq

namespace Spool

def expire (limits : Limits) (now : Time) (rows : List Row) : List Row :=
  rows.filter fun row => now - limits.retention < row.received

def size (rows : List Row) : Nat := (rows.map (·.body.length)).sum

/-- An exception takes back the deletion of expired rows, too. -/
def put (hash : Bytes → Bytes) (limits : Limits) (diskFull : Bool) (now : Time) (sender : Address)
    (blob : Bytes) (rows : List Row) : Except Refusal Bytes × List Row :=
  if sender.length ≠ 16 ∨ blob.length < 112 ∨ maxBlob < blob.length then (.error .rejected, rows)
  else
    let ident := hash blob
    let kept := expire limits now rows
    match kept.find? (·.id = ident) with
    | some duplicate => if duplicate.sender ≠ sender then (.error .rejected, rows) else (.ok ident, kept)
    | none =>
      let own := kept.filter (·.sender = sender)
      if limits.maxMessages ≤ kept.length ∨ limits.maxBytes < size kept + blob.length ∨
          limits.senderMessages ≤ own.length ∨ limits.senderBytes < size own + blob.length ∨
            diskFull = true then (.error .full, rows)
      else (.ok ident, kept ++ [⟨ident, sender, blob.take 16, now, blob⟩])

/-- `ORDER BY received,id` -/
def before (row row' : Row) : Prop := row.received < row'.received ∨ row.received = row'.received ∧ row.id ≤ row'.id

instance : DecidableRel before := fun _ _ => inferInstanceAs (Decidable (_ ∨ _ ∧ _))

def batch (rows : List Row) (recipient : Address) (budget : Nat) : Nat → List Bytes → List Bytes
  | _, [] => []
  | sent, ident :: rest =>
    match rows.find? (fun row => row.id = ident ∧ row.recipient = recipient) with
    | some row =>
      if sent + row.body.length ≤ budget then row.body :: batch rows recipient budget (sent + row.body.length) rest
      else batch rows recipient budget sent rest
    | none => batch rows recipient budget sent rest

/-- At most ten ids; that an id is a hash is not checked again here. -/
def validIds (ids : Option (List Bytes)) : Bool := ids.all fun ids => decide (ids.length ≤ 10)

/-- `budget` is in thousands of bytes. -/
def get (limits : Limits) (now : Time) (recipient : Address) (wants haves : Option (List Bytes))
    (budget : Nat) (rows : List Row) : Option (List Bytes) × List Row :=
  if budget = 0 ∨ 192 < budget ∨ validIds wants = false ∨ validIds haves = false then (none, rows)
  else
    let kept := expire limits now rows
    match wants, haves with
    | none, none => (some (((kept.filter (·.recipient = recipient)).insertionSort before).map (·.id)), kept)
    | wants, haves =>
      let left := kept.filter fun row => !((haves.getD []).contains row.id && decide (row.recipient = recipient))
      (some (batch left recipient (min (budget * 1000) 192000) 0 (wants.getD []).eraseDups), left)

end Spool

/-! ## Requests -/

inductive Payload where
  | put (blob : Bytes)
  | get (wants haves : Option (List Bytes)) (budget : Nat)
  deriving DecidableEq

inductive Reply where
  | denied
  | items (values : List Bytes)
  | stored (ident : Bytes)
  | refused (why : Refusal)
  deriving DecidableEq

structure Circumstances where
  now : Time
  members : List Address
  rateLimited : Bool := false
  diskFull : Bool := false
  unavailable : Bool := false

/-- `respond`, for a request of `sender` -/
def respond (hash : Bytes → Bytes) (limits : Limits) (c : Circumstances) (sender : Address)
    (payload : Payload) (rows : List Row) : Reply × List Row :=
  if sender ∉ c.members then (.denied, rows)
  else
    match payload with
    | .put blob =>
      if blob.length < 112 ∨ maxBlob < blob.length ∨ blob.take 16 ∉ c.members then (.refused .rejected, rows)
      else if c.rateLimited then (.refused .rateLimited, rows)
      else if c.unavailable then (.refused .unavailable, rows)
      else
        match Spool.put hash limits c.diskFull c.now sender blob rows with
        | (.ok ident, rows) => (.stored ident, rows)
        | (.error why, rows) => (.refused why, rows)
    | .get wants haves budget =>
      if c.unavailable then (.denied, rows)
      else
        match Spool.get limits c.now sender wants haves budget rows with
        | (some values, rows) => (.items values, rows)
        | (none, rows) => (.denied, rows)

end FamilyConnect.Messenger
