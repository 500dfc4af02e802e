import FamilyConnect.Lib.Program
import FamilyConnect.Messenger.Spool

/-!
# Chat and mailbox of a device

Source: `unpack` of `messenger/codec.py`, `Chat` of `messenger/chat.py` and
`Mailbox` of `messenger/mailbox.py`. Hashing, signatures, encryption and the
encoding of payloads are parameters. What is between two calls to the store,
the link or the clock runs without interruption.
-/

namespace FamilyConnect.Messenger

open Lib

/-- `body` is what `unpack` makes of a payload, or nothing if it is unsupported. -/
structure Wire where
  hash : Bytes → Bytes
  address : Public → Address
  sign : Address → Bytes → Bytes
  validate : Public → Bytes → Bytes → Bool
  encrypt : Public → Nat → Bytes → Bytes
  decrypt : Address → Bytes → Option Bytes
  body : Bytes → Option Kind
  receiptPayload : Nat → Id → Bytes

structure Chat where
  publicKey : Public
  durableDelivery : Bool := false
  platform : String := "android"
  version : Nat := 0

variable (wire : Wire)

namespace Wire

/-- The hash of target, source and payload of a packed message. -/
def idOf (raw : Bytes) : Id := wire.hash (raw.take 32 ++ raw.drop 96)

def pack (sender : Address) (recipient : Public) (payload : Bytes) : Bytes :=
  let hashed := wire.address recipient ++ sender ++ payload
  wire.address recipient ++ sender ++ wire.sign sender (hashed ++ wire.hash hashed) ++ payload

def unpack (raw : Bytes) (recipient : Public) (contacts : List (Address × Public)) : Except Failure Message :=
  if raw.length ≤ 96 ∨ 131584 < raw.length then .error .invalidMessage
  else
    let source := (raw.drop 16).take 16
    match contacts.lookup source, wire.body (raw.drop 96) with
    | some key, some kind =>
      if raw.take 16 ≠ wire.address recipient ∨ wire.address key ≠ source ∨
          wire.validate key ((raw.drop 32).take 64) (raw.take 32 ++ raw.drop 96 ++ wire.idOf raw) =
            false then .error .invalidMessage
      else .ok { id := wire.idOf raw, peer := source, kind := kind }
    | _, _ => .error .invalidMessage

end Wire

/-! ## Calls -/

inductive Code where
  | cancelled
  | timeout
  | requestFailed
  | accessDenied
  | invalidList
  | invalidBatch
  | invalidCiphertext
  | unexpectedMessage
  | invalidPurgeResponse
  | invalidResponse
  | refused (why : Refusal)
  deriving DecidableEq

/-- `storage` is a failure of the database file. -/
inductive Error where
  | store (failure : Failure)
  | mailbox (code : Code)
  | storage
  deriving DecidableEq

def Error.isValueError : Error → Bool
  | .store failure => failure.isValueError
  | _ => false

/-- `send` and `await` are the halves of a request; `message` is the message that an upload is for.
What a factory makes depends on random bytes and the time. -/
inductive Call where
  | wait
  | clock
  | send (message : Option Id) (payload : Payload)
  | await (request : Nat)
  | contacts
  | publishers
  | add (message : Message) (raw : Bytes) (outgoing : Bool)
  | commitReceived (message : Message) (raw : Bytes) (receiptFactory : Option (Nat → Except Failure (Message × Bytes)))
  | acceptStoredReceipt (receipt : Message) (target : Id)
  | pendingOutbox
  | beginAttempt (id : Id)
  | relayBlob (id : Id) (create : Nat → Except Failure Bytes)
  | finishAttempt (id : Id) (token : Token) (delivered relayed : Bool)

abbrev Call.Answer : Call → Type
  | .wait => Unit
  | .clock => Time
  | .send _ _ => Nat
  | .await _ => Reply
  | .contacts | .publishers => List (Address × Public)
  | .add _ _ _ | .commitReceived _ _ _ | .acceptStoredReceipt _ _ | .finishAttempt _ _ _ _ => Bool
  | .pendingOutbox => List Id
  | .beginAttempt _ => Token × Bytes
  | .relayBlob _ _ => Bytes

abbrev calls : Interface := ⟨Call, Call.Answer⟩

abbrev Action := Program calls Error

def call (c : Call) : Action c.Answer := Program.perform (I := calls) c

def raised {α : Type} (result : Except Failure α) : Action α := Program.ofExcept (result.mapError .store)

/-! ## Chat -/

variable (chat : Chat)

def Chat.address : Address := wire.address chat.publicKey

/-- The time is `time.time()`. -/
def applicable (event : Event) (platform : String) (version : Nat) (now : Time) : Bool :=
  decide ((event.created : Time) ≤ now + 300) && decide (now < event.expires) && event.platforms.contains platform &&
    decide (event.minVersion ≤ version) && decide (version ≤ event.maxVersion)

/-- `delivery_contacts`; a publisher comes before a contact with the same address. -/
def deliveryContacts : Action (List (Address × Public)) := do
  let contacts ← call .contacts
  let publishers ← call .publishers
  pure (publishers ++ contacts)

namespace Chat

/-- The deadline of a queued message; a notice has one of its own. -/
def deadline (now : Time) (message : Message) : Message :=
  if h : message.kind.isReceipt = false ∧ chat.durableDelivery = true then
    { message with
      expiresAt := some (match message.kind with
        | .service event => min (now + 7 * 86400) event.expires | _ => now + 7 * 86400)
      plain := fun hReceipt => absurd (h.1.symm.trans hReceipt) Bool.false_ne_true }
  else message

/-- `payload` is the encoding of the time, the text and the fields. -/
def queue (recipient : Address) (payload : Bytes) : Action Id := do
  let contacts ← call .contacts
  match contacts.lookup recipient with
  | none => throw (.store .verificationRequired)
  | some key =>
    let raw := wire.pack (chat.address wire) key payload
    let message ← raised (wire.unpack raw key [(chat.address wire, chat.publicKey)])
    let now ← call .clock
    let _ ← call (.add (chat.deadline now { message with peer := recipient }) raw true)
    pure message.id

/-- The factory in `receive`, for the message that is answered. -/
def receipt (key : Public) (message : Message) (stamp : Nat) : Except Failure (Message × Bytes) :=
  let packed := wire.pack (chat.address wire) key (wire.receiptPayload stamp message.id)
  match wire.unpack packed key [(chat.address wire, chat.publicKey)] with
  | .ok value => .ok ({ value with peer := message.peer }, packed)
  | .error failure => .error failure

def commit (contacts : List (Address × Public)) (message : Message) (raw : Bytes) (service : Bool) : Action Bool :=
  match contacts.lookup message.peer with
  | none => throw (.store .keyError)
  | some key =>
    if chat.durableDelivery then call (.commitReceived message raw (some (chat.receipt wire key message)))
    else if service then call (.commitReceived message raw none)
    else call (.add message raw false)

def receive (raw : Bytes) : Action Bool := do
  let publishers ← call .publishers
  let contacts ← call .contacts
  let message ← raised (wire.unpack raw chat.publicKey (publishers ++ contacts))
  match message.kind with
  | .stored target => call (.acceptStoredReceipt message target)
  | .service event => do
    let now ← call .clock
    if (publishers.lookup message.peer).isNone then throw (.store .notPinned)
    else if applicable event chat.platform chat.version now = false then throw (.store .notApplicable)
    else chat.commit wire (publishers ++ contacts) message raw true
  | _ => do
    let current ← call .contacts
    if (current.lookup message.peer).isNone then throw (.store .verificationRequired)
    else chat.commit wire (publishers ++ contacts) message raw false

end Chat

/-! ## Mailbox -/

structure Tally where
  stored : Nat := 0
  duplicates : Nat := 0
  rejected : Nat := 0
  haves : List Bytes := []

structure SyncResult where
  stored : Nat
  duplicates : Nat
  rejected : Nat
  purged : Nat
  deriving DecidableEq

def request (message : Option Id) (payload : Payload) : Action Reply := do
  call .wait
  let number ← call (.send message payload)
  let reply ← call (.await number)
  match reply with
  | .denied => throw (.mailbox .accessDenied)
  | reply => pure reply

def Tally.took (tally : Tally) (transient : Bytes) (added : Bool) : Tally :=
  { tally with
    stored := if added then tally.stored + 1 else tally.stored
    duplicates := if added then tally.duplicates else tally.duplicates + 1
    haves := tally.haves ++ [transient] }

def Tally.reject (tally : Tally) : Tally := { tally with rejected := tally.rejected + 1 }

namespace Mailbox

/-- The end of the loop body in `_sync_connected`. -/
def takeBlob (blob : Bytes) (tally : Tally) : Action Tally :=
  if blob.take 16 ≠ chat.address wire then pure tally.reject
  else
    match wire.decrypt (chat.address wire) (blob.drop 16) with
    | none => pure tally.reject
    | some plaintext =>
      tryCatch (tally.took (wire.hash blob) <$> chat.receive wire (blob.take 16 ++ plaintext)) fun error =>
        if error.isValueError then pure tally.reject else throw error

/-- The loop in `_sync_connected`. -/
def takeBlobs (wanted : List Bytes) : List Bytes → Tally → Action Tally
  | [], tally => pure tally
  | blob :: rest, tally => do
    call .wait
    if blob.length ≤ 16 ∨ maxBlob < blob.length then throw (.mailbox .invalidCiphertext)
    else if wire.hash blob ∉ wanted ∨ wire.hash blob ∈ tally.haves then throw (.mailbox .unexpectedMessage)
    else do
      let tally ← takeBlob wire chat blob tally
      takeBlobs wanted rest tally

def purge (haves : List Bytes) : Action Unit :=
  if haves = [] then pure ()
  else do
    let reply ← request none (.get none (some haves) 48)
    if reply = .items [] then pure () else throw (.mailbox .invalidPurgeResponse)

def fetch (wanted : List Bytes) : Action (List Bytes) := do
  let reply ← request none (.get (some wanted) (some []) 192)
  match reply with
  | .items messages => if wanted.length < messages.length then throw (.mailbox .invalidBatch) else pure messages
  | _ => throw (.mailbox .invalidBatch)

def list : Action (List Bytes) := do
  let reply ← request none (.get none none 48)
  match reply with
  | .items available => if 1000 < available.length then throw (.mailbox .invalidList) else pure available
  | _ => throw (.mailbox .invalidList)

def syncConnected (deleteAfterStore : Bool) : Action (SyncResult × Bool) := do
  let available ← list
  let wanted := available.eraseDups.take 10
  if wanted = [] then pure (⟨0, 0, 0, 0⟩, false)
  else do
    let messages ← fetch wanted
    let tally ← takeBlobs wire chat wanted messages {}
    purge (if deleteAfterStore then tally.haves else [])
    let purged := if deleteAfterStore then tally.haves.length else 0
    pure (⟨tally.stored, tally.duplicates, tally.rejected, purged⟩, decide (0 < purged ∧ purged < available.length))

/-- The part of `_publish_connected` whose failure gives the attempt back. -/
def upload (id : Id) (token : Token) (raw : Bytes) : Action Unit := do
  let contacts ← deliveryContacts
  match contacts.lookup (raw.take 16) with
  | none => throw (.store .keyError)
  | some key =>
    let _ ← raised (wire.unpack raw key [(chat.address wire, chat.publicKey)])
    let blob ← call (.relayBlob id fun nonce => .ok (raw.take 16 ++ wire.encrypt key nonce (raw.drop 16)))
    let response ← request (some id) (.put blob)
    if response = .stored (wire.hash blob) then do
      let _ ← call (.finishAttempt id token false true)
      pure ()
    else
      match response with
      | .refused why => throw (.mailbox (.refused why))
      | _ => throw (.mailbox .invalidResponse)

def publishConnected (id : Id) : Action Unit := do
  let (token, raw) ← call (.beginAttempt id)
  tryCatch (upload wire chat id token raw) fun error => do
    let _ ← call (.finishAttempt id token false false)
    throw error

/-- The loop in `publish_many` and `exchange`. -/
def publishAll : List Id → Action Unit
  | [] => pure ()
  | id :: rest => do
    call .wait
    publishConnected wire chat id
    publishAll rest

/-- The first call stands for `_connection`. -/
def sync (deleteAfterStore : Bool) : Action SyncResult := do
  call .wait
  let (result, _) ← syncConnected wire chat deleteAfterStore
  pure result

def exchange : Action (SyncResult × Nat × Nat × Bool) := do
  call .wait
  let (received, more) ← syncConnected wire chat true
  let ids ← call .pendingOutbox
  publishAll wire chat (ids.take 4)
  let pending ← call .pendingOutbox
  pure (received, (ids.take 4).length, pending.length, more)

def publishMany (ids : List Id) : Action Unit :=
  if ids = [] ∨ 4 < ids.length ∨ ¬ids.Nodup then throw (.store .invalidMessage)
  else do
    call .wait
    publishAll wire chat ids

end Mailbox

end FamilyConnect.Messenger
