import FamilyConnect.Lib.Crew
import FamilyConnect.Messenger.Mailbox
import FamilyConnect.Messenger.StoreSpecs

/-!
# Devices and the mailbox node

Any number of chats, each with the store of its identity, and one node between
them. A request is on its way until the node serves it, which can be late, more
than once or never, and so is the reply. A crash stops what a chat was doing
between two calls and opens its store under a new epoch.
-/

namespace FamilyConnect.Messenger

open Lib

structure Request where
  sender : Address
  message : Option Id
  payload : Payload
  deriving DecidableEq

/-- `reports` are the messages that `Chat.receive` has called new: it hands on the answer of the
store. `fresh` is the next random number. -/
structure World where
  db : Address → Db := fun _ => {}
  epoch : Address → Nat := fun _ => 0
  fresh : Nat := 1
  spool : List Row := []
  requests : List Request := []
  replies : List (Nat × Reply) := []
  reports : Address → List Id := fun _ => []

/-- What is decided outside at a call: the time, random bytes, whether the disk or the link fails,
and which reply comes. -/
structure Choice where
  now : Time := 0
  nonce : Nat := 0
  broken : Bool := false
  trouble : Option Code := none
  reply : Nat := 0

namespace World

def store {α : Type} (w : World) (a : Address) (choice : Choice)
    (operation : Db → Except Failure α × Db) : Except Error α × World :=
  if choice.broken then (.error .storage, w)
  else ((operation (w.db a)).1.mapError .store, { w with db := Function.update w.db a (operation (w.db a)).2 })

def report (a : Address) (id : Id) (outcome : Except Error Bool × World) : Except Error Bool × World :=
  (outcome.1, if outcome.1 = .ok true then
    { outcome.2 with reports := Function.update outcome.2.reports a (id :: outcome.2.reports a) } else outcome.2)

def exec (wire : Wire) (chat : Chat) (c : Call) (choice : Choice) (w : World) : Except Error c.Answer × World :=
  let me := chat.address wire
  match c with
  | .wait => (match choice.trouble with | some code => .error (.mailbox code) | none => .ok (), w)
  | .clock => (.ok choice.now, w)
  | .send message payload =>
    match choice.trouble with
    | some code => (.error (.mailbox code), w)
    | none => (.ok w.requests.length, { w with requests := w.requests ++ [⟨me, message, payload⟩] })
  | .await request =>
    (match choice.trouble, w.replies[choice.reply]? with
      | none, some (number, reply) => if number = request then .ok reply else .error (.mailbox .requestFailed)
      | none, none => .error (.mailbox .requestFailed)
      | some code, _ => .error (.mailbox code), w)
  | .contacts => (if choice.broken then .error .storage else .ok (w.db me).contacts, w)
  | .publishers => (if choice.broken then .error .storage else .ok (w.db me).publishers, w)
  | .add message raw false => report me message.id (w.store me choice (add message raw false))
  | .add message raw true => w.store me choice (add message raw true)
  | .commitReceived message raw factory =>
    report me message.id (w.store me choice (commitReceived choice.now message raw
      (factory.map fun make => make choice.nonce)))
  | .acceptStoredReceipt receipt target =>
    report me receipt.id (w.store me choice (acceptStoredReceipt receipt.peer target))
  | .pendingOutbox => w.store me choice (pendingOutbox choice.now (w.epoch me))
  | .beginAttempt id =>
    let outcome := w.store me choice (beginAttempt (w.epoch me) w.fresh id)
    (outcome.1, { outcome.2 with fresh := w.fresh + 1 })
  | .relayBlob id create => w.store me choice (relayBlob id (create choice.nonce))
  | .finishAttempt id token delivered relayed =>
    w.store me choice (finishAttempt choice.now (w.epoch me) id token delivered relayed)

def restart (wire : Wire) (chat : Chat) (w : World) : World :=
  { w with epoch := Function.update w.epoch (chat.address wire) w.fresh, fresh := w.fresh + 1 }

/-- What happens besides: the node serves a request, a member uploads anything at all, or a user
changes their contacts. No row is past retention. -/
inductive Other (wire : Wire) (limits : Limits) : World → World → Prop where
  | serve {w : World} (c : Circumstances) (number : Nat) (request : Request) : w.requests[number]? = some request →
      (∀ row ∈ w.spool, c.now - limits.retention < row.received) →
      Other wire limits w
        { w with
          spool := (respond wire.hash limits c request.sender request.payload w.spool).2
          replies := w.replies ++ [(number, (respond wire.hash limits c request.sender request.payload w.spool).1)] }
  | upload {w : World} (c : Circumstances) (sender : Address) (blob : Bytes) :
      (∀ row ∈ w.spool, c.now - limits.retention < row.received) →
      Other wire limits w { w with spool := (respond wire.hash limits c sender (.put blob) w.spool).2 }
  | contacts {w : World} (a : Address) (contacts publishers : List (Address × Public)) :
      Other wire limits w { w with db := Function.update w.db a { w.db a with contacts := contacts, publishers := publishers } }

end World

abbrev site (wire : Wire) : Site calls Error := ⟨Chat, World, Choice, World.exec wire⟩

/-- What can be started on a device; `receive` is also called for direct deliveries. -/
inductive May (wire : Wire) (chat : Chat) : Action Unit → Prop where
  | queue (recipient : Address) (payload : Bytes) : May wire chat (do let _ ← chat.queue wire recipient payload)
  | receive (raw : Bytes) : May wire chat (do let _ ← chat.receive wire raw)
  | sync (deleteAfterStore : Bool) : May wire chat (do let _ ← Mailbox.sync wire chat deleteAfterStore)
  | exchange : May wire chat (do let _ ← Mailbox.exchange wire chat)
  | publishMany (ids : List Id) : May wire chat (Mailbox.publishMany wire chat ids)

def World.Blank (w : World) : Prop :=
  (∀ a, (w.db a).messages = [] ∧ w.reports a = []) ∧ w.spool = [] ∧ w.requests = [] ∧ w.replies = []

def network (wire : Wire) (limits : Limits) : System (site wire).State :=
  (site wire).crew (May wire) (World.restart wire) (World.Other wire limits) World.Blank

/-! ## What the users rely on -/

/-- `receiptPayload` is what `fields_for` and `pack` make of a receipt. -/
structure Wire.Lawful (wire : Wire) : Prop where
  hash : Function.Injective wire.hash
  address : ∀ key, (wire.address key).length = 16
  sign : ∀ a text, (wire.sign a text).length = 64
  decrypt : ∀ key nonce plaintext, wire.decrypt (wire.address key) (wire.encrypt key nonce plaintext) = some plaintext
  receipt : ∀ stamp target, wire.body (wire.receiptPayload stamp target) = some (.stored target)

def Db.Took (db : Db) (id : Id) : Kind → Prop
  | .stored target => ∃ r, db.message target = some r ∧ r.kind.isReceipt = false ∧ r.status = .recipientStored
  | _ => ∃ r, db.message id = some r

def Wire.Has (wire : Wire) (db : Db) (raw : Bytes) : Prop :=
  ∃ kind, wire.body (raw.drop 96) = some kind ∧ db.Took (wire.idOf raw) kind

namespace World

def Committed (wire : Wire) (w : World) (blob : Bytes) : Prop :=
  ∃ plaintext, wire.decrypt (blob.take 16) (blob.drop 16) = some plaintext ∧
    wire.Has (w.db (blob.take 16)) (blob.take 16 ++ plaintext)

def Kept (wire : Wire) (w : World) (blob : Bytes) : Prop := (∃ row ∈ w.spool, row.body = blob) ∨ w.Committed wire blob

end World

variable {wire : Wire} {limits : Limits} {chat : Chat} {w w' : World} {db db' : Db} {r r' : Record} {blob : Bytes}

theorem Db.Took.grows {id : Id} {kind : Kind} (h : db.Took id kind) (hGrows : db.Grows db') : db'.Took id kind := by
  cases kind with
  | stored target =>
    obtain ⟨r, hR, hKind, hStored⟩ := h
    obtain ⟨r', hR', hEvolves⟩ := hGrows target r hR
    exact ⟨r', hR', by rw [hEvolves.kind]; exact hKind, hEvolves.stored hKind hStored⟩
  | text | audio | edit | service =>
    obtain ⟨r, hR⟩ := h
    obtain ⟨r', hR', -⟩ := hGrows id r hR
    exact ⟨r', hR'⟩

theorem Wire.Has.grows {raw : Bytes} (h : wire.Has db raw) (hGrows : db.Grows db') : wire.Has db' raw := by
  obtain ⟨kind, hBody, hTook⟩ := h
  exact ⟨kind, hBody, hTook.grows hGrows⟩

theorem World.Committed.grows (h : w.Committed wire blob) (hGrows : ∀ a, (w.db a).Grows (w'.db a)) :
    w'.Committed wire blob := by
  obtain ⟨plaintext, hPlain, hHas⟩ := h
  exact ⟨plaintext, hPlain, hHas.grows (hGrows _)⟩

structure World.Grows (wire : Wire) (w w' : World) : Prop where
  db : ∀ a, (w.db a).Grows (w'.db a)
  kept : ∀ blob, w.Kept wire blob → w'.Kept wire blob

theorem World.Grows.refl (wire : Wire) (w : World) : w.Grows wire w := ⟨fun a => .refl (w.db a), fun _ h => h⟩

theorem World.Grows.trans {w'' : World} (h : w.Grows wire w') (h' : w'.Grows wire w'') : w.Grows wire w'' :=
  ⟨fun a => (h.db a).trans (h'.db a), fun blob hKept => h'.kept blob (h.kept blob hKept)⟩

theorem World.Grows.of_db (hDb : ∀ a, (w.db a).Grows (w'.db a)) (hSpool : w'.spool = w.spool) : w.Grows wire w' := by
  refine ⟨hDb, fun blob hKept => ?_⟩
  rcases hKept with hRow | hCommitted
  · rw [← hSpool] at hRow
    exact .inl hRow
  · exact .inr (hCommitted.grows hDb)

/-- The kind of the message with a hash. -/
noncomputable def Wire.kindOf (wire : Wire) (id : Id) : Kind :=
  (wire.body ((Function.invFun wire.hash id).drop 32)).getD .text

theorem Wire.Lawful.kindOf_idOf (h : wire.Lawful) {raw : Bytes} {kind : Kind} (hSize : 96 < raw.length)
    (hBody : wire.body (raw.drop 96) = some kind) : wire.kindOf (wire.idOf raw) = kind := by
  have hLength : (raw.take 32).length = 32 := by
    rw [List.length_take]
    omega
  rw [Wire.kindOf, Wire.idOf, Function.leftInverse_invFun h.hash, List.drop_left' hLength, hBody]
  rfl

structure World.Sound (wire : Wire) (w : World) (r : Record) : Prop where
  size : 96 < r.packed.length
  id : r.id = wire.idOf r.packed
  body : wire.body (r.packed.drop 96) = some r.kind
  blob : ∀ blob, r.relayBlob = some blob → ∃ key nonce, wire.address key = r.packed.take 16 ∧
    blob = r.packed.take 16 ++ wire.encrypt key nonce (r.packed.drop 16)
  relayed : r.status = .relayed → ∃ blob, r.relayBlob = some blob ∧ w.Kept wire blob

theorem World.Sound.grows (h : w.Sound wire r) (hGrows : w.Grows wire w') : w'.Sound wire r := by
  refine { h with relayed := fun hStatus => ?_ }
  obtain ⟨blob, hBlob, hKept⟩ := h.relayed hStatus
  exact ⟨blob, hBlob, hGrows.kept blob hKept⟩

theorem World.Sound.stays (hStays : r.Stays r') (h : w.Sound wire r) : w.Sound wire r' := by
  constructor
  case size =>
    rw [hStays.packed]
    exact h.size
  case id =>
    rw [hStays.message, hStays.packed]
    exact h.id
  case body =>
    rw [hStays.message, hStays.packed]
    exact h.body
  case blob =>
    rw [hStays.relayBlob, hStays.packed]
    exact h.blob
  case relayed =>
    intro hStatus
    rw [hStays.relayBlob]
    exact h.relayed (hStays.status hStatus)

def World.Taken (wire : Wire) (w : World) (a : Address) (transient : Bytes) : Prop :=
  ∃ blob, wire.hash blob = transient ∧ blob.take 16 = a ∧ w.Committed wire blob

theorem World.Taken.grows {a : Address} {transient : Bytes} (h : w.Taken wire a transient) (hGrows : w.Grows wire w') :
    w'.Taken wire a transient := by
  obtain ⟨blob, hHash, hRecipient, hCommitted⟩ := h
  exact ⟨blob, hHash, hRecipient, hCommitted.grows hGrows.db⟩

def World.Settled (w : World) (a : Address) (id : Id) (blob : Bytes) : Prop :=
  ∃ r, (w.db a).message id = some r ∧ r.relayBlob = some blob

theorem World.Settled.grows {a : Address} {id : Id} (h : w.Settled a id blob)
    (hGrows : w.Grows wire w') : w'.Settled a id blob := by
  obtain ⟨r, hR, hBlob⟩ := h
  obtain ⟨r', hR', hEvolves⟩ := hGrows.db a id r hR
  exact ⟨r', hR', hEvolves.relayBlob blob hBlob⟩

structure World.Proper (wire : Wire) (w : World) (request : Request) : Prop where
  purge : ∀ wants haves budget, request.payload = .get wants (some haves) budget →
    ∀ transient ∈ haves, w.Taken wire request.sender transient
  upload : ∀ id, request.message = some id → ∃ blob, request.payload = .put blob ∧ w.Settled request.sender id blob

theorem World.Proper.grows {request : Request} (h : w.Proper wire request)
    (hGrows : w.Grows wire w') : w'.Proper wire request := by
  constructor
  case purge =>
    exact fun wants haves budget hPayload transient hMem =>
      (h.purge wants haves budget hPayload transient hMem).grows hGrows
  case upload =>
    intro id hMessage
    obtain ⟨blob, hPayload, hSettled⟩ := h.upload id hMessage
    exact ⟨blob, hPayload, hSettled.grows hGrows⟩

structure World.Inv (wire : Wire) (w : World) : Prop where
  dbs : ∀ a, (w.db a).Inv wire.kindOf
  rows : ∀ a, (w.db a).Every (w.Sound wire)
  spool : ∀ row ∈ w.spool, row.id = wire.hash row.body ∧ row.recipient = row.body.take 16
  requests : ∀ request ∈ w.requests, w.Proper wire request
  replies : ∀ number transient, (number, Reply.stored transient) ∈ w.replies →
    ∃ blob, wire.hash blob = transient ∧ w.Kept wire blob
  reports : ∀ a, (w.reports a).Nodup ∧ ∀ id ∈ w.reports a, (w.db a).Took id (wire.kindOf id)

def mailboxTerms (wire : Wire) : (site wire).Terms where
  inv := World.Inv wire
  grows := World.Grows wire
  refl := World.Grows.refl wire
  trans := World.Grows.trans

end FamilyConnect.Messenger
