import FamilyConnect.Messenger.Network

/-!
# Chats keep to the terms of the network

Every call of every program keeps the invariant, in any world that has grown
from the one where the chat last looked.
-/

namespace FamilyConnect.Messenger

open Lib Program

variable {wire : Wire} {chat : Chat} {w w' : World} {db db' : Db} {r r' : Record} {blob raw : Bytes} {message : Message}
  {a : Address} {choice : Choice} {id : Id}

/-! ## Packed messages -/

structure Wire.Reads (wire : Wire) (raw : Bytes) (message : Message) : Prop where
  size : 96 < raw.length
  id : message.id = wire.idOf raw
  body : wire.body (raw.drop 96) = some message.kind

variable {contacts : List (Address × Public)} {key : Public}

theorem Wire.unpack_ok {recipient : Public} (h : wire.unpack raw recipient contacts = .ok message) :
    wire.Reads raw message ∧ raw.take 16 = wire.address recipient := by
  unfold Wire.unpack at h
  split at h
  · cases h
  · rename_i hSize
    dsimp only at h
    split at h
    · rename_i key kind _ hBody
      split at h
      · cases h
      · rename_i hGood
        cases h
        rw [not_or, not_not] at hGood
        exact ⟨⟨by omega, rfl, hBody⟩, hGood.1⟩
    · cases h

theorem Wire.Reads.kind (hLawful : wire.Lawful) (h : wire.Reads raw message) :
    message.kind = wire.kindOf message.id := by
  rw [h.id, hLawful.kindOf_idOf h.size h.body]

theorem Wire.Reads.has (hLawful : wire.Lawful) (h : wire.Reads raw message)
    (hTook : db.Took message.id (wire.kindOf message.id)) : wire.Has db raw := by
  refine ⟨message.kind, h.body, ?_⟩
  rw [h.kind hLawful, ← h.id]
  exact hTook

theorem Wire.Reads.sound {outgoing : Bool} (h : wire.Reads raw message) : w.Sound wire (.new message raw outgoing) := by
  refine ⟨h.size, h.id, h.body, nofun, ?_⟩
  cases outgoing
  · nofun
  · nofun

theorem Wire.Lawful.drop_pack (hLawful : wire.Lawful) (key own : Public) (payload : Bytes) :
    (wire.pack (wire.address own) key payload).drop 96 = payload := by
  refine List.drop_left' ?_
  rw [List.length_append, List.length_append, hLawful.address, hLawful.address, hLawful.sign]

theorem receipt_ok (hLawful : wire.Lawful) {stamp : Nat} {value : Message} {packed : Bytes}
    (h : chat.receipt wire key message stamp = .ok (value, packed)) :
    wire.Reads packed value ∧ value.kind = .stored message.id := by
  unfold Chat.receipt at h
  dsimp only at h
  split at h
  · rename_i value' hUnpack
    cases h
    obtain ⟨hReads, -⟩ := Wire.unpack_ok hUnpack
    have hBody := hReads.body
    rw [Chat.address, hLawful.drop_pack, hLawful.receipt] at hBody
    exact ⟨⟨hReads.size, hReads.id, hReads.body⟩, (Option.some.inj hBody).symm⟩
  · cases h

/-! ## Calls to the store -/

structure World.Step (wire : Wire) (w w' : World) : Prop where
  inv : w'.Inv wire
  grows : w.Grows wire w'

theorem World.Step.refl (h : w.Inv wire) : w.Step wire w := ⟨h, .refl wire w⟩

theorem World.Inv.of_db (h : w.Inv wire) (hGrows : w.Grows wire w') (hDbs : ∀ a, (w'.db a).Inv wire.kindOf)
    (hRows : ∀ a, (w'.db a).Every (w.Sound wire)) (hSpool : w'.spool = w.spool) (hReplies : w'.replies = w.replies)
    (hRequests : ∀ request ∈ w'.requests, request ∈ w.requests ∨ w.Proper wire request)
    (hReports : ∀ a, (w'.reports a).Nodup ∧ ∀ id ∈ w'.reports a, id ∈ w.reports a ∨
      (w'.db a).Took id (wire.kindOf id)) : w.Step wire w' := by
  refine ⟨?_, hGrows⟩
  constructor
  case dbs => exact hDbs
  case rows => exact fun a r hMem => (hRows a r hMem).grows hGrows
  case spool =>
    rw [hSpool]
    exact h.spool
  case requests => exact fun request hMem => ((hRequests request hMem).elim (h.requests request) id).grows hGrows
  case replies =>
    rw [hReplies]
    intro number transient hMem
    obtain ⟨blob, hHash, hKept⟩ := h.replies number transient hMem
    exact ⟨blob, hHash, hGrows.kept blob hKept⟩
  case reports =>
    refine fun a => ⟨(hReports a).1, fun id hMem => ((hReports a).2 id hMem).elim (fun hOld => ?_) fun hNew => hNew⟩
    exact ((h.reports a).2 id hOld).grows (hGrows.db a)

/-- The epochs and the next random number do not matter. -/
theorem World.Inv.same (h : w.Inv wire) (hDb : w'.db = w.db) (hSpool : w'.spool = w.spool)
    (hReplies : w'.replies = w.replies) (hRequests : w'.requests = w.requests)
    (hReports : w'.reports = w.reports) : w.Step wire w' := by
  refine h.of_db (.of_db (fun a => ?_) hSpool) ?_ ?_ hSpool hReplies ?_ ?_
  · rw [hDb]
    exact .refl _
  · rw [hDb]
    exact h.dbs
  · rw [hDb]
    exact h.rows
  · rw [hRequests]
    exact fun _ => .inl
  · rw [hReports]
    exact fun a => ⟨(h.reports a).1, fun _ => .inl⟩

theorem World.Inv.update (h : w.Inv wire) {after : Db} (hNext : (w.db a).Next wire.kindOf after)
    (hEvery : after.Every (w.Sound wire)) :
    w.Step wire { w with db := Function.update w.db a after } := by
  have hDb : ∀ {P : Address → Db → Prop}, (∀ b, P b (w.db b)) → P a after →
      ∀ b, P b (Function.update w.db a after b) := by
    intro P hOld hNew b
    by_cases hSame : b = a
    · subst hSame
      rw [Function.update_self]
      exact hNew
    · rw [Function.update_of_ne hSame]
      exact hOld b
  have hGrows : w.Grows wire { w with db := Function.update w.db a after } :=
    .of_db (hDb (P := fun b db => (w.db b).Grows db) (fun b => .refl (w.db b)) hNext.grows) rfl
  refine h.of_db hGrows ?_ ?_ rfl rfl (fun _ => .inl) fun b => ⟨(h.reports b).1, fun _ => .inl⟩
  · exact hDb (P := fun _ db => db.Inv wire.kindOf) h.dbs hNext.inv
  · exact hDb (P := fun _ db => db.Every (w.Sound wire)) h.rows hEvery

variable {α : Type} {operation : Db → Except Failure α × Db} {payload : Payload} {token : Token}

theorem World.store_ok {answer : α} (h : (w.store a choice operation).1 = .ok answer) :
    operation (w.db a) = (.ok answer, (w.store a choice operation).2.db a) ∧
      (w.store a choice operation).2.reports = w.reports := by
  unfold World.store at h ⊢
  split at h
  · cases h
  · rename_i hWorks
    rw [if_neg hWorks]
    refine ⟨Prod.ext ?_ ?_, rfl⟩
    · cases hResult : (operation (w.db a)).1 with
      | error failure => rw [hResult] at h; cases h
      | ok answer' => rw [hResult] at h; cases h; rfl
    · dsimp only
      rw [Function.update_self]

/-- What a call has to show. -/
abbrev World.Answers (wire : Wire) (post : α → World → Prop) (w : World) (outcome : Except Error α × World) : Prop :=
  outcome.2.Inv wire ∧ w.Grows wire outcome.2 ∧ Returns (S := site wire) post outcome.1 outcome.2

variable {post : α → World → Prop}

theorem World.Step.answers {outcome : Except Error α × World} (h : w.Step wire outcome.2)
    (hPost : ∀ answer, outcome.1 = .ok answer → post answer outcome.2) : w.Answers wire post outcome := by
  refine ⟨h.inv, h.grows, ?_⟩
  cases hResult : outcome.1 with
  | error e => trivial
  | ok answer => exact hPost answer hResult

section

variable (h : w.Inv wire) (hNext : (w.db a).Next wire.kindOf (operation (w.db a)).2)
  (hEvery : (operation (w.db a)).2.Every (w.Sound wire))
include h hNext hEvery

theorem World.Inv.store : w.Step wire (w.store a choice operation).2 := by
  unfold World.store
  split
  · exact .refl h
  · exact h.update hNext hEvery

theorem World.Inv.stored
    (hPost : ∀ answer after, operation (w.db a) = (.ok answer, after.db a) → post answer after) :
    w.Answers wire post (w.store a choice operation) :=
  (h.store hNext hEvery).answers fun answer hOk => hPost answer _ (World.store_ok hOk).1

end

theorem World.Inv.report {outcome : Except Error Bool × World} (h : outcome.2.Inv wire)
    (hTook : outcome.1 = .ok true → (outcome.2.db a).Took id (wire.kindOf id) ∧ id ∉ outcome.2.reports a) :
    outcome.2.Step wire (World.report a id outcome).2 := by
  unfold World.report
  split
  · rename_i hNew
    obtain ⟨hTaken, hAbsent⟩ := hTook hNew
    refine h.of_db (.of_db (fun b => .refl _) rfl) h.dbs h.rows rfl rfl (fun _ => .inl) fun b => ?_
    dsimp only
    by_cases hSame : b = a
    · subst hSame
      rw [Function.update_self]
      refine ⟨List.nodup_cons.mpr ⟨hAbsent, (h.reports b).1⟩, fun other hMem => ?_⟩
      rcases List.mem_cons.mp hMem with rfl | hOld
      · exact .inr hTaken
      · exact .inl hOld
    · rw [Function.update_of_ne hSame]
      exact ⟨(h.reports b).1, fun _ => .inl⟩
  · exact .refl h

/-! ## Calls of a chat -/

abbrev Yields (wire : Wire) (chat : Chat) (p : Action α) (post : α → World → Prop) (w : World) : Prop :=
  p.Follows (mailboxTerms wire) chat (Returns post) w

abbrev Behaves (wire : Wire) (chat : Chat) (p : Action α) (w : World) : Prop := Yields wire chat p (fun _ _ => True) w

theorem follows_look {c : Call} (hSame : ∀ choice w, (World.exec wire chat c choice w).2 = w) :
    Behaves wire chat (call c) w := by
  refine follows_step fun w' _ hInv choice => ?_
  change World.Inv wire (World.exec wire chat c choice w').2 ∧ World.Grows wire w' (World.exec wire chat c choice w').2
  rw [hSame]
  exact ⟨hInv, .refl wire w'⟩

theorem follows_await {request : Nat} : Yields wire chat (call (.await request))
    (fun reply w' => ∀ transient, reply = .stored transient → ∃ blob, wire.hash blob = transient ∧
      w'.Kept wire blob) w := by
  refine follows_perform fun w' _ hInv choice => ⟨hInv, .refl wire w', ?_⟩
  change Returns (S := site wire) _ (World.exec wire chat (.await request) choice w').1 w'
  unfold World.exec
  dsimp only
  split
  · rename_i number reply _ hReply
    split
    · rintro transient rfl
      exact hInv.replies number transient (List.mem_of_getElem? hReply)
    · trivial
  · trivial
  · trivial

theorem follows_send {message : Option Id} (hProper : w.Proper wire ⟨chat.address wire, message, payload⟩) :
    Behaves wire chat (call (.send message payload)) w := by
  refine follows_step fun w' hGrows hInv choice => ?_
  suffices hStep : w'.Step wire (World.exec wire chat (.send message payload) choice w').2 from ⟨hStep.inv, hStep.grows⟩
  unfold World.exec
  split
  · exact .refl hInv
  · refine hInv.of_db (.of_db (fun b => .refl _) rfl) hInv.dbs hInv.rows rfl rfl (fun request hMem => ?_)
      fun b => ⟨(hInv.reports b).1, fun _ => .inl⟩
    rcases List.mem_append.mp hMem with hOld | hNew
    · exact .inl hOld
    · rw [List.mem_singleton.mp hNew]
      exact .inr (hProper.grows hGrows)

def World.Packed (w : World) (a : Address) (id : Id) (raw : Bytes) : Prop :=
  ∃ r, (w.db a).message id = some r ∧ r.packed = raw

theorem World.Packed.grows (h : w.Packed a id raw) (hGrows : w.Grows wire w') : w'.Packed a id raw := by
  obtain ⟨r, hR, hPacked⟩ := h
  obtain ⟨r', hR', hEvolves⟩ := hGrows.db a id r hR
  exact ⟨r', hR', hEvolves.packed.trans hPacked⟩

theorem follows_pendingOutbox : Behaves wire chat (call .pendingOutbox) w := by
  refine follows_perform fun w' _ hInv choice =>
    hInv.stored (calm_pendingOutbox choice.now _ (hInv.dbs _)).next ?_ fun _ _ _ => trivial
  exact every_pendingOutbox choice.now _ (fun _ _ => World.Sound.stays) (hInv.rows _)

theorem follows_beginAttempt : Yields wire chat (call (.beginAttempt id))
    (fun attempt w' => w'.Packed (chat.address wire) id attempt.2) w := by
  refine follows_perform fun w' _ hInv choice => ?_
  have hStored : w'.Step wire (w'.store (chat.address wire) choice
      (beginAttempt (w'.epoch (chat.address wire)) w'.fresh id)).2 :=
    hInv.store (next_beginAttempt (hInv.dbs _)) (every_beginAttempt (fun _ _ => World.Sound.stays) (hInv.rows _))
  have hSame : World.Step wire _ (World.exec wire chat (.beginAttempt id) choice w').2 :=
    hStored.inv.same rfl rfl rfl rfl rfl
  refine World.Step.answers ⟨hSame.inv, hStored.grows.trans hSame.grows⟩ fun attempt hOk => ?_
  obtain ⟨-, r, hR, hPacked, -, -, -, hAfter⟩ := beginAttempt_ok (World.store_ok hOk).1
  refine ⟨{ r with status := .sending, attempt := some attempt.1 }, ?_, hPacked⟩
  change ((w'.store (chat.address wire) choice _).2.db (chat.address wire)).message id = _
  rw [hAfter, Db.message_putMessage]
  exact if_pos (Db.id_of_message hR)

theorem follows_relayBlob (hPacked : w.Packed (chat.address wire) id raw) (hKey : raw.take 16 = wire.address key) :
    Yields wire chat (call (.relayBlob id fun nonce => .ok (raw.take 16 ++ wire.encrypt key nonce (raw.drop 16))))
      (fun blob w' => w'.Settled (chat.address wire) id blob) w := by
  refine follows_perform fun w' hGrows hInv choice =>
    hInv.stored (calm_relayBlob (hInv.dbs _)).next ?_ fun blob after hOk => ?_
  · refine every_relayBlob (hInv.rows _) fun r blob hR hNone hBlob => ?_
    obtain ⟨r', hR', hRaw⟩ := hPacked.grows hGrows
    cases hR.symm.trans hR'
    cases hBlob
    have hSound := (hInv.rows _).of_message hR
    refine ⟨hSound.size, hSound.id, hSound.body, fun blob hBlob => ?_, fun hStatus => ?_⟩
    · cases hBlob
      refine ⟨key, choice.nonce, ?_, ?_⟩
      · rw [hRaw]
        exact hKey.symm
      · rw [hRaw]
    · obtain ⟨blob, hBlob, -⟩ := hSound.relayed hStatus
      rw [hNone] at hBlob
      cases hBlob
  · obtain ⟨r, hR, -, ⟨hBlob, hAfter⟩ | ⟨-, -, hAfter⟩⟩ := relayBlob_ok hOk
    · rw [World.Settled, hAfter]
      exact ⟨r, hR, hBlob⟩
    · refine ⟨{ r with relayBlob := some blob }, ?_, rfl⟩
      rw [hAfter, Db.message_putMessage]
      exact if_pos (Db.id_of_message hR)

theorem follows_finishAttempt {relayed : Bool}
    (hRelayed : relayed = true → ∃ blob, w.Settled (chat.address wire) id blob ∧ w.Kept wire blob) :
    Behaves wire chat (call (.finishAttempt id token false relayed)) w := by
  refine follows_perform fun w' hGrows hInv choice =>
    hInv.stored (next_finishAttempt (hInv.dbs _)) ?_ fun _ _ _ => trivial
  refine every_finishAttempt (hInv.rows _) fun r hR => ?_
  have hSound := (hInv.rows _).of_message hR
  obtain ⟨hMessage, -, hPacked, hBlob, -⟩ := finish_same choice.now false relayed r
  constructor
  case size =>
    rw [hPacked]
    exact hSound.size
  case id =>
    rw [hMessage, hPacked]
    exact hSound.id
  case body =>
    rw [hMessage, hPacked]
    exact hSound.body
  case blob =>
    rw [hBlob, hPacked]
    exact hSound.blob
  case relayed =>
    intro hStatus
    rw [hBlob]
    cases hWas : relayed with
    | false =>
      rw [hWas] at hStatus
      cases hStatus
    | true =>
      obtain ⟨blob, hSettled, hKept⟩ := hRelayed hWas
      obtain ⟨r', hR', hBlob'⟩ := hSettled.grows hGrows
      cases hR.symm.trans hR'
      exact ⟨blob, hBlob', hGrows.kept blob hKept⟩

theorem took_iff {kind : Kind} (hKind : kind.isReceipt = false) : db.Took id kind ↔ ∃ r, db.message id = some r := by
  cases kind with
  | stored target => cases hKind
  | text | audio | edit | service => exact Iff.rfl

section

variable (hLawful : wire.Lawful)
include hLawful

section

variable (hReads : wire.Reads raw message)
include hReads

theorem follows_queued : Behaves wire chat (call (.add message raw true)) w :=
  follows_perform fun _ _ hInv _ => hInv.stored (calm_add (hInv.dbs _) (hReads.kind hLawful)).next
    (every_add (hInv.rows _) hReads.sound)
    fun _ _ _ => trivial

/-- After a call that reports the message. -/
theorem Wire.Reads.reported {operation : Db → Except Failure Bool × Db} (h : w.Inv wire)
    (hNext : (w.db a).Next wire.kindOf (operation (w.db a)).2) (hEvery : (operation (w.db a)).2.Every (w.Sound wire))
    (hTook : ∀ added after, operation (w.db a) = (.ok added, after) → after.Took message.id message.kind ∧
      (added = true → ¬(w.db a).Took message.id message.kind)) :
    w.Answers wire (fun _ w' => wire.Has (w'.db a) raw) (World.report a message.id (w.store a choice operation)) := by
  rw [hReads.kind hLawful] at hTook
  have hStored : w.Step wire (w.store a choice operation).2 := h.store hNext hEvery
  have hReport : (w.store a choice operation).2.Step wire
      (World.report a message.id (w.store a choice operation)).2 := by
    refine hStored.inv.report fun hOk => ?_
    obtain ⟨hOperation, hReports⟩ := World.store_ok hOk
    obtain ⟨hTaken, hNew⟩ := hTook true _ hOperation
    rw [hReports]
    exact ⟨hTaken, fun hMem => hNew rfl ((h.reports a).2 message.id hMem)⟩
  refine World.Step.answers ⟨hReport.inv, hStored.grows.trans hReport.grows⟩ fun added hOk => ?_
  have hTaken := (hTook added _ (World.store_ok hOk).1).1
  exact hReads.has hLawful (hTaken.grows (hReport.grows.db a))

theorem follows_add (hKind : message.kind.isReceipt = false) :
    Yields wire chat (call (.add message raw false)) (fun _ w' => wire.Has (w'.db (chat.address wire)) raw) w := by
  refine follows_perform fun w' _ hInv choice => ?_
  refine hReads.reported hLawful hInv (calm_add (hInv.dbs _) (hReads.kind hLawful)).next
    (every_add (hInv.rows _) hReads.sound) ?_
  intro added after hOk
  obtain ⟨hThere, hNew⟩ := add_has hOk
  rw [took_iff hKind, took_iff hKind]
  refine ⟨hThere, fun hAdded hOld => ?_⟩
  obtain ⟨r, hR⟩ := hOld
  cases hR.symm.trans (hNew hAdded)

theorem follows_commitReceived {factory : Option (Nat → Except Failure (Message × Bytes))}
    (hKind : message.kind.isReceipt = false) (hFactory : ∀ make stamp receipt packed,
      factory = some make → make stamp = .ok (receipt, packed) → wire.Reads packed receipt ∧
        receipt.kind.isReceipt = true) :
    Yields wire chat (call (.commitReceived message raw factory))
      (fun _ w' => wire.Has (w'.db (chat.address wire)) raw) w := by
  refine follows_perform fun w' _ hInv choice => ?_
  have hMade : ∀ receipt packed, (factory.map fun make => make choice.nonce) = some (.ok (receipt, packed)) →
      wire.Reads packed receipt ∧ receipt.kind.isReceipt = true := by
    intro receipt packed hOk
    obtain ⟨make, hSome, hMake⟩ := Option.map_eq_some_iff.mp hOk
    exact hFactory make choice.nonce receipt packed hSome hMake
  have hGenuine : ∀ receipt packed, (factory.map fun make => make choice.nonce) = some (.ok (receipt, packed)) →
      receipt.kind = wire.kindOf receipt.id ∧ receipt.kind.isReceipt = true :=
    fun receipt packed hOk => ⟨(hMade receipt packed hOk).1.kind hLawful, (hMade receipt packed hOk).2⟩
  refine hReads.reported hLawful hInv (calm_commitReceived (hInv.dbs _) (hReads.kind hLawful) hGenuine).next ?_ ?_
  · exact every_commitReceived (fun _ _ => World.Sound.stays) (hInv.rows _) hReads.sound
      fun receipt packed hOk => (hMade receipt packed hOk).1.sound
  · intro added after hOk
    obtain ⟨hThere, hNew⟩ := commitReceived_has (hInv.dbs _) (hReads.kind hLawful) hGenuine hOk
    rw [took_iff hKind, took_iff hKind]
    refine ⟨hThere, fun hAdded hOld => ?_⟩
    obtain ⟨r, hR⟩ := hOld
    cases hR.symm.trans (hNew hAdded)

theorem follows_acceptStoredReceipt {target : Id} (hKind : message.kind = .stored target) :
    Yields wire chat (call (.acceptStoredReceipt message target))
      (fun _ w' => wire.Has (w'.db (chat.address wire)) raw) w := by
  refine follows_perform fun w' _ hInv choice => ?_
  refine hReads.reported hLawful hInv (calm_acceptStoredReceipt (hInv.dbs _)).next
    (every_acceptStoredReceipt (fun _ _ => World.Sound.stays) (hInv.rows _)) ?_
  intro changed after hOk
  obtain ⟨r, hR, -, -, hPlain, hChanged, hAfter⟩ := acceptStoredReceipt_ok hOk
  rw [hKind]
  refine ⟨⟨{ r with status := .recipientStored, attempt := none }, ?_, hPlain, rfl⟩, fun hNew hOld => ?_⟩
  · rw [hAfter, Db.message_putMessage]
    exact if_pos (Db.id_of_message hR)
  · obtain ⟨r', hR', -, hStored⟩ := hOld
    cases hR.symm.trans hR'
    rw [hNew, hStored] at hChanged
    simp at hChanged

/-! ## Programs -/

theorem follows_commit {service : Bool} (hKind : message.kind.isReceipt = false) :
    Yields wire chat (chat.commit wire contacts message raw service)
      (fun _ w' => wire.Has (w'.db (chat.address wire)) raw) w := by
  unfold Chat.commit
  split
  · exact follows_raise
  · split
    · refine follows_commitReceived hLawful hReads hKind ?_
      rintro make stamp receipt packed ⟨⟩ hMade
      obtain ⟨hRead, hReceipt⟩ := receipt_ok hLawful hMade
      exact ⟨hRead, by rw [hReceipt]; rfl⟩
    · split
      · exact follows_commitReceived hLawful hReads hKind nofun
      · exact follows_add hLawful hReads hKind

end

omit hLawful in
theorem follows_raised (result : Except Failure α) :
    Yields wire chat (raised result) (fun a _ => result = .ok a) w := by
  cases result with
  | ok a => exact rfl
  | error failure => trivial

theorem follows_receive : Yields wire chat (chat.receive wire raw)
    (fun _ w' => wire.Has (w'.db (chat.address wire)) raw) w := by
  unfold Chat.receive
  refine follows_next (follows_look fun _ _ => rfl) fun publishers w₁ _ _ => ?_
  refine follows_next (follows_look fun _ _ => rfl) fun contacts w₂ _ _ => ?_
  refine follows_next (follows_raised _) fun message w₃ _ hUnpack => ?_
  obtain ⟨hReads, -⟩ := Wire.unpack_ok hUnpack
  split
  · rename_i target hKind
    exact follows_acceptStoredReceipt hLawful hReads hKind
  · rename_i event hKind
    refine follows_next (follows_look fun _ _ => rfl) fun now w₄ _ _ => ?_
    split
    · exact follows_raise
    · split
      · exact follows_raise
      · exact follows_commit hLawful hReads (by rw [hKind]; rfl)
  · rename_i hOther _
    refine follows_next (follows_look fun _ _ => rfl) fun current w₄ _ _ => ?_
    split
    · exact follows_raise
    · refine follows_commit hLawful hReads ?_
      cases hKind : message.kind with
      | stored target => exact absurd hKind (hOther target)
      | text | audio | edit | service => rfl

theorem follows_queue {recipient : Address} {payload : Bytes} :
    Behaves wire chat (chat.queue wire recipient payload) w := by
  unfold Chat.queue
  refine follows_next (follows_look fun _ _ => rfl) fun contacts w₁ _ _ => ?_
  split
  · exact follows_raise
  · refine follows_next (follows_raised _) fun message w₂ _ hUnpack => ?_
    obtain ⟨hReads, -⟩ := Wire.unpack_ok hUnpack
    refine follows_next (follows_look fun _ _ => rfl) fun now w₃ _ _ => ?_
    refine follows_done (follows_queued hLawful ?_)
    -- The deadline is not part of the packed message.
    unfold Chat.deadline
    split <;> exact ⟨hReads.size, hReads.id, hReads.body⟩

omit hLawful in
theorem follows_request {message : Option Id} (hProper : w.Proper wire ⟨chat.address wire, message, payload⟩) :
    Yields wire chat (request message payload)
      (fun reply w' => ∀ transient, reply = .stored transient → ∃ blob, wire.hash blob = transient ∧
        w'.Kept wire blob) w := by
  unfold request
  refine follows_next (follows_look fun _ _ => rfl) fun _ w₁ hGrows _ => ?_
  refine follows_next (follows_send (hProper.grows hGrows)) fun number w₂ _ _ => ?_
  refine follows_next follows_await fun reply w₃ _ hReply => ?_
  split
  · exact follows_raise
  · exact follows_pure hReply

def World.AllTaken (wire : Wire) (w : World) (a : Address) (haves : List Bytes) : Prop :=
  ∀ transient ∈ haves, w.Taken wire a transient

variable {haves : List Bytes}

omit hLawful in
theorem World.AllTaken.grows (h : w.AllTaken wire a haves) (hGrows : w.Grows wire w') : w'.AllTaken wire a haves :=
  fun transient hMem => (h transient hMem).grows hGrows

omit hLawful in
theorem proper_get {wants haves : Option (List Bytes)} {budget : Nat}
    (hHaves : ∀ list, haves = some list → w.AllTaken wire a list) :
    w.Proper wire ⟨a, none, .get wants haves budget⟩ := by
  constructor
  case purge =>
    rintro wants' list budget' ⟨⟩
    exact hHaves list rfl
  case upload => nofun

variable {tally : Tally}

theorem follows_takeBlob (hTally : w.AllTaken wire (chat.address wire) tally.haves) :
    Yields wire chat (Mailbox.takeBlob wire chat blob tally)
      (fun tally' w' => w'.AllTaken wire (chat.address wire) tally'.haves) w := by
  unfold Mailbox.takeBlob
  split
  · exact follows_pure hTally
  · rename_i hMine
    rw [not_not] at hMine
    split
    · exact follows_pure hTally
    · rename_i plaintext hPlain
      refine follows_else (follows_map ?_) fun e w' hGrows => ?_
      · refine (follows_receive hLawful).mono fun result w' hGrows hResult => ?_
        cases result with
        | error e => trivial
        | ok added =>
          intro transient hMem
          rcases List.mem_append.mp hMem with hOld | hNew
          · exact (hTally transient hOld).grows hGrows
          · refine ⟨blob, (List.mem_singleton.mp hNew).symm, hMine, plaintext, ?_, ?_⟩
            · rw [hMine]
              exact hPlain
            · have hHas : wire.Has (w'.db (chat.address wire)) (blob.take 16 ++ plaintext) := hResult
              rw [← hMine] at hHas
              exact hHas
      · split
        · exact follows_pure (hTally.grows hGrows)
        · exact follows_raise

/-- The invariant of the loop is what the next request needs. -/
theorem follows_takeBlobs {wanted blobs : List Bytes} (hTally : w.AllTaken wire (chat.address wire) tally.haves) :
    Yields wire chat (Mailbox.takeBlobs wire chat wanted blobs tally)
      (fun tally' w' => w'.AllTaken wire (chat.address wire) tally'.haves) w := by
  induction blobs generalizing tally w with
  | nil => exact follows_pure hTally
  | cons blob rest ih =>
    change Yields wire chat (_ >>= _) _ w
    refine follows_next (follows_look fun _ _ => rfl) fun _ w₁ hGrows _ => ?_
    split
    · exact follows_raise
    · split
      · exact follows_raise
      · refine follows_next (follows_takeBlob hLawful (hTally.grows hGrows)) fun tally' w₂ _ hTally' => ?_
        exact ih hTally'

omit hLawful in
theorem follows_list : Behaves wire chat Mailbox.list w := by
  unfold Mailbox.list
  refine follows_next (follows_request (proper_get nofun)) fun reply w₁ _ _ => ?_
  split
  · split
    · exact follows_raise
    · exact follows_pure trivial
  · exact follows_raise

omit hLawful in
theorem follows_fetch {wanted : List Bytes} : Behaves wire chat (Mailbox.fetch wanted) w := by
  unfold Mailbox.fetch
  refine follows_next (follows_request (proper_get ?_)) fun reply w₁ _ _ => ?_
  · rintro list ⟨⟩
    nofun
  · split
    · split
      · exact follows_raise
      · exact follows_pure trivial
    · exact follows_raise

omit hLawful in
theorem follows_purge (hHaves : w.AllTaken wire (chat.address wire) haves) :
    Behaves wire chat (Mailbox.purge haves) w := by
  unfold Mailbox.purge
  split
  · exact follows_pure trivial
  · refine follows_next (follows_request (proper_get ?_)) fun reply w₁ _ _ => ?_
    · rintro list ⟨⟩
      exact hHaves
    · split
      · exact follows_pure trivial
      · exact follows_raise

variable {deleteAfterStore : Bool}

theorem follows_syncConnected :
    Behaves wire chat (Mailbox.syncConnected wire chat deleteAfterStore) w := by
  unfold Mailbox.syncConnected
  refine follows_next follows_list fun available w₁ _ _ => ?_
  by_cases hNone : available.eraseDups.take 10 = []
  · rw [if_pos hNone]
    exact follows_pure trivial
  · rw [if_neg hNone]
    refine follows_next follows_fetch fun messages w₂ _ _ => ?_
    refine follows_next (follows_takeBlobs hLawful nofun) fun tally w₃ _ hTally => ?_
    refine follows_done (follows_purge ?_)
    split
    · exact hTally
    · nofun

theorem follows_upload (hPacked : w.Packed (chat.address wire) id raw) :
    Behaves wire chat (Mailbox.upload wire chat id token raw) w := by
  have hContacts : ∀ {w : World}, Behaves wire chat deliveryContacts w := fun {w} =>
    follows_next (follows_look fun _ _ => rfl) fun _ _ _ _ => follows_done (follows_look fun _ _ => rfl)
  unfold Mailbox.upload
  refine follows_next hContacts fun contacts w₁ hGrows₁ _ => ?_
  split
  · exact follows_raise
  · rename_i key _
    refine follows_next (follows_raised _) fun message w₂ hGrows₂ hUnpack => ?_
    obtain ⟨-, hKey⟩ := Wire.unpack_ok hUnpack
    refine follows_next (follows_relayBlob ((hPacked.grows hGrows₁).grows hGrows₂) hKey) fun blob w₃ _ hSettled => ?_
    refine follows_next (follows_request ⟨nofun, ?_⟩) fun response w₄ hGrows₄ hResponse => ?_
    · rintro _ ⟨⟩
      exact ⟨blob, rfl, hSettled⟩
    · split
      · rename_i hStored
        obtain ⟨blob', hHash, hKept⟩ := hResponse _ hStored
        rw [hLawful.hash hHash] at hKept
        refine follows_done (follows_finishAttempt fun _ => ⟨blob, hSettled.grows hGrows₄, hKept⟩)
      · split <;> exact follows_raise

theorem follows_publishConnected : Behaves wire chat (Mailbox.publishConnected wire chat id) w := by
  unfold Mailbox.publishConnected
  refine follows_next follows_beginAttempt fun attempt w₁ _ hPacked => ?_
  refine follows_else (follows_upload hLawful hPacked) fun e w₂ _ => ?_
  exact follows_next (follows_finishAttempt nofun) fun _ _ _ _ => follows_raise

theorem follows_publishAll {ids : List Id} : Behaves wire chat (Mailbox.publishAll wire chat ids) w := by
  induction ids generalizing w with
  | nil => exact follows_pure trivial
  | cons id rest ih =>
    unfold Mailbox.publishAll
    refine follows_next (follows_look fun _ _ => rfl) fun _ w₁ _ _ => ?_
    exact follows_next (follows_publishConnected hLawful) fun _ w₂ _ _ => ih

theorem follows_sync : Behaves wire chat (Mailbox.sync wire chat deleteAfterStore) w := by
  refine follows_next (follows_look fun _ _ => rfl) fun _ _ _ _ => ?_
  exact follows_done (follows_syncConnected hLawful)

theorem follows_exchange : Behaves wire chat (Mailbox.exchange wire chat) w := by
  refine follows_next (follows_look fun _ _ => rfl) fun _ _ _ _ => ?_
  refine follows_next (follows_syncConnected hLawful) fun _ _ _ _ => ?_
  refine follows_next follows_pendingOutbox fun ids _ _ _ => ?_
  refine follows_next (follows_publishAll hLawful) fun _ _ _ _ => ?_
  exact follows_done follows_pendingOutbox

theorem follows_may {p : Action Unit} (hMay : May wire chat p) :
    p.Follows (mailboxTerms wire) chat (fun _ _ => True) w := by
  suffices hReturns : Behaves wire chat p w from hReturns.mono fun _ _ _ _ => trivial
  cases hMay with
  | queue recipient payload => exact follows_done (follows_queue hLawful)
  | receive raw => exact follows_done (follows_receive hLawful)
  | sync deleteAfterStore => exact follows_done (follows_sync hLawful)
  | exchange => exact follows_done (follows_exchange hLawful)
  | publishMany ids =>
    unfold Mailbox.publishMany
    split
    · exact follows_raise
    · exact follows_next (follows_look fun _ _ => rfl) fun _ _ _ _ => follows_publishAll hLawful

end

end FamilyConnect.Messenger
