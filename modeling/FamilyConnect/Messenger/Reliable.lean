import FamilyConnect.Messenger.Delivery

/-!
# Nothing is lost and nothing comes twice

The node gives up a row only for a request whose sender has the message, so the
invariant of the network holds in every run.
-/

namespace FamilyConnect.Messenger

open Lib

variable {wire : Wire} {limits : Limits} {chat : Chat} {w w' : World} {blob : Bytes} {choice : Choice}
  {hash : Bytes → Bytes} {sender : Address} {rows : List Row} {now : Time} {outcome : Reply × List Row}

/-! ## The node -/

structure Served (hash : Bytes → Bytes) (sender : Address) (payload : Payload) (rows : List Row)
    (outcome : Reply × List Row) : Prop where
  new : ∀ row ∈ outcome.2, row ∈ rows ∨ row.id = hash row.body ∧ row.recipient = row.body.take 16
  lost : ∀ row ∈ rows, row ∉ outcome.2 → row.recipient = sender ∧
    ∃ wants haves budget, payload = .get wants (some haves) budget ∧ row.id ∈ haves
  stored : ∀ transient, outcome.1 = .stored transient → ∃ row ∈ outcome.2, row.id = transient

theorem Served.unchanged {payload : Payload} {reply : Reply}
    (hReply : ∀ transient, reply ≠ .stored transient) : Served hash sender payload rows (reply, rows) :=
  ⟨fun _ hMem => .inl hMem, fun _ hMem hLost => absurd hMem hLost,
    fun transient hStored => absurd hStored (hReply transient)⟩

theorem expire_eq (h : ∀ row ∈ rows, now - limits.retention < row.received) :
    Spool.expire limits now rows = rows := List.filter_eq_self.mpr fun row hMem => decide_eq_true (h row hMem)

theorem put_cases (hash : Bytes → Bytes) (diskFull : Bool) (sender : Address) (blob : Bytes)
    (hRetained : ∀ row ∈ rows, now - limits.retention < row.received) :
    (∃ why, Spool.put hash limits diskFull now sender blob rows = (.error why, rows)) ∨
      (∃ row ∈ rows, row.id = hash blob ∧ Spool.put hash limits diskFull now sender blob rows =
      (.ok (hash blob), rows)) ∨ Spool.put hash limits diskFull now sender blob rows =
      (.ok (hash blob), rows ++ [⟨hash blob, sender, blob.take 16, now, blob⟩]) := by
  unfold Spool.put
  rw [expire_eq hRetained]
  dsimp only
  split
  · exact .inl ⟨_, rfl⟩
  · split
    · rename_i duplicate hDuplicate
      split
      · exact .inl ⟨_, rfl⟩
      · refine .inr (.inl ⟨duplicate, List.mem_of_find?_eq_some hDuplicate, ?_, rfl⟩)
        simpa using List.find?_some hDuplicate
    · split
      · exact .inl ⟨_, rfl⟩
      · exact .inr (.inr rfl)

def purged (recipient : Address) (haves : Option (List Bytes)) (rows : List Row) : List Row :=
  rows.filter fun row => !((haves.getD []).contains row.id && decide (row.recipient = recipient))

theorem get_cases (recipient : Address) (wants haves : Option (List Bytes)) (budget : Nat)
    (hRetained : ∀ row ∈ rows, now - limits.retention < row.received) :
    Spool.get limits now recipient wants haves budget rows = (none, rows) ∨
      ∃ values, Spool.get limits now recipient wants haves budget rows =
        (some values, purged recipient haves rows) := by
  unfold Spool.get
  rw [expire_eq hRetained]
  split
  · exact .inl rfl
  · split
    · refine .inr ⟨_, Prod.ext rfl ?_⟩
      simp [purged]
    · exact .inr ⟨_, rfl⟩

theorem served_respond {c : Circumstances} {payload : Payload}
    (hRetained : ∀ row ∈ rows, c.now - limits.retention < row.received) :
    Served hash sender payload rows (respond hash limits c sender payload rows) := by
  unfold respond
  split
  · exact .unchanged nofun
  cases payload with
  | put blob =>
    dsimp only
    split
    · exact .unchanged nofun
    · split
      · exact .unchanged nofun
      · split
        · exact .unchanged nofun
        · rcases put_cases hash c.diskFull sender blob hRetained with
            ⟨why, hPut⟩ | ⟨row, hMem, hId, hPut⟩ | hPut
          · rw [hPut]
            exact .unchanged nofun
          · rw [hPut]
            refine ⟨fun _ hMem => .inl hMem, fun _ hMem hLost => absurd hMem hLost, ?_⟩
            rintro _ ⟨⟩
            exact ⟨row, hMem, hId⟩
          · rw [hPut]
            refine ⟨fun row hMem => ?_, fun row hMem hLost => absurd (List.mem_append_left _ hMem) hLost, ?_⟩
            · rcases List.mem_append.mp hMem with hOld | hNew
              · exact .inl hOld
              · rw [List.mem_singleton.mp hNew]
                exact .inr ⟨rfl, rfl⟩
            · rintro _ ⟨⟩
              exact ⟨_, List.mem_append_right rows (.head _), rfl⟩
  | get wants haves budget =>
    dsimp only
    split
    · exact .unchanged nofun
    · rcases get_cases sender wants haves budget hRetained with hGet | ⟨values, hGet⟩
      · rw [hGet]
        exact .unchanged nofun
      · rw [hGet]
        refine ⟨fun row hMem => .inl (List.mem_of_mem_filter hMem), fun row hMem hLost => ?_, nofun⟩
        have hListed : (haves.getD []).contains row.id && decide (row.recipient = sender) := by
          refine Bool.not_eq_false _ ▸ fun hNot => hLost (List.mem_filter.mpr ⟨hMem, ?_⟩)
          rw [hNot]
          rfl
        rw [Bool.and_eq_true, decide_eq_true_eq] at hListed
        refine ⟨hListed.2, ?_⟩
        cases haves with
        | none => simp at hListed
        | some list => exact ⟨wants, list, budget, rfl, by simpa using hListed.1⟩

/-- A row that the node gives up is one of a message in the recipient's store. -/
theorem World.Inv.lost {payload : Payload} (h : w.Inv wire) (hLawful : wire.Lawful)
    (hServed : Served wire.hash sender payload w.spool outcome)
    (hPurge : ∀ wants haves budget, payload = .get wants (some haves) budget → w.AllTaken wire sender haves)
    {row : Row} (hMem : row ∈ w.spool) (hLost : row ∉ outcome.2) : w.Committed wire row.body := by
  obtain ⟨-, wants, haves, budget, hPayload, hListed⟩ := hServed.lost row hMem hLost
  obtain ⟨blob, hHash, -, hCommitted⟩ := hPurge wants haves budget hPayload row.id hListed
  rw [(h.spool row hMem).1] at hHash
  rw [hLawful.hash hHash] at hCommitted
  exact hCommitted

theorem World.Inv.served {payload : Payload} {replies : List (Nat × Reply)} (h : w.Inv wire)
    (hLawful : wire.Lawful) (hServed : Served wire.hash sender payload w.spool outcome)
    (hPurge : ∀ wants haves budget, payload = .get wants (some haves) budget → w.AllTaken wire sender haves)
    (hReplies : ∀ entry ∈ replies, entry ∈ w.replies ∨ entry.2 = outcome.1) :
    w.Step wire { w with spool := outcome.2, replies := replies } := by
  have hGrows : w.Grows wire { w with spool := outcome.2, replies := replies } := by
    refine ⟨fun a => .refl _, fun blob hKept => ?_⟩
    rcases hKept with ⟨row, hMem, rfl⟩ | hCommitted
    · by_cases hStill : row ∈ outcome.2
      · exact .inl ⟨row, hStill, rfl⟩
      · exact .inr ((h.lost hLawful hServed hPurge hMem hStill).grows fun a => .refl _)
    · exact .inr (hCommitted.grows fun a => .refl _)
  have hSpool : ∀ row ∈ outcome.2, row.id = wire.hash row.body ∧ row.recipient = row.body.take 16 := by
    intro row hMem
    rcases hServed.new row hMem with hOld | hNew
    · exact h.spool row hOld
    · exact hNew
  refine ⟨?_, hGrows⟩
  constructor
  case dbs => exact h.dbs
  case rows => exact fun a r hMem => (h.rows a r hMem).grows hGrows
  case spool => exact hSpool
  case requests => exact fun request hMem => (h.requests request hMem).grows hGrows
  case replies =>
    intro number transient hMem
    rcases hReplies _ hMem with hOld | hNew
    · obtain ⟨blob, hHash, hKept⟩ := h.replies number transient hOld
      exact ⟨blob, hHash, hGrows.kept blob hKept⟩
    · obtain ⟨row, hRow, hId⟩ := hServed.stored transient hNew.symm
      exact ⟨row.body, by rw [← (hSpool row hRow).1, hId], .inl ⟨row, hRow, rfl⟩⟩
  case reports => exact h.reports

theorem World.Inv.other (h : w.Inv wire) (hLawful : wire.Lawful)
    (hOther : World.Other wire limits w w') : w.Step wire w' := by
  cases hOther with
  | serve c number request hRequest hRetained =>
    have hProper := h.requests request (List.mem_of_getElem? hRequest)
    refine h.served hLawful (served_respond hRetained) hProper.purge fun entry hMem => ?_
    rcases List.mem_append.mp hMem with hOld | hNew
    · exact .inl hOld
    · exact .inr (by rw [List.mem_singleton.mp hNew])
  | upload c sender blob hRetained => exact h.served hLawful (served_respond hRetained) nofun fun _ hMem => .inl hMem
  | contacts a contacts publishers =>
    have hCalm : (w.db a).Calm wire.kindOf { w.db a with
      contacts := contacts, publishers := publishers } := .of_messages (h.dbs a) rfl
    exact h.update hCalm.next ((h.rows a).of_messages rfl)

/-- The rules of `Site.crew` hold in the network. -/
theorem mailbox_kept (hLawful : wire.Lawful) :
    (mailboxTerms wire).Kept (May wire) (World.restart wire) (World.Other wire limits) where
  start _ _ _ hMay _ := follows_may hLawful hMay
  leave chat w hInv := by
    have hSame : w.Step wire (w.restart wire chat) := World.Inv.same hInv rfl rfl rfl rfl rfl
    exact ⟨hSame.inv, hSame.grows⟩
  other w w' hInv hOther := ⟨(World.Inv.other hInv hLawful hOther).inv, (World.Inv.other hInv hLawful hOther).grows⟩

theorem World.Blank.inv (h : w.Blank) : w.Inv wire := by
  obtain ⟨hDbs, hSpool, hRequests, hReplies⟩ := h
  have hNone : ∀ a r, r ∉ (w.db a).messages := by
    intro a r
    rw [(hDbs a).1]
    exact List.not_mem_nil
  constructor
  case dbs =>
    refine fun a => ⟨?_, fun r hMem => absurd hMem (hNone a r)⟩
    rw [(hDbs a).1]
    exact List.nodup_nil
  case rows => exact fun a r hMem => absurd hMem (hNone a r)
  case spool =>
    rw [hSpool]
    exact fun _ hMem => absurd hMem List.not_mem_nil
  case requests =>
    rw [hRequests]
    exact fun _ hMem => absurd hMem List.not_mem_nil
  case replies =>
    rw [hReplies]
    exact fun _ _ hMem => absurd hMem List.not_mem_nil
  case reports =>
    intro a
    rw [(hDbs a).2]
    exact ⟨List.nodup_nil, fun _ hMem => absurd hMem List.not_mem_nil⟩

theorem network_inv (hLawful : wire.Lawful) {s : (site wire).State}
    (h : (network wire limits).Reachable s) : s.world.Inv wire :=
  ((mailbox_kept hLawful).reachable (fun _ hBlank => World.Blank.inv hBlank) h).inv

/-! ## The guarantees -/

theorem exec_spool (c : Call) : (World.exec wire chat c choice w).2.spool = w.spool := by
  have hStore : ∀ {α : Type} (operation : Db → Except Failure α × Db),
      (w.store (chat.address wire) choice operation).2.spool = w.spool := by
    intro α operation
    unfold World.store
    split <;> rfl
  have hReport : ∀ (id : Id) (outcome : Except Error Bool × World),
      (World.report (chat.address wire) id outcome).2.spool = outcome.2.spool := by
    intro id outcome
    unfold World.report
    split <;> rfl
  cases c with
  | wait | clock | await | contacts | publishers => rfl
  | send message payload =>
    unfold World.exec
    split <;> rfl
  | add message raw outgoing =>
    cases outgoing with
    | false => exact (hReport _ _).trans (hStore _)
    | true => exact hStore _
  | commitReceived | acceptStoredReceipt => exact (hReport _ _).trans (hStore _)
  | pendingOutbox | beginAttempt | relayBlob | finishAttempt => exact hStore _

structure World.Reliable (wire : Wire) (w : World) : Prop where
  once : ∀ a, (w.reports a).Nodup
  relayed : ∀ a id r, (w.db a).message id = some r → r.outgoing = true → r.status = .relayed →
    ∃ blob, r.relayBlob = some blob ∧ ((∃ row ∈ w.spool, row.body = blob) ∨ wire.Has (w.db (r.packed.take 16)) r.packed)
  identical : ∀ request ∈ w.requests, ∀ again ∈ w.requests, ∀ id, request.sender = again.sender →
    request.message = some id → again.message = some id → request.payload = again.payload

theorem World.Inv.reliable (h : w.Inv wire) (hLawful : wire.Lawful) : w.Reliable wire := by
  constructor
  case once => exact fun a => (h.reports a).1
  case relayed =>
    intro a id r hR _ hStatus
    have hSound := (h.rows a).of_message hR
    obtain ⟨blob, hBlob, hKept⟩ := hSound.relayed hStatus
    refine ⟨blob, hBlob, ?_⟩
    rcases hKept with hRow | ⟨plaintext, hPlain, hHas⟩
    · exact .inl hRow
    · obtain ⟨key, nonce, hKey, rfl⟩ := hSound.blob blob hBlob
      have hLength : (r.packed.take 16).length = 16 := by
        have hSize := hSound.size
        rw [List.length_take]
        omega
      rw [List.take_left' hLength, List.drop_left' hLength, ← hKey, hLawful.decrypt] at hPlain
      cases hPlain
      rw [List.take_left' hLength, List.take_append_drop] at hHas
      exact .inr hHas
  case identical =>
    intro request hMem again hMem' id hSender hMessage hMessage'
    obtain ⟨blob, hPayload, r, hR, hBlob⟩ := (h.requests request hMem).upload id hMessage
    obtain ⟨blob', hPayload', r', hR', hBlob'⟩ := (h.requests again hMem').upload id hMessage'
    rw [← hSender] at hR'
    cases hR.symm.trans hR'
    cases hBlob.symm.trans hBlob'
    rw [hPayload, hPayload']

theorem World.Inv.leaves (h : w.Inv wire) (hLawful : wire.Lawful) (hOther : World.Other wire limits w w') {row : Row}
    (hMem : row ∈ w.spool) (hLost : row ∉ w'.spool) : w.Committed wire row.body := by
  cases hOther with
  | serve c number request hRequest hRetained =>
    exact h.lost hLawful (served_respond hRetained)
      (h.requests request (List.mem_of_getElem? hRequest)).purge hMem hLost
  | upload c sender blob hRetained =>
    exact h.lost hLawful (served_respond hRetained) (fun _ _ _ hGet => by cases hGet) hMem hLost
  | contacts a contacts publishers => exact absurd hMem hLost

/-! ## A message on its way -/

namespace Sample

def plain : Wire where
  hash text := text
  address key := (key ++ List.replicate 16 0).take 16
  sign _ _ := List.replicate 64 0
  validate _ _ _ := true
  encrypt _ _ plaintext := plaintext
  decrypt _ ciphertext := some ciphertext
  body
    | 1 :: target => some (.stored target)
    | _ => some .text
  receiptPayload _ target := 1 :: target

theorem lawful : plain.Lawful where
  hash := Function.injective_id
  address key := by simp [plain]
  sign _ _ := List.length_replicate
  decrypt _ _ _ := rfl
  receipt _ _ := rfl

def alice : Chat := { publicKey := [1] }

def bob : Chat := { publicKey := [2] }

def start : (site plain).State :=
  ⟨{ db := fun _ => { contacts := [(alice.address plain, [1]), (bob.address plain, [2])] } }, []⟩

def payload : Bytes := List.replicate 20 0

def packed : Bytes := plain.pack (alice.address plain) [2] payload

def begin (s : (site plain).State) (chat : Chat) (p : Action Unit) : (site plain).State :=
  { s with jobs := (chat, p) :: s.jobs }

def calls (n : Nat) (reply : Nat) : List Choice := List.replicate n { reply := reply }

def circumstances : Circumstances := { now := 0, members := [alice.address plain, bob.address plain] }

def serve (s : (site plain).State) : (site plain).State :=
  match s.world.requests.getLast? with
  | none => s
  | some request =>
    let outcome := respond plain.hash {} circumstances request.sender request.payload s.world.spool
    { s with world := { s.world with spool := outcome.2, replies := s.world.replies ++ [(s.world.requests.length - 1, outcome.1)] } }

def uploading : (site plain).State :=
  let queued := (calls 3 0).foldl Site.State.turn
    (begin start alice (do let _ ← alice.queue plain (bob.address plain) payload))
  (calls 8 0).foldl Site.State.turn (begin queued alice (Mailbox.publishMany plain alice [plain.idOf packed]))

def listing : (site plain).State :=
  (calls 3 0).foldl Site.State.turn
    (begin ((calls 2 0).foldl Site.State.turn (serve uploading)) bob (do let _ ← Mailbox.sync plain bob true))

def fetching : (site plain).State := (calls 3 1).foldl Site.State.turn (serve listing)

def purging : (site plain).State := (calls 8 2).foldl Site.State.turn (serve fetching)

def delivered : (site plain).State := (calls 1 3).foldl Site.State.turn (serve purging)

variable {s : (site plain).State}

theorem reachable_begin (h : (network plain {}).Reachable s) (chat : Chat) {p : Action Unit}
    (hMay : May plain chat p) : (network plain {}).Reachable (begin s chat p) := by
  have hStep : (site plain).Step (May plain) (World.restart plain) (World.Other plain {}) s (begin s chat p) :=
    Site.Step.start (S := site plain) (s := s) chat p hMay
  exact h.next hStep

theorem reachable_serve (h : (network plain {}).Reachable s)
    (hRetained : ∀ row ∈ s.world.spool, circumstances.now - ({} : Limits).retention < row.received) :
    (network plain {}).Reachable (serve s) := by
  unfold serve
  split
  · exact h
  · rename_i request hLast
    refine h.next (.other _ (.serve circumstances (s.world.requests.length - 1) request ?_ hRetained))
    rw [← hLast, List.getLast?_eq_getElem?]

theorem reachable_delivered : (network plain {}).Reachable delivered := by
  have hStart : (network plain {}).Reachable start := .start ⟨⟨fun _ => ⟨rfl, rfl⟩, rfl, rfl, rfl⟩, rfl⟩
  have hQueued := Site.reachable_turns (reachable_begin hStart alice (.queue (bob.address plain) payload)) (calls 3 0)
  have hUploading : (network plain {}).Reachable uploading :=
    Site.reachable_turns (reachable_begin hQueued alice (.publishMany [plain.idOf packed])) (calls 8 0)
  have hSent := Site.reachable_turns (reachable_serve hUploading (by decide +kernel)) (calls 2 0)
  have hListing : (network plain {}).Reachable listing :=
    Site.reachable_turns (reachable_begin hSent bob (.sync true)) (calls 3 0)
  have hFetching : (network plain {}).Reachable fetching :=
    Site.reachable_turns (reachable_serve hListing (by decide +kernel)) (calls 3 1)
  have hPurging : (network plain {}).Reachable purging :=
    Site.reachable_turns (reachable_serve hFetching (by decide +kernel)) (calls 8 2)
  exact Site.reachable_turns (reachable_serve hPurging (by decide +kernel)) (calls 1 3)

end Sample

/-- Clients may stop at any call, and messages may get lost. A message is reported once and packed
once, one that counts as relayed is in the spool or with its recipient, and a row leaves the spool
only after its recipient has committed it. -/
theorem mailbox_delivers (hLawful : wire.Lawful) {s : (site wire).State}
    (hReachable : (network wire limits).Reachable s) :
    s.world.Reliable wire ∧ ∀ s', (network wire limits).step s s' → ∀ row ∈ s.world.spool, row ∉ s'.world.spool →
      s.world.Committed wire row.body := by
  have hInv := network_inv hLawful hReachable
  refine ⟨hInv.reliable hLawful, fun s' hStep row hMem hLost => ?_⟩
  cases hStep with
  | start | leave => exact absurd hMem hLost
  | advance u c next choice =>
    rw [show (World.exec wire u c choice _).2.spool = _ from exec_spool c] at hLost
    exact absurd hMem hLost
  | other world hOther => exact hInv.leaves hLawful hOther hMem hLost

open Sample

theorem mailbox_delivers_message :
    ((delivered.world.db (alice.address plain)).messages.map (·.status) = [.relayed] ∧
      delivered.world.reports (bob.address plain) = [plain.idOf packed] ∧
      purging.world.spool.length = 1 ∧ delivered.world.spool = []) ∧ delivered.world.Reliable plain :=
  ⟨by decide +kernel, (mailbox_delivers lawful reachable_delivered).1⟩

end FamilyConnect.Messenger
