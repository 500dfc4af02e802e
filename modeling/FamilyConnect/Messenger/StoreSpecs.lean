import FamilyConnect.Lib.Transaction
import FamilyConnect.Messenger.Store

/-!
# What the calls of the store do to its rows

A call either raises and leaves the database alone, or rewrites or adds single
rows. `Record.Evolves` is what every rewriting keeps of a message.
-/

namespace FamilyConnect.Messenger

open Lib

variable {db db' : Db} {id : Id} {r r' : Record} {kindOf : Id → Kind} {r'' : Record} {db'' : Db}

/-! ## Rows -/

structure Record.Evolves (r r' : Record) : Prop where
  id : r'.id = r.id
  peer : r'.peer = r.peer
  kind : r'.kind = r.kind
  outgoing : r'.outgoing = r.outgoing
  packed : r'.packed = r.packed
  relayBlob : ∀ blob, r.relayBlob = some blob → r'.relayBlob = some blob
  stored : r.kind.isReceipt = false → r.status = .recipientStored → r'.status = .recipientStored
  settled : r.kind.isReceipt = false → r.status = .delivered ∨ r.status = .expired →
    r'.status = r.status ∨ r'.status = .recipientStored

theorem Record.Evolves.refl (r : Record) : r.Evolves r :=
  ⟨rfl, rfl, rfl, rfl, rfl, fun _ h => h, fun _ h => h, fun _ _ => .inl rfl⟩

theorem Record.Evolves.trans (h : r.Evolves r') (h' : r'.Evolves r'') : r.Evolves r'' := by
  constructor
  case id => exact h'.id.trans h.id
  case peer => exact h'.peer.trans h.peer
  case kind => exact h'.kind.trans h.kind
  case outgoing => exact h'.outgoing.trans h.outgoing
  case packed => exact h'.packed.trans h.packed
  case relayBlob => exact fun blob hBlob => h'.relayBlob blob (h.relayBlob blob hBlob)
  case stored =>
    intro hKind hStored
    rw [← h.kind] at hKind
    exact h'.stored hKind (h.stored (by rwa [h.kind] at hKind) hStored)
  case settled =>
    intro hKind hOver
    have hKind' : r'.kind.isReceipt = false := by rw [h.kind, hKind]
    rcases h.settled hKind hOver with hSame | hStored
    · rw [← hSame] at hOver ⊢
      exact h'.settled hKind' hOver
    · exact .inr (h'.stored hKind' hStored)

def Db.Grows (db db' : Db) : Prop := ∀ id r, db.message id = some r → ∃ r', db'.message id = some r' ∧ r.Evolves r'

theorem Db.Grows.refl (db : Db) : db.Grows db := fun _ r h => ⟨r, h, .refl r⟩

theorem Db.Grows.trans (h : db.Grows db') (h' : db'.Grows db'') : db.Grows db'' := by
  intro id r hR
  obtain ⟨r', hR', hEvolves⟩ := h id r hR
  obtain ⟨r'', hR'', hEvolves'⟩ := h' id r' hR'
  exact ⟨r'', hR'', hEvolves.trans hEvolves'⟩

theorem Db.id_of_message (h : db.message id = some r) : r.id = id := by
  have hKey : r.key = id := Rows.key_of_get h
  exact hKey

theorem Db.mem_of_message (h : db.message id = some r) : r ∈ db.messages := Rows.mem_of_get h

theorem Db.message_putMessage (db : Db) (r : Record) (id : Id) :
    (db.putMessage r).message id = if r.id = id then some r else db.message id :=
  Rows.get_put _ id r db.messages

theorem Record.Evolves.found (h : r.Evolves r') (hR : db.message id = some r) : db.message r'.id = some r := by
  rw [h.id, Db.id_of_message hR]
  exact hR

theorem Db.Grows.put (hOld : db.message r'.id = some r) (hEvolves : r.Evolves r') : db.Grows (db.putMessage r') := by
  intro id r₁ hR₁
  rw [Db.message_putMessage]
  split
  · rename_i hId
    rw [← hId] at hR₁
    rw [← Option.some.inj (hOld.symm.trans hR₁)]
    exact ⟨r', rfl, hEvolves⟩
  · exact ⟨r₁, hR₁, .refl r₁⟩

def Record.Over (r : Record) : Prop := r.kind.isReceipt = false ∧ (r.status = .recipientStored ∨ r.status = .expired)

structure Record.Keeps (r r' : Record) : Prop where
  back : ∀ token, r'.attempt = some token → r.attempt = some token
  forth : ∀ token, r.attempt = some token → r'.attempt = some token ∨ r'.Over

theorem Record.Keeps.same (h : r'.attempt = r.attempt) : r.Keeps r' :=
  ⟨fun _ hToken => h ▸ hToken, fun _ hToken => .inl (h.trans hToken)⟩

structure Db.Keeps (db db' : Db) : Prop where
  old : ∀ id r, db.message id = some r → ∃ r', db'.message id = some r' ∧ r.Keeps r' ∧ r.Evolves r'
  new : ∀ id r', db'.message id = some r' → db.message id = none → r'.attempt = none

theorem Record.Over.evolves (h : r.Over) (hEvolves : r.Evolves r') : r'.Over := by
  obtain ⟨hKind, hStored | hExpired⟩ := h
  · exact ⟨by rw [hEvolves.kind]; exact hKind, .inl (hEvolves.stored hKind hStored)⟩
  · refine ⟨by rw [hEvolves.kind]; exact hKind, ?_⟩
    rcases hEvolves.settled hKind (.inr hExpired) with hSame | hStored
    · exact .inr (hSame.trans hExpired)
    · exact .inl hStored

theorem Record.Keeps.trans (h : r.Keeps r') (h' : r'.Keeps r'') (hEvolves : r'.Evolves r'') : r.Keeps r'' := by
  refine ⟨fun token hToken => h.back token (h'.back token hToken), fun token hToken => ?_⟩
  rcases h.forth token hToken with hSame | hOver
  · exact h'.forth token hSame
  · exact .inr (hOver.evolves hEvolves)

namespace Db.Keeps

theorem refl (db : Db) : db.Keeps db :=
  ⟨fun _ r hR => ⟨r, hR, .same rfl, .refl r⟩, fun _ _ hThere hNone => absurd (hThere.symm.trans hNone) nofun⟩

theorem trans (h : db.Keeps db') (h' : db'.Keeps db'') : db.Keeps db'' := by
  constructor
  case old =>
    intro id r hR
    obtain ⟨r', hR', hKeeps, hEvolves⟩ := h.old id r hR
    obtain ⟨r'', hR'', hKeeps', hEvolves'⟩ := h'.old id r' hR'
    exact ⟨r'', hR'', hKeeps.trans hKeeps' hEvolves', hEvolves.trans hEvolves'⟩
  case new =>
    intro id r'' hR'' hNone
    cases hBetween : db'.message id with
    | none => exact h'.new id r'' hR'' hBetween
    | some r' =>
      obtain ⟨r₁, hR₁, hKeeps, -⟩ := h'.old id r' hBetween
      rw [← Option.some.inj (hR₁.symm.trans hR'')]
      refine Option.eq_none_iff_forall_ne_some.mpr fun token hToken => ?_
      have hBack := hKeeps.back token hToken
      rw [h.new id r' hBetween hNone] at hBack
      cases hBack

theorem of_messages (h : db'.messages = db.messages) : db.Keeps db' := by
  have hSame : db'.message = db.message := by
    funext id
    rw [Db.message, Db.message, h]
  constructor
  case old =>
    rw [hSame]
    exact (refl db).old
  case new =>
    rw [hSame]
    exact (refl db).new

theorem put (hOld : ∀ old, db.message r.id = some old → old.Keeps r ∧ old.Evolves r)
    (hNew : db.message r.id = none → r.attempt = none) : db.Keeps (db.putMessage r) := by
  constructor
  case old =>
    intro id old hId
    rw [Db.message_putMessage]
    split
    · rename_i hSame
      exact ⟨r, rfl, hOld old (hSame ▸ hId)⟩
    · exact ⟨old, hId, .same rfl, .refl old⟩
  case new =>
    intro id r' hR' hNone
    rw [Db.message_putMessage] at hR'
    split at hR'
    · rename_i hSame
      cases hR'
      exact hNew (hSame ▸ hNone)
    · cases hNone.symm.trans hR'

end Db.Keeps

structure Record.Fine (kindOf : Id → Kind) (r : Record) : Prop where
  kind : r.kind = kindOf r.id
  receipt : ∀ i, r.receiptId = some i → (kindOf i).isReceipt = true
  attempt : r.status = .sending ↔ r.attempt.isSome = true
  retry : r.status = .relayed → r.expiresAt.isSome = true → r.retryAt.isSome = true

structure Db.Inv (kindOf : Id → Kind) (db : Db) : Prop where
  keyed : Rows.Keyed Record.key db.messages
  fine : ∀ r ∈ db.messages, r.Fine kindOf

section

variable (h : db.Inv kindOf)
include h

theorem Db.Inv.of_message (hR : db.message id = some r) : r.Fine kindOf := h.fine r (Db.mem_of_message hR)

theorem Db.Inv.put (hFine : r.Fine kindOf) : (db.putMessage r).Inv kindOf := by
  exact ⟨h.keyed.put r, Rows.forall_put h.fine hFine⟩

theorem Db.Inv.of_messages (hSame : db'.messages = db.messages) : db'.Inv kindOf := by
  constructor
  case keyed =>
    rw [hSame]
    exact h.keyed
  case fine =>
    rw [hSame]
    exact h.fine

structure Db.Next (kindOf : Id → Kind) (db db' : Db) : Prop where
  inv : db'.Inv kindOf
  grows : db.Grows db'

theorem Db.Next.refl : db.Next kindOf db := ⟨h, .refl db⟩

theorem Db.Next.put (hR : db.message id = some r) (hEvolves : r.Evolves r') (hFine : r'.Fine kindOf) :
    db.Next kindOf (db.putMessage r') := ⟨h.put hFine, .put (hEvolves.found hR) hEvolves⟩

end

structure Db.Calm (kindOf : Id → Kind) (db db' : Db) : Prop where
  inv : db'.Inv kindOf
  keeps : db.Keeps db'

namespace Db.Calm

theorem next (h : db.Calm kindOf db') : db.Next kindOf db' := by
  refine ⟨h.inv, fun id r hR => ?_⟩
  obtain ⟨r', hR', -, hEvolves⟩ := h.keeps.old id r hR
  exact ⟨r', hR', hEvolves⟩

theorem refl (h : db.Inv kindOf) : db.Calm kindOf db := ⟨h, .refl db⟩

theorem trans (h : db.Calm kindOf db') (h' : db'.Calm kindOf db'') : db.Calm kindOf db'' :=
  ⟨h'.inv, h.keeps.trans h'.keeps⟩

theorem of_messages (h : db.Inv kindOf) (hSame : db'.messages = db.messages) : db.Calm kindOf db' :=
  ⟨h.of_messages hSame, .of_messages hSame⟩

theorem put (h : db.Inv kindOf) (hR : db.message id = some r) (hKeeps : r.Keeps r') (hEvolves : r.Evolves r')
    (hFine : r'.Fine kindOf) : db.Calm kindOf (db.putMessage r') := by
  have hFound := hEvolves.found hR
  refine ⟨h.put hFine, .put (fun old hOld => ?_) fun hNone => ?_⟩
  · cases hFound.symm.trans hOld
    exact ⟨hKeeps, hEvolves⟩
  · cases hFound.symm.trans hNone

theorem append (h : db.Inv kindOf) (hNew : db.message r.id = none) (hAttempt : r.attempt = none)
    (hFine : r.Fine kindOf) : db.Calm kindOf (db.putMessage r) :=
  ⟨h.put hFine, .put (fun _ hOld => absurd (hNew.symm.trans hOld) nofun) fun _ => hAttempt⟩

end Db.Calm

/-! ## Calls -/

variable {α : Type}

variable {body : Db → Except Failure (α × Db)} {failure : Failure} {holds : Db → Prop}

theorem transaction_eq : transaction body = Transaction.commit body := by
  funext db
  unfold transaction Transaction.commit
  cases body db <;> rfl

theorem transaction_ok {a : α} (h : transaction body db = (.ok a, db')) : body db = .ok (a, db') := by
  rw [transaction_eq] at h
  exact Transaction.commit_ok h

theorem transaction_raised (h : (transaction body db).1 = .error failure) : (transaction body db).2 = db := by
  rw [transaction_eq] at h ⊢
  exact Transaction.commit_raised h

/-- A call that raises leaves the database alone, so only the others count. -/
theorem holds_of_ok {result : Except Failure α × Db} (hNow : holds db)
    (hRaised : ∀ failure, result.1 = .error failure → result.2 = db)
    (hOk : ∀ a, result = (.ok a, result.2) → holds result.2) : holds result.2 := by
  cases hResult : result.1 with
  | error failure =>
    rw [hRaised failure hResult]
    exact hNow
  | ok a => exact hOk a (Prod.ext hResult rfl)

theorem transaction_holds (hNow : holds db)
    (hBody : ∀ a db', body db = .ok (a, db') → holds db') : holds (transaction body db).2 :=
  holds_of_ok hNow (fun _ => transaction_raised) fun a hOk => hBody a _ (transaction_ok hOk)

theorem noteEdit_messages (db : Db) (message : Message) : (db.noteEdit message).messages = db.messages := by
  unfold Db.noteEdit
  split
  · split
    · split <;> rfl
    · rfl
  · rfl

def Record.new (message : Message) (raw : Bytes) (outgoing : Bool) : Record :=
  { message with packed := raw, outgoing := outgoing, status := if outgoing then .queued else .received }

variable {message : Message} {outgoing added : Bool} {raw : Bytes}

theorem addRecord_cases (h : addRecord message raw outgoing db = .ok (added, db')) :
    (∃ r, db.message message.id = some r) ∧ added = false ∧ db' = db ∨
      db.message message.id = none ∧ added = true ∧
        ∃ noted : Db, noted.messages = db.messages ∧ db' = noted.putMessage (.new message raw outgoing) := by
  unfold addRecord at h
  split at h
  · rename_i hThere
    cases h
    exact .inl ⟨Option.isSome_iff_exists.mp hThere, rfl, rfl⟩
  · rename_i hNew
    split at h
    · cases h
    · cases h
      refine .inr ⟨Option.not_isSome_iff_eq_none.mp hNew, rfl, _, ?_, rfl⟩
      split
      · rfl
      · exact noteEdit_messages db message

theorem addRecord_has (h : addRecord message raw outgoing db = .ok (added, db')) :
    (∃ r, db'.message message.id = some r) ∧ (added = true → db.message message.id = none) := by
  rcases addRecord_cases h with ⟨hThere, rfl, rfl⟩ | ⟨hNew, -, noted, -, rfl⟩
  · exact ⟨hThere, nofun⟩
  · refine ⟨⟨.new message raw outgoing, ?_⟩, fun _ => hNew⟩
    rw [Db.message_putMessage]
    exact if_pos rfl

theorem add_has (h : add message raw outgoing db = (.ok added, db')) :
    (∃ r, db'.message message.id = some r) ∧ (added = true → db.message message.id = none) := by
  unfold add at h
  split at h
  · cases h
  · exact addRecord_has (transaction_ok h)

theorem fine_new (hKind : message.kind = kindOf message.id) : (Record.new message raw outgoing).Fine kindOf := by
  constructor
  case kind => exact hKind
  case receipt => nofun
  case attempt | retry => cases outgoing <;> simp [Record.new]

theorem calm_addRecord (hInv : db.Inv kindOf)
    (hKind : message.kind = kindOf message.id) (h : addRecord message raw outgoing db = .ok
      (added, db')) : db.Calm kindOf db' := by
  rcases addRecord_cases h with ⟨-, -, rfl⟩ | ⟨hNew, -, noted, hSame, rfl⟩
  · exact .refl hInv
  · have hNoted : db.Calm kindOf noted := .of_messages hInv hSame
    refine hNoted.trans (.append hNoted.inv ?_ rfl (fine_new hKind))
    rw [Db.message, hSame]
    exact hNew

theorem calm_add (hInv : db.Inv kindOf) (hKind : message.kind = kindOf message.id) :
    db.Calm kindOf (add message raw outgoing db).2 := by
  unfold add
  split
  · exact .refl hInv
  · exact transaction_holds (.refl hInv) fun _ _ hBody => calm_addRecord hInv hKind hBody

variable {now : Time} {peer : Address} {target : Id}

theorem commitNotice_messages (h : commitNotice now message db = .ok db') : db'.messages = db.messages := by
  unfold commitNotice at h
  split at h
  · dsimp only at h
    repeat' split at h
    all_goals cases h
    all_goals rfl
  · cases h
    rfl

section Received

variable {existing : Option Record} {made : Except Failure (Message × Bytes)}
  {factory : Option (Except Failure (Message × Bytes))}

theorem queueReceipt_cases (h : queueReceipt message existing made db = .ok db') :
    (∃ old i receipt, existing = some old ∧ old.receiptId = some i ∧ db.message i = some receipt ∧
      (db' = db ∨ receipt.status ≠ .sending ∧ db' = db.putMessage
      { receipt with status := .queued, attempt := none })) ∨ ∃ receipt packed added stored saved,
        made = .ok (receipt, packed) ∧ addRecord receipt packed true db = .ok (added, stored) ∧
          stored.message message.id = some saved ∧ db' = stored.putMessage
          { saved with receiptId := some receipt.id } := by
  unfold queueReceipt at h
  split at h
  · rename_i i hI
    obtain ⟨old, hOld, hOldId⟩ := Option.bind_eq_some_iff.mp hI
    split at h
    · cases h
    · rename_i receipt hReceipt
      refine .inl ⟨old, i, receipt, hOld, hOldId, hReceipt, ?_⟩
      split at h
      · rename_i hResting
        cases h
        exact .inr ⟨hResting, rfl⟩
      · cases h
        exact .inl rfl
  · obtain ⟨⟨receipt, packed⟩, hMade, h⟩ := Transaction.bind_ok h
    obtain ⟨⟨added, stored⟩, hAdd, h⟩ := Transaction.bind_ok h
    dsimp only at h
    split at h
    · cases h
    · rename_i saved hSaved
      cases h
      exact .inr ⟨receipt, packed, added, stored, saved, hMade, hAdd, hSaved, rfl⟩

theorem calm_queueReceipt (hInv : db.Inv kindOf) (hExisting : ∀ r, existing = some r → r.Fine kindOf)
    (hFactory : ∀ receipt packed, made = .ok (receipt, packed) → receipt.kind = kindOf receipt.id ∧
      receipt.kind.isReceipt = true)
    (h : queueReceipt message existing made db = .ok db') : db.Calm kindOf db' := by
  rcases queueReceipt_cases h with ⟨old, i, receipt, hOld, hOldId, hReceipt, hDone⟩ |
    ⟨receipt, packed, _, stored, saved, hMade, hAdd, hSaved, rfl⟩
  · rcases hDone with rfl | ⟨hResting, rfl⟩
    · exact .refl hInv
    · have hFine := hInv.of_message hReceipt
      have hKind : receipt.kind.isReceipt = true := by
        rw [hFine.kind, Db.id_of_message hReceipt]
        exact (hExisting old hOld).receipt i hOldId
      have hNone : receipt.attempt = none := Option.not_isSome_iff_eq_none.mp fun hSome =>
        hResting (hFine.attempt.mpr hSome)
      refine .put hInv hReceipt (.same hNone.symm) ?_ ⟨hFine.kind, hFine.receipt, by simp, nofun⟩
      refine ⟨rfl, rfl, rfl, rfl, rfl, fun _ hBlob => hBlob, fun hNot => ?_, fun hNot => ?_⟩
      all_goals
        rw [hKind] at hNot
        cases hNot
  · obtain ⟨hKind, hIsReceipt⟩ := hFactory receipt packed hMade
    have hCalm := calm_addRecord hInv hKind hAdd
    have hFine := hCalm.inv.of_message hSaved
    refine hCalm.trans (.put hCalm.inv hSaved (.same rfl) ?_ ⟨hFine.kind, fun i hI => ?_, hFine.attempt, hFine.retry⟩)
    · exact ⟨rfl, rfl, rfl, rfl, rfl, fun _ hBlob => hBlob, fun _ hStored => hStored, fun _ _ => .inl rfl⟩
    · rw [← Option.some.inj hI, ← hKind]
      exact hIsReceipt

theorem commitReceived_ok (h : commitReceived now message raw factory db = (.ok added, db')) :
    ∃ noticed stored : Db, noticed.messages = db.messages ∧ addRecord message raw false noticed = .ok (added, stored) ∧
      (factory = none ∧ db' = stored ∨
        ∃ made, factory = some made ∧ queueReceipt message (db.message message.id) made stored = .ok db') := by
  obtain ⟨noticed, hNotice, hBody⟩ := Transaction.bind_ok (transaction_ok h)
  obtain ⟨⟨added', stored⟩, hAdd, hBody⟩ := Transaction.bind_ok hBody
  cases factory with
  | none =>
    cases hBody
    exact ⟨noticed, db', commitNotice_messages hNotice, hAdd, .inl ⟨rfl, rfl⟩⟩
  | some made =>
    obtain ⟨queued, hQueue, hBody⟩ := Transaction.bind_ok hBody
    cases hBody
    exact ⟨noticed, stored, commitNotice_messages hNotice, hAdd, .inr ⟨made, rfl, hQueue⟩⟩

section

variable (hInv : db.Inv kindOf) (hKind : message.kind = kindOf message.id)
  (hFactory : ∀ receipt packed, factory = some (.ok (receipt, packed)) →
    receipt.kind = kindOf receipt.id ∧ receipt.kind.isReceipt = true)
include hInv hKind hFactory

theorem calm_commitReceived : db.Calm kindOf (commitReceived now message raw factory db).2 := by
  refine holds_of_ok (.refl hInv) (fun _ => transaction_raised) fun added hOk => ?_
  obtain ⟨noticed, stored, hSame, hAdd, hRest⟩ := commitReceived_ok hOk
  have hNoticed : db.Calm kindOf noticed := .of_messages hInv hSame
  have hStored := hNoticed.trans (calm_addRecord hNoticed.inv hKind hAdd)
  rcases hRest with ⟨-, hDb⟩ | ⟨made, hMade, hQueue⟩
  · rw [hDb]
    exact hStored
  · refine hStored.trans (calm_queueReceipt hStored.inv (fun r => hInv.of_message)
      (fun receipt packed hReceipt => ?_) hQueue)
    exact hFactory receipt packed (by rw [hMade, hReceipt])

theorem commitReceived_has (h : commitReceived now message raw factory db = (.ok added, db')) :
    (∃ r, db'.message message.id = some r) ∧ (added = true → db.message message.id = none) := by
  obtain ⟨noticed, stored, hSame, hAdd, hRest⟩ := commitReceived_ok h
  obtain ⟨⟨r, hR⟩, hNew⟩ := addRecord_has hAdd
  have hOld : noticed.message message.id = db.message message.id := by
    rw [Db.message, hSame]
    rfl
  rw [hOld] at hNew
  refine ⟨?_, hNew⟩
  rcases hRest with ⟨-, rfl⟩ | ⟨made, hMade, hQueue⟩
  · exact ⟨r, hR⟩
  · have hStored := calm_addRecord (hInv.of_messages hSame) hKind hAdd
    have hQueued : stored.Calm kindOf db' := by
      refine calm_queueReceipt hStored.inv (fun r => hInv.of_message) (fun receipt packed hReceipt => ?_) hQueue
      exact hFactory receipt packed (by rw [hMade, hReceipt])
    obtain ⟨r', hR', -⟩ := hQueued.next.grows message.id r hR
    exact ⟨r', hR'⟩

end

end Received

theorem acceptStoredReceipt_ok {changed : Bool}
    (h : acceptStoredReceipt peer target db = (.ok changed, db')) :
    ∃ r, db.message target = some r ∧ r.outgoing = true ∧ r.peer = peer ∧ r.kind.isReceipt = false ∧
      changed = decide (r.status ≠ .recipientStored) ∧
        db' = db.putMessage { r with status := .recipientStored, attempt := none } := by
  have hBody := transaction_ok h
  cases hTarget : db.message target with
  | none => simp [hTarget] at hBody
  | some r =>
    simp only [hTarget] at hBody
    split at hBody
    · cases hBody
    · rename_i hRefused
      cases hBody
      simp only [not_or, Bool.not_eq_false, not_not, Bool.not_eq_true] at hRefused
      exact ⟨r, rfl, hRefused.1, hRefused.2.1, hRefused.2.2, rfl, rfl⟩

variable {token : Token} {uuid : Nat}

theorem beginAttempt_ok {epoch : Nat} {packed : Bytes}
    (h : beginAttempt epoch uuid id db = (.ok (token, packed), db')) :
    token = ⟨epoch, uuid⟩ ∧ ∃ r, db.message id = some r ∧ r.packed = packed ∧ r.outgoing = true ∧
      ¬(r.status = .delivered ∨ r.status = .recipientStored ∨ r.status = .expired) ∧
      ¬(r.status = .sending ∧ r.ownedBy epoch = true) ∧
        db' = db.putMessage { r with status := .sending, attempt := some token } := by
  have hBody := transaction_ok h
  cases hMessage : db.message id with
  | none => simp [hMessage] at hBody
  | some r =>
    simp only [hMessage] at hBody
    split at hBody
    · cases hBody
    · rename_i hPending
      split at hBody
      · cases hBody
      · rename_i hFree
        cases hBody
        rw [not_or, Bool.not_eq_false] at hPending
        exact ⟨rfl, r, rfl, rfl, hPending.1, hPending.2, hFree, rfl⟩

variable {create : Except Failure Bytes}

theorem relayBlob_ok {blob : Bytes} (h : relayBlob id create db = (.ok blob, db')) :
    ∃ r, db.message id = some r ∧ r.outgoing = true ∧
      (r.relayBlob = some blob ∧ db' = db ∨
        r.relayBlob = none ∧ create = .ok blob ∧ db' = db.putMessage { r with relayBlob := some blob }) := by
  have hBody := transaction_ok h
  cases hMessage : db.message id with
  | none => simp [hMessage] at hBody
  | some r =>
    simp only [hMessage] at hBody
    split at hBody
    · cases hBody
    · rename_i hOutgoing
      rw [Bool.not_eq_false] at hOutgoing
      split at hBody
      · rename_i old hOld
        cases hBody
        exact ⟨r, rfl, hOutgoing, .inl ⟨hOld, rfl⟩⟩
      · rename_i hNone
        obtain ⟨made, hMade, hBody⟩ := Transaction.bind_ok hBody
        split at hBody
        · cases hBody
        · cases hBody
          exact ⟨r, rfl, hOutgoing, .inr ⟨hNone, hMade, rfl⟩⟩

variable {epoch : Nat}

theorem finishAttempt_ok {delivered relayed finished : Bool}
    (h : finishAttempt now epoch id token delivered relayed db = (.ok finished, db')) :
    finished = false ∧ db' = db ∨ finished = true ∧ ∃ r, db.message id = some r ∧
      r.status = .sending ∧ r.attempt = some token ∧ token.epoch = epoch ∧
        db' = db.putMessage (r.finish now delivered relayed) := by
  unfold finishAttempt at h
  split at h
  · cases h
  · have hBody := transaction_ok h
    cases hMessage : db.message id with
    | none =>
      simp only [hMessage] at hBody
      cases hBody
      exact .inl ⟨rfl, rfl⟩
    | some r =>
      simp only [hMessage] at hBody
      split at hBody
      · cases hBody
        exact .inl ⟨rfl, rfl⟩
      · rename_i hMine
        cases hBody
        simp only [not_or, not_not] at hMine
        exact .inr ⟨rfl, r, rfl, hMine.1, hMine.2.1, hMine.2.2, rfl⟩

theorem calm_acceptStoredReceipt (hInv : db.Inv kindOf) :
    db.Calm kindOf (acceptStoredReceipt peer target db).2 := by
  refine holds_of_ok (.refl hInv) (fun _ => transaction_raised) fun changed hOk => ?_
  obtain ⟨r, hR, -, -, hKind, -, hDb⟩ := acceptStoredReceipt_ok hOk
  have hFine := hInv.of_message hR
  rw [hDb]
  refine .put hInv hR ⟨nofun, fun _ _ => .inr ⟨hKind, .inl rfl⟩⟩ ?_ ?_
  · exact ⟨rfl, rfl, rfl, rfl, rfl, fun _ hBlob => hBlob, fun _ _ => rfl, fun _ _ => .inr rfl⟩
  · exact ⟨hFine.kind, hFine.receipt, by simp, nofun⟩

theorem next_beginAttempt (hInv : db.Inv kindOf) : db.Next kindOf (beginAttempt epoch uuid id db).2 := by
  refine holds_of_ok (.refl hInv) (fun _ => transaction_raised) fun result hOk => ?_
  obtain ⟨-, r, hR, -, -, hPending, -, hDb⟩ := beginAttempt_ok hOk
  have hFine := hInv.of_message hR
  rw [hDb]
  refine .put hInv hR ?_ ?_
  · refine ⟨rfl, rfl, rfl, rfl, rfl, fun _ hBlob => hBlob, fun _ hStored => ?_, fun _ hOver => ?_⟩
    · exact absurd (.inr (.inl hStored)) hPending
    · exact absurd (hOver.imp_right .inr) hPending
  · exact ⟨hFine.kind, hFine.receipt, by simp, nofun⟩

theorem calm_relayBlob (hInv : db.Inv kindOf) : db.Calm kindOf (relayBlob id create db).2 := by
  refine holds_of_ok (.refl hInv) (fun _ => transaction_raised) fun blob hOk => ?_
  obtain ⟨r, hR, -, ⟨-, hDb⟩ | ⟨hNone, -, hDb⟩⟩ := relayBlob_ok hOk
  · rw [hDb]
    exact .refl hInv
  · have hFine := hInv.of_message hR
    rw [hDb]
    refine .put hInv hR (.same rfl) ?_
      ⟨hFine.kind, hFine.receipt, hFine.attempt, hFine.retry⟩
    refine ⟨rfl, rfl, rfl, rfl, rfl, fun _ hBlob => ?_, fun _ hStored => hStored, fun _ _ => .inl rfl⟩
    rw [hNone] at hBlob
    cases hBlob

variable {delivered relayed : Bool}

theorem finishAttempt_raised (h : (finishAttempt now epoch id token delivered relayed db).1 = .error failure) :
    (finishAttempt now epoch id token delivered relayed db).2 = db := by
  unfold finishAttempt at h ⊢
  split at h
  · rename_i hBoth
    rw [if_pos hBoth]
  · rename_i hBoth
    rw [if_neg hBoth]
    exact transaction_raised h

theorem finish_same (now : Time) (delivered relayed : Bool) (r : Record) :
    (r.finish now delivered relayed).toMessage = r.toMessage ∧ (r.finish now delivered relayed).outgoing = r.outgoing ∧
      (r.finish now delivered relayed).packed = r.packed ∧ (r.finish now delivered relayed).relayBlob = r.relayBlob ∧
      (r.finish now delivered relayed).receiptId = r.receiptId := by
  unfold Record.finish
  dsimp only
  split <;> exact ⟨rfl, rfl, rfl, rfl, rfl⟩

theorem fine_finish (hFine : r.Fine kindOf) : (r.finish now delivered relayed).Fine kindOf := by
  obtain ⟨hMessage, -, -, -, hReceipt⟩ := finish_same now delivered relayed r
  constructor
  case kind =>
    rw [hMessage]
    exact hFine.kind
  case receipt =>
    rw [hReceipt]
    exact hFine.receipt
  case attempt =>
    unfold Record.finish
    dsimp only
    split <;> cases delivered <;> cases relayed <;> simp
  case retry =>
    unfold Record.finish
    dsimp only
    split
    · simp
    · rename_i hNot
      intro hStatus hExpires
      cases delivered <;> cases relayed <;> simp_all

theorem next_finishAttempt (hInv : db.Inv kindOf) :
    db.Next kindOf (finishAttempt now epoch id token delivered relayed db).2 := by
  refine holds_of_ok (.refl hInv) (fun _ => finishAttempt_raised) fun finished hOk => ?_
  obtain ⟨-, hDb⟩ | ⟨-, r, hR, hSending, -, -, hDb⟩ := finishAttempt_ok hOk
  · rw [hDb]
    exact .refl hInv
  · obtain ⟨hMessage, hOutgoing, hPacked, hBlob, -⟩ := finish_same now delivered relayed r
    rw [hDb]
    refine .put hInv hR ?_ (fine_finish (hInv.of_message hR))
    · refine ⟨by rw [hMessage], by rw [hMessage], by rw [hMessage], hOutgoing, hPacked, fun _ h => by rw [hBlob]; exact h, ?_, ?_⟩
      · intro _ hStored
        rw [hSending] at hStored
        cases hStored
      · rintro _ (hOver | hOver)
        all_goals
          rw [hSending] at hOver
          cases hOver

theorem expire_cases (now : Time) (r : Record) : r.expire now = r ∨
    (¬(r.status = .recipientStored ∨ r.status = .delivered ∨ r.status = .expired) ∧ r.expiresAt.isSome = true ∧
      r.expire now = { r with status := .expired, attempt := none }) := by
  unfold Record.expire
  split
  · rename_i hOverdue
    rw [Record.overdue, Bool.and_eq_true, Bool.not_eq_true'] at hOverdue
    refine .inr ⟨?_, ?_, rfl⟩
    · simpa [not_or, and_assoc] using hOverdue.2
    · cases hDeadline : r.expiresAt with
      | none => simp [hDeadline] at hOverdue
      | some deadline => rfl
  · exact .inl rfl

theorem evolves_expire (now : Time) (r : Record) : r.Evolves (r.expire now) := by
  rcases expire_cases now r with hSame | ⟨hOpen, -, hExpired⟩
  · rw [hSame]
    exact .refl r
  · rw [hExpired]
    refine ⟨rfl, rfl, rfl, rfl, rfl, fun _ h => h, fun _ hStored => ?_, fun _ hOver => ?_⟩
    · exact absurd (.inl hStored) hOpen
    · exact absurd (.inr hOver) hOpen

theorem keeps_expire (now : Time) (r : Record) : r.Keeps (r.expire now) := by
  rcases expire_cases now r with hSame | ⟨-, hDeadline, hExpired⟩
  · rw [hSame]
    exact .same rfl
  · rw [hExpired]
    have hKind : r.kind.isReceipt = false := by
      refine Bool.eq_false_iff.mpr fun hReceipt => ?_
      rw [r.plain hReceipt] at hDeadline
      cases hDeadline
    exact ⟨nofun, fun _ _ => .inr ⟨hKind, .inr rfl⟩⟩

theorem pendingOutbox_eq (now : Time) (epoch : Nat) (db : Db) : pendingOutbox now epoch db =
    (.ok (((db.messages.map (Record.expire now)).filter (Record.pending now epoch)).map Record.key),
      { db with messages := db.messages.map (Record.expire now) }) := rfl

theorem calm_pendingOutbox (now : Time) (epoch : Nat) (hInv : db.Inv kindOf) :
    db.Calm kindOf (pendingOutbox now epoch db).2 := by
  rw [pendingOutbox_eq]
  have hKey : ∀ r : Record, (r.expire now).key = r.key := fun r => (evolves_expire now r).id
  constructor
  case keeps =>
    have hGet : ∀ id, ({ db with messages := db.messages.map (Record.expire now) } : Db).message id =
        (db.message id).map (Record.expire now) := fun id => Rows.get_map hKey id db.messages
    constructor
    case old =>
      intro id r hR
      refine ⟨r.expire now, ?_, keeps_expire now r, evolves_expire now r⟩
      rw [hGet, hR]
      rfl
    case new =>
      intro id r' hR' hNone
      rw [hGet, hNone] at hR'
      cases hR'
  case inv =>
    refine ⟨hInv.keyed.map hKey, fun r' hMem => ?_⟩
    obtain ⟨r, hOld, rfl⟩ := List.mem_map.mp hMem
    have hFine := hInv.fine r hOld
    rcases expire_cases now r with hSame | ⟨-, -, hExpired⟩
    · rw [hSame]
      exact hFine
    · rw [hExpired]
      exact ⟨hFine.kind, hFine.receipt, by simp, nofun⟩

/-! ## A property of every row -/

structure Record.Stays (r r' : Record) : Prop where
  message : r'.toMessage = r.toMessage
  outgoing : r'.outgoing = r.outgoing
  packed : r'.packed = r.packed
  relayBlob : r'.relayBlob = r.relayBlob
  status : r'.status = .relayed → r.status = .relayed

def Db.Every (P : Record → Prop) (db : Db) : Prop := ∀ r ∈ db.messages, P r

section Every

variable {P : Record → Prop}

theorem Db.Every.of_message (h : db.Every P) (hR : db.message id = some r) : P r := h r (Db.mem_of_message hR)

theorem Db.Every.put (h : db.Every P) (hP : P r) : (db.putMessage r).Every P := Rows.forall_put h hP

theorem Db.Every.of_messages (h : db.Every P) (hSame : db'.messages = db.messages) : db'.Every P := by
  rw [Db.Every, hSame]
  exact h

variable {message : Message} {raw : Bytes}

theorem every_addRecord (hEvery : db.Every P)
    (hNew : P (.new message raw outgoing)) (h : addRecord message raw outgoing db = .ok
      (added, db')) : db'.Every P := by
  rcases addRecord_cases h with ⟨-, -, rfl⟩ | ⟨-, -, noted, hSame, rfl⟩
  · exact hEvery
  · exact (hEvery.of_messages hSame).put hNew

theorem every_add (hEvery : db.Every P) (hNew : P (.new message raw outgoing)) :
    (add message raw outgoing db).2.Every P := by
  unfold add
  split
  · exact hEvery
  · exact transaction_holds hEvery fun _ _ hBody => every_addRecord hEvery hNew hBody

section

variable (hP : ∀ r r', r.Stays r' → P r → P r')
include hP

theorem every_queueReceipt {existing : Option Record} {made : Except Failure (Message × Bytes)} (hEvery : db.Every P)
    (hFactory : ∀ receipt packed, made = .ok (receipt, packed) → P (.new receipt packed true))
    (h : queueReceipt message existing made db = .ok db') : db'.Every P := by
  rcases queueReceipt_cases h with ⟨_, _, receipt, -, -, hReceipt, hDone⟩ |
    ⟨receipt, packed, _, stored, saved, hMade, hAdd, hSaved, rfl⟩
  · rcases hDone with rfl | ⟨-, rfl⟩
    · exact hEvery
    · exact hEvery.put (hP receipt _ ⟨rfl, rfl, rfl, rfl, nofun⟩ (hEvery.of_message hReceipt))
  · have hAdded := every_addRecord hEvery (hFactory receipt packed hMade) hAdd
    exact hAdded.put (hP saved _ ⟨rfl, rfl, rfl, rfl, fun hStatus => hStatus⟩ (hAdded.of_message hSaved))

theorem every_commitReceived {factory : Option (Except Failure (Message × Bytes))}
    (hEvery : db.Every P) (hNew : P (.new message raw false))
    (hFactory : ∀ receipt packed, factory = some (.ok (receipt, packed)) →
      P (.new receipt packed true)) :
    (commitReceived now message raw factory db).2.Every P := by
  refine holds_of_ok hEvery (fun _ => transaction_raised) fun added hOk => ?_
  obtain ⟨noticed, stored, hSame, hAdd, ⟨-, hDb⟩ | ⟨made, hMade, hQueue⟩⟩ := commitReceived_ok hOk
  · rw [hDb]
    exact every_addRecord (hEvery.of_messages hSame) hNew hAdd
  · refine every_queueReceipt hP (every_addRecord (hEvery.of_messages hSame) hNew hAdd)
      (fun receipt packed hReceipt => ?_) hQueue
    exact hFactory receipt packed (by rw [hMade, hReceipt])

theorem every_acceptStoredReceipt (hEvery : db.Every P) :
    (acceptStoredReceipt peer target db).2.Every P := by
  refine holds_of_ok hEvery (fun _ => transaction_raised) fun changed hOk => ?_
  obtain ⟨r, hR, -, -, -, -, hDb⟩ := acceptStoredReceipt_ok hOk
  rw [hDb]
  exact hEvery.put (hP r _ ⟨rfl, rfl, rfl, rfl, nofun⟩ (hEvery.of_message hR))

theorem every_beginAttempt (hEvery : db.Every P) :
    (beginAttempt epoch uuid id db).2.Every P := by
  refine holds_of_ok hEvery (fun _ => transaction_raised) fun result hOk => ?_
  obtain ⟨-, r, hR, -, -, -, -, hDb⟩ := beginAttempt_ok hOk
  rw [hDb]
  exact hEvery.put (hP r _ ⟨rfl, rfl, rfl, rfl, nofun⟩ (hEvery.of_message hR))

end

theorem every_pendingOutbox (now : Time) (epoch : Nat) (hP : ∀ r r', r.Stays r' → P r → P r') (hEvery : db.Every P) :
    (pendingOutbox now epoch db).2.Every P := by
  rw [pendingOutbox_eq]
  intro r' hMem
  obtain ⟨r, hOld, rfl⟩ := List.mem_map.mp hMem
  refine hP r _ ?_ (hEvery r hOld)
  rcases expire_cases now r with hSame | ⟨-, -, hExpired⟩
  · rw [hSame]
    exact ⟨rfl, rfl, rfl, rfl, fun hStatus => hStatus⟩
  · rw [hExpired]
    exact ⟨rfl, rfl, rfl, rfl, nofun⟩

theorem every_relayBlob (hEvery : db.Every P)
    (hBlob : ∀ r blob, db.message id = some r → r.relayBlob = none → create = .ok blob →
      P { r with relayBlob := some blob }) :
    (relayBlob id create db).2.Every P := by
  refine holds_of_ok hEvery (fun _ => transaction_raised) fun blob hOk => ?_
  obtain ⟨r, hR, -, ⟨-, hDb⟩ | ⟨hNone, hCreate, hDb⟩⟩ := relayBlob_ok hOk
  · rw [hDb]
    exact hEvery
  · rw [hDb]
    exact hEvery.put (hBlob r blob hR hNone hCreate)

theorem every_finishAttempt (hEvery : db.Every P)
    (hFinish : ∀ r, db.message id = some r → P (r.finish now delivered relayed)) :
    (finishAttempt now epoch id token delivered relayed db).2.Every P := by
  refine holds_of_ok hEvery (fun _ => finishAttempt_raised) fun finished hOk => ?_
  obtain ⟨-, hDb⟩ | ⟨-, r, hR, -, -, -, hDb⟩ := finishAttempt_ok hOk
  · rw [hDb]
    exact hEvery
  · rw [hDb]
    exact hEvery.put (hFinish r hR)

end Every

end FamilyConnect.Messenger
