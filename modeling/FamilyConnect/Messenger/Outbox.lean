import FamilyConnect.Lib.Transition
import FamilyConnect.Messenger.StoreSpecs

/-!
# The outbox over whole lifetimes

Any sequence of calls, from several threads and over several openings of the
store. The attempts that were begun are recorded beside the database; an attempt
is over when its worker has called `finish_attempt`.
-/

namespace FamilyConnect.Messenger

open Lib

structure Attempt where
  message : Id
  token : Token
  finished : Bool
  deriving DecidableEq

/-- A store that is open. `fresh` is the next random number, and the attempts are newest first. -/
structure Session where
  db : Db := {}
  epoch : Nat
  fresh : Nat
  clock : Time
  attempts : List Attempt := []

inductive Operation where
  | add (message : Message) (raw : Bytes) (outgoing : Bool)
  | commitReceived (message : Message) (raw : Bytes) (receiptFactory : Option (Except Failure (Message × Bytes)))
  | acceptStoredReceipt (peer : Address) (target : Id)
  | pendingOutbox
  | beginAttempt (id : Id)
  | relayBlob (id : Id) (create : Except Failure Bytes)
  | finishAttempt (id : Id) (token : Token) (delivered relayed : Bool)
  | reopen

/-- The id is the hash of a message, so it tells the kind; the factory of `Chat.receive` makes receipts. -/
def Operation.Genuine (kindOf : Id → Kind) : Operation → Prop
  | .add message _ _ => message.kind = kindOf message.id
  | .commitReceived message _ receiptFactory => message.kind = kindOf message.id ∧
      ∀ receipt packed, receiptFactory = some (.ok (receipt, packed)) →
        receipt.kind = kindOf receipt.id ∧ receipt.kind.isReceipt = true
  | _ => True

def outcome {α : Type} (result : Except Failure α × Db) : Option Failure × Db :=
  (match result.1 with | .ok _ => none | .error failure => some failure, result.2)

namespace Session

def call (s : Session) (now : Time) : Operation → Option Failure × Db
  | .add message raw outgoing => outcome (add message raw outgoing s.db)
  | .commitReceived message raw receiptFactory => outcome (commitReceived now message raw receiptFactory s.db)
  | .acceptStoredReceipt peer target => outcome (acceptStoredReceipt peer target s.db)
  | .pendingOutbox => outcome (pendingOutbox now s.epoch s.db)
  | .beginAttempt id => outcome (beginAttempt s.epoch s.fresh id s.db)
  | .relayBlob id create => outcome (relayBlob id create s.db)
  | .finishAttempt id token delivered relayed => outcome (finishAttempt now s.epoch id token delivered relayed s.db)
  | .reopen => (none, s.db)

def noted (s : Session) : Operation → List Attempt
  | .beginAttempt id => ⟨id, ⟨s.epoch, s.fresh⟩, false⟩ :: s.attempts
  | .finishAttempt id token _ _ => s.attempts.map fun a => if a.message = id ∧
      a.token = token then { a with finished := true } else a
  | _ => s.attempts

def perform (s : Session) (now : Time) (operation : Operation) : Session :=
  { s with
    db := (s.call now operation).2
    epoch := if operation matches .reopen then s.fresh else s.epoch
    fresh := s.fresh + 1
    clock := now
    attempts := if (s.call now operation).1 = none then s.noted operation else s.attempts }

def inFlight (s : Session) (id : Id) : List Attempt :=
  s.attempts.filter fun a => decide (a.message = id) && decide (a.token.epoch = s.epoch) && !a.finished

def latest (s : Session) (id : Id) : Option Token := (s.attempts.find? (·.message = id)).map (·.token)

end Session

def outboxSystem (kindOf : Id → Kind) : System Session where
  initial s := s.db = {} ∧ s.attempts = [] ∧ s.epoch < s.fresh
  step s s' := ∃ now operation, s.clock ≤ now ∧ operation.Genuine kindOf ∧ s' = s.perform now operation

/-! ## The invariant -/

variable {kindOf : Id → Kind} {s : Session} {now : Time}

structure Session.Inv (kindOf : Id → Kind) (s : Session) : Prop where
  db : s.db.Inv kindOf
  fresh : s.epoch < s.fresh
  epochs : ∀ a ∈ s.attempts, a.token.epoch ≤ s.epoch
  latest : ∀ id r token, s.db.message id = some r → r.attempt = some token → s.latest id = some token
  begun : ∀ a ∈ s.attempts, a.finished = false → a.token.epoch = s.epoch →
    ∃ r, s.db.message a.message = some r ∧ (r.attempt = some a.token ∨ r.Over)
  single : ∀ id, (s.inFlight id).length ≤ 1

section

variable (h : s.Inv kindOf)
include h

variable {s' : Session}

theorem Session.Inv.calm (hCalm : s.db.Calm kindOf s'.db) (hEpoch : s'.epoch = s.epoch)
    (hFresh : s.fresh ≤ s'.fresh) (hAttempts : s'.attempts = s.attempts) : s'.Inv kindOf where
  db := hCalm.inv
  fresh := by
    rw [hEpoch]
    exact h.fresh.trans_le hFresh
  epochs := by
    rw [hAttempts, hEpoch]
    exact h.epochs
  latest id r' token hR' hToken := by
    rw [Session.latest, hAttempts]
    cases hOld : s.db.message id with
    | none =>
      rw [hCalm.keeps.new id r' hR' hOld] at hToken
      cases hToken
    | some r =>
      obtain ⟨r₁, hR₁, hKeeps, -⟩ := hCalm.keeps.old id r hOld
      rw [← Option.some.inj (hR₁.symm.trans hR')] at hToken
      exact h.latest id r token hOld (hKeeps.back token hToken)
  begun a hMem hOver hCurrent := by
    rw [hAttempts] at hMem
    rw [hEpoch] at hCurrent
    obtain ⟨r, hR, hHeld⟩ := h.begun a hMem hOver hCurrent
    obtain ⟨r', hR', hKeeps, hEvolves⟩ := hCalm.keeps.old a.message r hR
    refine ⟨r', hR', ?_⟩
    rcases hHeld with hToken | hDone
    · exact hKeeps.forth a.token hToken
    · exact .inr (hDone.evolves hEvolves)
  single id := by
    rw [Session.inFlight, hAttempts, hEpoch]
    exact h.single id

theorem Session.Inv.reopen (now : Time) : (s.perform now .reopen).Inv kindOf := by
  have hOlder : ∀ a ∈ s.attempts, a.token.epoch < s.fresh := fun a hMem => (h.epochs a hMem).trans_lt h.fresh
  constructor
  case db => exact h.db
  case fresh => exact Nat.lt_succ_self s.fresh
  case epochs => exact fun a hMem => (hOlder a hMem).le
  case latest => exact h.latest
  case begun => exact fun a hMem _ hCurrent => absurd hCurrent (hOlder a hMem).ne
  case single =>
    intro id
    have hNone : (s.perform now .reopen).inFlight id = [] := by
      refine List.filter_eq_nil_iff.mpr fun a hMem => ?_
      have hNot : a.token.epoch ≠ s.fresh := (hOlder a hMem).ne
      simp [Session.perform, hNot]
    rw [hNone]
    exact Nat.zero_le 1

variable {id : Id}

theorem Session.Inv.idle {r : Record} (hR : s.db.message id = some r)
    (hPending : ¬(r.status = .delivered ∨ r.status = .recipientStored ∨ r.status = .expired))
    (hFree : ¬(r.status = .sending ∧ r.ownedBy s.epoch = true)) :
    ∀ a ∈ s.attempts, a.message = id → a.finished = false → a.token.epoch ≠ s.epoch := by
  intro a hMem hMessage hOver hCurrent
  obtain ⟨r', hR', hHeld⟩ := h.begun a hMem hOver hCurrent
  rw [hMessage, hR] at hR'
  cases hR'
  rcases hHeld with hToken | ⟨-, hDone⟩
  · refine hFree ⟨(h.db.of_message hR).attempt.mpr (by rw [hToken]; rfl), ?_⟩
    rw [Record.ownedBy, hToken]
    simpa using hCurrent
  · exact hPending (.inr hDone)

theorem Session.Inv.beginAttempt (now : Time) (id : Id) : (s.perform now (.beginAttempt id)).Inv kindOf := by
  have hNext : s.db.Next kindOf (Messenger.beginAttempt s.epoch s.fresh id s.db).2 := next_beginAttempt h.db
  cases hResult : (Messenger.beginAttempt s.epoch s.fresh id s.db).1 with
  | error failure =>
    have hDb : (Messenger.beginAttempt s.epoch s.fresh id s.db).2 = s.db := transaction_raised hResult
    refine h.calm ?_ rfl (Nat.le_succ s.fresh) ?_
    · change s.db.Calm kindOf (Messenger.beginAttempt s.epoch s.fresh id s.db).2
      rw [hDb]
      exact .refl h.db
    · simp [Session.perform, Session.call, outcome, hResult]
  | ok result =>
    obtain ⟨token, packed⟩ := result
    have hOk : Messenger.beginAttempt s.epoch s.fresh id s.db =
        (.ok (token, packed), (Messenger.beginAttempt s.epoch s.fresh id s.db).2) := Prod.ext hResult rfl
    obtain ⟨hToken, r, hR, -, -, hPending, hFree, hDb⟩ := beginAttempt_ok hOk
    have hId := Db.id_of_message hR
    have hAttempts : (s.perform now (.beginAttempt id)).attempts = ⟨id, token, false⟩ :: s.attempts := by
      simp [Session.perform, Session.call, outcome, hResult, Session.noted, hToken]
    have hMessage : ∀ other, (s.perform now (.beginAttempt id)).db.message other =
        if id = other then some { r with status := .sending, attempt := some token } else s.db.message other := by
      intro other
      change (Messenger.beginAttempt s.epoch s.fresh id s.db).2.message other = _
      rw [hDb, Db.message_putMessage]
      simp only [hId]
    have hIdle := h.idle hR hPending hFree
    constructor
    case db => exact hNext.inv
    case fresh => exact h.fresh.trans (Nat.lt_succ_self s.fresh)
    case epochs =>
      intro a hMem
      rw [hAttempts] at hMem
      rcases List.mem_cons.mp hMem with rfl | hOld
      · rw [hToken]
        exact le_rfl
      · exact h.epochs a hOld
    case latest =>
      intro other r' token' hR' hAttempt
      rw [hMessage] at hR'
      rw [Session.latest, hAttempts]
      split at hR'
      · rename_i hSame
        cases hR'
        cases hAttempt
        simp [hSame]
      · rename_i hOther
        rw [List.find?_cons_of_neg (by simpa using hOther)]
        exact h.latest other r' token' hR' hAttempt
    case begun =>
      intro a hMem hOver hCurrent
      rw [hAttempts] at hMem
      rw [hMessage]
      rcases List.mem_cons.mp hMem with rfl | hOld
      · exact ⟨_, if_pos rfl, .inl rfl⟩
      · rw [if_neg fun hSame => hIdle a hOld hSame.symm hOver hCurrent]
        exact h.begun a hOld hOver hCurrent
    case single =>
      intro other
      have hEpoch : (s.perform now (.beginAttempt id)).epoch = s.epoch := rfl
      rw [Session.inFlight, hAttempts, hEpoch, List.filter_cons]
      split
      · rename_i hMine
        simp only [Bool.and_eq_true, decide_eq_true_eq] at hMine
        have hSame : id = other := hMine.1.1
        have hNone : s.attempts.filter (fun a => decide (a.message = other) &&
            decide (a.token.epoch = s.epoch) && !a.finished) = [] := by
          refine List.filter_eq_nil_iff.mpr fun a hOld hHeld => ?_
          simp only [Bool.and_eq_true, decide_eq_true_eq, Bool.not_eq_true'] at hHeld
          exact hIdle a hOld (hHeld.1.1.trans hSame.symm) hHeld.2 hHeld.1.2
        rw [hNone]
        exact le_rfl
      · exact h.single other

variable {token : Token}

omit h in
/-- Another call, or one that fails, leaves everything as it was. -/
theorem Session.perform_finishAttempt {delivered relayed : Bool}
    (hPerform : s.perform now (.finishAttempt id token delivered relayed) = s') :
    s'.db = s.db ∧ s'.attempts = s.attempts ∨
      s'.attempts = s.attempts.map (fun a => if a.message = id ∧
        a.token = token then { a with finished := true } else a) ∧
          (s'.db = s.db ∨ ∃ r, s.db.message id = some r ∧ r.status = .sending ∧
          r.attempt = some token ∧ token.epoch = s.epoch ∧
            ∀ other, s'.db.message other = if id = other then some (r.finish now delivered relayed)
            else s.db.message other) := by
  subst hPerform
  cases hResult : Messenger.finishAttempt now s.epoch id token delivered relayed s.db with
  | mk result db =>
    have hDb : (s.perform now (.finishAttempt id token delivered relayed)).db = db := congrArg Prod.snd hResult
    cases result with
    | error failure =>
      refine .inl ⟨finishAttempt_raised (congrArg Prod.fst hResult), ?_⟩
      simp [Session.perform, Session.call, outcome, hResult]
    | ok finished =>
      refine .inr ⟨by simp [Session.perform, Session.call, outcome, hResult, Session.noted], ?_⟩
      rw [hDb]
      obtain ⟨-, hSame⟩ | ⟨-, r, hR, hSending, hMine, hEpoch, hPut⟩ := finishAttempt_ok hResult
      · exact .inl hSame
      · refine .inr ⟨r, hR, hSending, hMine, hEpoch, fun other => ?_⟩
        rw [hPut, Db.message_putMessage, (finish_same now delivered relayed r).1, Db.id_of_message hR]

theorem Session.Inv.finishAttempt (now : Time) (id : Id) (token : Token) (delivered relayed : Bool) :
    (s.perform now (.finishAttempt id token delivered relayed)).Inv kindOf := by
  have hInv : (s.perform now (.finishAttempt id token delivered relayed)).db.Inv kindOf := (next_finishAttempt h.db).inv
  have hEpoch : (s.perform now (.finishAttempt id token delivered relayed)).epoch = s.epoch := rfl
  have hFresh : s.fresh ≤ (s.perform now (.finishAttempt id token delivered relayed)).fresh := Nat.le_succ s.fresh
  generalize hPerform : s.perform now (.finishAttempt id token delivered relayed) = s' at hInv hEpoch hFresh ⊢
  obtain ⟨hDb, hAttempts⟩ | ⟨hAttempts, hRows⟩ := Session.perform_finishAttempt hPerform
  · refine h.calm ?_ hEpoch hFresh hAttempts
    rw [hDb]
    exact .refl h.db
  · -- What an attempt of the new record was before.
    have hBefore : ∀ a ∈ s'.attempts, ∃ a' ∈ s.attempts, a.message = a'.message ∧ a.token = a'.token ∧
        (a.finished = false → a'.finished = false ∧ ¬(a'.message = id ∧ a'.token = token)) := by
      intro a hMem
      rw [hAttempts] at hMem
      obtain ⟨a', hOld, rfl⟩ := List.mem_map.mp hMem
      refine ⟨a', hOld, ?_⟩
      split
      · exact ⟨rfl, rfl, nofun⟩
      · rename_i hOther
        exact ⟨rfl, rfl, fun hOver => ⟨hOver, hOther⟩⟩
    have hLatest : ∀ other, s'.latest other = s.latest other := by
      intro other
      rw [Session.latest, hAttempts, List.find?_map, Option.map_map, Session.latest]
      have hFind : (fun a : Attempt => decide (a.message = other)) ∘
          (fun a : Attempt => if a.message = id ∧ a.token = token then { a with finished := true } else a) =
            fun a => decide (a.message = other) := by
        funext a
        simp only [Function.comp_apply]
        split <;> rfl
      rw [hFind]
      refine congrArg (fun f => Option.map f (s.attempts.find? fun a => decide (a.message = other))) ?_
      funext a
      simp only [Function.comp_apply]
      split <;> rfl
    constructor
    case db => exact hInv
    case fresh =>
      rw [hEpoch]
      exact h.fresh.trans_le hFresh
    case epochs =>
      intro a hMem
      obtain ⟨a', hOld, -, hToken, -⟩ := hBefore a hMem
      rw [hToken, hEpoch]
      exact h.epochs a' hOld
    case latest =>
      intro other r' token' hR' hAttempt
      rw [hLatest]
      obtain hDb | ⟨r, -, -, -, -, hMessage⟩ := hRows
      · rw [hDb] at hR'
        exact h.latest other r' token' hR' hAttempt
      · rw [hMessage] at hR'
        split at hR'
        · -- The message is no longer sending.
          cases hR'
          unfold Record.finish at hAttempt
          dsimp only at hAttempt
          split at hAttempt <;> cases hAttempt
        · exact h.latest other r' token' hR' hAttempt
    case begun =>
      intro a hMem hOver hCurrent
      obtain ⟨a', hOld, hMessage, hToken, hOpen⟩ := hBefore a hMem
      obtain ⟨hOver', hOther⟩ := hOpen hOver
      rw [hToken, hEpoch] at hCurrent
      obtain ⟨r, hR, hHeld⟩ := h.begun a' hOld hOver' hCurrent
      rw [hMessage, hToken]
      obtain hDb | ⟨r₁, hR₁, hSending, hMine, -, hMessage⟩ := hRows
      · rw [hDb]
        exact ⟨r, hR, hHeld⟩
      · rw [hMessage]
        split
        · -- The message was sending under the token that is given back, so this attempt is another one.
          rename_i hId
          rw [← hId, hR₁] at hR
          cases hR
          rcases hHeld with hHeld | ⟨-, hDone⟩
          · exact absurd ⟨hId.symm, Option.some.inj (hHeld.symm.trans hMine)⟩ hOther
          · rw [hSending] at hDone
            simp at hDone
        · exact ⟨r, hR, hHeld⟩
    case single =>
      intro other
      refine le_trans ?_ (h.single other)
      rw [Session.inFlight, hAttempts, hEpoch, Session.inFlight, List.filter_map, List.length_map]
      refine List.Sublist.length_le (List.monotone_filter_right s.attempts fun a hHeld => ?_)
      simp only [Function.comp_apply] at hHeld
      split at hHeld
      · simp at hHeld
      · exact hHeld

variable {operation : Operation}

theorem Session.Inv.perform (now : Time) (hGenuine : operation.Genuine kindOf) :
    (s.perform now operation).Inv kindOf := by
  have hSame : ∀ attempts : List Attempt, (if (s.call now operation).1 = none then attempts else attempts) = attempts :=
    fun attempts => ite_self attempts
  cases operation with
  | add message raw outgoing => exact h.calm (calm_add h.db hGenuine) rfl (Nat.le_succ s.fresh) (hSame _)
  | commitReceived message raw receiptFactory =>
    exact h.calm (calm_commitReceived h.db hGenuine.1 hGenuine.2) rfl (Nat.le_succ s.fresh) (hSame _)
  | acceptStoredReceipt peer target => exact h.calm (calm_acceptStoredReceipt h.db) rfl (Nat.le_succ s.fresh) (hSame _)
  | pendingOutbox => exact h.calm (calm_pendingOutbox now s.epoch h.db) rfl (Nat.le_succ s.fresh) (hSame _)
  | beginAttempt id => exact h.beginAttempt now id
  | relayBlob id create => exact h.calm (calm_relayBlob h.db) rfl (Nat.le_succ s.fresh) (hSame _)
  | finishAttempt id token delivered relayed => exact h.finishAttempt now id token delivered relayed
  | reopen => exact h.reopen now

omit h in
theorem Session.Inv.reachable (h : (outboxSystem kindOf).Reachable s) : s.Inv kindOf := by
  refine h.invariant (I := Session.Inv kindOf) ?_ ?_
  · rintro s ⟨hDb, hAttempts, hFresh⟩
    constructor
    case db =>
      rw [hDb]
      exact ⟨List.nodup_nil, fun _ hMem => by cases hMem⟩
    case fresh => exact hFresh
    case epochs | begun =>
      rw [hAttempts]
      nofun
    case latest =>
      rw [hDb]
      exact fun _ _ _ hR => by cases hR
    case single =>
      intro id
      rw [Session.inFlight, hAttempts]
      exact Nat.zero_le 1
  · rintro s s' - hInv ⟨now, operation, -, hGenuine, rfl⟩
    exact hInv.perform now hGenuine

/-! ## Laws of the outbox -/

structure Record.Due (now : Time) (epoch : Nat) (r : Record) : Prop where
  outgoing : r.outgoing = true
  status : r.status = .queued ∨ (r.status = .sending ∧ ∃ token, r.attempt = some token ∧ token.epoch < epoch) ∨
    (r.status = .relayed ∧ r.expiresAt.isSome = true ∧ ∃ retryAt, r.retryAt = some retryAt ∧ retryAt ≤ now)

omit h in
theorem pending_iff_due {r : Record} {epoch : Nat} (hFine : r.Fine kindOf)
    (hEpoch : ∀ token, r.attempt = some token → token.epoch ≤ epoch) :
    r.pending now epoch = true ↔ r.Due now epoch := by
  have hSending : (r.status = .sending ∧ r.ownedBy epoch = false) ↔
      r.status = .sending ∧ ∃ token, r.attempt = some token ∧ token.epoch < epoch := by
    refine and_congr_right fun hStatus => ?_
    obtain ⟨token, hToken⟩ := Option.isSome_iff_exists.mp (hFine.attempt.mp hStatus)
    have hLe := hEpoch token hToken
    rw [Record.ownedBy, hToken]
    simp only [Option.any_some, decide_eq_false_iff_not, Option.some.injEq, exists_eq_left']
    omega
  have hRelayed : (r.status = .relayed ∧ r.expiresAt.isSome = true) ∧ r.retryAt.getD 0 ≤ now ↔
      r.status = .relayed ∧ r.expiresAt.isSome = true ∧ ∃ retryAt, r.retryAt = some retryAt ∧ retryAt ≤ now := by
    rw [and_assoc]
    refine and_congr_right fun hStatus => and_congr_right fun hRequired => ?_
    obtain ⟨retryAt, hRetry⟩ := Option.isSome_iff_exists.mp (hFine.retry hStatus hRequired)
    simp [hRetry]
  have hPending : r.pending now epoch = true ↔ r.outgoing = true ∧ ((r.status = .queued ∨
      ((r.status = .relayed ∧ r.expiresAt.isSome = true) ∧ r.retryAt.getD 0 ≤ now)) ∨
        (r.status = .sending ∧ r.ownedBy epoch = false)) := by
    simp only [Record.pending, Bool.and_eq_true, Bool.or_eq_true, decide_eq_true_eq, Bool.not_eq_true']
  rw [hPending, hSending, hRelayed]
  constructor
  · rintro ⟨hOutgoing, (hQueued | hRetry) | hOlder⟩
    · exact ⟨hOutgoing, .inl hQueued⟩
    · exact ⟨hOutgoing, .inr (.inr hRetry)⟩
    · exact ⟨hOutgoing, .inr (.inl hOlder)⟩
  · rintro ⟨hOutgoing, hQueued | hOlder | hRetry⟩
    · exact ⟨hOutgoing, .inl (.inl hQueued)⟩
    · exact ⟨hOutgoing, .inr hOlder⟩
    · exact ⟨hOutgoing, .inl (.inr hRetry)⟩

structure Session.Lawful (s : Session) (now : Time) (operation : Operation) : Prop where
  raised : (s.call now operation).1 ≠ none → (s.call now operation).2 = s.db
  rows : s.db.Grows (s.perform now operation).db
  finished : ∀ id token delivered relayed, operation = .finishAttempt id token delivered relayed →
    (s.perform now operation).db ≠ s.db → s.latest id = some token ∧ token.epoch = s.epoch ∧
      ∀ other, other ≠ id → (s.perform now operation).db.message other = s.db.message other
  pending : operation = .pendingOutbox →
    (∀ id, (s.perform now operation).db.message id = (s.db.message id).map (Record.expire now)) ∧
    ∃ ids, (pendingOutbox now s.epoch s.db).1 = .ok ids ∧ ids.Nodup ∧
      ∀ id, id ∈ ids ↔ ∃ r, (s.perform now operation).db.message id = some r ∧ r.Due now s.epoch

omit h in
theorem Session.call_raised (s : Session) (now : Time) (operation : Operation) (h : (s.call now operation).1 ≠ none) :
    (s.call now operation).2 = s.db := by
  have hRaised : ∀ {α : Type} (result : Except Failure α × Db),
      (∀ failure, result.1 = .error failure → result.2 = s.db) → (outcome result).1 ≠ none →
        (outcome result).2 = s.db := by
    intro α result hResult hNe
    cases hError : result.1 with
    | ok a => simp [outcome, hError] at hNe
    | error failure => exact hResult failure hError
  cases operation with
  | add message raw outgoing =>
    refine hRaised _ (fun failure hError => ?_) h
    unfold add at hError ⊢
    split at hError
    · rename_i hSize
      rw [if_pos hSize]
    · rename_i hSize
      rw [if_neg hSize]
      exact transaction_raised hError
  | commitReceived | acceptStoredReceipt | pendingOutbox | beginAttempt | relayBlob =>
    exact hRaised _ (fun _ => transaction_raised) h
  | finishAttempt id token delivered relayed => exact hRaised _ (fun _ => finishAttempt_raised) h
  | reopen => exact absurd rfl h

theorem Session.Inv.grows (now : Time) (hGenuine : operation.Genuine kindOf) :
    s.db.Grows (s.perform now operation).db := by
  cases operation with
  | add message raw outgoing => exact (calm_add h.db hGenuine).next.grows
  | commitReceived message raw receiptFactory => exact (calm_commitReceived h.db hGenuine.1 hGenuine.2).next.grows
  | acceptStoredReceipt peer target => exact (calm_acceptStoredReceipt h.db).next.grows
  | pendingOutbox => exact (calm_pendingOutbox now s.epoch h.db).next.grows
  | beginAttempt id => exact (next_beginAttempt h.db).grows
  | relayBlob id create => exact (calm_relayBlob h.db).next.grows
  | finishAttempt id token delivered relayed => exact (next_finishAttempt h.db).grows
  | reopen => exact .refl s.db

theorem Session.Inv.finished {delivered relayed : Bool}
    (hChanged : (s.perform now (.finishAttempt id token delivered relayed)).db ≠ s.db) :
    s.latest id = some token ∧ token.epoch = s.epoch ∧
      ∀ other, other ≠ id → (s.perform now (.finishAttempt id token delivered relayed)).db.message
        other = s.db.message other := by
  obtain ⟨hDb, -⟩ | ⟨-, hDb | ⟨r, hR, -, hMine, hEpoch, hMessage⟩⟩ := Session.perform_finishAttempt rfl
  · exact absurd hDb hChanged
  · exact absurd hDb hChanged
  · refine ⟨h.latest id r token hR hMine, hEpoch, fun other hOther => ?_⟩
    rw [hMessage, if_neg hOther.symm]

theorem Session.Inv.pending (now : Time) :
    (∀ id, (s.perform now .pendingOutbox).db.message id = (s.db.message id).map (Record.expire now)) ∧
    ∃ ids, (Messenger.pendingOutbox now s.epoch s.db).1 = .ok ids ∧ ids.Nodup ∧
      ∀ id, id ∈ ids ↔ ∃ r, (s.perform now .pendingOutbox).db.message id = some r ∧ r.Due now s.epoch := by
  have hAfter : (s.perform now .pendingOutbox).Inv kindOf := h.perform now trivial
  have hDue : ∀ r ∈ (s.perform now .pendingOutbox).db.messages, r.pending now s.epoch = true ↔ r.Due now s.epoch := by
    intro r hMem
    refine pending_iff_due (hAfter.db.fine r hMem) fun token hToken => ?_
    have hLatest := hAfter.latest r.id r token (hAfter.db.keyed.get hMem) hToken
    obtain ⟨a, hFind, rfl⟩ := Option.map_eq_some_iff.mp hLatest
    exact hAfter.epochs a (List.mem_of_find?_eq_some hFind)
  refine ⟨fun id => ?_, _, rfl, ?_, fun id => ?_⟩
  · exact Rows.get_map (fun r => (evolves_expire now r).id) id s.db.messages
  · exact hAfter.db.keyed.sublist (List.filter_sublist.map Record.key)
  · rw [List.mem_map]
    constructor
    · rintro ⟨r, hMem, rfl⟩
      obtain ⟨hMem, hPending⟩ := List.mem_filter.mp hMem
      exact ⟨r, hAfter.db.keyed.get hMem, (hDue r hMem).mp hPending⟩
    · rintro ⟨r, hR, hRDue⟩
      have hMem := Db.mem_of_message hR
      exact ⟨r, List.mem_filter.mpr ⟨hMem, (hDue r hMem).mpr hRDue⟩, Db.id_of_message hR⟩

end

/-! ## A message on its way -/

def sampleMessage : Message := { id := [1], peer := [2], kind := .text }

def newSession : Session := { epoch := 0, fresh := 1, clock := 0 }

def sampleSession : Session := (newSession.perform 0
    (.add sampleMessage (List.replicate 97 0) true)).perform 1 (.beginAttempt [1])

theorem reachable_sampleSession : (outboxSystem fun _ => .text).Reachable sampleSession := by
  have hNew : (outboxSystem fun _ => .text).Reachable newSession := .start ⟨rfl, rfl, Nat.zero_lt_one⟩
  have hAdded := hNew.next ⟨0, .add sampleMessage (List.replicate 97 0) true, le_rfl, rfl, rfl⟩
  exact hAdded.next ⟨1, .beginAttempt [1], by decide, trivial, rfl⟩

/-- At most one attempt per message is in flight, and every call keeps the rules of the outbox. -/
theorem outbox_lawful (hReachable : (outboxSystem kindOf).Reachable s) : (∀ id, (s.inFlight id).length ≤ 1) ∧
    ∀ now operation, s.clock ≤ now → operation.Genuine kindOf → s.Lawful now operation := by
  have hInv := Session.Inv.reachable hReachable
  refine ⟨hInv.single, fun now operation _ hGenuine => ?_⟩
  constructor
  case raised => exact s.call_raised now operation
  case rows => exact hInv.grows now hGenuine
  case finished =>
    rintro id token delivered relayed rfl
    exact hInv.finished
  case pending =>
    rintro rfl
    exact hInv.pending now

theorem outbox_lawful_sending : (sampleSession.inFlight [1]).length = 1 ∧ (sampleSession.inFlight [1]).length ≤ 1 ∧
    sampleSession.Lawful 2 (.finishAttempt [1] ⟨0, 2⟩ false true) :=
  have hLawful := outbox_lawful reachable_sampleSession
  ⟨by decide +kernel, hLawful.1 [1], hLawful.2 2 (.finishAttempt [1] ⟨0, 2⟩ false true) (by decide +kernel) trivial⟩

end FamilyConnect.Messenger
