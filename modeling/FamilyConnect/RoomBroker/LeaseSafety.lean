import FamilyConnect.RoomBroker.LeaseProtocol

/-!
# Lease renewal is safe

The invariant of the server, of all handlers and of the client over whole
runs, and what it says about deadlines, receipts and failures.
-/

namespace FamilyConnect.RoomBroker

open Lib

namespace World

structure Inv (limits : Limits) (setupID : SetupId) (r : Nat) (skew : Duration) (history : Nat → Instant)
    (lease : Lease) (w : World) : Prop where
  held : w.broker.lease r = some lease
  named : lease.id = setupID
  config : w.broker.limits = limits
  leased : lease.Inv limits.lifetime w.now w.security history
  client : w.client.Inv history lease skew
  waits : w.client.Waits history lease skew w.now
  bounded : ∀ i, 0 < i → i ≤ w.count → (w.attempts i).Bounded history lease w.client.known.sequence
  live : w.client.phase ≠ .idle → 0 < w.count ∧
    Talk history lease skew w.client.known (w.attempts w.count).late w.client.phase (w.attempts w.count).handler
      (w.attempts w.count).toServer (w.attempts w.count).toClient
  failure : w.client.failure = some "renewal_protocol" → (w.attempts w.count).late = true

variable {limits : Limits} {setupID : SetupId} {r : Nat} {skew : Duration} {history : Nat → Instant} {lease : Lease}
  {w w' : World}

@[simp]
theorem put_same (w : World) (i : Nat) (a : Attempt) : (w.put i a).attempts i = a := Function.update_self _ _ _

@[simp]
theorem put_count (w : World) (i : Nat) (a : Attempt) : (w.put i a).count = w.count := rfl

theorem put_other (w : World) {i j : Nat} (a : Attempt) (h : j ≠ i) : (w.put i a).attempts j = w.attempts j :=
  Function.update_of_ne h _ _

variable {i : Nat} {a : Attempt}

theorem bounded_put {known : Nat} {count : Nat}
    (h : ∀ j, 0 < j → j ≤ count → j ≠ i → (w.attempts j).Bounded history lease known)
    (ha : a.Bounded history lease known) : ∀ j, 0 < j → j ≤ count →
    ((w.put i a).attempts j).Bounded history lease known := by
  intro j hPos hLe
  by_cases hj : j = i
  · subst hj
    rw [put_same]
    exact ha
  · rw [put_other w a hj]
    exact h j hPos hLe hj

variable {now : Instant}

theorem began_of_waits {c : Client} (h : c.Waits history lease skew now) : c.phase.Began (now + skew) := by
  unfold Client.Waits at h
  unfold Phase.Began
  split at h
  all_goals rename_i hPhase; rw [hPhase]
  all_goals first | trivial | exact h.1

section

variable (h : w.Inv limits setupID r skew history lease)
include h

theorem Inv.known {started : Instant} {request : LeaseReceipt}
    {offer : LeaseMessage} (hPhase : w.client.phase = .waitAnswer started request offer) :
    lease.Genuine history w.client.known := by
  have hWaits := h.waits
  simp only [Client.Waits, hPhase] at hWaits
  obtain ⟨deadline, hDeadline⟩ := Option.isSome_iff_exists.mp hWaits.2.1
  exact (h.client.known deadline hDeadline).1

theorem Inv.tick {t : Instant} (ht : w.now ≤ t) :
    ({ w with now := t } : World).Inv limits setupID r skew history lease :=
  { h with
    leased := h.leased.later ht (le_refl _)
    waits := h.waits.grows (.refl _ _) ht }

theorem Inv.start {renew : Bool} (hFailure : w.client.failure = none)
    (hRenew : renew = true → w.client.deadline.isSome = true) : ({ w.put (w.count + 1) {} with
        client := { w.client with phase := .waitOffer (w.now + skew) renew }
        count := w.count + 1 } : World).Inv limits setupID r skew history lease where
  held := h.held
  named := h.named
  config := h.config
  leased := h.leased
  client := { h.client with }
  waits := ⟨le_refl _, hRenew⟩
  bounded := bounded_put (fun j hPos hLe hj => h.bounded j hPos
    (Nat.le_of_lt_succ (lt_of_le_of_ne hLe hj))) ⟨by rintro _ _ ⟨⟩, nofun⟩
  live _ := by
    refine ⟨Nat.succ_pos _, ?_⟩
    rw [put_same]
    exact .opened
  failure hFailed := by
    rw [hFailure] at hFailed
    cases hFailed

theorem Inv.abort : ({ w with client := { w.client with phase := .idle } } : World).Inv limits
    setupID r skew history lease :=
  { h with
    client := { h.client with }
    waits := trivial
    live := fun hIdle => absurd rfl hIdle }

theorem Inv.secure {deadline : Instant} (hDeadline : w.security ≤ deadline) :
    ({ w with security := deadline } : World).Inv limits setupID r skew history lease :=
  { h with leased := h.leased.later (le_refl _) hDeadline }

variable {b : Broker}

theorem Inv.broker (hStep : Broker.Step w.broker b) (hSame : b.lease r = w.broker.lease r) :
    ({ w with broker := b } : World).Inv limits setupID r skew history lease :=
  { h with
    held := hSame.trans h.held
    config := (Broker.step_limits hStep).trans h.config }

theorem Inv.replace (hBounded : 0 < i → i ≤ w.count → a.Bounded history lease w.client.known.sequence)
    (hLate : (w.attempts i).late = true → a.late = true)
    (hLive : i = w.count → w.client.phase ≠ .idle →
      Talk history lease skew w.client.known a.late w.client.phase a.handler a.toServer a.toClient) :
    (w.put i a).Inv limits setupID r skew history lease where
  held := h.held
  named := h.named
  config := h.config
  leased := h.leased
  client := h.client
  waits := h.waits
  bounded j hPos hLe := by
    by_cases hj : j = i
    · subst hj
      rw [put_same]
      exact hBounded hPos hLe
    · rw [put_other w a hj]
      exact h.bounded j hPos hLe
  live hPhase := by
    obtain ⟨hCount, hTalk⟩ := h.live hPhase
    refine ⟨hCount, ?_⟩
    change Talk _ _ _ _ ((w.put i a).attempts w.count).late _ ((w.put i a).attempts w.count).handler
      ((w.put i a).attempts w.count).toServer ((w.put i a).attempts w.count).toClient
    by_cases hi : w.count = i
    · subst hi
      rw [put_same]
      exact hLive rfl hPhase
    · rw [put_other w a hi]
      exact hTalk
  failure hFailed := by
    have hOld := h.failure hFailed
    change ((w.put i a).attempts w.count).late = true
    by_cases hi : w.count = i
    · subst hi
      rw [put_same]
      exact hLate hOld
    · rw [put_other w a hi]
      exact hOld

variable {rest : List LeaseMessage} {message : LeaseMessage}

theorem Inv.lostRequest (hSent : (w.attempts i).toServer = message :: rest) :
    (w.put i { w.attempts i with toServer := rest }).Inv limits setupID r skew history lease := by
  refine h.replace (fun hPos hLe => ?_) id ?_
  · have hBounded := h.bounded i hPos hLe
    exact { hBounded with sent := fun other hOther => hBounded.sent other (hSent ▸ .tail _ hOther) }
  · rintro rfl hPhase
    obtain ⟨-, hTalk⟩ := h.live hPhase
    exact hTalk.lostRequest hSent

theorem Inv.lostReply (hReceived : (w.attempts i).toClient = message :: rest) :
    (w.put i { w.attempts i with toClient := rest }).Inv limits setupID r skew history lease := by
  refine h.replace (fun hPos hLe => ?_) id ?_
  · exact { h.bounded i hPos hLe with }
  · rintro rfl hPhase
    obtain ⟨-, hTalk⟩ := h.live hPhase
    exact hTalk.lostReply hReceived

theorem Inv.grow {history' : Nat → Instant}
    {lease' : Lease} (hHeld : b.lease r = some lease') (hLimits : b.limits = w.broker.limits)
    (hGrows : Lease.Grows history lease history' lease')
    (hInv : lease'.Inv limits.lifetime now w.security history') (hNow : w.now ≤ now)
    (hClose : lease'.renewal ≤ w.client.known.sequence + 1) :
    ({ w with broker := b, now := now } : World).Inv limits setupID r skew history' lease' where
  held := hHeld
  named := hGrows.id.trans h.named
  config := hLimits.trans h.config
  leased := hInv
  client :=
    { fresh := h.client.fresh
      known := fun deadline hDeadline => (h.client.known deadline hDeadline).imp_left (·.grows hGrows)
      behind := h.client.behind.trans hGrows.renewal
      close := hClose }
  waits := h.waits.grows hGrows hNow
  bounded i hPos hLe := (h.bounded i hPos hLe).grows hGrows (le_refl _)
  live hPhase := (h.live hPhase).imp_right (·.grows hGrows hInv.counter)
  failure := h.failure

theorem Inv.serve (hShort : limits.lifetime ≤ 10 * Duration.minute) (hPos : 0 < i) (hLe : i ≤ w.count)
    (hServe : Serve r w.security w.broker w.now (w.attempts i) b now a) :
    ∃ history' lease', ({ w.put i a with broker := b, now := now } : World).Inv limits setupID r skew history' lease' ∧
      lease.Advances limits.lifetime now w.security lease' := by
  have hBounded := h.bounded i hPos hLe
  have hLifetime : w.broker.limits.lifetime = limits.lifetime := by rw [h.config]
  obtain ⟨lease', history', hHeld, hGrows, hInv, hClose, hAdvances⟩ :=
    serve_lease hServe h.held hLifetime h.leased hBounded h.client.close
  refine ⟨history', lease', ?_, hAdvances⟩
  have hGrown := h.grow hHeld hServe.limits hGrows hInv hServe.now_le hClose
  refine hGrown.replace (fun _ _ => (hBounded.serve hServe).grows hGrows (le_refl _)) hServe.late ?_
  rintro rfl hPhase
  obtain ⟨-, hTalk⟩ := h.live hPhase
  exact hTalk.serve hServe h.held hHeld hLifetime hShort h.leased hInv hGrows (began_of_waits h.waits)
    (fun _ _ _ => h.known) h.client.behind h.client.close

theorem Inv.receive (hPhase : w.client.phase ≠ .idle) (hReceived : (w.attempts w.count).toClient = message :: rest) :
    ({ w.put w.count
        { w.attempts w.count with
          toClient := rest
          toServer := (w.attempts w.count).toServer ++ (w.client.receive setupID message).2 } with
        client := (w.client.receive setupID message).1 } : World).Inv limits setupID r skew history lease := by
  obtain ⟨hCount, hTalk⟩ := h.live hPhase
  have hMoves := w.client.moves_receive h.client h.leased hPhase h.waits (hTalk.expected hReceived)
  rw [h.named] at hMoves
  have hAttempt := h.bounded w.count hCount (le_refl _)
  constructor
  · exact h.held
  · exact h.named
  · exact h.config
  · exact h.leased
  · exact hMoves.inv
  · exact hMoves.waits
  · refine bounded_put (fun j hPos hLe _ => (h.bounded j hPos hLe).grows (.refl _ _) hMoves.known) ⟨?_, ?_⟩
    · exact (hAttempt.grows (.refl _ _) hMoves.known).renewing
    · intro other hMem hType
      rcases List.mem_append.mp hMem with hOld | hNew
      · exact (hAttempt.sent other hOld hType).grows (.refl _ _) hMoves.known
      · exact hMoves.asked other hNew hType
  · intro hNext
    refine ⟨hCount, ?_⟩
    simp only [put_count, put_same]
    exact hTalk.reply hReceived (hMoves.talk hNext)
  · intro hFailed
    simp only [put_count, put_same]
    exact (hMoves.failure hFailed).elim h.failure id

theorem Inv.step (hShort : limits.lifetime ≤ 10 * Duration.minute) (hStep : Step setupID r skew w w') :
    ∃ history' lease', w'.Inv limits setupID r skew history' lease' ∧
      lease.Advances limits.lifetime w'.now w'.security lease' := by
  cases hStep with
  | tick ht => exact ⟨history, lease, h.tick ht, .inl rfl⟩
  | secure hDeadline => exact ⟨history, lease, h.secure hDeadline, .inl rfl⟩
  | broker hBroker hSame => exact ⟨history, lease, h.broker hBroker hSame, .inl rfl⟩
  | start renew _ hFailure hRenew => exact ⟨history, lease, h.start hFailure hRenew, .inl rfl⟩
  | abort => exact ⟨history, lease, h.abort, .inl rfl⟩
  | receive hPhase hReceived => exact ⟨history, lease, h.receive hPhase hReceived, .inl rfl⟩
  | lostRequest hSent => exact ⟨history, lease, h.lostRequest hSent, .inl rfl⟩
  | lostReply hReceived => exact ⟨history, lease, h.lostReply hReceived, .inl rfl⟩
  | serve hPos hLe hServe => exact h.serve hShort hPos hLe hServe

end

end World

variable {limits : Limits}

theorem lifetime_pos {b : Broker} (h : (brokerSystem limits).Reachable b) : 0 < limits.lifetime := by
  refine System.Reachable.invariant (I := fun _ => 0 < limits.lifetime) ?_ (fun _ _ _ hPos _ => hPos) h
  intro b hNew
  unfold brokerSystem new at hNew
  split at hNew
  · cases hNew
  · rename_i hLimits
    simp only [not_or, not_le] at hLimits
    exact hLimits.2.2.2.2.2.2.1

theorem lease_challenge {b b' : Broker} {who : Option Identity} {id : SetupId} {now : Instant}
    (h : b.challenge who id now = (b', .ok id)) :
    b'.lease b.heap.length = some ⟨id, 0, now + b.limits.lifetime, {}, {}⟩ ∧ b'.limits = b.limits := by
  unfold Broker.challenge at h
  repeat' split at h
  all_goals try cases h
  simp [Broker.lease, Setup.lease]

variable {setupID : SetupId} {skew : Duration} {w : World} {r : Nat}

theorem world_inv_initial (h : (leaseSystem limits setupID r skew).initial w) :
    ∃ history lease, w.Inv limits setupID r skew history lease := by
  obtain ⟨b, who, hReach, -, hPlace, hChallenge, hNow, hClient, hCount⟩ := h
  obtain ⟨hLease, hLimits⟩ := lease_challenge hChallenge
  rw [broker_limits hReach] at hLease hLimits
  have hPos := lifetime_pos hReach
  refine ⟨fun _ => w.now + limits.lifetime, ⟨setupID, 0, w.now + limits.lifetime, {}, {}⟩, ?_⟩
  constructor
  · rw [← hPlace]
    exact hLease
  · rfl
  · exact hLimits
  · refine ⟨?_, rfl, Int.add_nonneg hNow (le_of_lt hPos), fun hRenewed => absurd rfl hRenewed, Nat.zero_le _, le_refl _,
      fun hRenewed => absurd rfl hRenewed⟩
    intro i j hLt hLe
    exact absurd (hLt.trans_le hLe) (Nat.not_lt_zero i)
  · rw [hClient]
    exact ⟨fun _ => rfl, nofun, le_refl _, Nat.zero_le _⟩
  · rw [hClient]
    trivial
  · intro i hi hLe
    omega
  · rw [hClient]
    exact fun hIdle => absurd rfl hIdle
  · rw [hClient]
    nofun

theorem world_inv (hShort : limits.lifetime ≤ 10 * Duration.minute)
    (h : (leaseSystem limits setupID r skew).Reachable w) :
    ∃ history lease, w.Inv limits setupID r skew history lease := by
  refine System.Reachable.invariant (I := fun w => ∃ history lease, World.Inv limits setupID r skew history lease w)
    (fun _ => world_inv_initial) ?_ h
  rintro w w' - ⟨history, lease, hInv⟩ hStep
  obtain ⟨history', lease', hNext, -⟩ := hInv.step hShort hStep
  exact ⟨history', lease', hNext⟩

/-- What holds in every run. -/
structure World.Safe (limits : Limits) (r : Nat) (skew : Duration) (lease : Lease) (w : World) : Prop where
  held : w.broker.lease r = some lease
  lifetime : lease.deadline ≤ w.now + limits.lifetime
  notAhead : w.client.known.sequence ≤ lease.renewal ∧ w.client.known.expiresAt ≤ lease.deadline
  close : lease.renewal ≤ w.client.known.sequence + 1
  deadline : ∀ deadline, w.client.deadline = some deadline → deadline ≤ lease.deadline + skew

theorem World.Inv.safe {history : Nat → Instant}
    {lease : Lease} (h : w.Inv limits setupID r skew history lease) : w.Safe limits r skew lease where
  held := h.held
  lifetime := h.leased.lifetime
  notAhead := by
    refine ⟨h.client.behind, ?_⟩
    cases hDeadline : w.client.deadline with
    | none =>
      rw [h.client.fresh hDeadline, ← h.leased.newest]
      exact h.leased.oldest.trans (h.leased.history_mono (Nat.zero_le _) (le_refl _))
    | some deadline => exact h.leased.expiresAt_le (h.client.known deadline hDeadline).1
  close := h.client.close
  deadline d hDeadline := by
    obtain ⟨hKnown, hBound⟩ := h.client.known d hDeadline
    exact hBound.trans (Int.add_le_add_right (h.leased.expiresAt_le hKnown) skew)

end FamilyConnect.RoomBroker
