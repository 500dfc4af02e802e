import FamilyConnect.RoomBroker.LeaseRenewal

/-!
# The exchange of an honest client

`Talk` lists the configurations of the one stream that has a client: where both
ends are and what is between them. A request names the deadline it is meant to
replace, so a handler that was left behind can carry out the request of the
live exchange, but no other: the answer is the same either way.
-/

namespace FamilyConnect.RoomBroker

open Lib

/-! ## Remaining times -/

section Remaining

variable {current : LeaseReceipt} {securityDeadline first second : Instant}

theorem remainingTime_pos (h : 0 < remainingTime current securityDeadline first second) :
    first + remainingTime current securityDeadline first second ≤ current.expiresAt := by
  have hLeft : remainingTime current securityDeadline first second ≤ Instant.sub current.expiresAt first :=
    min_le_left _ _
  have hBound := Instant.add_sub_le (lt_of_lt_of_le h hLeft)
  exact (Int.add_le_add_left hLeft first).trans hBound

theorem remainingTime_le {d : Duration} (h : current.expiresAt ≤ first + d) (hd : 0 ≤ d) :
    remainingTime current securityDeadline first second ≤ d :=
  (min_le_left _ _).trans (Instant.sub_le h hd)

theorem remainingTime_nonpos (h : remainingTime current securityDeadline first second ≤ 0) :
    current.expiresAt ≤ first ∨ securityDeadline ≤ second := by
  by_contra hAhead
  simp only [not_or, not_le] at hAhead
  exact absurd (lt_min (Instant.sub_pos.mpr hAhead.1) (Instant.sub_pos.mpr hAhead.2)) (not_lt.mpr h)

end Remaining

/-! ## One exchange -/

def LeaseReceipt.next (receipt : LeaseReceipt) : LeaseReceipt :=
  { receipt with sequence := (receipt.sequence + 1) % 2 ^ 64 }

section Exchange

variable (history : Nat → Instant) (lease : Lease) (skew : Duration)

def Asked (known : Nat) (request : LeaseReceipt) : Prop :=
  ∃ receipt, Lease.Genuine history lease receipt ∧ receipt.sequence ≤ known ∧ request = receipt.next

structure Attempt.Bounded (known : Nat) (a : Attempt) : Prop where
  renewing : ∀ request current, a.handler = .renewing request current → Asked history lease known request
  sent : ∀ message ∈ a.toServer, message.type = .renew → Asked history lease known message.lease

structure Client.Inv (c : Client) : Prop where
  fresh : c.deadline = none → c.known = {}
  known : ∀ deadline, c.deadline = some deadline →
    Lease.Genuine history lease c.known ∧ deadline ≤ c.known.expiresAt + skew
  behind : c.known.sequence ≤ lease.renewal
  close : lease.renewal ≤ c.known.sequence + 1

def Client.Waits (now : Instant) (c : Client) : Prop :=
  match c.phase with
  | .idle => True
  | .waitOffer started renew => started ≤ now + skew ∧ (renew = true → c.deadline.isSome = true)
  | .waitAnswer started request offer =>
    started ≤ now + skew ∧ c.deadline.isSome = true ∧ request = c.known.next ∧ offer.lease = c.known ∧
      0 < offer.remaining ∧ offer.remaining ≤ 10 * Duration.minute ∧
      started + offer.remaining ≤ c.known.expiresAt + skew
  | .waitConfirm accepted deadline =>
    Lease.Genuine history lease accepted ∧ c.known.sequence ≤ accepted.sequence ∧ deadline ≤ accepted.expiresAt + skew

structure Told (started : Instant) (late : Bool) (message : LeaseMessage) : Prop where
  genuine : Lease.Genuine history lease message.lease
  small : message.remaining ≤ 10 * Duration.minute
  bound : 0 < message.remaining → started + message.remaining ≤ message.lease.expiresAt + skew
  expired : message.remaining ≤ 0 → late = true

def Answers (known : LeaseReceipt) (type : MessageType) (current : LeaseReceipt) : Prop :=
  type = .accepted ∧ current.sequence = known.next.sequence ∧ known.sequence ≤ current.sequence ∨
    type = .limited ∧ current = known

def Expected (known : LeaseReceipt) (late : Bool) (message : LeaseMessage) : Phase → Prop
  | .idle => False
  | .waitOffer started _ =>
    message.type = .offer ∧ known.sequence ≤ message.lease.sequence ∧ Told history lease skew started late message
  | .waitAnswer started _ _ =>
    Answers known message.type message.lease ∧ Told history lease skew started late message
  | .waitConfirm accepted _ => message.type = .confirmed ∧ (message.lease = accepted ∨ late = true)

def Handler.Sent (message : LeaseMessage) (handler : Handler) : Prop :=
  match message.type with
  | .offer => handler = .offered message.lease
  | .accepted | .limited => handler = .answered message.lease
  | _ => handler = .closing

@[grind cases]
inductive Handler.Waiting : Handler → Prop where
  | offered (current : LeaseReceipt) : Waiting (.offered current)
  | answered (current : LeaseReceipt) : Waiting (.answered current)
  | closing : Waiting .closing

variable {handler : Handler}

@[grind →]
theorem Handler.Sent.waiting {message : LeaseMessage} (h : handler.Sent message) : handler.Waiting := by
  unfold Handler.Sent at h
  split at h
  · exact h ▸ .offered _
  · exact h ▸ .answered _
  · exact h ▸ .answered _
  · exact h ▸ .closing

theorem Handler.waiting_of_current {current : LeaseReceipt}
    (h : handler = .offered current ∨ handler = .answered current) : handler.Waiting := by
  rcases h with rfl | rfl
  · exact .offered current
  · exact .answered current

theorem Handler.current_unique {current other : LeaseReceipt}
    (h : handler = .offered current ∨ handler = .answered current)
    (hOther : handler = .offered other ∨ handler = .answered other) : current = other := by
  rcases h with rfl | rfl <;> rcases hOther with hOther | hOther <;> cases hOther <;> rfl

/-- The configurations of the live stream: the phase of the client, the handler, and the messages to the
server and to the client. -/
inductive Talk (known : LeaseReceipt) (late : Bool) :
    Phase → Handler → List LeaseMessage → List LeaseMessage → Prop where
  | opened {started : Instant} {renew : Bool} : Talk known late (.waitOffer started renew) .opened [] []
  | offering {started : Instant} {renew : Bool} {current : LeaseReceipt} {securityDeadline : Instant} :
      Lease.Genuine history lease current → known.sequence ≤ current.sequence →
      Talk known late (.waitOffer started renew) (.offering current securityDeadline) [] []
  | told {phase : Phase} {handler : Handler} {message : LeaseMessage} : handler.Sent message →
      Expected history lease skew known late message phase ∨ message.type = .denied →
      Talk known late phase handler [] [message]
  | requested {started : Instant} {offer : LeaseMessage} :
      Talk known late (.waitAnswer started known.next offer) (.offered known)
        [{ type := .renew, lease := known.next }] []
  | renewing {started : Instant} {offer : LeaseMessage} :
      Talk known late (.waitAnswer started known.next offer) (.renewing known.next known) [] []
  | answering {started : Instant} {offer : LeaseMessage} {type : MessageType} {current : LeaseReceipt}
      {securityDeadline : Instant} : Answers known type current → Lease.Genuine history lease current →
      Talk known late (.waitAnswer started known.next offer) (.answering type current securityDeadline) [] []
  | applying {accepted : LeaseReceipt} {deadline : Instant} {handler : Handler} :
      handler = .offered accepted ∨ handler = .answered accepted →
      Talk known late (.waitConfirm accepted deadline) handler [{ type := .applied, lease := accepted }] []
  | applied {accepted : LeaseReceipt} {deadline : Instant} :
      Talk known late (.waitConfirm accepted deadline) (.applied accepted) [] []
  | denying {phase : Phase} {code : Code} : (code = "renewal_replayed" → lease.renewal = 2 ^ 64 - 1) →
      Talk known late phase (.denying code) [] []
  | stalled {phase : Phase} {handler : Handler} : handler.Waiting → Talk known late phase handler [] []
  | exited {phase : Phase} {sent received : List LeaseMessage} : received.length ≤ 1 →
      (∀ message ∈ received, Expected history lease skew known late message phase ∨ message.type = .denied) →
      Talk known late phase .exited sent received

end Exchange

/-! ## A lease that grows -/

section Grows

variable {history history' : Nat → Instant} {lease lease' : Lease} {skew : Duration} {known known' : Nat}
  {receipt request : LeaseReceipt} {a : Attempt} {c : Client} {now now' : Instant}

section

variable (hGrows : Lease.Grows history lease history' lease')
include hGrows

theorem Asked.grows (h : Asked history lease known request) (hKnown : known ≤ known') :
    Asked history' lease' known' request := by
  obtain ⟨current, hCurrent, hLe, hNext⟩ := h
  exact ⟨current, hCurrent.grows hGrows, hLe.trans hKnown, hNext⟩

theorem Attempt.Bounded.grows (h : a.Bounded history lease known) (hKnown : known ≤ known') :
    a.Bounded history' lease' known' where
  renewing request current hHandler := (h.renewing request current hHandler).grows hGrows hKnown
  sent message hMem hType := (h.sent message hMem hType).grows hGrows hKnown

theorem Client.Waits.grows (h : c.Waits history lease skew now) (hNow : now ≤ now') :
    c.Waits history' lease' skew now' := by
  have hLater : now + skew ≤ now' + skew := Int.add_le_add_right hNow skew
  unfold Client.Waits at h ⊢
  cases hPhase : c.phase with
  | idle => trivial
  | waitOffer started renew | waitAnswer started request offer =>
    rw [hPhase] at h
    exact ⟨h.1.trans hLater, h.2⟩
  | waitConfirm accepted deadline =>
    rw [hPhase] at h
    exact ⟨h.1.grows hGrows, h.2⟩

variable {late : Bool}

theorem Told.grows {started : Instant} {message : LeaseMessage}
    (h : Told history lease skew started late message) :
    Told history' lease' skew started late message :=
  { h with genuine := h.genuine.grows hGrows }

theorem Expected.grows {message : LeaseMessage} {phase : Phase}
    (h : Expected history lease skew receipt late message phase) :
    Expected history' lease' skew receipt late message phase := by
  cases phase with
  | idle | waitConfirm => exact h
  | waitOffer _ _ => exact ⟨h.1, h.2.1, h.2.2.grows hGrows⟩
  | waitAnswer _ _ _ => exact ⟨h.1, h.2.grows hGrows⟩

theorem Talk.grows {phase : Phase} {handler : Handler} {sent received : List LeaseMessage}
    (h : Talk history lease skew receipt late phase handler sent received) (hCounter : lease'.renewal ≤ 2 ^ 64 - 1) :
    Talk history' lease' skew receipt late phase handler sent received := by
  cases h with
  | opened => exact .opened
  | offering hCurrent hAhead => exact .offering (hCurrent.grows hGrows) hAhead
  | told hSent hExpected => exact .told hSent (hExpected.imp_left (·.grows hGrows))
  | requested => exact .requested
  | renewing => exact .renewing
  | answering hAnswers hCurrent => exact .answering hAnswers (hCurrent.grows hGrows)
  | applying hHandler => exact .applying hHandler
  | applied => exact .applied
  | denying hCode =>
    refine .denying fun hReplayed => le_antisymm hCounter ?_
    rw [← hCode hReplayed]
    exact hGrows.renewal
  | stalled hWaiting => exact .stalled hWaiting
  | exited hLength hExpected =>
    exact .exited hLength fun message hMem => (hExpected message hMem).imp_left (·.grows hGrows)

end

/-! ## Messages that are lost or arrive -/

variable {late : Bool} {phase phase' : Phase} {handler : Handler} {sent received rest : List LeaseMessage}
  {message : LeaseMessage} {other : LeaseReceipt}

section

variable (h : Talk history lease skew receipt late phase handler sent received)
include h

theorem Talk.lostRequest (hSent : sent = message :: rest) :
    Talk history lease skew receipt late phase handler rest received := by
  cases h with
  | requested =>
    cases hSent
    exact .stalled (.offered _)
  | applying hAccepted =>
    cases hSent
    exact .stalled (Handler.waiting_of_current hAccepted)
  | exited hLength hExpected => exact .exited hLength hExpected
  | _ => cases hSent

theorem Talk.lostReply (hReceived : received = message :: rest) :
    Talk history lease skew receipt late phase handler sent rest := by
  cases h with
  | told hSent _ =>
    cases hReceived
    exact .stalled hSent.waiting
  | exited hLength hExpected =>
    subst hReceived
    exact .exited (Nat.le_of_succ_le hLength) fun other hOther => hExpected other (.tail _ hOther)
  | _ => cases hReceived

theorem Talk.expected (hReceived : received = message :: rest) :
    Expected history lease skew receipt late message phase ∨ message.type = .denied := by
  cases h with
  | told _ hExpected =>
    cases hReceived
    exact hExpected
  | exited _ hExpected =>
    subst hReceived
    exact hExpected message (.head _)
  | _ => cases hReceived

theorem Talk.replayed (hHandler : handler = .denying "renewal_replayed") : lease.renewal = 2 ^ 64 - 1 := by
  subst hHandler
  cases h with
  | denying hCode => exact hCode rfl
  | told | applying | stalled => grind

theorem Talk.reply {more : List LeaseMessage} (hReceived : received = message :: rest)
    (hReply : ∀ handler : Handler, handler.Sent message → Talk history lease skew other late phase' handler more []) :
    Talk history lease skew other late phase' handler (sent ++ more) rest := by
  cases h with
  | told hSent _ =>
    cases hReceived
    exact hReply handler hSent
  | exited hLength _ =>
    subst hReceived
    obtain rfl : rest = [] := List.length_eq_zero_iff.mp (Nat.le_zero.mp (Nat.le_of_succ_le_succ hLength))
    exact .exited (Nat.zero_le 1) nofun
  | _ => cases hReceived

end

end Grows

/-! ## Steps of a handler -/

def Phase.Began (limit : Instant) : Phase → Prop
  | .waitOffer started _ | .waitAnswer started _ _ => started ≤ limit
  | _ => True

section Serve

variable {history history' : Nat → Instant} {lease lease' : Lease} {skew lifetime : Duration} {r count : Nat}
  {security now now' first second securityDeadline : Instant} {b b' : Broker} {a a' : Attempt}
  {known current : LeaseReceipt}

def Lease.Advances (lifetime : Duration) (now security : Instant) (lease lease' : Lease) : Prop :=
  lease' = lease ∨ lease'.renewal = lease.renewal + 1 ∧ lease.deadline < lease'.deadline ∧
    lease'.deadline ≤ now + lifetime ∧ lease'.deadline ≤ security

theorem Attempt.Bounded.serve (h : a.Bounded history lease count) (hServe : Serve r security b now a b' now' a') :
    a'.Bounded history lease count := by
  cases hServe with
  | snapshot ctxEnded who _ =>
    refine ⟨fun request current hHandler => ?_, h.sent⟩
    unfold Handler.afterSnapshot at hHandler
    split at hHandler <;> cases hHandler
  | offer | answer | deny | exit => exact ⟨by rintro _ _ ⟨⟩, h.sent⟩
  | renewRequest _ hSent hType =>
    rename_i message rest _
    have hMem : message ∈ a.toServer := hSent ▸ .head _
    refine ⟨?_, fun other hOther => h.sent other (hSent ▸ .tail _ hOther)⟩
    rintro _ _ ⟨⟩
    exact h.sent message hMem hType
  | applyRequest _ hSent =>
    refine ⟨fun request current hHandler => ?_, fun other hOther => h.sent other (hSent ▸ .tail _ hOther)⟩
    unfold Handler.afterRequest at hHandler
    split at hHandler <;> cases hHandler
  | renew ctxEnded who _ _ _ =>
    refine ⟨fun request current hHandler => ?_, h.sent⟩
    unfold Handler.afterRenewal at hHandler
    repeat' split at hHandler
    all_goals cases hHandler
  | confirm ctxEnded who _ =>
    unfold Attempt.confirm
    split <;> exact ⟨by rintro _ _ ⟨⟩, h.sent⟩

section

variable (hServe : Serve r security b now a b' now' a')
include hServe

theorem Serve.late (h : a.late = true) : a'.late = true := by
  cases hServe with
  | offer _ _ | answer _ _ => simp [Attempt.tell, h]
  | confirm ctxEnded who _ =>
    unfold Attempt.confirm
    split <;> simp [h]
  | _ => exact h

theorem Serve.now_le : now ≤ now' := by
  cases hServe with
  | offer _ hNow | answer _ hNow => exact hNow
  | renew _ _ _ hNow hBound => exact hNow.trans hBound
  | _ => exact le_refl _

theorem Serve.limits : b'.limits = b.limits := by
  cases hServe with
  | renew ctxEnded who _ _ _ => exact Broker.renew_limits _ _ _ _ _ _ _ _ _
  | _ => rfl

theorem serve_lease (hHeld : b.lease r = some lease)
    (hLifetime : b.limits.lifetime = lifetime) (hInv : lease.Inv lifetime now security history)
    (hBounded : a.Bounded history lease count) (hClose : lease.renewal ≤ count + 1) :
    ∃ lease' history', b'.lease r = some lease' ∧ Lease.Grows history lease history' lease' ∧
      lease'.Inv lifetime now' security history' ∧ lease'.renewal ≤ count + 1 ∧
      lease.Advances lifetime now' security lease' := by
  cases hServe with
  | renew ctxEnded who hHandler hNow hBound =>
    rename_i bound request current
    obtain ⟨lease', hHeld', hRenewal⟩ :=
      Broker.renewal_of_renew hHeld ctxEnded who request security now bound now'
    rw [hLifetime] at hRenewal
    obtain ⟨history', hGrows, hInv'⟩ := hRenewal.inv hInv hNow hBound
    refine ⟨lease', history', hHeld', hGrows, hInv', ?_⟩
    generalize (b.renew r ctxEnded request who security now bound now').2 = result at hRenewal
    cases hRenewal with
    | extended hSequence _ _ hLonger hLifetime' hSecurity =>
      obtain ⟨receipt, hReceipt, hLe, hNext⟩ := hBounded.renewing request current hHandler
      refine ⟨?_, .inr ⟨hSequence, hLonger, hLifetime'.trans (Int.add_le_add_right hBound lifetime), hSecurity⟩⟩
      change request.sequence ≤ count + 1
      rw [hNext]
      exact (Nat.mod_le _ _).trans (Nat.succ_le_succ hLe)
    | _ => exact ⟨hClose, .inl rfl⟩
  | offer _ hNow | answer _ hNow =>
    exact ⟨lease, history, hHeld, .refl _ _, hInv.later hNow (le_refl _), hClose, .inl rfl⟩
  | _ => exact ⟨lease, history, hHeld, .refl _ _, hInv, hClose, .inl rfl⟩

omit hServe in
theorem told_tell {started : Instant} (a : Attempt) (handler : Handler) (type : MessageType)
    (hInv : lease.Inv lifetime first security history) (hLifetime : lifetime ≤ 10 * Duration.minute)
    (hCurrent : lease.Genuine history current) (hStarted : started ≤ first + skew) :
    Told history lease skew started (a.tell handler type current securityDeadline first second).late
      ⟨type, current, remainingTime current securityDeadline first second⟩ := by
  have hExpires : current.expiresAt ≤ first + 10 * Duration.minute :=
    (hInv.expiresAt_le hCurrent).trans (hInv.lifetime.trans (Int.add_le_add_left hLifetime first))
  constructor
  · exact hCurrent
  · exact remainingTime_le hExpires (by decide)
  · intro hPos
    have hBound := remainingTime_pos hPos
    grind
  · intro hExpired
    simp only [Attempt.tell, Bool.or_eq_true, decide_eq_true_eq]
    exact .inr (remainingTime_nonpos hExpired)

omit hServe in
/-- The request of the live exchange is granted, or there is nothing to grant; it is never a replay before
the counter ends. -/
theorem Lease.Renewal.answers {bound : Instant} {result : Except Code LeaseReceipt}
    (h : lease.Renewal lifetime security bound known.next lease' result)
    (hInv : lease.Inv lifetime now security history) (hInv' : lease'.Inv lifetime now' security history')
    (hKnown : lease.Genuine history known) (hClose : lease.renewal ≤ known.sequence + 1) :
    (∃ accepted, result = .ok accepted ∧ Answers known .accepted accepted ∧ lease'.Genuine history' accepted) ∨
      result = .error "renewal_limited" ∨
      ∃ code, result = .error code ∧ code ≠ "renewal_limited" ∧
        (code = "renewal_replayed" → lease'.renewal = 2 ^ 64 - 1) := by
  have hBehind := hKnown.sequence
  cases h with
  | refused hCode hLimited => exact .inr (.inr ⟨_, rfl, hLimited, fun h => absurd h hCode⟩)
  | limited _ => exact .inr (.inl rfl)
  | repeated hSequence hRenewed =>
    obtain ⟨hLast, -⟩ := hInv.last hRenewed
    refine .inl ⟨_, rfl, .inl ⟨rfl, ?_⟩, ?_⟩
    · rw [hLast]
      exact ⟨hSequence.symm, hBehind⟩
    · rw [hLast]
      exact hInv'.genuine_receipt
  | extended hSequence _ _ _ _ _ =>
    refine .inl ⟨_, rfl, .inl ⟨rfl, rfl, ?_⟩, hInv'.genuine_receipt⟩
    change known.sequence ≤ known.next.sequence
    omega
  | replayed hNot hBad =>
    refine .inr (.inr ⟨_, rfl, by decide, fun _ => ?_⟩)
    by_contra hCounter
    have hMax := hInv.counter
    have hNext : known.next.sequence = known.sequence + 1 := Nat.mod_eq_of_lt (by omega)
    rcases hBehind.lt_or_eq with hLt | hEq
    · -- the renewal was carried out by an abandoned handler, from the same request
      have hRenewal : lease.renewal = known.sequence + 1 := by omega
      have hRenewed : lease.renewal ≠ 0 := by omega
      refine hNot ⟨hNext.trans hRenewal.symm, hRenewed, ?_⟩
      rw [(hInv.last hRenewed).2, hRenewal]
      exact hKnown.expiresAt
    · rcases hBad with hBad | hBad | hBad
      · exact hCounter hBad
      · exact hBad (by omega)
      · refine hBad (hKnown.expiresAt.trans ?_)
        rw [hEq]
        exact hInv.newest

theorem Talk.serve {phase : Phase} (h : Talk history lease skew known a.late phase a.handler a.toServer a.toClient)
    (hHeld : b.lease r = some lease) (hHeld' : b'.lease r = some lease')
    (hLifetime : b.limits.lifetime = lifetime) (hShort : lifetime ≤ 10 * Duration.minute)
    (hInv : lease.Inv lifetime now security history) (hInv' : lease'.Inv lifetime now' security history')
    (hGrows : Lease.Grows history lease history' lease') (hBegan : phase.Began (now + skew))
    (hKnown : ∀ started request offer, phase = .waitAnswer started request offer → lease.Genuine history known)
    (hBehind : known.sequence ≤ lease.renewal) (hClose : lease.renewal ≤ known.sequence + 1) :
    Talk history' lease' skew known a'.late phase a'.handler a'.toServer a'.toClient := by
  obtain ⟨handler, sent, received, late⟩ := a
  cases hServe with
  | snapshot ctxEnded who hHandler =>
    cases hHandler
    refine Talk.grows hGrows ?_ hInv'.counter
    cases h with
    | opened =>
      cases hResult : b.snapshot r ctxEnded who security now with
      | ok current =>
        rw [Broker.snapshot_ok hHeld hResult]
        exact .offering hInv.genuine_receipt hBehind
      | error code => exact .denying fun hCode => absurd hCode (Broker.snapshot_error hResult)
    | told | applying | stalled => grind
  | offer hHandler hNow =>
    cases hHandler
    refine Talk.grows hGrows ?_ hInv'.counter
    cases h with
    | offering hCurrent hAhead => exact .told rfl (.inl ⟨rfl, hAhead, told_tell _ _ _ hInv hShort hCurrent hBegan⟩)
    | told | applying | stalled => grind
  | renewRequest hHandler hSent hType =>
    cases hHandler
    cases hSent
    refine Talk.grows hGrows ?_ hInv'.counter
    cases h with
    | requested => exact .renewing
    | applying _ => cases hType
  | applyRequest hHandler hSent =>
    rename_i current message rest
    cases hSent
    refine Talk.grows hGrows ?_ hInv'.counter
    cases h with
    | requested =>
      rcases hHandler with ⟨-, hType⟩ | hHandler
      · exact absurd rfl hType
      · cases hHandler
    | applying hAccepted =>
      rename_i accepted _
      have hCurrent : current = accepted :=
        Handler.current_unique (hHandler.imp_left And.left) hAccepted
      subst hCurrent
      simp only [Handler.afterRequest, ne_eq, not_true_eq_false, or_self, if_false]
      exact .applied
    | exited _ _ =>
      rcases hHandler with ⟨hHandler, -⟩ | hHandler
      · cases hHandler
      · cases hHandler
  | renew ctxEnded who hHandler hNow hBound =>
    rename_i bound request current
    cases hHandler
    obtain ⟨found, hFound, hRenewal⟩ :=
      Broker.renewal_of_renew hHeld ctxEnded who request security now bound now'
    obtain rfl : found = lease' := Option.some.inj (hFound.symm.trans hHeld')
    rw [hLifetime] at hRenewal
    cases h with
    | renewing =>
      have hGenuine := hKnown _ _ _ rfl
      rcases hRenewal.answers hInv hInv' hGenuine hClose with
        ⟨accepted, hResult, hAnswers, hAccepted⟩ | hResult | ⟨code, hResult, hLimited, hReplayed⟩
      · rw [hResult]
        exact .answering hAnswers hAccepted
      · rw [hResult]
        exact .answering (.inr ⟨rfl, rfl⟩) (hGenuine.grows hGrows)
      · rw [hResult]
        simp only [Handler.afterRenewal, hLimited, if_false]
        exact .denying hReplayed
    | told | applying | stalled => grind
  | answer hHandler hNow =>
    cases hHandler
    refine Talk.grows hGrows ?_ hInv'.counter
    cases h with
    | answering hAnswers hCurrent =>
      refine .told ?_ (.inl ⟨hAnswers, told_tell _ _ _ hInv hShort hCurrent hBegan⟩)
      rcases hAnswers with ⟨rfl, -⟩ | ⟨rfl, -⟩
      · rfl
      · rfl
    | told | applying | stalled => grind
  | confirm ctxEnded who hHandler =>
    cases hHandler
    refine Talk.grows hGrows ?_ hInv'.counter
    cases h with
    | applied =>
      cases hResult : b.snapshot r ctxEnded who security now with
      | ok found =>
        exact .told rfl (.inl ⟨rfl, or_iff_not_imp_left.mpr
          fun hOther => by simp [Attempt.confirm, hOther]⟩)
      | error code => exact .denying fun hCode => absurd hCode (Broker.snapshot_error hResult)
    | told | applying | stalled => grind
  | deny hHandler =>
    cases hHandler
    refine Talk.grows hGrows ?_ hInv'.counter
    cases h with
    | denying _ => exact .told rfl (.inr rfl)
    | told | applying | stalled => grind
  | exit =>
    refine Talk.grows hGrows ?_ hInv'.counter
    cases h with
    | told _ hExpected =>
      refine .exited (le_refl 1) fun message hMem => ?_
      obtain rfl := List.mem_singleton.mp hMem
      exact hExpected
    | exited hLength hExpected => exact .exited hLength hExpected
    | _ => exact .exited (Nat.zero_le 1) nofun

end

end Serve

/-! ## Steps of the client -/

section Receive

variable {history : Nat → Instant} {lease : Lease} {skew lifetime : Duration} {now security : Instant} {c c' : Client}
  {late : Bool} {message : LeaseMessage} {sent : List LeaseMessage}

structure Client.Moves (history : Nat → Instant) (lease : Lease) (skew : Duration) (now : Instant) (late : Bool)
    (message : LeaseMessage) (c c' : Client) (sent : List LeaseMessage) : Prop where
  inv : c'.Inv history lease skew
  waits : c'.Waits history lease skew now
  known : c.known.sequence ≤ c'.known.sequence
  failure : c'.failure = some "renewal_protocol" → c.failure = some "renewal_protocol" ∨ late = true
  asked : ∀ other ∈ sent, other.type = .renew → Asked history lease c'.known.sequence other.lease
  talk : c'.phase ≠ .idle → ∀ handler : Handler, handler.Sent message →
    Talk history lease skew c'.known late c'.phase handler sent []

section

variable (h : c.Inv history lease skew)
include h

theorem Client.moves_fail {code : Code} (hCode : code = "renewal_protocol" → late = true) :
    c.Moves history lease skew now late message (c.fail code) [] where
  inv := { h with }
  waits := trivial
  known := le_refl _
  failure := by
    rintro ⟨⟩
    exact .inr (hCode rfl)
  asked := nofun
  talk hPhase := absurd rfl hPhase

variable {started : Instant}

section

variable (hInv : lease.Inv lifetime now security history)
include hInv

theorem Client.valid_of_told (hTold : Told history lease skew started late message)
    (hAhead : c.known.sequence ≤ message.lease.sequence) (hPos : 0 < message.remaining) :
    c.valid lease.id message = true := by
  have hExpires : c.known.expiresAt ≤ message.lease.expiresAt := by
    cases hDeadline : c.deadline with
    | none =>
      rw [h.fresh hDeadline, hTold.genuine.expiresAt]
      exact hInv.oldest.trans (hInv.history_mono (Nat.zero_le _) hTold.genuine.sequence)
    | some deadline => exact hInv.expiresAt_mono (h.known deadline hDeadline).1 hTold.genuine hAhead
  simp only [Client.valid, decide_eq_true_eq]
  exact ⟨hTold.genuine.setupID, hPos, hTold.small, hAhead, not_lt.mpr hExpires⟩

variable {accepted : LeaseReceipt} {deadline : Instant} {offer : LeaseMessage}

omit hInv in
theorem Client.inv_succeed (hAccepted : lease.Genuine history accepted) (hAhead : c.known.sequence ≤ accepted.sequence)
    (hDeadline : deadline ≤ accepted.expiresAt + skew) : (c.succeed accepted deadline).Inv history lease skew := by
  have hClose : lease.renewal ≤ accepted.sequence + 1 := h.close.trans (Nat.succ_le_succ hAhead)
  unfold Client.succeed
  split
  · exact ⟨nofun, by rintro _ ⟨⟩; exact ⟨hAccepted, hDeadline⟩, hAccepted.sequence, hClose⟩
  · rename_i old hOld
    obtain ⟨hKnown, hBound⟩ := h.known old hOld
    split
    · rename_i hNot
      refine { h with fresh := nofun, known := ?_ }
      rintro _ ⟨⟩
      refine ⟨hKnown, ?_⟩
      split
      · rename_i hLess
        exact (le_of_lt hLess).trans hBound
      · exact hBound
    · exact ⟨nofun, by rintro _ ⟨⟩; exact ⟨hAccepted, hDeadline⟩, hAccepted.sequence, hClose⟩

omit hInv in
omit h in
theorem Client.known_succeed (c : Client) (accepted : LeaseReceipt) (deadline : Instant)
    (hAhead : c.known.sequence ≤ accepted.sequence) :
    c.known.sequence ≤ (c.succeed accepted deadline).known.sequence ∧ (c.succeed accepted deadline).phase = .idle ∧
      (c.succeed accepted deadline).failure = c.failure := by
  unfold Client.succeed
  split
  · exact ⟨hAhead, rfl, rfl⟩
  · split
    · exact ⟨le_refl _, rfl, rfl⟩
    · exact ⟨hAhead, rfl, rfl⟩

omit hInv in
theorem Client.moves_apply (hAccepted : lease.Genuine history accepted) (hAhead : c.known.sequence ≤ accepted.sequence)
    (hDeadline : deadline ≤ accepted.expiresAt + skew)
    (hSent : ∀ handler : Handler, handler.Sent message → handler = .offered accepted ∨ handler = .answered accepted) :
    c.Moves history lease skew now late message { c with phase := .waitConfirm accepted deadline }
      [{ type := .applied, lease := accepted }] where
  inv := { h with }
  waits := ⟨hAccepted, hAhead, hDeadline⟩
  known := le_refl _
  failure hFailed := .inl hFailed
  asked other hMem hType := by
    obtain rfl := List.mem_singleton.mp hMem
    cases hType
  talk _ handler hHandler := .applying (hSent handler hHandler)

omit h in
/-- An answer is still good with the remaining time of the offer, which stays when the new one is zero. -/
theorem told_decode
    (hTold : Told history lease skew started late message) {known : LeaseReceipt}
    (hKnown : lease.Genuine history known) (hAhead : known.sequence ≤ message.lease.sequence)
    (hSmall : offer.remaining ≤ 10 * Duration.minute) (hPos : 0 < offer.remaining)
    (hBound : started + offer.remaining ≤ known.expiresAt + skew) :
    Told history lease skew started late (offer.decode message) := by
  have hExpires := hInv.expiresAt_mono hKnown hTold.genuine hAhead
  by_cases hZero : message.remaining = 0
  · have hRemaining : (offer.decode message).remaining = offer.remaining := if_pos hZero
    constructor
    · exact hTold.genuine
    · rw [hRemaining]
      exact hSmall
    · intro _
      rw [hRemaining]
      exact hBound.trans (Int.add_le_add_right hExpires skew)
    · intro hExpired
      rw [hRemaining] at hExpired
      exact absurd hPos (not_lt.mpr hExpired)
  · rw [show offer.decode message = message by rw [LeaseMessage.decode, if_neg hZero]]
    exact hTold

omit hInv in
omit h in
theorem Answers.ahead {known current : LeaseReceipt} {type : MessageType} (h : Answers known type current) :
    known.sequence ≤ current.sequence := by
  rcases h with ⟨-, -, hAhead⟩ | ⟨-, rfl⟩
  · exact hAhead
  · exact le_refl _

section

variable (hWaits : c.Waits history lease skew now)
  (hExpected : Expected history lease skew c.known late message c.phase)
include hWaits hExpected

theorem Client.moves_offer {renew : Bool} (hPhase : c.phase = .waitOffer started renew) :
    c.Moves history lease skew now late message (c.receive lease.id message).1 (c.receive lease.id message).2 := by
  simp only [Client.Waits, hPhase] at hWaits
  rw [hPhase] at hExpected
  obtain ⟨hType, hAhead, hTold⟩ := hExpected
  have hSent : ∀ handler : Handler, handler.Sent message → handler = .offered message.lease := by
    intro handler hHandler
    simpa only [Handler.Sent, hType] using hHandler
  simp only [Client.receive, hPhase, hType, reduceCtorEq, if_false, ne_eq, not_true_eq_false, false_or]
  split_ifs with hInvalid hRenew
  · refine c.moves_fail h fun _ => hTold.expired (not_lt.mp fun hPos => ?_)
    rw [c.valid_of_told h hInv hTold hAhead hPos] at hInvalid
    cases hInvalid
  · obtain ⟨deadline, hDeadline⟩ := Option.isSome_iff_exists.mp (hWaits.2 hRenew.1)
    obtain ⟨hKnown, -⟩ := h.known deadline hDeadline
    have hSame : message.lease = c.known := hTold.genuine.eq_of_sequence hKnown hRenew.2
    have hPos : 0 < message.remaining := by
      simp only [Client.valid, decide_eq_true_eq, Bool.not_eq_false] at hInvalid
      exact hInvalid.2.1
    have hBound := hTold.bound hPos
    rw [hSame] at hBound
    constructor
    · exact { h with }
    · exact ⟨hWaits.1, hWaits.2 hRenew.1, by rw [hSame]; rfl, hSame, hPos, hTold.small, hBound⟩
    · exact le_refl _
    · exact Or.inl
    · intro other hMem _
      obtain rfl := List.mem_singleton.mp hMem
      exact ⟨c.known, hKnown, le_refl _, by rw [hSame]; rfl⟩
    · intro _ handler hHandler
      rw [hSent handler hHandler, hSame]
      exact .requested
  · have hPos : 0 < message.remaining := by
      simp only [Client.valid, decide_eq_true_eq, Bool.not_eq_false] at hInvalid
      exact hInvalid.2.1
    exact c.moves_apply h hTold.genuine hAhead (hTold.bound hPos)
      fun handler hHandler => .inl (hSent handler hHandler)

theorem Client.moves_answer {request : LeaseReceipt}
    (hPhase : c.phase = .waitAnswer started request offer) :
    c.Moves history lease skew now late message (c.receive lease.id message).1 (c.receive lease.id message).2 := by
  simp only [Client.Waits, hPhase] at hWaits
  rw [hPhase] at hExpected
  obtain ⟨hStarted, hDeadline, hRequest, -, hPos, hSmall, hBound⟩ := hWaits
  obtain ⟨hAnswers, hMessage⟩ := hExpected
  obtain ⟨deadline, hDeadline⟩ := Option.isSome_iff_exists.mp hDeadline
  have hTold := told_decode hInv hMessage (h.known deadline hDeadline).1 hAnswers.ahead hSmall hPos hBound
  have hSent : ∀ handler : Handler, handler.Sent message → handler = .answered message.lease := by
    intro handler hHandler
    rcases hAnswers with ⟨hType, -⟩ | ⟨hType, -⟩ <;> simpa only [Handler.Sent, hType] using hHandler
  have hNotDenied : (offer.decode message).type ≠ .denied := by
    change message.type ≠ .denied
    rcases hAnswers with ⟨hType, -⟩ | ⟨hType, -⟩ <;> simp [hType]
  have hFits : message.type = .accepted ∧ message.lease.sequence = request.sequence ∨
      message.type = .limited ∧ message.lease.sequence = c.known.sequence ∧
        message.lease.expiresAt = c.known.expiresAt := by
    rcases hAnswers with ⟨hType, hSequence, -⟩ | ⟨hType, hSame⟩
    · exact .inl ⟨hType, hSequence.trans (by rw [hRequest])⟩
    · exact .inr ⟨hType, by rw [hSame], by rw [hSame]⟩
  simp only [Client.receive, hPhase]
  rw [if_neg hNotDenied]
  split_ifs with hBad
  · have hInvalid : c.valid lease.id (offer.decode message) = false := hBad.resolve_right (not_not.mpr hFits)
    refine c.moves_fail h fun _ => hTold.expired (not_lt.mp fun hRemaining => ?_)
    rw [c.valid_of_told h hInv hTold hAnswers.ahead hRemaining] at hInvalid
    cases hInvalid
  · have hRemaining : 0 < (offer.decode message).remaining := by
      simp only [not_or, Client.valid, decide_eq_false_iff_not, not_not] at hBad
      exact hBad.1.2.1
    exact c.moves_apply h hMessage.genuine hAnswers.ahead (hTold.bound hRemaining)
      fun handler hHandler => .inr (hSent handler hHandler)

omit hInv in
theorem Client.moves_confirm (hPhase : c.phase = .waitConfirm accepted deadline) :
    c.Moves history lease skew now late message (c.receive lease.id message).1 (c.receive lease.id message).2 := by
  simp only [Client.Waits, hPhase] at hWaits
  rw [hPhase] at hExpected
  obtain ⟨hType, hLease⟩ := hExpected
  obtain ⟨hAccepted, hAhead, hDeadline⟩ := hWaits
  obtain ⟨hKnown, hIdle, hSame⟩ := c.known_succeed accepted deadline hAhead
  simp only [Client.receive, hPhase, hType, ne_eq, not_true_eq_false, false_or, reduceCtorEq, if_false]
  split_ifs with hOther
  rotate_left
  · exact c.moves_fail h fun _ => hLease.resolve_left hOther
  constructor
  · exact c.inv_succeed h hAccepted hAhead hDeadline
  · simp only [Client.Waits, hIdle]
  · exact hKnown
  · intro hFailed
    rw [hSame] at hFailed
    exact .inl hFailed
  · intro other hMem hRenew
    obtain rfl := List.mem_singleton.mp hMem
    cases hRenew
  · exact fun hNot => absurd hIdle hNot

end

omit hInv in
theorem Client.moves_denied (hPhase : c.phase ≠ .idle) (hType : message.type = .denied) (setupID : SetupId) :
    c.Moves history lease skew now late message (c.receive setupID message).1 (c.receive setupID message).2 := by
  have hFail : c.receive setupID message = (c.fail "unauthorized", []) := by
    unfold Client.receive
    split
    · contradiction
    · rw [if_pos hType]
    · exact if_pos hType
    · rw [if_pos (.inl (by rw [hType]; decide)), if_pos hType]
  rw [hFail]
  exact c.moves_fail h fun hCode => absurd hCode (by decide)

theorem Client.moves_receive
    (hPhase : c.phase ≠ .idle) (hWaits : c.Waits history lease skew now)
    (hExpected : Expected history lease skew c.known late message c.phase ∨ message.type = .denied) :
    c.Moves history lease skew now late message (c.receive lease.id message).1 (c.receive lease.id message).2 := by
  rcases hExpected with hExpected | hDenied
  · cases hCase : c.phase with
    | idle => exact absurd hCase hPhase
    | waitOffer started renew => exact c.moves_offer h hInv hWaits hExpected hCase
    | waitAnswer started request offer => exact c.moves_answer h hInv hWaits hExpected hCase
    | waitConfirm accepted deadline => exact c.moves_confirm h hWaits hExpected hCase
  · exact c.moves_denied h hPhase hDenied lease.id

end

end

end Receive

end FamilyConnect.RoomBroker
