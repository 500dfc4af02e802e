import FamilyConnect.RoomBroker.LeaseSafety

/-!
# Exchanges in which nothing told is over

A handler reads the lease and the security deadline first and uses them later.
If what it read is over by then, because it was held up or because the handler
of an abandoned attempt has extended the lease in between, the client closes the
session. In all other runs the exchange is safe.
-/

namespace FamilyConnect.RoomBroker

open Lib Relation

variable {limits : Limits} {setupID : SetupId} {r : Nat} {skew : Duration} {w w' : World} {lease lease' : Lease}

/-- For the handler of the live exchange: no deadline it has read has passed when it computes a remaining time, the
lease is the one the client has applied when it is confirmed, and the counter has not come to its end at a renewal that
is not repeated. -/
def Attempt.timely (lease : Lease) (now now' : Instant) (a : Attempt) (next : Handler) : Bool :=
  match a.handler, next with
  | .offering current securityDeadline, .offered _ | .answering _ current securityDeadline, .answered _ =>
    now < current.expiresAt ∧ now' < securityDeadline
  | .renewing request _, next => next = a.handler ∨ lease.renewal ≠ 2 ^ 64 - 1 ∨
      request.sequence = lease.renewal ∧ request.expiresAt = lease.lastRequest.expiresAt
  | .applied current, .closing => lease.receipt = current
  | _, _ => true

def World.Timely (r : Nat) (w w' : World) : Prop :=
  w.client.phase ≠ .idle → ∀ lease ∈ w.broker.lease r,
    (w.attempts w.count).timely lease w.now w'.now (w'.attempts w.count).handler = true

/-- Runs whose steps all meet a condition. The deadline that `Challenge` sets is not bounded by the security
deadline, so they begin with one that is. -/
def leaseRuns (limits : Limits) (setupID : SetupId) (r : Nat) (skew : Duration) (condition : World → World → Prop) :
    System World where
  initial w := (leaseSystem limits setupID r skew).initial w ∧ ∀ lease ∈ w.broker.lease r, lease.deadline ≤ w.security
  step w w' := World.Step setupID r skew w w' ∧ condition w w'

abbrev timelySystem (limits : Limits) (setupID : SetupId) (r : Nat) (skew : Duration) : System World :=
  leaseRuns limits setupID r skew (World.Timely r)

theorem reachable_of_timely (h : (timelySystem limits setupID r skew).Reachable w) :
    (leaseSystem limits setupID r skew).Reachable w := by
  induction h with
  | start h => exact .start h.1
  | next _ hStep ih => exact ih.next hStep.1

section Serve

variable {security now now' : Instant} {b b' : Broker} {a a' : Attempt}

theorem Serve.late_timely (h : Serve r security b now a b' now' a') (hHeld : b.lease r = some lease)
    (hTimely : a.timely lease now now' a'.handler = true) : a'.late = a.late := by
  cases h with
  | offer hHandler _ | answer hHandler _ =>
    simp only [Attempt.timely, hHandler, Attempt.tell, Attempt.send, decide_eq_true_eq] at hTimely
    simp [Attempt.tell, hTimely.1, hTimely.2]
  | confirm ctxEnded who hHandler =>
    cases hFound : b.snapshot r ctxEnded who security now with
    | error code => rfl
    | ok found =>
      rw [hFound] at hTimely
      simp only [Attempt.timely, hHandler, Attempt.confirm, Attempt.send, decide_eq_true_eq] at hTimely
      simp [Attempt.confirm, Broker.snapshot_ok hHeld hFound, hTimely]
  | _ => rfl

theorem Serve.replayed_timely (h : Serve r security b now a b' now' a') (hHeld : b.lease r = some lease)
    (hHeld' : b'.lease r = some lease') (hTimely : a.timely lease now now' a'.handler = true)
    (hNew : a'.handler = .denying "renewal_replayed") :
    lease'.renewal ≠ 2 ^ 64 - 1 := by
  cases h with
  | snapshot ctxEnded who _ =>
    cases hFound : b.snapshot r ctxEnded who security now with
    | ok found => simp [hFound, Handler.afterSnapshot] at hNew
    | error code => exact absurd (by simpa [hFound, Handler.afterSnapshot] using hNew) (Broker.snapshot_error hFound)
  | confirm ctxEnded who _ =>
    cases hFound : b.snapshot r ctxEnded who security now with
    | ok found => simp [hFound, Attempt.confirm, Attempt.send] at hNew
    | error code => exact absurd (by simpa [hFound, Attempt.confirm] using hNew) (Broker.snapshot_error hFound)
  | renew ctxEnded who hHandler hNow hBound =>
    rename_i bound request current
    obtain ⟨found, hFound, hRenewal⟩ := Broker.renewal_of_renew hHeld ctxEnded who request security now bound now'
    obtain rfl : found = lease' := Option.some.inj (hFound.symm.trans hHeld')
    dsimp only at hNew
    simp only [hNew, Attempt.timely, hHandler, decide_eq_true_eq, reduceCtorEq, false_or] at hTimely
    generalize (b.renew r ctxEnded request who security now bound now').2 = result at hRenewal hNew
    cases hRenewal with
    | refused hCode _ =>
      simp only [Handler.afterRenewal] at hNew
      split at hNew <;> cases hNew
      exact absurd rfl hCode
    | replayed hRepeat _ =>
      rcases hTimely with hCounter | ⟨hSame, hExpiry⟩
      · exact hCounter
      · intro hEnd
        exact hRepeat ⟨hSame, by rw [hEnd]; decide, hExpiry⟩
    | limited | repeated | extended => cases hNew
  | applyRequest _ _ =>
    dsimp only [Handler.afterRequest] at hNew
    split at hNew <;> cases hNew
  | offer | renewRequest | answer | deny | exit => cases hNew

end Serve

/-! ## Runs -/

/-- What holds in a timely run beside the invariant of all runs. -/
structure World.OnTime (r : Nat) (w : World) : Prop where
  security : ∀ lease ∈ w.broker.lease r, lease.deadline ≤ w.security
  late : w.client.phase ≠ .idle → (w.attempts w.count).late = false
  replayed : w.client.phase ≠ .idle → (w.attempts w.count).handler ≠ .denying "renewal_replayed"
  protocol : w.client.failure ≠ some "renewal_protocol"

namespace World

variable {history history' : Nat → Instant}

theorem OnTime.put {i : Nat} {a : Attempt} (h : w.OnTime r)
    (hLate : i = w.count → w.client.phase ≠ .idle → a.late = false)
    (hReplayed : i = w.count → w.client.phase ≠ .idle → a.handler ≠ .denying "renewal_replayed") :
    (w.put i a).OnTime r := by
  by_cases hi : w.count = i
  · subst hi
    exact ⟨h.security, fun hPhase => by simpa using hLate rfl hPhase, fun hPhase => by simpa using hReplayed rfl hPhase,
      h.protocol⟩
  · refine ⟨h.security, fun hPhase => ?_, fun hPhase => ?_, h.protocol⟩
    · change ((w.put i a).attempts w.count).late = false
      rw [put_other w a hi]
      exact h.late hPhase
    · change ((w.put i a).attempts w.count).handler ≠ _
      rw [put_other w a hi]
      exact h.replayed hPhase

theorem OnTime.step (h : w.OnTime r) (hInv : w.Inv limits setupID r skew history lease)
    (hNext : w'.Inv limits setupID r skew history' lease')
    (hAdvances : lease.Advances limits.lifetime w'.now w'.security lease')
    (hStep : Step setupID r skew w w') (hTimely : w.Timely r w') : w'.OnTime r := by
  have hSecurity : w.security ≤ w'.security → ∀ other ∈ w'.broker.lease r, other.deadline ≤ w'.security := by
    intro hLater other hOther
    obtain rfl : lease' = other := Option.some.inj (hNext.held.symm.trans hOther)
    rcases hAdvances with rfl | ⟨-, -, -, hBound⟩
    · exact (h.security lease' hInv.held).trans hLater
    · exact hBound
  cases hStep with
  | tick | broker => exact ⟨hSecurity (le_refl _), h.late, h.replayed, h.protocol⟩
  | secure hLater => exact ⟨hSecurity hLater, h.late, h.replayed, h.protocol⟩
  | start renew _ _ _ => exact ⟨h.security, fun _ => by simp, fun _ => by simp, h.protocol⟩
  | abort => exact ⟨h.security, fun hIdle => absurd rfl hIdle, fun hIdle => absurd rfl hIdle, h.protocol⟩
  | receive hPhase hReceived =>
    have hLate := h.late hPhase
    refine ⟨h.security, fun _ => by simpa using hLate, fun _ => by simpa using h.replayed hPhase, fun hFailed => ?_⟩
    simpa [hLate] using hNext.failure hFailed
  | lostRequest _ | lostReply _ =>
    exact h.put (fun hLive => by subst hLive; exact h.late) fun hLive => by subst hLive; exact h.replayed
  | serve hPos hLe hServe =>
    rename_i i b now a
    have hPut : (w.put i a).OnTime r := by
      refine h.put ?_ ?_
      · rintro rfl hPhase
        have hTime := hTimely hPhase lease hInv.held
        simp only [put_same] at hTime
        exact (hServe.late_timely hInv.held hTime).trans (h.late hPhase)
      · rintro rfl hPhase hDenied
        have hTime := hTimely hPhase lease hInv.held
        simp only [put_same] at hTime
        refine hServe.replayed_timely hInv.held hNext.held hTime hDenied ?_
        exact (hNext.live hPhase).2.replayed (by simpa using hDenied)
    exact ⟨hSecurity (le_refl _), hPut.late, hPut.replayed, hPut.protocol⟩

theorem onTime_of_timely (hShort : limits.lifetime ≤ 10 * Duration.minute)
    (h : (timelySystem limits setupID r skew).Reachable w) : w.OnTime r := by
  refine System.Reachable.invariant (fun w hStart => ?_) (fun w w' hReach hTime hStep => ?_) h
  · obtain ⟨⟨-, -, -, -, -, -, -, hClient, -⟩, hSecurity⟩ := hStart
    exact ⟨hSecurity, by simp [hClient], by simp [hClient], by simp [hClient]⟩
  · obtain ⟨history, lease, hInv⟩ := world_inv hShort (reachable_of_timely hReach)
    obtain ⟨history', lease', hNext, hAdvances⟩ := hInv.step hShort hStep.1
    exact hTime.step hInv hNext hAdvances hStep.1 hStep.2

end World

def phone : Identity := ⟨"00112233445566778899aabbccddeeff", "ffeeddccbbaa99887766554433221100", [1]⟩

/-- The broker after `Challenge`, and after `Create`, `Claim` and the start of the session. -/
def challengedBroker : Broker := (Broker.challenge { limits := defaultLimits } (some phone) "nonce" 0).1

def activeSetup : Setup :=
  { id := "nonce", identity := phone, state := .active, deadline := Duration.minute, started := true, claimed := true
    leaseUntil := 10 * Duration.minute, creator := .running, claims := 1, gatewayOpened := 1
    events := [.creating, .created, .gatewayJoining, .ready, .clientIssued, .active].map (·, "") }

def activeBroker : Broker := { challengedBroker with heap := [activeSetup], workers := 2 }

def Broker.Quiet (r : Nat) (b b' : Broker) : Prop := Broker.Step b b' ∧ b'.lease r = b.lease r

theorem quiet_active : ReflTransGen (Broker.Quiet 0) challengedBroker activeBroker := by
  have hCreate : Broker.Quiet 0 challengedBroker _ := ⟨.create false "nonce" (some phone) 0, rfl⟩
  have hRoom := (ReflTransGen.single hCreate).tail
    ⟨.setup (r := 0) rfl (.providerRoom ⟨"room", "url"⟩ rfl (by decide)), rfl⟩
  have hCreated := hRoom.tail ⟨.setup (r := 0) rfl (.enterCreated rfl), rfl⟩
  have hJoining := hCreated.tail ⟨.setup (r := 0) rfl (.enterJoining rfl), rfl⟩
  have hStarted := hJoining.tail ⟨.setup (r := 0) rfl (.startOk rfl), rfl⟩
  have hChecked := hStarted.tail ⟨.setup (r := 0) rfl (.checkOk (some phone) rfl rfl rfl), rfl⟩
  have hIssued := hChecked.tail ⟨.setup (r := 0) rfl (.issue 0 rfl), rfl⟩
  have hClaimed := hIssued.tail ⟨.claim false "nonce" (some phone) 0, rfl⟩
  exact hClaimed.tail ⟨.setup (r := 0) rfl (.activate (some phone) 0 rfl), rfl⟩

/-- The next step of a handler, if it does not wait; all clocks are read at once. -/
def Attempt.act (r : Nat) (security now : Instant) (b : Broker) (a : Attempt) : Option (Broker × Attempt) :=
  match a.handler, a.toServer with
  | .opened, _ => some (b, { a with handler := .afterSnapshot security (b.snapshot r false (some phone) security now) })
  | .offering current deadline, _ => some (b, a.tell (.offered current) .offer current deadline now now)
  | .offered current, message :: rest =>
    if message.type = .renew then some (b, { a with handler := .renewing message.lease current, toServer := rest })
    else some (b, { a with handler := .afterRequest current message, toServer := rest })
  | .renewing request current, _ =>
    let result := b.renew r false request (some phone) security now now now
    some (result.1, { a with handler := .afterRenewal current security result.2 })
  | .answering type current deadline, _ => some (b, a.tell (.answered current) type current deadline now now)
  | .answered current, message :: rest =>
    some (b, { a with handler := .afterRequest current message, toServer := rest })
  | .applied current, _ => some (b, a.confirm current (b.snapshot r false (some phone) security now))
  | _, _ => none

theorem Attempt.act_serve {security now : Instant} {b b' : Broker} {a a' : Attempt}
    (h : a.act r security now b = some (b', a')) : Serve r security b now a b' now a' := by
  obtain ⟨handler, toServer, toClient, late⟩ := a
  unfold act at h
  dsimp only at h
  split at h
  · cases h
    exact .snapshot false (some phone) rfl
  · cases h
    exact .offer rfl (le_refl _)
  · split at h
    · rename_i hType
      cases h
      exact .renewRequest rfl rfl hType
    · rename_i hType
      cases h
      exact .applyRequest (.inl ⟨rfl, hType⟩) rfl
  · cases h
    exact .renew false (some phone) rfl (le_refl _) (le_refl _)
  · cases h
    exact .answer rfl (le_refl _)
  · cases h
    exact .applyRequest (.inr rfl) rfl
  · cases h
    exact .confirm false (some phone) rfl
  · cases h

inductive Move where
  | tick (t : Instant)
  | secure (deadline : Instant)
  | start (renew : Bool)
  | abort
  | receive
  | serve (i : Nat)

def World.move (w : World) : Move → Option World
  | .tick t => if w.now ≤ t then some { w with now := t } else none
  | .secure deadline => if w.security ≤ deadline then some { w with security := deadline } else none
  | .start renew =>
    if w.client.phase = .idle ∧ w.client.failure = none ∧ (renew = true → w.client.deadline.isSome = true) then
      some
        { w.put (w.count + 1) {} with
          client := { w.client with phase := .waitOffer (w.now + 0) renew }
          count := w.count + 1 }
    else none
  | .abort => some { w with client := { w.client with phase := .idle } }
  | .receive =>
    match (w.attempts w.count).toClient with
    | [] => none
    | message :: rest =>
      if w.client.phase = .idle then none
      else
        some
          { w.put w.count
              { w.attempts w.count with
                toClient := rest
                toServer := (w.attempts w.count).toServer ++ (w.client.receive "nonce" message).2 } with
            client := (w.client.receive "nonce" message).1 }
  | .serve i =>
    if 0 < i ∧ i ≤ w.count then
      ((w.attempts i).act 0 w.security w.now w.broker).map fun (b, a) => { w.put i a with broker := b }
    else none

theorem World.move_step {m : Move} (h : w.move m = some w') : World.Step "nonce" 0 0 w w' := by
  cases m with
  | tick t =>
    obtain ⟨hLater, ⟨⟩⟩ := Option.ite_none_right_eq_some.mp h
    exact .tick hLater
  | secure deadline =>
    obtain ⟨hLater, ⟨⟩⟩ := Option.ite_none_right_eq_some.mp h
    exact .secure hLater
  | start renew =>
    obtain ⟨hStart, ⟨⟩⟩ := Option.ite_none_right_eq_some.mp h
    exact .start renew hStart.1 hStart.2.1 hStart.2.2
  | abort =>
    cases h
    exact .abort
  | receive =>
    unfold move at h
    dsimp only at h
    split at h
    · cases h
    · rename_i hReceived
      obtain ⟨hPhase, ⟨⟩⟩ := Option.ite_none_left_eq_some.mp h
      exact .receive hPhase hReceived
  | serve i =>
    obtain ⟨hLive, hActed⟩ := Option.ite_none_right_eq_some.mp h
    obtain ⟨⟨b, a⟩, hAct, ⟨⟩⟩ := Option.map_eq_some_iff.mp hActed
    exact .serve hLive.1 hLive.2 (Attempt.act_serve hAct)

section Play

variable {condition : World → World → Prop} {security : Instant}

def World.begin (b : Broker) (security : Instant) : World := { broker := b, now := 0, security := security }

theorem reachable_begin (hSecurity : 10 * Duration.minute ≤ security)
    (h : ∀ b b' : Broker, b'.lease 0 = challengedBroker.lease 0 → condition (.begin b security) (.begin b' security)) :
    (leaseRuns defaultLimits "nonce" 0 0 condition).Reachable (.begin activeBroker security) := by
  have hNew : (brokerSystem defaultLimits).Reachable { limits := defaultLimits } := .start new_defaultLimits
  have hFresh : ∀ o ∈ ({ limits := defaultLimits } : Broker).heap, o.id ≠ "nonce" := by
    intro o ho
    cases ho
  have hChallenge : Broker.challenge { limits := defaultLimits } (some phone) "nonce" 0 =
      (challengedBroker, .ok "nonce") := rfl
  have hStart : (leaseRuns defaultLimits "nonce" 0 0 condition).Reachable (.begin challengedBroker security) := by
    refine .start ⟨⟨_, some phone, hNew, hFresh, rfl, hChallenge, le_refl _, rfl, rfl⟩, ?_⟩
    rintro _ ⟨⟩
    exact hSecurity
  suffices hQuiet : ∀ b, ReflTransGen (Broker.Quiet 0) challengedBroker b → b.lease 0 = challengedBroker.lease 0 ∧
      (leaseRuns defaultLimits "nonce" 0 0 condition).Reachable (.begin b security) from (hQuiet _ quiet_active).2
  intro b hQuiet
  induction hQuiet with
  | refl => exact ⟨rfl, hStart⟩
  | @tail b b' _ hStep ih =>
    have hSame := hStep.2.trans ih.1
    exact ⟨hSame, ih.2.next ⟨.broker hStep.1 hStep.2, h b b' hSame⟩⟩

variable (condition) [DecidableRel condition]

def World.plays (w : World) (moves : List Move) : Option World :=
  moves.foldlM (fun w m => (w.move m).filter (condition w ·)) w

variable {condition}

theorem reachable_plays {moves : List Move} (h : (leaseRuns defaultLimits "nonce" 0 0 condition).Reachable w)
    (hPlay : w.plays condition moves = some w') : (leaseRuns defaultLimits "nonce" 0 0 condition).Reachable w' := by
  refine h.play (fun w m t hNext => ?_) hPlay
  obtain ⟨hMove, hCondition⟩ := Option.filter_eq_some_iff.mp hNext
  exact ⟨World.move_step hMove, of_decide_eq_true hCondition⟩

end Play

instance (r : Nat) : DecidableRel (World.Timely r) := fun _ _ => inferInstanceAs (Decidable (_ → _))

def renewedMoves : List Move :=
  [.start false, .serve 1, .serve 1, .receive, .serve 1, .serve 1, .receive, .tick 5, .secure (20 * Duration.minute),
    .start true, .serve 2, .serve 2, .receive, .serve 2, .serve 2, .serve 2, .receive, .serve 2, .serve 2, .receive]

def World.Unexpired (_ w : World) : Prop := w.now < w.security ∧ ∀ lease ∈ w.broker.lease 0, w.now < lease.deadline

instance : DecidableRel World.Unexpired := fun _ _ => inferInstanceAs (Decidable (_ ∧ _))

def overtakenMoves : List Move :=
  [.start false, .serve 1, .serve 1, .receive, .serve 1, .serve 1, .receive,
    .start true, .serve 2, .serve 2, .receive, .serve 2, .abort,
    .start true, .serve 3, .serve 3, .receive, .serve 3, .serve 3, .serve 3, .receive, .serve 3,
    .tick 5, .secure (20 * Duration.minute), .serve 2, .serve 3, .receive]

end FamilyConnect.RoomBroker
