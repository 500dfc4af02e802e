import FamilyConnect.Friends.PaidBeta
import FamilyConnect.Lib.Transition

/-!
# The ledger of paid subscriptions

Every row of `paid_beta_subscriptions` is what the events of its device make of
it, so the properties of rows are properties of the last event.
-/

namespace FamilyConnect.Friends

open Lib Transaction

def EventType.target : EventType → PaidState
  | .payment => .active
  | .grace => .grace
  | .expire => .expired
  | .revoke => .revoked

def Event.fold (e : Event) (previous : Option Subscription) : Subscription :=
  { device := e.device, state := e.eventType.target, periodStart := e.periodStart
    paidUntil := e.paidUntil, graceUntil := e.graceUntil
    createdAt := (previous.map (·.createdAt)).getD e.appliedAt, updatedAt := e.appliedAt
    version := (previous.map (·.version)).getD 0 + 1
    lastEventId := e.eventId, revokedAt := if e.eventType = .revoke then some e.appliedAt else none }

def foldEvents (events : List Event) : Option Subscription :=
  events.foldl (fun s e => some (e.fold s)) none

def Subscription.Timed (s : Subscription) : Prop :=
  s.paidUntil ≤ maxTime ∧ ∀ grace, s.graceUntil = some grace → grace ≤ maxTime

structure Paid.Inv (p : Paid) : Prop where
  keyed : Rows.Keyed Subscription.device p.subscriptions
  events : Rows.Keyed Event.eventId p.events
  folded : ∀ device, p.subscription device = foldEvents (p.eventsOf device)
  limit : p.subscriptions.length ≤ cohortLimit
  rows : ∀ s ∈ p.subscriptions, s.Checked ∧ s.Timed
  states : ∀ e ∈ p.events, e.newState = e.eventType.target

structure Recorded (now : Nat) (call : EventCall) (device : String) (p p' : Paid) (event : Event) :
    Prop where
  fresh : p.event call.eventId = none
  id : event.eventId = call.eventId
  owner : event.device = device
  type : event.eventType = call.eventType
  time : event.appliedAt = now ∧ event.occurredAt = now
  payload : event.payloadHash = call.payload device
  state : event.newState = event.eventType.target
  events : p'.events = p.events ++ [event]
  subscriptions : p'.subscriptions = Rows.put Subscription.device
    (event.fold (p.subscription device)) p.subscriptions
  valid : ∀ old, p.subscription device = some old → old.state ≠ .revoked
  room : p.subscription device = none → p.subscriptions.length < cohortLimit
  checked : (event.fold (p.subscription device)).Checked
  timed : (∀ old, p.subscription device = some old → old.Timed) →
    (event.fold (p.subscription device)).Timed
  forward : call.eventType = .payment ∨ call.eventType = .grace →
    ∀ old, p.subscription device = some old → ∀ b, old.boundary = some b →
      ∃ b', (event.fold (p.subscription device)).boundary = some b' ∧ b ≤ b'

variable {e : Surroundings} {now : Nat} {support device : String} {call : EventCall} {p p' : Paid}

/-! ## What a call does -/

structure EventCall.WellFormed (call : EventCall) : Prop where
  paid : ∀ paid, call.eventType = .payment → call.paidUntil = some paid → paid ≤ maxTime
  grace : ∀ grace, call.eventType = .grace → call.graceUntil = some grace → grace ≤ maxTime
  alone : call.eventType = .payment → call.graceUntil = none

theorem wellFormed_ok {u : Unit} (h : wellFormed call = .ok u) : call.WellFormed := by
  unfold wellFormed at h
  split at h
  · rename_i hType
    obtain ⟨periodStart, -, h⟩ := bind_ok h
    obtain ⟨_, -, h⟩ := bind_ok h
    obtain ⟨paidUntil, hPaid, h⟩ := bind_ok h
    obtain ⟨_, hTime, h⟩ := bind_ok h
    refine ⟨fun paid _ hSome => ?_, fun grace hGrace => ?_, fun _ => (demand_ok h).2.1⟩
    · cases (given_ok hPaid).symm.trans hSome
      exact demand_ok hTime
    · cases hType.symm.trans hGrace
  · rename_i hType
    obtain ⟨graceUntil, hGrace, h⟩ := bind_ok h
    obtain ⟨_, hTime, -⟩ := bind_ok h
    refine ⟨fun paid hPayment => ?_, fun grace _ hSome => ?_, fun hPayment => ?_⟩
    · cases hType.symm.trans hPayment
    · cases (given_ok hGrace).symm.trans hSome
      exact demand_ok hTime
    · cases hType.symm.trans hPayment
  -- a revocation or an expiry sets no bounds
  all_goals
    rename_i hType
    exact ⟨fun _ hOther => (by cases hType.symm.trans hOther),
      fun _ hOther => (by cases hType.symm.trans hOther), fun hOther =>
        (by cases hType.symm.trans hOther)⟩

structure Bounded (call : EventCall) (previous : Option Subscription) (new : Bounds) : Prop where
  state : new.newState = call.eventType.target
  payment : call.eventType = .payment → call.paidUntil = some new.paidUntil ∧
    new.graceUntil = call.graceUntil ∧ ∀ old, previous = some old →
      max old.paidUntil (old.graceUntil.getD 0) ≤ new.paidUntil
  kept : call.eventType ≠ .payment → ∃ old, previous = some old ∧ new.paidUntil = old.paidUntil ∧
    (call.eventType ≠ .grace → new.graceUntil = old.graceUntil)
  grace : call.eventType = .grace → ∃ grace, call.graceUntil = some grace ∧
    new.graceUntil = some grace ∧ ∀ old, previous = some old →
      max old.paidUntil (old.graceUntil.getD 0) ≤ grace

variable {previous : Option Subscription} {new : Bounds}

theorem bounds_ok (h : bounds call previous = .ok new) : Bounded call previous new := by
  unfold bounds at h
  split at h
  · rename_i hType
    obtain ⟨periodStart, -, h⟩ := bind_ok h
    obtain ⟨paidUntil, hPaid, h⟩ := bind_ok h
    obtain ⟨_, hForward, h⟩ := bind_ok h
    cases h
    refine ⟨by rw [hType]; rfl, fun _ => ⟨given_ok hPaid, rfl, fun old hOld => (demand_ok hForward old hOld).2⟩, ?_, ?_⟩
    · exact fun hOther => absurd hType hOther
    · intro hGrace
      cases hType.symm.trans hGrace
  · cases h
  · rename_i old hType
    obtain ⟨graceUntil, hGrace, h⟩ := bind_ok h
    obtain ⟨_, hForward, h⟩ := bind_ok h
    cases h
    refine ⟨by rw [hType]; rfl, ?_, fun _ => ⟨old, rfl, rfl, fun hOther => absurd hType hOther⟩, fun _ => ⟨graceUntil, given_ok hGrace, rfl, ?_⟩⟩
    · intro hPayment
      cases hType.symm.trans hPayment
    · rintro _ ⟨⟩
      exact demand_ok hForward
  all_goals
    rename_i old hType
    cases h
    refine ⟨by rw [hType]; rfl, ?_, fun _ => ⟨old, rfl, rfl, fun _ => rfl⟩, ?_⟩
    · intro hPayment
      cases hType.symm.trans hPayment
    · intro hGrace
      cases hType.symm.trans hGrace

variable {s : Subscription}

theorem ensures_putSubscription (event : Event) (hRow : ∀ previous : Option Subscription,
      { s with createdAt := (previous.map (·.createdAt)).getD s.createdAt,
               version := (previous.map (·.version)).getD 0 + 1 } = event.fold previous)
    (hVersion : s.version = 1) : (putSubscription s).Ensures
      (fun _ p' => p' = { p with subscriptions := Rows.put Subscription.device (event.fold (p.subscription s.device)) p.subscriptions } ∧
        (event.fold (p.subscription s.device)).Checked ∧
        (∀ old, p.subscription s.device = some old → old.state ≠ .revoked) ∧
          (p.subscription s.device = none → p.subscriptions.length < cohortLimit)) p := by
  refine bind_require fun hChecked => ?_
  refine bind_get ?_
  obtain ⟨hPeriod, hGrace, -, hState, hRevoked⟩ := hChecked
  cases hPrevious : p.subscription s.device with
  | none =>
    have hFold : event.fold none = s := by
      rw [← hRow none]
      obtain ⟨_, _, _, _, _, _, _, version, _, _⟩ := s
      cases hVersion
      rfl
    refine bind_require fun hRoom => ensures_set ?_
    rw [hFold]
    exact ⟨rfl, ⟨hPeriod, hGrace, hVersion ▸ Nat.one_pos, hState, hRevoked⟩,
      fun _ hOld => (by cases hOld), fun _ => hRoom⟩
  | some old =>
    refine bind_require fun hValid => ensures_set ?_
    rw [← hRow]
    refine ⟨rfl, ⟨hPeriod, hGrace, Nat.succ_pos _, hState, hRevoked⟩, ?_,
      fun hNone => (by cases hNone)⟩
    rintro _ ⟨⟩
    exact hValid

variable {event : Event}

theorem Bounded.forward (h : Bounded call previous new)
    (hType : event.eventType = call.eventType) (hPaid : event.paidUntil = new.paidUntil)
    (hGrace : event.graceUntil = new.graceUntil)
    (hGrants : call.eventType = .payment ∨ call.eventType = .grace) {old : Subscription}
    (hOld : previous = some old) {b : Nat} (hBoundary : old.boundary = some b) :
    ∃ b', (event.fold previous).boundary = some b' ∧ b ≤ b' := by
  have hMax : b ≤ max old.paidUntil (old.graceUntil.getD 0) := by
    unfold Subscription.boundary at hBoundary
    split at hBoundary
    · rw [hBoundary]
      exact Nat.le_max_right _ _
    · cases hBoundary
      exact Nat.le_max_left _ _
  rcases hGrants with hPayment | hGraced
  · obtain ⟨-, -, hForward⟩ := h.payment hPayment
    refine ⟨new.paidUntil, ?_, Nat.le_trans hMax (hForward old hOld)⟩
    rw [Subscription.boundary, Event.fold, hType, hPayment, hPaid]
    rfl
  · obtain ⟨grace, -, hNew, hForward⟩ := h.grace hGraced
    refine ⟨grace, ?_, Nat.le_trans hMax (hForward old hOld)⟩
    rw [Subscription.boundary, Event.fold, hType, hGraced, hGrace, hNew]
    rfl

theorem Bounded.timed (h : Bounded call previous new) (hWell : call.WellFormed)
    (hOld : ∀ old, previous = some old → old.Timed) (hPaid : event.paidUntil = new.paidUntil)
    (hGrace : event.graceUntil = new.graceUntil) : (event.fold previous).Timed := by
  change event.paidUntil ≤ maxTime ∧ ∀ grace, event.graceUntil = some grace → grace ≤ maxTime
  rw [hPaid, hGrace]
  by_cases hPayment : call.eventType = .payment
  · obtain ⟨hCall, hSame, -⟩ := h.payment hPayment
    refine ⟨hWell.paid _ hPayment hCall, fun grace hSome => ?_⟩
    rw [hSame, hWell.alone hPayment] at hSome
    cases hSome
  · obtain ⟨old, hPrevious, hSame, hKept⟩ := h.kept hPayment
    obtain ⟨hTimed, hTimed'⟩ := hOld old hPrevious
    refine ⟨hSame ▸ hTimed, fun grace hSome => ?_⟩
    by_cases hGraced : call.eventType = .grace
    · obtain ⟨graceUntil, hCall, hNew, -⟩ := h.grace hGraced
      cases hNew.symm.trans hSome
      exact hWell.grace _ hGraced hCall
    · rw [hKept hGraced] at hSome
      exact hTimed' grace hSome

theorem ensures_applyNew {resolved : Resolved} (hWell : call.WellFormed)
    (hNew : p.event call.eventId = none) : (applyNew e now call resolved).Ensures
      (fun result p' => result.duplicate = false ∧
        Recorded now call resolved.device p p' result.event) p := by
  refine bind_lift fun _ _ => ?_
  refine bind_get ?_
  refine bind_lift fun effective _ => ?_
  refine bind_require fun _ => ?_
  have hEligible : (if call.eventType = .payment ∨ call.eventType = .grace
    then liftM (eligible e call resolved) else pure () : PaidTx Unit).Ensures
      (fun _ p' => p' = p) p := by
    split
    · exact ensures_lift fun _ _ => rfl
    · exact ensures_pure rfl
  refine ensures_bind (hEligible.mono fun _ _ hSame => ?_)
  rw [hSame]
  refine bind_require fun _ => ?_
  refine bind_require fun _ => ?_
  refine bind_lift fun new hBounds => ?_
  have hBounded := bounds_ok hBounds
  refine bind_require fun _ => ?_
  refine ensures_bind (bind_get ?_)
  refine bind_require fun _ => ensures_set ?_
  let event : Event :=
    { eventId := call.eventId, device := resolved.device, eventType := call.eventType
      occurredAt := now
      previousState := effective.map (·.state), newState := new.newState
      periodStart := new.periodStart, paidUntil := new.paidUntil
      graceUntil := new.graceUntil, referenceHash := call.reference
      payloadHash := call.payload resolved.device, appliedAt := now }
  refine ensures_bind ((ensures_putSubscription event (fun previous => ?_) rfl).mono
    fun _ p₁ hPut => ensures_pure ⟨rfl, ?_⟩)
  · have hRevoked : (new.newState = .revoked) = (call.eventType = .revoke) := by
      rw [hBounded.state]
      cases call.eventType <;> simp [EventType.target]
    rw [Event.fold]
    simp only [hBounded.state, event]
    congr 1
    rw [← hBounded.state]
    simp only [hRevoked]
  · obtain ⟨rfl, hChecked, hValid, hRoom⟩ := hPut
    constructor
    case fresh => exact hNew
    case id | owner | type | payload | events | subscriptions => rfl
    case time => exact ⟨rfl, rfl⟩
    case state => exact hBounded.state
    case valid => exact hValid
    case room => exact hRoom
    case checked => exact hChecked
    case timed => exact fun hOld => hBounded.timed hWell hOld rfl rfl
    case forward => exact fun hGrants old hOld b hB => hBounded.forward rfl rfl rfl hGrants hOld hB

def EventCall.Passes (call : EventCall) : Prop := opaqueEventId call.eventId = true ∧
    validReference call.reference = true ∧ wellFormed call = .ok ()

structure Returned (e : Surroundings) (now : Nat) (support : String) (call : EventCall) (p : Paid)
    (result : Applied) (p' : Paid) : Prop where
  passes : call.Passes
  resolved : ∃ resolved, resolveDevice e.registry support = .ok resolved ∧
    result.event.payloadHash = call.payload resolved.device ∧
    (result.duplicate = true ∧ p' = p ∧ p.event call.eventId = some result.event ∨
      result.duplicate = false ∧ Recorded now call resolved.device p p' result.event)

theorem ensures_applyEvent : (applyEvent e now support call).Ensures
    (Returned e now support call p) p := by
  refine bind_lift fun _ _ => ?_
  refine bind_require fun hId => ?_
  refine bind_require fun hReference => ?_
  refine bind_lift fun _ hWell => ?_
  refine bind_lift fun resolved hResolved => ?_
  refine bind_get ?_
  split
  · rename_i previous hPrevious
    refine bind_require fun hPayload => ensures_pure
      ⟨⟨hId, hReference, hWell⟩, resolved, hResolved, hPayload, ?_⟩
    exact .inl ⟨rfl, rfl, hPrevious⟩
  · rename_i hNone
    refine (ensures_applyNew (wellFormed_ok hWell) hNone).mono fun result p' hApplied => ?_
    exact ⟨⟨hId, hReference, hWell⟩, resolved, hResolved, hApplied.2.payload, .inr hApplied⟩

/-! ## The tables after an event -/

theorem foldEvents_append (events : List Event) (event : Event) :
    foldEvents (events ++ [event]) = some (event.fold (foldEvents events)) := by
  rw [foldEvents, List.foldl_append]
  rfl

theorem foldEvents_some {events : List Event} (h : foldEvents events = some s) :
    ∃ before event, events = before ++ [event] ∧ s = event.fold (foldEvents before) := by
  rcases List.eq_nil_or_concat events with rfl | ⟨before, event, hEvents⟩
  · cases h
  · rw [List.concat_eq_append] at hEvents
    subst hEvents
    rw [foldEvents_append] at h
    exact ⟨before, event, rfl, (Option.some.inj h).symm⟩

namespace Recorded

variable {event : Event}

section

variable (h : Recorded now call device p p' event)
include h

theorem subscription (other : String) :
    p'.subscription other = if device = other then some (event.fold (p.subscription device))
      else p.subscription other := by
  rw [Paid.subscription, h.subscriptions, Rows.get_put]
  change (if event.device = other then _ else _) = _
  rw [h.owner]
  rfl

theorem eventsOf (other : String) :
    p'.eventsOf other = p.eventsOf other ++ if device = other then [event] else [] := by
  rw [Paid.eventsOf, h.events, List.filter_append, List.filter_cons, h.owner, List.filter_nil]
  simp only [decide_eq_true_eq]
  rfl

theorem inv (hInv : p.Inv) : p'.Inv := by
  constructor
  case keyed =>
    rw [h.subscriptions]
    exact hInv.keyed.put _
  case events =>
    rw [h.events]
    refine hInv.events.append ?_
    rw [h.id]
    exact h.fresh
  case folded =>
    intro other
    rw [h.subscription, h.eventsOf]
    split
    · rename_i hSame
      rw [foldEvents_append, ← hInv.folded, hSame]
    · rw [List.append_nil]
      exact hInv.folded other
  case limit =>
    rw [h.subscriptions]
    have hKey : (event.fold (p.subscription device)).device = device := h.owner
    cases hOld : p.subscription device with
    | none =>
      have hNew : Rows.get Subscription.device (event.fold none).device p.subscriptions = none := by
        rw [hOld] at hKey
        rw [hKey]
        exact hOld
      rw [Rows.put_new hNew, List.length_append]
      exact h.room hOld
    | some old =>
      have hKnown : Rows.get Subscription.device (event.fold (some old)).device p.subscriptions =
          some old := by
        rw [hOld] at hKey
        rw [hKey]
        exact hOld
      rw [Rows.length_put hKnown]
      exact hInv.limit
  case rows =>
    rw [h.subscriptions]
    exact Rows.forall_put hInv.rows ⟨h.checked, h.timed
      fun old hOld => (hInv.rows old (Rows.mem_of_get hOld)).2⟩
  case states =>
    rw [h.events]
    exact Rows.forall_append hInv.states h.state

end

end Recorded

structure Paid.Keeps (p p' : Paid) : Prop where
  cohort : ∀ device s, p.subscription device = some s → ∃ s', p'.subscription device = some s' ∧
    (s' = s ∨ s.version < s'.version)
  revoked : ∀ device s, p.subscription device = some s → s.state = .revoked →
    p'.subscription device = some s
  events : ∀ id event, p.event id = some event → p'.event id = some event

theorem Paid.Keeps.refl (p : Paid) : p.Keeps p :=
  ⟨fun _ s h => ⟨s, h, .inl rfl⟩, fun _ _ h _ => h, fun _ _ h => h⟩

theorem Paid.Keeps.trans {p'' : Paid} (h : p.Keeps p') (h' : p'.Keeps p'') : p.Keeps p'' := by
  refine ⟨fun device s hS => ?_, fun device s hS hRevoked => ?_,
    fun id event hEvent => h'.events id event (h.events id event hEvent)⟩
  · obtain ⟨s', hS', hVersion⟩ := h.cohort device s hS
    obtain ⟨s'', hS'', hVersion'⟩ := h'.cohort device s' hS'
    refine ⟨s'', hS'', ?_⟩
    rcases hVersion with rfl | hVersion
    · exact hVersion'
    · rcases hVersion' with rfl | hVersion'
      · exact .inr hVersion
      · exact .inr (Nat.lt_trans hVersion hVersion')
  · exact h'.revoked device s (h.revoked device s hS hRevoked) hRevoked

theorem Recorded.keeps (h : Recorded now call device p p' event) : p.Keeps p' := by
  refine ⟨fun other s hS => ?_, fun other s hS hRevoked => ?_, fun id old hOld => ?_⟩
  · rw [h.subscription]
    split
    · rename_i hSame
      refine ⟨_, rfl, .inr ?_⟩
      rw [hSame, hS]
      exact Nat.lt_succ_self s.version
    · exact ⟨s, hS, .inl rfl⟩
  · rw [h.subscription, if_neg, hS]
    rintro rfl
    exact h.valid s hS hRevoked
  · rw [Paid.event, h.events]
    exact Rows.get_append_of_some event hOld

/-! ## Runs -/

def ledger : System Paid where
  initial p := p = {}
  step p p' := ∃ e now support call, p' = ((applyEvent e now support call).commit p).2

theorem Paid.Inv.apply (h : p.Inv) (e : Surroundings) (now : Nat) (support : String)
    (call : EventCall) :
    ((applyEvent e now support call).commit p).2.Inv ∧
    p.Keeps ((applyEvent e now support call).commit p).2 := by
  refine ensures_applyEvent.commit (fun p' => p'.Inv ∧ p.Keeps p') ⟨h, .refl p⟩
    fun result p' hReturned => ?_
  obtain ⟨_, -, -, ⟨-, rfl, -⟩ | ⟨-, hRecorded⟩⟩ := hReturned.resolved
  · exact ⟨h, .refl _⟩
  · exact ⟨hRecorded.inv h, hRecorded.keeps⟩

theorem Paid.Inv.empty : ({} : Paid).Inv := by
  constructor
  case keyed | events => exact List.nodup_nil
  case folded => exact fun _ => rfl
  case limit => exact Nat.zero_le _
  case rows | states => exact fun _ hMem => absurd hMem List.not_mem_nil

theorem Paid.Inv.reachable (h : ledger.Reachable p) : p.Inv := by
  refine h.invariant (I := Paid.Inv) ?_ ?_
  · rintro p rfl
    exact .empty
  · rintro p p' - hInv ⟨e, now, support, call, rfl⟩
    exact (hInv.apply e now support call).1

theorem Paid.Inv.steps (h : p.Inv) (hSteps : Relation.ReflTransGen ledger.step p p') :
    p'.Inv ∧ p.Keeps p' := by
  induction hSteps with
  | refl => exact ⟨h, .refl p⟩
  | tail _ hStep ih =>
    obtain ⟨e, now, support, call, rfl⟩ := hStep
    obtain ⟨hInv, hKeeps⟩ := ih.1.apply e now support call
    exact ⟨hInv, ih.2.trans hKeeps⟩

/-! ## What holds of the tables -/

structure Paid.Lawful (p : Paid) : Prop where
  rows : ∀ device, p.subscription device = foldEvents (p.eventsOf device)
  ids : ∀ e ∈ p.events, ∀ f ∈ p.events, e.eventId = f.eventId → e = f
  cohort : p.subscriptions.length ≤ cohortLimit ∧ (p.subscriptions.map Subscription.device).Nodup
  allowed : ∀ device now effective, effectiveSubscriptionState p device now = .ok (some effective) →
    effective.allowed = true → ∃ s boundary last, p.subscription device = some s ∧
      s.boundary = some boundary ∧ effective.expiresAt = some boundary ∧ now < boundary ∧
        (p.eventsOf device).getLast? = some last ∧ (last.eventType = .payment ∨
        last.eventType = .grace)

variable {effective : Effective} {result : Applied}

theorem effectiveOf_cases (h : effectiveOf s now = .ok effective) :
    (s.state = .revoked ∨ s.revokedAt ≠ none) ∧ effective = ⟨.revoked, false, none⟩ ∨
      ¬(s.state = .revoked ∨ s.revokedAt ≠ none) ∧ ∃ boundary, s.boundary = some boundary ∧
        ((s.state ≠ .expired ∧ now < boundary) ∧ effective = ⟨s.state, true, some boundary⟩ ∨
          ¬(s.state ≠ .expired ∧ now < boundary) ∧ effective = ⟨.expired, false, none⟩) := by
  unfold effectiveOf at h
  split at h
  · rename_i hRevoked
    cases h
    exact .inl ⟨hRevoked, rfl⟩
  · rename_i hValid
    split at h
    · cases h
    · rename_i boundary hBoundary
      split at h
      · cases h
      · refine .inr ⟨hValid, boundary, hBoundary, ?_⟩
        split at h
        · rename_i hNow
          cases h
          exact .inl ⟨hNow, rfl⟩
        · rename_i hOver
          cases h
          exact .inr ⟨hOver, rfl⟩

theorem effectiveOf_allowed (h : effectiveOf s now = .ok effective)
    (hAllowed : effective.allowed = true) :
    s.state ≠ .revoked ∧ s.state ≠ .expired ∧ effective.state = s.state ∧
      ∃ boundary, s.boundary = some boundary ∧ effective.expiresAt = some boundary ∧
        now < boundary := by
  rcases effectiveOf_cases h with ⟨-, rfl⟩ | ⟨hValid, boundary, hBoundary, ⟨hNow, rfl⟩ | ⟨-, rfl⟩⟩
  · cases hAllowed
  · exact ⟨fun hRevoked => hValid (.inl hRevoked), hNow.1, rfl, boundary, hBoundary, rfl, hNow.2⟩
  · cases hAllowed

theorem effective_none (h : effectiveSubscriptionState p device now = .ok none) :
    p.subscription device = none := by
  unfold effectiveSubscriptionState at h
  split at h
  · cases h
  · split at h
    · cases h
    · split at h
      · assumption
      · rename_i s hS
        cases hOf : effectiveOf s now with
        | error failure | ok found =>
          rw [hOf] at h
          cases h

theorem effective_some (h : effectiveSubscriptionState p device now = .ok (some effective)) :
    ∃ s, p.subscription device = some s ∧ effectiveOf s now = .ok effective := by
  unfold effectiveSubscriptionState at h
  split at h
  · cases h
  · split at h
    · cases h
    · split at h
      · cases h
      · rename_i s hS
        refine ⟨s, hS, ?_⟩
        cases hOf : effectiveOf s now with
        | error failure =>
          rw [hOf] at h
          cases h
        | ok found =>
          rw [hOf] at h
          cases h
          rfl

theorem Paid.Inv.lawful (h : p.Inv) : p.Lawful := by
  constructor
  case rows => exact h.folded
  case ids =>
    exact fun e hE f hF hSame => List.inj_on_of_nodup_map h.events hE hF hSame
  case cohort => exact ⟨h.limit, h.keyed⟩
  case allowed =>
    intro device now effective hEffective hAllowed
    obtain ⟨s, hS, hOf⟩ := effective_some hEffective
    obtain ⟨hRevoked, hExpired, -, boundary, hBoundary, hExpires, hNow⟩ :=
      effectiveOf_allowed hOf hAllowed
    have hFold := h.folded device
    rw [hS] at hFold
    obtain ⟨before, event, hEvents, rfl⟩ := foldEvents_some hFold.symm
    refine ⟨_, boundary, event, hS, hBoundary, hExpires, hNow, ?_, ?_⟩
    · rw [hEvents, List.getLast?_append]
      rfl
    · -- The state of the row is that of its last event.
      change event.eventType.target ≠ .revoked at hRevoked
      change event.eventType.target ≠ .expired at hExpired
      cases hType : event.eventType with
      | payment => exact .inl rfl
      | grace => exact .inr rfl
      | expire =>
        rw [hType] at hExpired
        exact absurd rfl hExpired
      | revoke =>
        rw [hType] at hRevoked
        exact absurd rfl hRevoked

inductive Paid.Change (call : EventCall) (p : Paid) (result : Applied) (p' : Paid) : Prop where
  | repeated : result.duplicate = true → p' = p → p.event call.eventId = some result.event →
      Paid.Change call p result p'
  | applied : result.duplicate = false → p.event call.eventId = none →
      p'.events = p.events ++ [result.event] → result.event.eventId = call.eventId →
        (∃ s', p'.subscription result.event.device = some s' ∧
        s'.version = ((p.subscription result.event.device).map (·.version)).getD 0 + 1 ∧
          (call.eventType = .payment ∨ call.eventType = .grace →
          ∀ old b, p.subscription result.event.device = some old → old.boundary = some b →
            ∃ b', s'.boundary = some b' ∧ b ≤ b')) →
      (∀ other, other ≠ result.event.device → p'.subscription other = p.subscription other) →
        Paid.Change call p result p'

theorem Returned.change (h : Returned e now support call p result p') :
    Paid.Change call p result p' := by
  obtain ⟨_, -, -, ⟨hDuplicate, hSame, hEvent⟩ | ⟨hDuplicate, hRecorded⟩⟩ := h.resolved
  · exact .repeated hDuplicate hSame hEvent
  · refine .applied hDuplicate hRecorded.fresh hRecorded.events hRecorded.id ?_ fun other hOther => ?_
    · rw [hRecorded.owner]
      refine ⟨_, (hRecorded.subscription _).trans (if_pos rfl), rfl, fun hGrants old b hOld hB => ?_⟩
      exact hRecorded.forward hGrants old hOld b hB
    · rw [hRecorded.subscription, if_neg]
      rw [hRecorded.owner] at hOther
      exact fun hSame => hOther hSame.symm

theorem Returned.recorded (h : Returned e now support call p result p') :
    p'.event call.eventId = some result.event := by
  obtain ⟨_, -, -, ⟨-, rfl, hEvent⟩ | ⟨-, hRecorded⟩⟩ := h.resolved
  · exact hEvent
  · rw [Paid.event, hRecorded.events]
    exact Rows.get_append_of_none hRecorded.fresh hRecorded.id

theorem applyEvent_recorded (hEvent : p.event call.eventId = some event) (e : Surroundings)
    (now : Nat) (support : String) :
    (∀ resolved, now ≤ maxTime → call.Passes → resolveDevice e.registry support = .ok resolved →
      event.payloadHash = call.payload resolved.device →
      (applyEvent e now support call).commit p = (.ok ⟨true, event⟩, p)) ∧
      ((∀ resolved, resolveDevice e.registry support = .ok resolved →
        event.payloadHash ≠ call.payload resolved.device) →
          ∃ failure, (applyEvent e now support call).commit p = (.error failure, p)) := by
  constructor
  · intro resolved hNow hPasses hResolved hPayload
    refine commit_of_run ?_
    refine (run_bind (run_lift (if_pos hNow))).trans ?_
    refine (run_bind (run_require _ hPasses.1)).trans ?_
    refine (run_bind (run_require _ hPasses.2.1)).trans ?_
    refine (run_bind (run_lift hPasses.2.2)).trans ?_
    refine (run_bind (run_lift hResolved)).trans ?_
    refine (run_bind run_get).trans ?_
    rw [hEvent]
    exact run_bind (run_require _ hPayload)
  · intro hOther
    cases hResult : ((applyEvent e now support call).commit p).1 with
    | error failure => exact ⟨failure, Prod.ext hResult (commit_raised hResult)⟩
    | ok result =>
      obtain ⟨resolved, hResolved, hPayload, ⟨-, -, hFound⟩ | ⟨-, hRecorded⟩⟩ :=
        (ensures_applyEvent.committed hResult).resolved
      · cases hEvent.symm.trans hFound
        exact absurd hPayload (hOther resolved hResolved)
      · cases hEvent.symm.trans hRecorded.fresh

theorem EventCall.Passes.again {again : EventCall} {other : String} (h : call.Passes)
    (hSame : again.payload other = call.payload device) : again.Passes := by
  obtain ⟨eventType, eventId, reference, periodStart, paidUntil, graceUntil, apkSha256⟩ := again
  obtain ⟨eventType', eventId', reference', periodStart', paidUntil', graceUntil', apkSha256'⟩ := call
  simp only [EventCall.payload, Payload.mk.injEq] at hSame
  obtain ⟨-, rfl, rfl, rfl, rfl, rfl, rfl, rfl⟩ := hSame
  exact h

namespace Sample

def payer : String := "00000000000000000000000000000001"

def payerSupport : Support :=
  { device := payer, supportId := "FC-2222-3333", platform := some .android
    appVersion := some "0.1.18-beta108", versionCode := some 108, lastSeen := some 5 }

def paying : Surroundings :=
  { registry := { invites := [⟨"hash", some payer, false⟩], devices := [⟨payer, "public", "wg", "tcp", false⟩], support := [payerSupport] } }

def payment : EventCall :=
  { eventType := .payment, eventId := "payment-1", reference := "bank", periodStart := some 0
    paidUntil := some 100
    apkSha256 := some "144b158fe4c07dd19a67683887558cf88a0202b937d135a9924698ffc11b4fdf" }

def paid : Paid := ((applyEvent paying 10 "fc-2222-3333" payment).commit {}).2

def paidEvent : Event := ⟨"payment-1", payer, .payment, 10, none, .active, 0, 100, none, "bank",
    payment.payload payer, 10⟩

theorem applied : (applyEvent paying 10 "fc-2222-3333" payment).commit {} =
    (.ok ⟨false, paidEvent⟩, paid) := by
  have hOk : ((applyEvent paying 10 "fc-2222-3333" payment).commit {}).1 = .ok ⟨false, paidEvent⟩ :=
    by decide +kernel
  exact Prod.ext hOk rfl

end Sample

/-- The ledger is lawful after any events and keeps what it has recorded. An event that was applied
is repeated with the same answer, and one with its id and another content is refused. -/
theorem paid_ledger (hReachable : ledger.Reachable p) :
    p.Lawful ∧ (∀ later, Relation.ReflTransGen ledger.step p later → p.Keeps later) ∧
      ∀ e now support call result p', (applyEvent e now support call).commit p = (.ok result, p') →
        Paid.Change call p result p' ∧ ∃ resolved, resolveDevice e.registry support = .ok resolved ∧
          ∀ later, Relation.ReflTransGen ledger.step p' later →
            ∀ e' now' support' again, again.eventId = call.eventId →
              (∀ resolved', resolveDevice e'.registry support' = .ok resolved' →
              again.payload resolved'.device = call.payload resolved.device → now' ≤ maxTime →
                (applyEvent e' now' support' again).commit later =
                (.ok ⟨true, result.event⟩, later)) ∧
            ((∀ resolved', resolveDevice e'.registry support' = .ok resolved' →
              again.payload resolved'.device ≠ call.payload resolved.device) → ∃ failure,
                (applyEvent e' now' support' again).commit later = (.error failure, later)) := by
  have hInv := Paid.Inv.reachable hReachable
  refine ⟨hInv.lawful, fun later hSteps => (hInv.steps hSteps).2, ?_⟩
  intro e now support call result p' hOk
  have hReturned : Returned e now support call p result p' := ensures_applyEvent _ _ (commit_ok hOk)
  have hAfter : p'.Inv := by
    have hApplied := (hInv.apply e now support call).1
    rw [hOk] at hApplied
    exact hApplied
  obtain ⟨resolved, hResolved, hPayload, -⟩ := hReturned.resolved
  refine ⟨hReturned.change, resolved, hResolved, ?_⟩
  intro later hSteps e' now' support' again hId
  have hEvent : later.event again.eventId = some result.event := by
    rw [hId]
    exact (hAfter.steps hSteps).2.events _ _ hReturned.recorded
  obtain ⟨hRepeat, hRefuse⟩ := applyEvent_recorded hEvent e' now' support'
  constructor
  · intro resolved' hResolved' hSame hNow
    exact hRepeat resolved' hNow (hReturned.passes.again hSame) hResolved' (hPayload.trans hSame.symm)
  · intro hOther
    exact hRefuse fun resolved' hResolved' hSame =>
      hOther resolved' hResolved' (hSame.symm.trans hPayload)

open Sample

theorem paid_ledger_repeated : effectiveSubscriptionState paid payer 99 = .ok
    (some ⟨.active, true, some 100⟩) ∧ effectiveSubscriptionState paid payer 100 = .ok
    (some ⟨.expired, false, none⟩) ∧ (applyEvent paying 20 "FC-2222-3333" payment).commit paid =
    (.ok ⟨true, paidEvent⟩, paid) := by
  obtain ⟨-, -, hCalls⟩ := paid_ledger (.start rfl)
  obtain ⟨-, resolved, hResolved, hAgain⟩ := hCalls _ _ _ _ _ _ applied
  have hPayer : resolveDevice paying.registry "FC-2222-3333" = .ok ⟨payer, false, some false⟩ :=
    by decide +kernel
  have hSame : resolveDevice paying.registry "fc-2222-3333" = .ok ⟨payer, false, some false⟩ :=
    by decide +kernel
  cases hSame.symm.trans hResolved
  exact ⟨by decide +kernel, by decide +kernel, (hAgain paid .refl paying 20 _ _ rfl).1 _ hPayer rfl (by decide)⟩

end FamilyConnect.Friends
