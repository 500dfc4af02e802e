import FamilyConnect.RoomBroker.Broker

/-!
# What one setup keeps

`Setup.Inv` ties the counters of a setup to its two program counters and to
whether the map still leads to it. `Setup.Forward` is what no step undoes.
-/

namespace FamilyConnect.RoomBroker

open Lib

/-- The order in which a setup goes through its states; all terminal states come last. -/
def rank : State → Nat
  | .authorized => 0
  | .creating => 1
  | .created => 2
  | .gatewayJoining => 3
  | .ready => 4
  | .clientIssued => 5
  | .active => 6
  | .closed | .failed | .expired | .cancelled => 7

theorem rank_terminal {s : State} : terminal s = true ↔ rank s = 7 := by cases s <;> decide

theorem rank_le (s : State) : rank s ≤ 7 := by cases s <;> decide

namespace Creator

def holdsSetup : Creator → Bool
  | .idle | .leaving | .exited => false
  | _ => true

def holdsGateway : Creator → Bool
  | .checking _ | .issuing _ | .abandoning _ | .discarding | .running | .ending _ | .closing => true
  | _ => false

def beforeStart : Creator → Bool
  | .idle | .creating | .created _ | .joining _ | .starting _ => true
  | _ => false

def bound : Creator → Nat
  | .idle => 0
  | .creating | .created _ => 1
  | .joining _ => 2
  | .starting _ | .checking _ | .issuing _ | .abandoning _ | .failing _ | .discarding => 3
  | _ => 6

def follows (c c' : Creator) : Bool :=
  c.holdsSetup && c'.holdsSetup && (!c'.beforeStart || c.beforeStart) && decide (c.bound ≤ c'.bound)

end Creator

namespace Setup

structure Inv (o : Setup) (present : Bool) : Prop where
  done : o.doneClosed = if present then 0 else 1
  idle : o.started = false ↔ o.creator = .idle
  begun : o.creator ≠ .idle → 1 ≤ rank o.state
  watched : o.creator = .idle → (present = true ↔ o.monitor ≠ .leaving ∧ o.monitor ≠ .exited)
  owned : o.creator ≠ .idle → (present = true ↔ o.creator.holdsSetup = true)
  pending : ∀ state code, o.monitor = .terminating state code → terminal state = true
  balance : o.gatewayClosed + (if o.creator.holdsGateway then 1 else 0) = o.gatewayOpened
  unopened : o.creator.beforeStart = true → o.gatewayOpened = 0
  openedOnce : o.gatewayOpened ≤ 1
  claims : o.claims = if o.claimed then 1 else 0
  active : o.state = .active → o.claimed = true
  bound : terminal o.state = true ∨ rank o.state ≤ o.creator.bound

structure Forward (o o' : Setup) : Prop where
  id : o'.id = o.id
  identity : o'.identity = o.identity
  state : rank o.state ≤ rank o'.state
  terminal : terminal o.state = true → o'.state = o.state
  started : o.started = true → o'.started = true
  claims : o.claims ≤ o'.claims
  doneClosed : o.doneClosed ≤ o'.doneClosed
  gatewayOpened : o.gatewayOpened ≤ o'.gatewayOpened
  gatewayClosed : o.gatewayClosed ≤ o'.gatewayClosed

theorem Forward.refl (o : Setup) : Forward o o :=
  ⟨rfl, rfl, le_rfl, fun _ => rfl, fun h => h, le_rfl, le_rfl, le_rfl, le_rfl⟩

theorem Forward.trans {o o' o'' : Setup} (h : Forward o o') (h' : Forward o' o'') : Forward o o'' where
  id := h'.id.trans h.id
  identity := h'.identity.trans h.identity
  state := h.state.trans h'.state
  terminal hEnd := by
    have hSame := h.terminal hEnd
    exact (h'.terminal (hSame ▸ hEnd)).trans hSame
  started hStarted := h'.started (h.started hStarted)
  claims := h.claims.trans h'.claims
  doneClosed := h.doneClosed.trans h'.doneClosed
  gatewayOpened := h.gatewayOpened.trans h'.gatewayOpened
  gatewayClosed := h.gatewayClosed.trans h'.gatewayClosed

theorem workers_eq_zero {o : Setup} : o.workers = 0 ↔ o.monitor = .exited ∧
    (o.creator = .idle ∨ o.creator = .exited) := by
  have hMonitor : o.monitor.worker = 0 ↔ o.monitor = .exited := by
    cases o.monitor <;> simp [Monitor.worker]
  have hCreator : o.creator.worker = 0 ↔ o.creator = .idle ∨ o.creator = .exited := by
    cases o.creator <;> simp [Creator.worker]
  rw [workers, Nat.add_eq_zero_iff, hMonitor, hCreator]

structure Ended (o o' : Setup) : Prop where
  same : ∃ state events ctx, o' = { o with state := state, events := events, ctx := ctx }
  state : o'.state = o.state ∨ terminal o.state = false ∧ terminal o'.state = true

variable {state : State}

theorem terminate_ended (o : Setup) (code : Code) (hState : terminal state = true) :
    Ended o (o.terminate state code) := by
  unfold terminate
  split
  · exact ⟨⟨_, _, _, rfl⟩, .inl rfl⟩
  · rename_i hOpen
    rw [Bool.not_eq_true] at hOpen
    exact ⟨⟨_, _, _, rfl⟩, .inr ⟨hOpen, hState⟩⟩

theorem contextDone_ended (o : Setup) : Ended o o.contextDone := by
  unfold contextDone
  split
  · exact ⟨⟨_, _, _, rfl⟩, .inl rfl⟩
  rename_i hOpen
  rw [Bool.not_eq_true] at hOpen
  split <;> exact ⟨⟨_, _, _, rfl⟩, .inr ⟨hOpen, rfl⟩⟩

theorem cancel_ended (o : Setup) : Ended o o.cancel := ⟨⟨_, _, _, rfl⟩, .inl rfl⟩

theorem expire_ended (o : Setup) (now : Instant) : Ended o (o.expire now) := by
  unfold expire
  split <;> exact ⟨⟨_, _, _, rfl⟩, .inl rfl⟩

structure Kept (present : Bool) (o o' : Setup) : Prop where
  inv : Inv o' present
  forward : Forward o o'
  workers : o'.workers = o.workers

variable {o o' : Setup} {present : Bool} {c c' : Creator}

theorem Kept.trans {o'' : Setup} (h : Kept present o o') (h' : Kept present o' o'') : Kept present o o'' :=
  ⟨h'.inv, h.forward.trans h'.forward, h'.workers.trans h.workers⟩

theorem Ended.inv (hEnded : Ended o o') (h : Inv o present) : Inv o' present := by
  obtain ⟨⟨state, events, ctx, rfl⟩, hState⟩ := hEnded
  refine { h with begun := ?_, active := ?_, bound := ?_ }
  · intro hBegun
    rcases hState with hSame | ⟨_, hEnd⟩
    · exact (h.begun hBegun).trans (congrArg rank hSame).ge
    · exact (by decide : 1 ≤ 7).trans (rank_terminal.mp hEnd).ge
  · intro hActive
    rcases hState with hSame | ⟨_, hEnd⟩
    · exact h.active (hSame ▸ hActive)
    · rw [hActive] at hEnd
      cases hEnd
  · rcases hState with hSame | ⟨_, hEnd⟩
    · rw [hSame]
      exact h.bound
    · exact .inl hEnd

theorem Ended.forward (hEnded : Ended o o') : Forward o o' := by
  obtain ⟨⟨state, events, ctx, rfl⟩, hState⟩ := hEnded
  refine { Forward.refl o with state := ?_, terminal := ?_ }
  · rcases hState with hSame | ⟨_, hEnd⟩
    · exact (congrArg rank hSame).ge
    · rw [rank_terminal.mp hEnd]
      exact rank_le _
  · intro hTerminal
    rcases hState with hSame | ⟨hOpen, _⟩
    · exact hSame
    · rw [hOpen] at hTerminal
      cases hTerminal

theorem Ended.kept (hEnded : Ended o o') (h : Inv o present) : Kept present o o' := by
  refine ⟨hEnded.inv h, hEnded.forward, ?_⟩
  obtain ⟨⟨state, events, ctx, rfl⟩, _⟩ := hEnded
  rfl

section

variable (h : Inv o present)
include h

theorem Inv.enter_kept (state : State) (code : Code) (deadline : Instant)
    (hOpen : terminal o.state = false) (hActive : state = .active → o.claimed = true)
    (hLater : rank o.state ≤ rank state) (hBound : rank state ≤ o.creator.bound) :
    Kept present o { o.enter state code with deadline := deadline } where
  inv := { h with begun := fun hBegun => (h.begun hBegun).trans hLater, active := hActive, bound := .inr hBound }
  forward := { Forward.refl o with state := hLater, terminal := fun hEnd => absurd (hOpen.symm.trans hEnd) nofun }
  workers := rfl

omit h in
theorem worker_of_ne_exited {m : Monitor} (h : m ≠ .exited) : m.worker = 1 := by
  cases m with
  | exited => exact absurd rfl h
  | watching | terminating | leaving => rfl

/-- The monitor goes on; it may only leave a setup that has been taken out of the map or that `Create`
will take out. -/
theorem Inv.monitor_kept {m : Monitor} (hHere : o.monitor ≠ .leaving ∧ o.monitor ≠ .exited)
    (hStay : m ≠ .exited) (hLeaving : m = .leaving → o.creator = .idle → present = false)
    (hPending : ∀ state code, m = .terminating state code → terminal state = true) :
    Kept present o { o with monitor := m } where
  inv :=
    { h with
      watched := by
        intro hIdle
        have hPresent := (h.watched hIdle).mpr hHere
        refine iff_of_true hPresent ⟨?_, hStay⟩
        intro hLeave
        rw [hLeaving hLeave hIdle] at hPresent
        cases hPresent
      pending := hPending }
  forward := { Forward.refl o with }
  workers := by
    unfold workers
    rw [worker_of_ne_exited hHere.2, worker_of_ne_exited hStay]

section

variable (hc : o.creator = c)
include hc

omit h in
theorem Inv.workers_creator (hHolds : c.holdsSetup = true) (hHolds' : c'.holdsSetup = true)
    {opened closed : Nat} :
    workers { o with creator := c', gatewayOpened := opened, gatewayClosed := closed } =
      o.workers := by
  have hBusy : ∀ {d : Creator}, d.holdsSetup = true → d.worker = 1 := by
    intro d hd
    cases d <;> first | rfl | cases hd
  unfold workers
  rw [hc, hBusy hHolds, hBusy hHolds']

section

variable (hFollows : c.follows c' = true)
include hFollows

theorem Inv.creator_kept {opened closed : Nat} (hOpened : o.gatewayOpened ≤ opened) (hClosed : o.gatewayClosed ≤ closed)
    (hBalance : closed + (if c'.holdsGateway then 1 else 0) = opened)
    (hUnopened : c'.beforeStart = true → opened = 0) (hOnce : opened ≤ 1) :
    Kept present o { o with creator := c', gatewayOpened := opened, gatewayClosed := closed } := by
  simp only [Creator.follows, Bool.and_eq_true, decide_eq_true_eq] at hFollows
  obtain ⟨⟨⟨hHolds, hHolds'⟩, _⟩, hBound⟩ := hFollows
  have hIdle : ∀ {d : Creator}, d.holdsSetup = true → d ≠ .idle := by
    rintro d hd rfl
    cases hd
  refine ⟨?_, { Forward.refl o with gatewayOpened := hOpened, gatewayClosed := hClosed },
    Inv.workers_creator hc hHolds hHolds'⟩
  subst hc
  exact
    { h with
      idle := by
        constructor
        · intro hStarted
          exact absurd (h.idle.mp hStarted) (hIdle hHolds)
        · intro hEq
          exact absurd hEq (hIdle hHolds')
      begun := fun _ => h.begun (hIdle hHolds)
      watched := fun hEq => absurd hEq (hIdle hHolds')
      owned := by
        intro _
        rw [h.owned (hIdle hHolds), hHolds]
        exact ⟨fun _ => hHolds', fun _ => rfl⟩
      balance := hBalance
      unopened := hUnopened
      openedOnce := hOnce
      bound := h.bound.imp_right fun hRank => hRank.trans hBound }

theorem Inv.move
    (hGateway : c'.holdsGateway = c.holdsGateway) : Kept present o { o with creator := c' } := by
  refine h.creator_kept hc hFollows le_rfl le_rfl (by rw [hGateway, ← hc]; exact h.balance) ?_ h.openedOnce
  intro hBefore
  simp only [Creator.follows, hBefore, Bool.and_eq_true] at hFollows
  exact h.unopened (hc ▸ hFollows.1.2)

theorem Inv.moveOpen
    (hBefore : c.beforeStart = true) (hGateway : c'.holdsGateway = true) (hAfter : c'.beforeStart = false) :
    Kept present o { o with creator := c', gatewayOpened := o.gatewayOpened + 1 } := by
  have hNone := h.unopened (hc ▸ hBefore)
  have hBalance := h.balance
  refine h.creator_kept hc hFollows (Nat.le_succ _) le_rfl ?_ (fun hAgain => absurd (hAfter.symm.trans hAgain) nofun)
    (by omega)
  rw [hGateway, if_pos rfl]
  omega

theorem Inv.moveClose
    (hOpen : c.holdsGateway = true) (hGateway : c'.holdsGateway = false) (hAfter : c'.beforeStart = false) :
    Kept present o { o with creator := c', gatewayClosed := o.gatewayClosed + 1 } := by
  have hBalance := h.balance
  rw [hc, hOpen, if_pos rfl] at hBalance
  refine h.creator_kept hc hFollows le_rfl (Nat.le_succ _) ?_ (fun hAgain => absurd (hAfter.symm.trans hAgain) nofun)
    h.openedOnce
  rw [hGateway, if_neg nofun]
  omega

end

end

omit h in
theorem reauthorize_terminal {answer : Option Identity} {now : Instant} {code : Code}
    (h : o.reauthorize answer now = some (state, code)) : terminal state = true := by
  unfold reauthorize at h
  split at h
  · cases h
    rfl
  split at h
  · cases h
  split at h
  · cases h
    rfl
  split at h
  · cases h
    rfl
  · cases h

theorem Inv.transition_kept (hInactive : state ≠ .active)
     (hLater : terminal o.state = true ∨ rank o.state ≤ rank state)
    (hBound : rank state ≤ o.creator.bound) : Kept present o (o.transition state) := by
  unfold transition
  split
  · exact ⟨h, .refl o, rfl⟩
  · rename_i hNot
    rw [Bool.not_eq_true] at hNot
    refine h.enter_kept state "" o.deadline hNot (fun hActive => absurd hActive hInactive) ?_ hBound
    exact hLater.resolve_left (fun hEnd => absurd (hNot.symm.trans hEnd) nofun)

theorem Kept.refl : Kept present o o := ⟨h, .refl o, rfl⟩

omit h in
theorem transition_creator (o : Setup) (state : State) (c : Creator) :
    { o.transition state with creator := c } = transition { o with creator := c } state := by
  by_cases hEnd : terminal o.state = true
  · simp [transition, hEnd]
  · simp [transition, hEnd, enter]

omit h in
theorem terminate_creator (o : Setup) (state : State) (code : Code) : (o.terminate state code).creator = o.creator := by
  unfold terminate
  split <;> rfl

omit h in
theorem terminate_monitor (o : Setup) (state : State) (code : Code) : (o.terminate state code).monitor = o.monitor := by
  unfold terminate
  split <;> rfl

theorem Inv.terminate_move (code : Code) (hState : terminal state = true)
    (hc : o.creator = c) (hFollows : c.follows c' = true) (hGateway : c'.holdsGateway = c.holdsGateway) :
    Kept present o { o.terminate state code with creator := c' } := by
  have hEnd := (terminate_ended o code hState).kept h
  exact hEnd.trans (hEnd.inv.move ((terminate_creator o state code).trans hc) hFollows hGateway)

theorem Inv.move_transition (state : State) (hInactive : state ≠ .active) (hc : o.creator = c)
    (hFollows : c.follows c' = true) (hGateway : c'.holdsGateway = c.holdsGateway) (hLater : c.bound ≤ rank state)
    (hBound : rank state ≤ c'.bound) : Kept present o { o.transition state with creator := c' } := by
  have hMove := h.move hc hFollows hGateway
  rw [transition_creator]
  refine hMove.trans (hMove.inv.transition_kept hInactive ?_ hBound)
  exact h.bound.imp_right fun hRank => hRank.trans (hc ▸ hLater)

theorem Inv.issue_kept {room : Room} (unused : Duration) (now : Instant)
    (hc : o.creator = .issuing room) : Kept present o (o.issue unused now) := by
  unfold issue
  split
  · exact h.move hc rfl rfl
  · rename_i hOpen
    rw [Bool.not_eq_true] at hOpen
    have hRank : rank o.state ≤ 3 := by
      have hBound := h.bound.resolve_left (fun hEnd => absurd (hOpen.symm.trans hEnd) nofun)
      rw [hc] at hBound
      exact hBound
    have hRun : Kept present o { o with creator := .running } := h.move hc rfl rfl
    have hReady := hRun.inv.enter_kept .ready "" o.deadline hOpen nofun (hRank.trans (Nat.le_succ 3))
      (Nat.le_of_ble_eq_true rfl)
    have hIssued := hReady.inv.enter_kept .clientIssued "" (now + unused) rfl nofun (Nat.le_succ 4)
      (Nat.le_of_ble_eq_true rfl)
    exact hRun.trans (hReady.trans hIssued)

theorem Inv.activate_kept (answer : Option Identity) (now : Instant)
    (hc : o.creator = .running) : Kept present o (o.activate answer now).1 := by
  unfold activate
  split
  · exact .refl h
  · rename_i hAllowed
    simp only [not_or, ne_eq, not_not, Bool.not_eq_false] at hAllowed
    obtain ⟨_, _, hState, hClaimed, _⟩ := hAllowed
    refine h.enter_kept .active "" o.deadline (by rw [hState]; rfl) (fun _ => hClaimed) (by rw [hState]; decide) ?_
    rw [hc]
    exact le_rfl

theorem Step.kept {limits : Limits} (hStep : Step limits o o') : Kept present o o' := by
  cases hStep with
  | cancel => exact (cancel_ended o).kept h
  | expire now => exact (expire_ended o now).kept h
  | recheck answer now hm hCheck =>
    refine h.monitor_kept (by rw [hm]; exact ⟨nofun, nofun⟩) nofun nofun ?_
    intro state code hEq
    cases hEq
    exact reauthorize_terminal hCheck
  | @monitorTerminate state code hm =>
    have hEnd := (terminate_ended o code (h.pending _ _ hm)).kept h
    refine hEnd.trans (hEnd.inv.monitor_kept ?_ nofun nofun nofun)
    rw [terminate_monitor, hm]
    exact ⟨nofun, nofun⟩
  | monitorReturn hm hDone =>
    refine h.monitor_kept (by rw [hm]; exact ⟨nofun, nofun⟩) nofun ?_ nofun
    intro _ _
    have hClosed := h.done
    cases present with
    | false => rfl
    | true =>
      rw [if_pos rfl] at hClosed
      omega
  | providerFailed err creationErr hc | providerInvalid hc | providerRoom room hc _ | startFailed timeout hc
  | checkFailed who hc _ | checkOk who hc _ _ | runReturned failed hc => exact h.move hc rfl rfl
  | enterCreated hc => exact h.move_transition .created nofun hc rfl rfl (Nat.le_succ 1) le_rfl
  | enterJoining hc => exact h.move_transition .gatewayJoining nofun hc rfl rfl (Nat.le_succ 2) le_rfl
  | startFailedOpen timeout hc | startOk hc => exact h.moveOpen hc rfl rfl rfl rfl
  | abandon hc | discard hc | gatewayClose hc => exact h.moveClose hc rfl rfl rfl rfl
  | fail hc => exact h.terminate_move _ rfl hc rfl rfl
  | issue now hc => exact h.issue_kept limits.unused now hc
  | activate answer now hc => exact h.activate_kept answer now hc
  | runTerminate hc =>
    split <;> exact h.terminate_move _ rfl hc rfl rfl
  | finishCancel hc =>
    have hEnd := (cancel_ended o).kept h
    exact hEnd.trans (hEnd.inv.move hc rfl rfl)

end

end Setup

end FamilyConnect.RoomBroker
