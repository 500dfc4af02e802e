import FamilyConnect.RoomBroker.Lifecycle

/-!
# Every setup can be cleaned up

Once `Close` has cancelled the contexts, every goroutine has a next step that
brings it closer to its end, whatever it was doing. So from every reachable
state a run leads to an empty map and an idle wait group.
-/

namespace FamilyConnect.RoomBroker

open Lib

def Monitor.rest : Monitor → Nat
  | .terminating _ _ => 3
  | .watching => 2
  | .leaving => 1
  | .exited => 0

def Creator.rest : Creator → Nat
  | .created _ | .issuing _ => 7
  | .joining _ | .checking _ | .running => 6
  | .creating | .starting _ | .abandoning _ | .ending _ => 5
  | .failing _ | .discarding | .closing => 4
  | .finishing => 3
  | .removing => 2
  | .leaving => 1
  | .idle | .exited => 0

namespace Setup

def rest (o : Setup) : Nat := o.monitor.rest + o.creator.rest

def Over (o : Setup) : Prop := o.ctx.isSome = true ∨ 0 < o.doneClosed

variable {limits : Limits} {o : Setup}

theorem terminate_ctx (o : Setup) (state : State) (code : Code) : (o.terminate state code).ctx.isSome = true := by
  unfold terminate cancel
  split <;> simp [enter]

theorem transition_over (h : o.Over) (state : State) : (o.transition state).Over := by
  unfold transition
  split <;> exact h

theorem transition_monitor (o : Setup) (state : State) : (o.transition state).monitor = o.monitor := by
  unfold transition
  split <;> rfl

/-- `Create` always has a next step that does not need the broker. -/
theorem creator_progress (hOver : o.Over) (hHolds : o.creator.holdsSetup = true) (hNot : o.creator ≠ .removing) :
    ∃ o', Step limits o o' ∧ o'.monitor = o.monitor ∧ o'.creator.rest < o.creator.rest ∧ o'.Over := by
  cases hc : o.creator with
  | idle | leaving | exited => rw [hc] at hHolds; cases hHolds
  | removing => exact absurd hc hNot
  | creating => exact ⟨_, .providerFailed none none hc, rfl, Nat.lt_succ_self 4, hOver⟩
  | created room =>
    exact ⟨_, .enterCreated hc, transition_monitor o _, Nat.lt_succ_self 6, transition_over hOver .created⟩
  | joining room =>
    exact ⟨_, .enterJoining hc, transition_monitor o _, Nat.lt_succ_self 5, transition_over hOver .gatewayJoining⟩
  | starting room => exact ⟨_, .startFailed false hc, rfl, Nat.lt_succ_self 4, hOver⟩
  | checking room => exact ⟨_, .checkFailed none hc (.inl nofun), rfl, Nat.lt_succ_self 5, hOver⟩
  | issuing room =>
    refine ⟨_, .issue 0 hc, ?_⟩
    unfold issue
    split
    · exact ⟨rfl, Nat.le_of_ble_eq_true rfl, hOver⟩
    · exact ⟨rfl, Nat.lt_succ_self 6, hOver⟩
  | abandoning code => exact ⟨_, .abandon hc, rfl, Nat.lt_succ_self 4, hOver⟩
  | failing code =>
    exact ⟨_, .fail hc, terminate_monitor o .failed code, Nat.lt_succ_self 3, .inl (terminate_ctx o .failed code)⟩
  | discarding => exact ⟨_, .discard hc, rfl, Nat.lt_succ_self 3, hOver⟩
  | running => exact ⟨_, .runReturned true hc, rfl, Nat.lt_succ_self 5, hOver⟩
  | ending failed =>
    refine ⟨_, .runTerminate hc, ?_⟩
    split <;> exact ⟨terminate_monitor o _ _, Nat.lt_succ_self 4, .inl (terminate_ctx o _ _)⟩
  | closing => exact ⟨_, .gatewayClose hc, rfl, Nat.lt_succ_self 3, hOver⟩
  | finishing =>
    refine ⟨_, .finishCancel hc, rfl, Nat.lt_succ_self 2, .inl ?_⟩
    change (o.ctx.or (some .canceled)).isSome = true
    simp

theorem workers_ne_zero (h : o.workers ≠ 0) :
    o.monitor ≠ .exited ∨ o.creator.holdsSetup = true ∨ o.creator = .leaving := by
  by_contra hNone
  simp only [not_or, not_not] at hNone
  obtain ⟨hMonitor, hCreator, hLeaving⟩ := hNone
  refine h (workers_eq_zero.mpr ⟨hMonitor, ?_⟩)
  cases hc : o.creator with
  | idle => exact .inl rfl
  | exited => exact .inr rfl
  | leaving => exact absurd hc hLeaving
  | _ => rw [hc] at hCreator; exact absurd rfl hCreator

end Setup

namespace Broker

variable {b b' : Broker} {r : Nat} {o o' : Setup}

structure Progress (b b' : Broker) : Prop where
  step : Step b b'
  waiting : b'.waiting = b.waiting
  closer : ∃ (r : Nat) (o o' : Setup), b.heap[r]? = some o ∧ b'.heap = b.heap.set r o' ∧ o'.rest < o.rest ∧ o'.Over

theorem progress_setup (ho : b.heap[r]? = some o) (hStep : Setup.Step b.limits o o') (hRest : o'.rest < o.rest)
    (hOver : o'.Over) : ∃ b', Progress b b' :=
  ⟨_, .setup ho hStep, rfl, r, o, o', ho, Heap.modify_eq_set _ ho, hRest, hOver⟩

theorem monitor_progress (ho : b.heap[r]? = some o) (hOver : o.Over) (hHere : o.monitor ≠ .exited) :
    ∃ b', Progress b b' := by
  cases hm : o.monitor with
  | exited => exact absurd hm hHere
  | leaving =>
    refine ⟨_, .monitorExit ho hm, rfl, r, o, _, ho, Heap.modify_eq_set _ ho, ?_, hOver⟩
    unfold Setup.rest
    rw [hm]
    exact Nat.add_lt_add_right Nat.one_pos _
  | terminating state code =>
    refine progress_setup ho (.monitorTerminate hm) ?_ (.inl (o.terminate_ctx state code))
    unfold Setup.rest
    rw [hm]
    change 2 + (o.terminate state code).creator.rest < _
    rw [Setup.terminate_creator]
    exact Nat.add_lt_add_right (Nat.lt_succ_self 2) _
  | watching =>
    have hRest : ∀ {c : Creator}, c = o.creator → Monitor.leaving.rest + c.rest < o.rest := by
      rintro _ rfl
      unfold Setup.rest
      rw [hm]
      exact Nat.add_lt_add_right (Nat.lt_succ_self 1) _
    rcases hOver with hEnded | hDone
    · obtain ⟨⟨state, events, ctx, hEq⟩, _⟩ := o.contextDone_ended
      have hCreator : o.contextDone.creator = o.creator := by rw [hEq]
      have hCtx : o.contextDone.ctx.isSome = true := by
        unfold Setup.contextDone
        split
        · exact hEnded
        split <;> exact hEnded
      have hStep := Step.monitorDone ho hm hEnded
      revert hStep
      unfold Broker.monitorDone
      split <;> intro hStep
      · exact ⟨_, hStep, rfl, r, o, _, ho, Heap.modify_eq_set _ ho, hRest hCreator, .inl hCtx⟩
      · exact ⟨_, hStep, rfl, r, o, _, ho, modify_remove ho _ _, hRest hCreator, .inl hCtx⟩
    · exact progress_setup ho (.monitorReturn hm hDone) (hRest rfl) (.inr hDone)

theorem creator_progress (ho : b.heap[r]? = some o) (hOver : o.Over)
    (hHere : o.creator.holdsSetup = true ∨ o.creator = .leaving) : ∃ b', Progress b b' := by
  have hRest : ∀ {c c' : Creator}, o.creator = c → c'.rest < c.rest → o.monitor.rest + c'.rest < o.rest := by
    rintro _ c' rfl h
    exact Nat.add_lt_add_left h _
  rcases hHere with hHolds | hc
  · by_cases hc : o.creator = .removing
    · have hStep := Step.finish ho hc
      revert hStep
      unfold Broker.finish
      dsimp only
      split <;> intro hStep
      · exact ⟨_, hStep, rfl, r, o, _, ho, modify_remove ho _ _, hRest hc (Nat.lt_succ_self 1),
          hOver.imp_right (Nat.lt_succ_of_lt ·)⟩
      · exact ⟨_, hStep, rfl, r, o, _, ho, Heap.modify_eq_set _ ho, hRest hc (Nat.lt_succ_self 1), hOver⟩
    · obtain ⟨o', hStep, hMonitor, hLess, hOver'⟩ := Setup.creator_progress hOver hHolds hc
      refine progress_setup ho hStep ?_ hOver'
      unfold Setup.rest
      rw [hMonitor]
      exact Nat.add_lt_add_left hLess _
  · exact ⟨_, .creatorExit ho hc, rfl, r, o, _, ho, Heap.modify_eq_set _ ho, hRest hc Nat.one_pos, hOver⟩

theorem Inv.progress (h : b.Inv) (hOver : ∀ (r : Nat) (o : Setup), b.heap[r]? = some o → o.Over)
    (hBusy : b.workers ≠ 0) : ∃ b', Progress b b' := by
  obtain ⟨o, hMem, hWorkers⟩ : ∃ o ∈ b.heap, o.workers ≠ 0 := by
    by_contra hNone
    push Not at hNone
    refine hBusy (h.workers.trans ?_)
    have hSum : (b.heap.map Setup.workers).sum = 0 := by
      refine List.sum_eq_zero fun n hn => ?_
      obtain ⟨o, hMem, rfl⟩ := List.mem_map.mp hn
      exact hNone o hMem
    rw [hSum]
    rfl
  obtain ⟨r, ho⟩ := List.mem_iff_getElem?.mp hMem
  rcases Setup.workers_ne_zero hWorkers with hHere | hHere
  · exact monitor_progress ho (hOver r o ho) hHere
  · exact creator_progress ho (hOver r o ho) hHere

theorem Inv.drain (h : b.Inv) (hOver : ∀ (r : Nat) (o : Setup), b.heap[r]? = some o → o.Over) :
    ∃ b', Relation.ReflTransGen Step b b' ∧ b'.workers = 0 ∧ b'.waiting = b.waiting := by
  induction hRest : (b.heap.map Setup.rest).sum using Nat.strong_induction_on generalizing b with
  | _ n ih =>
    by_cases hBusy : b.workers = 0
    · exact ⟨b, .refl, hBusy, rfl⟩
    obtain ⟨b', hStep, hWaiting, r, o, o', ho, hHeap, hLess, hOver'⟩ := h.progress hOver hBusy
    have hSum := Heap.sum_map_set (y := o') Setup.rest ho
    rw [← hHeap] at hSum
    obtain ⟨b'', hSteps, hIdle, hWaiting'⟩ := ih _ (by omega) (h.step hStep).1 (fun i x hx => by
      rw [hHeap] at hx
      rcases Heap.get_set_cases hx with ⟨_, rfl⟩ | ⟨_, hx⟩
      · exact hOver'
      · exact hOver i x hx) rfl
    exact ⟨b'', hSteps.head hStep, hIdle, hWaiting'.trans hWaiting⟩

theorem Inv.close_over (h : b.Inv) (hx : b.close.heap[r]? = some o) : o.Over := by
  change (b.heap.mapIdx _)[r]? = some o at hx
  rw [List.getElem?_mapIdx] at hx
  obtain ⟨x, ho, rfl⟩ := Option.map_eq_some_iff.mp hx
  split
  · refine .inl ?_
    change (x.ctx.or (some .canceled)).isSome = true
    simp
  · rename_i hGone
    have hDone := (h.setup r x ho).done
    have hAbsent : b.present r x = false := by
      rw [← Bool.not_eq_true, present_iff]
      exact hGone
    rw [hAbsent] at hDone
    exact .inr (by rw [hDone]; decide)

theorem Inv.cleanup (h : b.Inv) : ∃ b', Relation.ReflTransGen Step b b' ∧ 0 < b'.returned := by
  obtain ⟨b', hSteps, hIdle, hWaiting⟩ := h.close.1.drain fun r o ho => h.close_over ho
  have hWaits : 0 < b'.waiting := hWaiting ▸ Nat.succ_pos _
  exact ⟨_, (hSteps.head .close).tail (.closeReturn hWaits hIdle), Nat.succ_pos _⟩

theorem Inv.gatewayClosed (h : b.Inv) (ho : b.heap[r]? = some o) (hGone : b.present r o = false) :
    o.gatewayClosed = o.gatewayOpened := by
  have hSetup := h.setup r o ho
  have hReleased : o.creator.holdsGateway = false := by
    by_cases hIdle : o.creator = .idle
    · rw [hIdle]
      rfl
    · have hFree := mt (hSetup.owned hIdle).mpr (by rw [hGone]; nofun)
      cases hc : o.creator <;> first | rfl | (rw [hc] at hFree; exact absurd rfl hFree)
  have hBalance := hSetup.balance
  rw [hReleased] at hBalance
  exact hBalance

theorem Inv.returned (h : b.Inv) (hReturned : 0 < b.returned) (ho : b.heap[r]? = some o) :
    b.present r o = false ∧ o.doneClosed = 1 ∧ o.workers = 0 ∧ o.gatewayClosed = o.gatewayOpened := by
  have hIdle := (h.shut hReturned).2
  have hGone : b.present r o = false := by
    rw [← Bool.not_eq_true, present_iff, h.lookup_of_idle hIdle]
    nofun
  have hDone := (h.setup r o ho).done
  rw [hGone] at hDone
  have hShare := Heap.le_sum_map Setup.workers ho
  have hTotal := h.workers
  exact ⟨hGone, hDone, by omega, h.gatewayClosed ho hGone⟩

theorem step_limits (h : Step b b') : b'.limits = b.limits := by
  cases h with
  | challenge | create | claim | cancel | renew | monitorDone | finish =>
    simp only [challenge, create, claim, cancel, renew, monitorDone, finish]
    repeat' split
    all_goals rfl
  | _ => rfl

end Broker

theorem broker_limits {limits : Limits} {b : Broker} (h : (brokerSystem limits).Reachable b) : b.limits = limits := by
  refine System.Reachable.invariant (I := fun b => b.limits = limits) ?_ ?_ h
  · intro b hNew
    rw [(new_ok hNew).1]
  · intro b b' _ hSame hStep
    exact (Broker.step_limits hStep).trans hSame

theorem new_defaultLimits : new defaultLimits = .ok { limits := defaultLimits } := by
  unfold new
  exact if_neg (by decide +kernel)

end FamilyConnect.RoomBroker
