import FamilyConnect.TCPForward.Scheduler

/-!
# Callers that wait for a slot

`OpenTCP` calls of one class get their slots in the order in which they wait, whatever the peer sends.
-/

namespace FamilyConnect.TCPForward

open Lib

/-- The part of a mux that only calls of `OpenTCP` change. -/
structure Queue where
  nextID : Nat
  admission : List Waiter
  nextTicket : Nat

def Mux.queue (m : Mux) : Queue := ⟨m.nextID, m.admission, m.nextTicket⟩

namespace Queue

variable {pkg : Packages} {q q' : Queue}

def waiting (pkg : Packages) (q : Queue) (lease : Bool) : List Waiter :=
  q.admission.filter fun w => leaseRequest pkg w.request = lease

structure Inv (pkg : Packages) (q : Queue) : Prop where
  tickets : ∀ w ∈ q.admission, w.ticket < q.nextTicket
  order : q.admission.Pairwise fun w w' => w.ticket < w'.ticket
  room : ∀ lease, (q.waiting pkg lease).length ≤ if lease then 1 else muxMaxPendingOpens

end Queue

namespace Mux

variable {pkg : Packages} {Polite : Nat → Prop} {m m' : Mux}

theorem queue_modify (id : Nat) (f : Stream → Stream) : (m.modify id f).queue = m.queue := by
  unfold modify
  split <;> rfl

theorem queue_controlLocked (frame : Frame) : (m.controlLocked frame).queue = m.queue := by
  unfold controlLocked
  repeat' split
  all_goals rfl

theorem queue_setJobs (lease : Bool) (jobs : Nat) : (m.setJobs lease jobs).queue = m.queue := by
  unfold setJobs
  split <;> rfl

theorem queue_admitOpen (id : Nat) (request : OpenRequest) : (m.admitOpen pkg id request).queue = m.queue := by
  unfold admitOpen
  dsimp only
  repeat' split
  all_goals first
    | rfl
    | exact queue_controlLocked _
    | rw [queue_setJobs, queue_modify]; rfl

theorem queue_nextLocked : m.nextLocked.1.queue = m.queue := by
  have hTurn := turn_nextLocked m
  generalize m.nextLocked = result at hTurn
  cases hTurn <;> rfl

theorem queue_collect (room budget : Nat) (frames : List Frame) : (collect room m frames budget).queue = m.queue := by
  induction room generalizing m frames budget with
  | zero => rfl
  | succ room ih =>
    have hNext := m.queue_nextLocked
    unfold collect
    repeat' split
    all_goals simp_all [Mux.queue]

theorem queue_gather : m.gather.queue = m.queue := by
  have hNext := m.queue_nextLocked
  unfold gather
  repeat' split
  all_goals simp_all [queue_collect]
  rfl

theorem queue_settle (frames : List Frame) : (frames.foldl settle m).queue = m.queue := by
  induction frames generalizing m with
  | nil => rfl
  | cons frame frames ih =>
    rw [List.foldl_cons, ih]
    unfold settle
    repeat' split
    all_goals rfl

theorem queue_dispatchLocked (frame : Frame) : (m.dispatchLocked pkg frame).queue = m.queue := by
  unfold dispatchLocked dnsFrameLocked openRequested
  dsimp only
  repeat' split
  all_goals first
    | rfl
    | exact queue_controlLocked _
    | exact queue_admitOpen _ _

theorem openAdmitted_cases (m : Mux) (pkg : Packages) (request : OpenRequest) :
    m.openAdmitted pkg request = m ∨
      (m.openAdmitted pkg request).queue = { m.queue with nextID := m.nextID + 2 } ∧
        ((m.openAdmitted pkg request).object m.nextID).map Stream.lease = some (leaseRequest pkg request) := by
  unfold openAdmitted
  split
  · exact .inl rfl
  right
  refine ⟨queue_controlLocked _, ?_⟩
  unfold controlLocked
  repeat' split
  all_goals simp [makeStreamLocked, put, Stream.make]

/-- Renewals of leases and other calls wait apart. A call joins at the end, can give up at any time, and opens its
stream as the first of its class. -/
inductive Calls (pkg : Packages) (m m' : Mux) : Prop where
  | elsewhere : m'.queue = m.queue → Calls pkg m m'
  | join (request : OpenRequest) : m' = m.openTCP pkg request →
      (m.queue.waiting pkg (leaseRequest pkg request)).length <
        (if leaseRequest pkg request then 1 else muxMaxPendingOpens) →
      m'.queue = { m.queue with
        admission := m.admission ++ [⟨m.nextTicket, request⟩], nextTicket := m.nextTicket + 1 } →
      Calls pkg m m'
  | leave (w : Waiter) : m' = { m with admission := m.admission.erase w } → Calls pkg m m'
  | pass (request : OpenRequest) : m' = m.openTCP pkg request →
      m.queue.waiting pkg (leaseRequest pkg request) = [] → m'.queue = { m.queue with nextID := m.nextID + 2 } →
      (m'.object m.nextID).map Stream.lease = some (leaseRequest pkg request) → Calls pkg m m'
  | serve (w : Waiter) : m' = m.openRetry pkg w →
      (m.queue.waiting pkg (leaseRequest pkg w.request)).head? = some w →
      m'.queue = { m.queue with nextID := m.nextID + 2, admission := m.admission.erase w } →
      (m'.object m.nextID).map Stream.lease = some (leaseRequest pkg w.request) → Calls pkg m m'

theorem inv_calls (h : m.queue.Inv pkg) (hCalls : m.Calls pkg m') : m'.queue.Inv pkg := by
  have hErase : ∀ w nextID, Queue.Inv pkg { m.queue with nextID := nextID, admission := m.admission.erase w } := by
    intro w nextID
    refine ⟨fun w' hMem => h.tickets w' (List.mem_of_mem_erase hMem),
      h.order.sublist List.erase_sublist, fun lease => ?_⟩
    exact (List.erase_sublist.filter _).length_le.trans (h.room lease)
  cases hCalls with
  | elsewhere hQueue => exact hQueue ▸ h
  | pass _ _ _ hQueue _ => exact hQueue ▸ ⟨h.tickets, h.order, h.room⟩
  | leave w hLeft => exact hLeft ▸ hErase w m.nextID
  | serve w _ _ hQueue _ => exact hQueue ▸ hErase w (m.nextID + 2)
  | join request _ hRoom hQueue =>
    obtain ⟨hTickets, hOrder, hOld⟩ := h
    rw [hQueue]
    refine ⟨by grind [Mux.queue], by grind [Mux.queue], fun lease => ?_⟩
    by_cases hClass : leaseRequest pkg request = lease
    · subst hClass
      simpa [Queue.waiting, Mux.queue] using hRoom
    · simpa [hClass, Queue.waiting, Mux.queue] using hOld lease

theorem calls_local (hLocal : Local pkg m m') : m.Calls pkg m' := by
  cases hLocal with
  | openTCP request =>
    generalize hOpen : m.openTCP pkg request = m'
    have hResult := hOpen
    unfold openTCP at hResult
    dsimp only at hResult
    split_ifs at hResult with _ hFree hRefused
    · exact .elsewhere (hResult ▸ rfl)
    · rcases m.openAdmitted_cases pkg request with hSame | ⟨hQueue, hClass⟩
      · exact .elsewhere (by rw [← hResult, hSame])
      · rw [hResult] at hQueue hClass
        exact .pass request hOpen.symm (List.length_eq_zero_iff.mp hFree.2) hQueue hClass
    · exact .elsewhere (hResult ▸ rfl)
    · refine .join request hOpen.symm ?_ (hResult ▸ rfl)
      cases hClass : leaseRequest pkg request <;> simp_all [Queue.waiting, Mux.queue]
  | openRetry w =>
    generalize hRetry : m.openRetry pkg w = m'
    have hResult := hRetry
    unfold openRetry at hResult
    dsimp only at hResult
    split_ifs at hResult with hTurn
    · rcases openAdmitted_cases { m with admission := m.admission.erase w } pkg w.request with hSame | ⟨hQueue, hClass⟩
      · exact .leave w (hResult.symm.trans hSame)
      · rw [hResult] at hQueue hClass
        refine .serve w hRetry.symm ?_ hQueue hClass
        rw [Queue.waiting, List.head?_filter]
        exact hTurn.2.1
    · exact .elsewhere (hResult ▸ rfl)
  | openAbandon w => exact .leave w rfl
  | awaitRetry => exact .elsewhere (queue_admitOpen _ _)
  | read | write | closeWrite | reset | close => exact .elsewhere (queue_modify _ _)
  | gather => exact .elsewhere queue_gather
  | sendDone => exact .elsewhere (queue_settle m.sent)
  | dnsExit | cancel | fail | shutdown => exact .elsewhere rfl
  -- Streams and DNS do not touch the queue.
  | _ =>
    apply Calls.elsewhere
    simp only [leaseStart, handlerDone, connectDone, copyDone, drain, workerExit, queryDNS, queryDone, resolveDNS]
    repeat' split
    all_goals first
      | rfl
      | exact queue_setJobs _ _
      | exact queue_controlLocked _

theorem calls_step (hStep : Step pkg Polite m m') : m.Calls pkg m' := by
  cases hStep with
  | act hLocal => exact calls_local hLocal
  | transmit hTransmit =>
    cases hTransmit
    exact .elsewhere rfl
  | receive _ hDecode _ =>
    rw [receive_eq hDecode]
    exact .elsewhere (queue_dispatchLocked _)

/-- Calls of one class open their streams in the order in which they came, and nothing else changes the queues. -/
theorem opens_in_turn (h : (system pkg Polite).Reachable m) :
    m.queue.Inv pkg ∧ ∀ m', Step pkg Polite m m' → m.Calls pkg m' := by
  refine ⟨?_, fun _ => calls_step⟩
  refine System.Reachable.invariant (I := fun m => m.queue.Inv pkg) ?_
    (fun _ _ _ hInv hStep => inv_calls hInv (calls_step hStep)) h
  rintro _ ⟨_, _, _, _, _, _, rfl⟩
  exact ⟨by rintro _ ⟨⟩, .nil, fun _ => Nat.zero_le _⟩

/-- Three callers wait for the only slot, and the first of them has given up. -/
theorem opens_in_turn_third :
    ∃ m : Mux, (system Sample.packages fun _ => True).Reachable m ∧ m.admission.map Waiter.ticket = [1, 2] ∧
      m.queue.Inv Sample.packages ∧ ∀ m', Step Sample.packages (fun _ => True) m m' → m.Calls Sample.packages m' := by
  have hStart : (system Sample.packages fun _ => True).Reachable
      (newMux muxWindow false { maxStreams := 1, waitForSlot := true } false) :=
    .start ⟨_, _, _, _, .inl rfl, rfl, rfl⟩
  have hOpen := fun {m} (h : (system Sample.packages fun _ => True).Reachable m) =>
    h.next (.act (.openTCP Sample.request))
  have hLeft := (hOpen (hOpen (hOpen (hOpen hStart)))).next (.act (.openAbandon ⟨0, Sample.request⟩))
  exact ⟨_, hLeft, rfl, opens_in_turn hLeft⟩

end Mux

end FamilyConnect.TCPForward
