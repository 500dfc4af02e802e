import FamilyConnect.Lib.Rotation
import FamilyConnect.TCPForward.AnyPeer

/-!
# The scheduler of the mux

`Scan` says which stream a pass over the streams stops at, and `Turn` lists
what one call of `nextLocked` does. A `Feed` is a mux from any reachable state
on, while frames are queued and `nextLocked` is called in any order.
-/

namespace FamilyConnect.TCPForward

open Lib Relation

variable {result : Mux × Option Frame}

namespace Mux

/-! ## One pass over the streams -/

/-- What a pass takes from a stream that it comes to, and what is left of the stream. -/
def offer (m : Mux) (dataOnly : Bool) (id : Nat) : Option (Stream × Frame) :=
  (m.lookup id).bind fun s =>
    if dataOnly = false ∧ 0 < s.creditPending ∧ s.terminal = none then
      some ({ s with creditPending := 0 }, ⟨.windowUpdate, id, BigEndian.put 4 s.creditPending⟩)
    else
      match s.send with
      | [] => none
      | frame :: rest =>
        if dataOnly = decide (frame.kind = .dataFrame) then some ({ s with send := rest }, frame) else none

abbrev Skips (m : Mux) (dataOnly : Bool) (k : Nat) : Prop :=
  ∀ j < k, ∀ i, Rotation.slot m.order m.cursor j = some i → m.offer dataOnly i = none

inductive Scan (dataOnly : Bool) (count : Nat) (m : Mux) : Mux × Option Frame → Prop where
  | found {k id : Nat} {s : Stream} {frame : Frame} : k < count → Rotation.slot m.order m.cursor k = some id →
      m.offer dataOnly id = some (s, frame) → m.Skips dataOnly k →
      Scan dataOnly count m ({ m with cursor := Rotation.behind m.order m.cursor k }.put id s, some frame)
  | missed {cursor : Nat} : m.Skips dataOnly count →
      cursor % m.order.length = (m.cursor + count) % m.order.length → cursor ≤ max m.cursor m.order.length →
      Scan dataOnly count m ({ m with cursor := cursor }, none)

variable {pkg : Packages} {Polite : Nat → Prop} {m m' : Mux} {id : Nat} {frame : Frame} {s : Stream}
  {dataOnly : Bool} {cursor : Nat}

theorem pickLoop_succ (dataOnly : Bool) (count : Nat) (h : Rotation.slot m.order m.cursor 0 = some id) :
    pickLoop dataOnly (count + 1) m =
      match m.offer dataOnly id with
      | some (s, frame) => ({ m with cursor := Rotation.behind m.order m.cursor 0 }.put id s, some frame)
      | none => pickLoop dataOnly count { m with cursor := Rotation.behind m.order m.cursor 0 } := by
  have hId : m.order[m.cursor % m.order.length]? = some id := h
  have hBehind : Rotation.behind m.order m.cursor 0 = m.cursor % m.order.length + 1 := rfl
  have hLookup : ∀ cursor, { m with cursor := cursor }.lookup id = m.lookup id := fun _ => rfl
  rw [pickLoop, hId, hBehind]
  simp only [hLookup, offer]
  cases m.lookup id with
  | none => rfl
  | some s =>
    simp only [Option.bind_some]
    split
    · rfl
    cases s.send with
    | nil => rfl
    | cons frame rest =>
      dsimp only
      split <;> rfl

theorem scan_pickLoop (dataOnly : Bool) (count : Nat) (m : Mux) (hCount : count ≤ m.order.length) :
    Scan dataOnly count m (pickLoop dataOnly count m) := by
  induction count generalizing m with
  | zero =>
    apply Scan.missed
    · exact fun j hj => absurd hj (Nat.not_lt_zero j)
    · rfl
    · exact Nat.le_max_left _ _
  | succ count ih =>
    have hPos : 0 < m.order.length := Nat.zero_lt_of_lt hCount
    obtain ⟨id, hSlot⟩ : ∃ id, Rotation.slot m.order m.cursor 0 = some id :=
      ⟨_, List.getElem?_eq_getElem (Nat.mod_lt _ hPos)⟩
    rw [pickLoop_succ dataOnly count hSlot]
    split
    · rename_i s frame hOffer
      exact .found (Nat.succ_pos count) hSlot hOffer fun j hj => absurd hj (Nat.not_lt_zero j)
    · rename_i hOffer
      have hRest := ih { m with cursor := Rotation.behind m.order m.cursor 0 } (Nat.le_of_succ_le hCount)
      generalize pickLoop dataOnly count { m with cursor := Rotation.behind m.order m.cursor 0 } = result at hRest
      -- slot `j` of the rest is slot `j + 1` of the whole pass
      have hShift : ∀ j, Rotation.slot m.order (Rotation.behind m.order m.cursor 0) j =
          Rotation.slot m.order m.cursor (j + 1) := by
        intro j
        rw [Rotation.slot_behind, Nat.zero_add, Nat.add_comm]
      have hIdle : ∀ bound, Skips { m with cursor := Rotation.behind m.order m.cursor 0 } dataOnly bound →
          m.Skips dataOnly (bound + 1) := by
        intro bound hRestIdle j hj i hi
        cases j with
        | zero =>
          rw [hSlot] at hi
          cases hi
          exact hOffer
        | succ j => exact hRestIdle j (Nat.lt_of_succ_lt_succ hj) i ((hShift j).trans hi)
      have hMod : ∀ k, (Rotation.behind m.order m.cursor 0 + k) % m.order.length =
          (m.cursor + (k + 1)) % m.order.length := by
        intro k
        have hLeft : Rotation.behind m.order m.cursor 0 + k = m.cursor % m.order.length + (k + 1) := by
          simp only [Rotation.behind, Nat.add_zero]
          omega
        rw [hLeft]
        exact (Nat.mod_modEq _ _).add_right _
      cases hRest with
      | @found k id s frame hk hFound hTaken hBefore =>
        have hCursor : Rotation.behind m.order (Rotation.behind m.order m.cursor 0) k =
            Rotation.behind m.order m.cursor (k + 1) := congrArg (· + 1) (hMod k)
        rw [hCursor]
        exact .found (Nat.succ_lt_succ hk) ((hShift k).symm.trans hFound) hTaken (hIdle k hBefore)
      | missed hNone hEnd hRange =>
        refine .missed (hIdle count hNone) (hEnd.trans (hMod count)) (hRange.trans ?_)
        exact max_le (le_max_of_le_right (Rotation.behind_le hSlot)) (le_max_right _ _)

/-! ## One call of the scheduler -/

def Starved (m : Mux) : Prop := ∀ id ∈ m.order, m.offer true id = none

inductive Turn (m : Mux) : Mux × Option Frame → Prop where
  | data {k id : Nat} {s : Stream} {frame : Frame} : k < m.order.length →
      Rotation.slot m.order m.cursor k = some id → m.offer true id = some (s, frame) → m.Skips true k →
      Turn m ({ m with cursor := Rotation.behind m.order m.cursor k, priorityBurst := 0 }.put id s, some frame)
  | control {cursor : Nat} {frame : Frame} {rest : List Frame} : m.control = frame :: rest →
      cursor % m.order.length = m.cursor % m.order.length → cursor ≤ max m.cursor m.order.length →
      (8 ≤ m.priorityBurst → m.Starved) →
      Turn m ({ m with control := rest, cursor := cursor, priorityBurst := m.priorityBurst + 1 }, some frame)
  | priority {k id : Nat} {s : Stream} {frame : Frame} : m.control = [] → (8 ≤ m.priorityBurst → m.Starved) →
      Rotation.slot m.order m.cursor k = some id → m.offer false id = some (s, frame) → m.Skips false k →
      Turn m ({ m with cursor := Rotation.behind m.order m.cursor k, priorityBurst := m.priorityBurst + 1 }.put id s, some frame)
  | nothing {cursor : Nat} : m.control = [] → (∀ id ∈ m.order, ∀ dataOnly, m.offer dataOnly id = none) →
      cursor % m.order.length = m.cursor % m.order.length → cursor ≤ max m.cursor m.order.length →
      Turn m ({ m with cursor := cursor, priorityBurst := 0 }, none)

theorem all_of_slots {P : Nat → Prop} (h : ∀ j < m.order.length, ∀ i, Rotation.slot m.order m.cursor j = some i → P i) :
    ∀ i ∈ m.order, P i := by
  intro i hi
  obtain ⟨j, hj, hSlot⟩ := Rotation.exists_slot m.cursor hi
  exact h j hj i hSlot

theorem turn_dataPass (hCursor : cursor % m.order.length = m.cursor % m.order.length)
    (hRange : cursor ≤ max m.cursor m.order.length)
    (hControl : m.control = []) (hNone : ∀ id ∈ m.order, m.offer false id = none) :
    Turn m (pickLocked { m with cursor := cursor, priorityBurst := 0 } true) := by
  have hScan := scan_pickLoop true m.order.length { m with cursor := cursor, priorityBurst := 0 } le_rfl
  rw [pickLocked]
  generalize pickLoop true m.order.length { m with cursor := cursor, priorityBurst := 0 } = result at hScan
  have hSlots := Rotation.slot_congr hCursor
  cases hScan with
  | @found k id s frame hk hSlot hOffer hBefore =>
    rw [Rotation.behind_congr hCursor]
    exact .data hk ((hSlots k).symm.trans hSlot) hOffer fun j hj i hi => hBefore j hj i ((hSlots j).trans hi)
  | missed hNoData hEnd hStop =>
    refine .nothing hControl (fun id hId dataOnly => ?_) ?_ (hStop.trans (max_le hRange (le_max_right _ _)))
    · cases dataOnly with
      | false => exact hNone id hId
      | true => exact all_of_slots (m := { m with cursor := cursor }) hNoData id hId
    · rw [hEnd, Nat.add_mod_right]
      exact hCursor

/-- The part of a call after the delayed turn of the data frames, which may have moved the cursor once around. -/
theorem turn_nextPriority (hCursor : cursor % m.order.length = m.cursor % m.order.length)
    (hRange : cursor ≤ max m.cursor m.order.length) (hStarved : 8 ≤ m.priorityBurst → m.Starved) :
    Turn m { m with cursor := cursor }.nextPriority := by
  unfold nextPriority
  dsimp only
  split
  · rename_i frame rest hControl
    exact .control hControl hCursor hRange hStarved
  rename_i hControl
  have hFirst := scan_pickLoop false m.order.length
    { m with cursor := cursor, priorityBurst := m.priorityBurst + 1 } le_rfl
  split
  · rename_i m₁ frame hPick
    rw [pickLocked] at hPick
    rw [hPick] at hFirst
    cases hFirst with
    | @found k _ _ _ _ hSlot hOffer hBefore =>
      have hSlots := Rotation.slot_congr hCursor
      rw [Rotation.behind_congr hCursor]
      exact .priority hControl hStarved ((hSlots k).symm.trans hSlot) hOffer
        fun j hj i hi => hBefore j hj i ((hSlots j).trans hi)
  · rename_i m₁ hPick
    rw [pickLocked] at hPick
    rw [hPick] at hFirst
    cases hFirst with
    | missed hNone hAround hStop =>
      refine turn_dataPass ?_ (hStop.trans (max_le hRange (le_max_right _ _))) hControl
        (all_of_slots (m := { m with cursor := cursor }) hNone)
      rw [hAround, Nat.add_mod_right]
      exact hCursor

theorem turn_nextLocked (m : Mux) : Turn m m.nextLocked := by
  unfold nextLocked
  split
  · have hData := scan_pickLoop true m.order.length m le_rfl
    split
    · rename_i m₁ frame hPick
      rw [pickLocked] at hPick
      rw [hPick] at hData
      cases hData with
      | found hk hSlot hOffer hBefore => exact .data hk hSlot hOffer hBefore
    · rename_i m₁ hPick
      rw [pickLocked] at hPick
      rw [hPick] at hData
      cases hData with
      | missed hNone hEnd hRange =>
        refine turn_nextPriority ?_ hRange ?_
        · rw [hEnd, Nat.add_mod_right]
        · exact fun _ => all_of_slots hNone
  · rename_i hBurst
    exact turn_nextPriority rfl (le_max_left _ _) fun hEight => absurd hEight hBurst

/-! ## Queues -/

inductive Source where
  | control
  | queue (id : Nat)
  | credit (id : Nat)
  deriving DecidableEq

def contents (m : Mux) : Source → List Frame
  | .control => m.control
  | .queue id => (m.object id).elim [] Stream.send
  | .credit _ => []

structure Leaves (m : Mux) (source : Source) (frame : Frame) (m' : Mux) : Prop where
  head : m.contents source = frame :: m'.contents source ∨ (∃ id, source = .credit id) ∧ frame.kind = .windowUpdate
  others : ∀ other, other ≠ source → m'.contents other = m.contents other

theorem Leaves.source_eq {source other : Source} (h : Leaves m source frame m')
    (hChanged : m'.contents other ≠ m.contents other) : other = source := by
  by_contra hNe
  exact hChanged (h.others other hNe)

def Ready (m : Mux) (id : Nat) : Prop :=
  ∃ s frame rest, m.lookup id = some s ∧ s.send = frame :: rest ∧ frame.kind = .dataFrame

theorem ready_iff (m : Mux) (id : Nat) :
    ((m.lookup id).bind fun s => s.send.head?).any (fun frame => frame.kind = .dataFrame) = true ↔ m.Ready id := by
  simp only [Ready, Option.any_eq_true, Option.bind_eq_some_iff, List.head?_eq_some_iff, decide_eq_true_eq]
  constructor
  · rintro ⟨frame, ⟨s, hLookup, rest, hSend⟩, hKind⟩
    exact ⟨s, frame, rest, hLookup, hSend, hKind⟩
  · rintro ⟨s, frame, rest, hLookup, hSend, hKind⟩
    exact ⟨frame, ⟨s, hLookup, rest, hSend⟩, hKind⟩

instance (m : Mux) (id : Nat) : Decidable (m.Ready id) := decidable_of_iff _ (ready_iff m id)

theorem object_of_lookup (h : m.lookup id = some s) : id ∈ m.streams ∧ m.object id = some s :=
  Core.object_of_lookup (c := m.core) h

theorem offer_some {s' : Stream} (h : m.offer dataOnly id = some (s', frame)) :
    ∃ s, m.lookup id = some s ∧
      (s.send = frame :: s'.send ∧ dataOnly = decide (frame.kind = .dataFrame) ∨
        dataOnly = false ∧ s'.send = s.send ∧ frame.kind = .windowUpdate) := by
  unfold offer at h
  obtain ⟨s, hLookup, hTaken⟩ := Option.bind_eq_some_iff.mp h
  refine ⟨s, hLookup, ?_⟩
  split at hTaken
  · rename_i hCredit
    cases hTaken
    exact .inr ⟨hCredit.1, rfl, rfl⟩
  split at hTaken
  · cases hTaken
  · rename_i first rest hSend
    split at hTaken
    · cases hTaken
      exact .inl ⟨hSend, ‹_›⟩
    · cases hTaken

theorem Ready.offer (h : m.Ready id) : m.offer true id ≠ none := by
  obtain ⟨s, frame, rest, hLookup, hSend, hKind⟩ := h
  simp [Mux.offer, hLookup, hSend, hKind]

theorem offer_of_queued (hLookup : m.lookup id = some s)
    (h : 0 < s.creditPending ∧ s.terminal = none ∨ s.send ≠ []) : ∃ dataOnly, m.offer dataOnly id ≠ none := by
  by_cases hCredit : 0 < s.creditPending ∧ s.terminal = none
  · exact ⟨false, by simp [offer, hLookup, hCredit]⟩
  · obtain ⟨frame, rest, hSend⟩ := List.exists_cons_of_ne_nil (h.resolve_left hCredit)
    refine ⟨decide (frame.kind = .dataFrame), ?_⟩
    simp only [offer, hLookup, Option.bind_some, hCredit, and_false, if_false, hSend, if_true]
    exact Option.some_ne_none _

theorem leaves_offer {s' : Stream} (hOffer : m.offer dataOnly id = some (s', frame)) (cursor burst : Nat) :
    ∃ source, Leaves m source frame ({ m with cursor := cursor, priorityBurst := burst }.put id s') := by
  obtain ⟨s, hLookup, hTaken⟩ := offer_some hOffer
  have hOld : m.contents (.queue id) = s.send := by
    simp [contents, (object_of_lookup hLookup).2]
  have hNew : ({ m with cursor := cursor, priorityBurst := burst }.put id s').contents (.queue id) = s'.send := by
    simp [contents, put]
  have hOther : ∀ other, other ≠ .queue id →
      ({ m with cursor := cursor, priorityBurst := burst }.put id s').contents other = m.contents other := by
    intro other hNe
    cases other with
    | control | credit _ => rfl
    | queue i =>
      have hi : i ≠ id := fun hEq => hNe (hEq ▸ rfl)
      simp [contents, put, hi]
  rcases hTaken with ⟨hSend, _⟩ | ⟨_, hSend, hKind⟩
  · refine ⟨.queue id, .inl ?_, hOther⟩
    rw [hOld, hNew]
    exact hSend
  · refine ⟨.credit id, .inr ⟨⟨id, rfl⟩, hKind⟩, fun other _ => ?_⟩
    by_cases hSame : other = .queue id
    · rw [hSame, hOld, hNew, hSend]
    · exact hOther other hSame

theorem leaves_control {rest : List Frame} (hControl : m.control = frame :: rest) (hObject : m'.object = m.object)
    (hRest : m'.control = rest) : Leaves m .control frame m' where
  head := .inl (by rw [contents, contents, hControl, hRest])
  others other hNe := by
    cases other with
    | control => exact absurd rfl hNe
    | queue i => simp [contents, hObject]
    | credit _ => rfl

/-- A call takes a frame from the head of one queue, or makes one that gives credit back. -/
theorem exists_leaves (h : m.nextLocked = (m', some frame)) : ∃ source, Leaves m source frame m' := by
  have hTurn := turn_nextLocked m
  rw [h] at hTurn
  cases hTurn with
  | data _ _ hOffer _ | priority _ _ _ hOffer _ => exact leaves_offer hOffer _ _
  | control hControl _ _ _ => exact ⟨.control, leaves_control hControl rfl rfl⟩

/-! ## The streams of the round -/

def Listed (m : Mux) : Prop := m.streams.Perm m.order

section

variable (h : m.Listed)
include h

theorem listed_modify (id : Nat) (f : Stream → Stream) : (m.modify id f).Listed := by
  unfold modify
  split <;> exact h

theorem listed_controlLocked (frame : Frame) : (m.controlLocked frame).Listed := by
  unfold controlLocked
  repeat' split
  all_goals exact h

theorem listed_makeStreamLocked (id : Nat) (lease : Bool) : (m.makeStreamLocked id lease).Listed := by
  have hCons : (id :: m.streams).Perm (id :: m.order) := h.cons id
  exact hCons.trans (List.perm_append_singleton id m.order).symm

theorem listed_removeLocked (id : Nat) : (m.removeLocked id).Listed := h.erase id

theorem listed_setJobs (lease : Bool) (jobs : Nat) : (m.setJobs lease jobs).Listed := by
  unfold setJobs
  split <;> exact h

theorem listed_openAdmitted (request : OpenRequest) : (m.openAdmitted pkg request).Listed := by
  unfold openAdmitted
  split
  · exact h
  · apply listed_controlLocked
    exact listed_makeStreamLocked h m.nextID (leaseRequest pkg request)

theorem listed_admitOpen (id : Nat) (request : OpenRequest) : (m.admitOpen pkg id request).Listed := by
  unfold admitOpen
  dsimp only
  split
  · exact h
  split
  · apply listed_setJobs
    apply listed_modify
    apply listed_makeStreamLocked
    exact h
  split
  · apply listed_controlLocked
    exact h
  · exact h

omit h in
theorem turn_order (h : Turn m result) : result.1.order = m.order ∧ result.1.streams = m.streams := by
  cases h <;> exact ⟨rfl, rfl⟩

theorem listed_nextLocked : m.nextLocked.1.Listed := by
  obtain ⟨hOrder, hStreams⟩ := turn_order (turn_nextLocked m)
  rw [Listed, hOrder, hStreams]
  exact h

omit h in
theorem listed_collect (room : Nat) (h : m.Listed) (frames : List Frame) (budget : Nat) :
    (collect room m frames budget).Listed := by
  induction room generalizing m frames budget with
  | zero => exact h
  | succ room ih =>
    unfold collect
    split
    · have hNext := listed_nextLocked h
      split
      · rename_i hPick
        rw [hPick] at hNext
        exact hNext
      · rename_i hPick
        rw [hPick] at hNext
        split
        · exact hNext
        · exact ih hNext _ _
    · exact h

theorem listed_gather : m.gather.Listed := by
  unfold gather
  split
  · apply listed_collect
    exact h
  · have hNext := listed_nextLocked h
    split
    · rename_i hPick
      rw [hPick] at hNext
      exact hNext
    · rename_i hPick
      rw [hPick] at hNext
      exact listed_collect _ hNext _ _

theorem listed_settle (frame : Frame) : (m.settle frame).Listed := by
  unfold settle
  repeat' split
  all_goals first
    | exact h
    | exact listed_removeLocked h _

theorem listed_sendDone : m.sendDone.Listed := by
  have hFold : ∀ (frames : List Frame) (m : Mux), m.Listed → (frames.foldl settle m).Listed := by
    intro frames
    induction frames with
    | nil => exact fun _ h => h
    | cons frame frames ih => exact fun m h => ih _ (listed_settle h frame)
  exact hFold m.sent m h

theorem listed_local (hLocal : Local pkg m m') : m'.Listed := by
  cases hLocal with
  | openTCP request =>
    unfold openTCP
    dsimp only
    repeat' split
    all_goals first
      | exact h
      | exact listed_openAdmitted h request
  | openRetry w _ _ _ =>
    unfold openRetry
    dsimp only
    split
    · apply listed_openAdmitted
      exact h
    · exact h
  | awaitRetry _ => exact listed_admitOpen h _ _
  | read _ _ | write _ _ | closeWrite _ | reset _ | close _ _ => exact listed_modify h _ _
  | leaseStart _ =>
    unfold leaseStart
    repeat' split
    all_goals exact h
  | handlerDone _ =>
    unfold handlerDone
    repeat' split
    all_goals exact h
  | connectDone _ _ _ =>
    unfold connectDone
    repeat' split
    all_goals exact h
  | copyDone _ =>
    unfold copyDone
    repeat' split
    all_goals exact h
  | drain _ =>
    unfold drain
    repeat' split
    all_goals exact h
  | workerExit _ =>
    unfold workerExit
    repeat' split
    all_goals first
      | exact h
      | (apply listed_setJobs; exact h)
  | queryDNS _ =>
    unfold queryDNS
    split
    · exact h
    · apply listed_controlLocked
      exact h
  | queryDone id _ =>
    unfold queryDone
    repeat' split
    all_goals first
      | exact h
      | (apply listed_controlLocked; exact h)
  | resolveDNS id answer _ =>
    unfold resolveDNS
    dsimp only
    repeat' split
    all_goals first
      | exact h
      | (apply listed_controlLocked; exact h)
  | gather _ _ _ => exact listed_gather h
  | sendDone _ => exact listed_sendDone h
  | shutdown _ => exact .nil
  | _ => exact h

theorem listed_dispatchLocked (frame : Frame) : (m.dispatchLocked pkg frame).Listed := by
  have hDns : (m.dnsFrameLocked pkg frame).Listed := by
    unfold dnsFrameLocked
    dsimp only
    repeat' split
    all_goals first
      | exact h
      | (apply listed_controlLocked; exact h)
  have hOpen : (m.openRequested pkg frame).Listed := by
    unfold openRequested
    repeat' split
    all_goals first
      | exact h
      | (apply listed_controlLocked; exact h)
      | (apply listed_admitOpen; exact h)
  unfold dispatchLocked
  repeat' split
  all_goals first
    | exact h
    | exact hDns
    | exact hOpen
    | exact listed_removeLocked h _

end

theorem listed_reachable (h : (system pkg Polite).Reachable m) : m.Listed ∧ m.order.Nodup := by
  have hListed : m.Listed := by
    induction h with
    | start hInitial =>
      obtain ⟨_, _, _, _, _, _, rfl⟩ := hInitial
      exact .nil
    | next _ hStep ih =>
      cases hStep with
      | act hLocal => exact listed_local ih hLocal
      | transmit hTransmit =>
        cases hTransmit
        exact ih
      | receive _ hDecode _ =>
        rw [receive_eq hDecode]
        exact listed_dispatchLocked ih _
  exact ⟨hListed, hListed.nodup_iff.mp (inv_reachable h).nodup⟩

/-- Frames are added at the ends of queues, and streams may be opened. Anything else about the
streams may change too. -/
structure Enqueue (m : Mux) (added : Source → List Frame) (m' : Mux) : Prop where
  queues : ∀ source, m'.contents source = m.contents source ++ added source
  opened : ∃ ids, m'.order = m.order ++ ids ∧ m'.streams.Perm (m.streams ++ ids)
  nodup : m'.order.Nodup
  cursor : m'.cursor = m.cursor
  priorityBurst : m'.priorityBurst = m.priorityBurst

end Mux

/-! ## Enqueues and calls in any order -/

/-- `log` is what `nextLocked` has returned, and `queued` what every queue has held so far. -/
structure Feed where
  mux : Mux
  queued : Mux.Source → List Frame
  log : List (Mux.Source × Frame) := []

namespace Feed

inductive Step : Feed → Feed → Prop where
  | enqueue {S : Feed} {added : Mux.Source → List Frame} {m' : Mux} : S.mux.Enqueue added m' →
      Step S { S with mux := m', queued := fun source => S.queued source ++ added source }
  | next {S : Feed} {source : Mux.Source} {frame : Frame} {m' : Mux} : S.mux.nextLocked = (m', some frame) →
      S.mux.Leaves source frame m' → Step S { S with mux := m', log := S.log ++ [(source, frame)] }
  | nothing {S : Feed} {m' : Mux} : S.mux.nextLocked = (m', none) → Step S { S with mux := m' }

/-- From any state that a mux can get to, whatever its peer sends. -/
def system (pkg : Packages) : System Feed where
  initial S := (Mux.system pkg fun _ => False).Reachable S.mux ∧ S.queued = S.mux.contents ∧ S.log = []
  step := Step

def Waits (id : Nat) (S S' : Feed) : Prop := Step S S' ∧ S.mux.Ready id ∧ S'.mux.Ready id

variable {pkg : Packages} {S S' : Feed} {id : Nat}

theorem next_order (h : S.mux.nextLocked = result) :
    result.1.order = S.mux.order ∧ result.1.streams = S.mux.streams := by
  rw [← h]
  exact Mux.turn_order (Mux.turn_nextLocked S.mux)

section

variable (h : (system pkg).Reachable S)
include h

theorem listed : S.mux.Listed ∧ S.mux.order.Nodup := by
  induction h with
  | start hInitial => exact Mux.listed_reachable hInitial.1
  | next _ hStep ih =>
    cases hStep with
    | enqueue hEnqueue =>
      obtain ⟨ids, hOrder, hStreams⟩ := hEnqueue.opened
      refine ⟨?_, hEnqueue.nodup⟩
      rw [Mux.Listed, hOrder]
      exact hStreams.trans (ih.1.append_right ids)
    | next hNext _ | nothing hNext =>
      obtain ⟨hOrder, hStreams⟩ := next_order hNext
      rw [Mux.Listed, hOrder, hStreams]
      exact ih

theorem mem_order {s : Stream} (hLookup : S.mux.lookup id = some s) : id ∈ S.mux.order :=
  (listed h).1.mem_iff.mp (Mux.object_of_lookup hLookup).1

theorem exists_next
    (hSome : S.mux.control ≠ [] ∨ ∃ id s, S.mux.lookup id = some s ∧
      (0 < s.creditPending ∧ s.terminal = none ∨ s.send ≠ [])) :
    ∃ m' frame, S.mux.nextLocked = (m', some frame) := by
  have hTurn := Mux.turn_nextLocked S.mux
  generalize S.mux.nextLocked = result at hTurn
  cases hTurn with
  | data _ _ _ _ | control _ _ _ _ | priority _ _ _ _ _ => exact ⟨_, _, rfl⟩
  | nothing hControl hNone _ _ =>
    rcases hSome with hControl' | ⟨id, s, hLookup, hQueued⟩
    · exact absurd hControl hControl'
    · obtain ⟨dataOnly, hOffer⟩ := Mux.offer_of_queued hLookup hQueued
      exact absurd (hNone id (mem_order h hLookup) dataOnly) hOffer

/-- While a stream waits, a call that does not return a data frame spends one of eight. -/
theorem burst_next (hReady : S.mux.Ready id) {frame : Frame} {m' : Mux}
    (hNext : S.mux.nextLocked = (m', some frame)) (hKind : frame.kind ≠ .dataFrame) :
    S.mux.priorityBurst < 8 ∧ m'.priorityBurst = S.mux.priorityBurst + 1 := by
  have hFed : ¬S.mux.Starved := by
    have hOffer := hReady.offer
    obtain ⟨s, _, _, hLookup, _⟩ := hReady
    exact fun hStarved => hOffer (hStarved id (mem_order h hLookup))
  have hTurn := Mux.turn_nextLocked S.mux
  rw [hNext] at hTurn
  cases hTurn with
  | data _ _ hOffer _ =>
    obtain ⟨_, _, ⟨_, hData⟩ | ⟨hFalse, _⟩⟩ := Mux.offer_some hOffer
    · exact absurd (of_decide_eq_true hData.symm) hKind
    · cases hFalse
  | control _ _ _ hStarved | priority _ hStarved _ _ _ =>
    exact ⟨Nat.lt_of_not_le fun hEight => hFed (hStarved hEight), rfl⟩

omit h in
theorem run_log (h : ReflTransGen (Waits id) S S') : ∃ entries, S'.log = S.log ++ entries := by
  induction h with
  | refl => exact ⟨[], (List.append_nil _).symm⟩
  | tail _ hStep ih =>
    obtain ⟨entries, hEntries⟩ := ih
    cases hStep.1 with
    | enqueue _ | nothing _ => exact ⟨entries, hEntries⟩
    | @next source frame _ _ _ =>
      refine ⟨entries ++ [(source, frame)], ?_⟩
      rw [← List.append_assoc, ← hEntries]

variable {entries : List (Mux.Source × Frame)}

omit h in
theorem run_log_concat (h : ReflTransGen (Waits id) S S') {e : Mux.Source × Frame}
    (hLog : S'.log ++ [e] = S.log ++ entries) :
    ∃ before, S'.log = S.log ++ before ∧ entries = before ++ [e] := by
  obtain ⟨before, hBefore⟩ := run_log h
  rw [hBefore, List.append_assoc] at hLog
  exact ⟨before, hBefore, (List.append_cancel_left hLog).symm⟩

theorem run_reachable (hRun : ReflTransGen (Waits id) S S') : (system pkg).Reachable S' := by
  induction hRun with
  | refl => exact h
  | tail _ hStep ih => exact ih.next hStep.1

theorem burst_run (hRun : ReflTransGen (Waits id) S S') (hLog : S'.log = S.log ++ entries)
    (hKinds : ∀ e ∈ entries, e.2.kind ≠ .dataFrame) :
    S'.mux.priorityBurst = S.mux.priorityBurst + entries.length ∧
      (entries ≠ [] → S'.mux.priorityBurst ≤ 8) := by
  induction hRun generalizing entries with
  | refl =>
    obtain rfl : entries = [] := List.self_eq_append_right.mp hLog
    exact ⟨rfl, fun hNil => absurd rfl hNil⟩
  | @tail T T' hRun hStep ih =>
    have hReach := run_reachable h hRun
    obtain ⟨hStep, hReady, hReady'⟩ := hStep
    cases hStep with
    | enqueue hEnqueue =>
      rw [hEnqueue.priorityBurst]
      exact ih hLog hKinds
    | nothing hNext =>
      obtain ⟨s, frame, rest, hLookup, hSend, _⟩ := hReady
      have hSome : s.send ≠ [] := by simp [hSend]
      obtain ⟨m, frame, hFound⟩ := exists_next hReach (.inr ⟨id, s, hLookup, .inr hSome⟩)
      rw [hFound] at hNext
      cases hNext
    | @next source frame m' hNext _ =>
      obtain ⟨before, hBefore, rfl⟩ := run_log_concat hRun hLog
      obtain ⟨hSmall, hBurst⟩ := burst_next hReach hReady hNext (hKinds (source, frame) (by simp))
      have hOld := (ih hBefore fun e he => hKinds e (List.mem_append_left _ he)).1
      refine ⟨?_, fun _ => ?_⟩
      · rw [List.length_append, List.length_singleton]
        dsimp only
        omega
      · dsimp only
        omega

/-- What has left a queue and what is still in it is what was put into it, in order. -/
theorem fifo {source : Mux.Source} (hQueue : ∀ id, source ≠ .credit id) :
    (S.log.filter fun e => e.1 = source).map Prod.snd ++ S.mux.contents source = S.queued source := by
  induction h with
  | start hInitial =>
    obtain ⟨_, hQueued, hLog⟩ := hInitial
    rw [hQueued, hLog]
    rfl
  | next _ hStep ih =>
    cases hStep with
    | enqueue hEnqueue =>
      rw [hEnqueue.queues, ← List.append_assoc, ih]
    | nothing hNext =>
      rename_i S _ m'
      have hTurn := Mux.turn_nextLocked S.mux
      rw [hNext] at hTurn
      have hSame : m'.contents source = S.mux.contents source := by
        cases hTurn
        rfl
      rw [hSame]
      exact ih
    | @next source' frame m' hNext hLeaves =>
      rw [List.filter_append, List.map_append, List.append_assoc]
      by_cases hSame : source' = source
      · subst hSame
        rcases hLeaves.head with hHead | ⟨⟨id, hCredit⟩, _⟩
        · rw [← ih, hHead]
          simp
        · exact absurd hCredit (hQueue id)
      · rw [← ih, hLeaves.others source fun hEq => hSame hEq.symm]
        simp [hSame]

end

end Feed

/-- Something queued is sent, data does not wait for more than eight other frames, and queues keep their order. -/
theorem bounded_priority (pkg : Packages) (S : Feed) (h : (Feed.system pkg).Reachable S) :
    ((S.mux.control ≠ [] ∨ ∃ id s, S.mux.lookup id = some s ∧
        (0 < s.creditPending ∧ s.terminal = none ∨ s.send ≠ [])) →
      ∃ m' frame, S.mux.nextLocked = (m', some frame)) ∧
    (∀ id S' entries, ReflTransGen (Feed.Waits id) S S' → S'.log = S.log ++ entries →
      (∀ e ∈ entries, e.2.kind ≠ .dataFrame) → entries.length ≤ 8) ∧
    (∀ m' frame, S.mux.nextLocked = (m', some frame) → ∃ source, S.mux.Leaves source frame m') ∧
    ∀ source, (∀ id, source ≠ .credit id) →
      (S.log.filter fun e => e.1 = source).map Prod.snd ++ S.mux.contents source = S.queued source := by
  refine ⟨Feed.exists_next h, ?_, fun m' frame hNext => Mux.exists_leaves hNext, fun source => Feed.fifo h⟩
  intro id S' entries hRun hLog hKinds
  obtain ⟨hBurst, hEight⟩ := Feed.burst_run h hRun hLog hKinds
  by_cases hNil : entries = []
  · simp [hNil]
  · have hLast := hEight hNil
    omega

namespace Sample

def two : Mux :=
  (played False ([.openTCP, .openTCP] ++ opens 1 ++ opens 3 ++
    [.hear ⟨.dataFrame, 3, [7]⟩, .write 1 [1], .write 3 [3]])).getD client

def feed : Feed := { mux := two, queued := two.contents }

theorem reachable_two : (Mux.system packages fun _ => False).Reachable two := reachable_getD (by decide +kernel)

theorem reachable_feed : (Feed.system packages).Reachable feed := .start ⟨reachable_two, rfl, rfl⟩

end Sample

theorem bounded_priority_two :
    (∃ m' frame, Sample.two.nextLocked = (m', some frame)) ∧ Sample.two.contents (.queue 3) =
    [⟨.dataFrame, 3, [3]⟩] := by
  have hContents : Sample.two.contents (.queue 3) = [⟨.dataFrame, 3, [3]⟩] := by decide +kernel
  have hAll := bounded_priority Sample.packages Sample.feed Sample.reachable_feed
  have hReady : Sample.two.Ready 3 := by decide +kernel
  obtain ⟨s, frame, rest, hLookup, hSend, _⟩ := hReady
  have hSome : s.send ≠ [] := by simp [hSend]
  exact ⟨hAll.1 (.inr ⟨3, s, hLookup, .inr hSome⟩), hContents⟩

end FamilyConnect.TCPForward
