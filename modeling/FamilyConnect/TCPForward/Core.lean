import FamilyConnect.TCPForward.Mux

/-!
# The mux without its scheduler

A `Core` keeps of a mux what its peer can tell: the streams, the queued and
picked frames and the admission of streams. Its steps pick frames in any order
that respects the control queue. Every step of a mux is a run of its core, so
what holds of all runs of cores holds of all schedules.
-/

namespace FamilyConnect.TCPForward

open Lib

def Reason.invalid : Reason → Bool
  | .openState | .dataState | .creditState | .finState | .closeState | .frameKind => true
  | _ => false

inductive StreamOp (server cancelled batch : Bool) : Stream → Stream → Prop where
  | read {s : Stream} (size : Nat) : StreamOp server cancelled batch s (s.read size cancelled).1
  | write {s : Stream} (payload : Bytes) : StreamOp server cancelled batch s (s.write payload batch cancelled).1
  | closeWrite {s : Stream} : StreamOp server cancelled batch s s.closeWrite.1
  | reset {s : Stream} : StreamOp server cancelled batch s (s.resetLocked .reset)
  | close {s : Stream} : server = false ∨ s.lease = true →
      StreamOp server cancelled batch s (s.close server cancelled)
  | worker {s : Stream} (w : Worker) : s.worker ≠ .none → w ≠ .waiting → w ≠ .connecting →
      (w = .draining → s.terminal.isSome = true ∨ (s.localFIN = true ∧ s.remoteFIN = true ∧ s.used = 0)) →
      StreamOp server cancelled batch s { s with worker := w }
  | opened {s : Stream} (w : Worker) : s.worker = .waiting ∨ s.worker = .connecting → s.terminal = none →
      w = .handling ∨ w = .copying →
      StreamOp server cancelled batch s
        { s with opened := true, send := s.send ++ [⟨.openOK, s.id, []⟩], worker := w }
  | refused {s : Stream} (code : Code) : s.worker = .connecting → s.terminal = none → validError code = true →
      StreamOp server cancelled batch s
        { s.finishWith (.openFailed code) ⟨.openError, s.id, errorPayload code⟩ with worker := .leaving }
  | drained {s : Stream} : s.worker = .draining → s.terminal.isSome = true ∨
      s.closeRequested = true ∨ cancelled = true →
        StreamOp server cancelled batch s { s.finishWith .eof ⟨.closeFrame, s.id, []⟩ with
        worker := .leaving }
  | abandoned {s : Stream} (err : Err) : s.worker ≠ .none → err = .reset ∨ err = .protocol →
      StreamOp server cancelled batch s { s.resetLocked err with worker := .leaving }

structure Core where
  window : Nat
  server : Bool
  config : MuxConfig
  batch : Bool
  cancelled : Bool
  object : Nat → Option Stream
  streams : List Nat
  nextID : Nat
  lastID : Nat
  control : List Frame
  awaiting : Option (Nat × OpenRequest)
  hand : List Frame
  sent : List Frame
  faults : List Reason
  rejected : Nat
  removedAt : Nat → Option Nat

def Mux.core (m : Mux) : Core where
  window := m.window
  server := m.server
  config := m.config
  batch := m.batch
  cancelled := m.cancelled
  object := m.object
  streams := m.streams
  nextID := m.nextID
  lastID := m.lastID
  control := m.control
  awaiting := m.awaiting
  hand := m.sending ++ m.pending.toList
  sent := m.sent
  faults := m.errors.filter Reason.invalid
  rejected := m.rejected
  removedAt := m.removedAt

namespace Core

def lookup (c : Core) (id : Nat) : Option Stream := if id ∈ c.streams then c.object id else none

def put (c : Core) (id : Nat) (s : Stream) : Core := { c with object := Function.update c.object id (some s) }

def ofClass (c : Core) (lease : Bool) : List Nat :=
  c.streams.filter fun id => (c.object id).any fun s => s.lease = lease

def slots (c : Core) (lease : Bool) : Nat := if lease then 1 else c.config.maxStreams

def releasing (c : Core) (lease : Bool) : Bool :=
  (c.ofClass lease).any fun id => (c.object id).any fun s => s.terminal.isSome

def make (c : Core) (id : Nat) (lease : Bool) (worker : Worker) : Core :=
  { c.put id { Stream.make c.window id lease with worker := worker } with streams := id :: c.streams }

inductive Control (c : Core) (frame : Frame) : Core → Prop where
  | ended : c.cancelled = true → Control c frame c
  | full : c.cancelled = false → Mux.controlLimit ≤ c.control.length → Control c frame { c with cancelled := true }
  | queued : c.cancelled = false → c.control.length < Mux.controlLimit →
      Control c frame { c with control := c.control ++ [frame] }

def remove (c : Core) (id : Nat) : Core :=
  { c with streams := c.streams.erase id, removedAt := Function.update c.removedAt id (some c.nextID) }

def finishAll (c : Core) : Core :=
  { c with
    object := fun id => if id ∈ c.streams then (c.object id).map (·.finishLocked .reset) else c.object id
    cancelled := true }

section

variable (pkg : Packages)

def renewalHandler (c : Core) (request : OpenRequest) : Bool :=
  leaseRequest pkg request &&
    (if request.port = credentialRenewalPort then c.config.credentialRenewal else c.config.leaseRenewal)

inductive Admit (c : Core) (id : Nat) (request : OpenRequest) : Core → Prop where
  | dropped : c.cancelled = true → Admit c id request { c with awaiting := none }
  | granted (worker : Worker) : c.cancelled = false →
      (c.ofClass (c.renewalHandler pkg request)).length < c.slots (c.renewalHandler pkg request) →
      worker = .waiting ∨ worker = .connecting →
      Admit c id request { c.make id (c.renewalHandler pkg request) worker with awaiting := none }
  | rejected {c' : Core} : c.cancelled = false →
      c.slots (c.renewalHandler pkg request) ≤ (c.ofClass (c.renewalHandler pkg request)).length →
      c.releasing (c.renewalHandler pkg request) = false →
      Control { c with awaiting := none, rejected := c.rejected + 1 } ⟨.openError, id, errorPayload "stream_limit"⟩ c' →
      Admit c id request c'
  | waiting : c.cancelled = false → Admit c id request { c with awaiting := some (id, request) }

inductive Dispatch (c : Core) (frame : Frame) : Core → Prop where
  | ignored : frame.id = 0 ∨ (c.lookup frame.id = none ∧ ¬ (frame.kind = .openFrame ∧ c.server = true)) ∨
      (frame.kind = .openFrame ∧ frame.id ≤ c.lastID) ∨
      (∃ s, c.lookup frame.id = some s ∧ s.terminal.isSome = true) → Dispatch c frame c
  | answered {c' : Core} {answer : Frame} : frame.id = 0 → answer.id = 0 → Control c answer c' → Dispatch c frame c'
  | malformed {c' : Core} : frame.kind = .openFrame → frame.id ≠ 0 → c.server = true → c.lookup frame.id = none →
      c.lastID < frame.id → (∀ request, pkg.decodeRequest frame.payload = some request → validate pkg request = false) →
      Control { c with lastID := frame.id } ⟨.openError, frame.id, errorPayload "malformed_request"⟩ c' →
      Dispatch c frame c'
  | admitted {c' : Core} {request : OpenRequest} : frame.kind = .openFrame → frame.id ≠ 0 → c.server = true →
      c.lookup frame.id = none → c.lastID < frame.id → pkg.decodeRequest frame.payload = some request →
      validate pkg request = true → Admit pkg { c with lastID := frame.id } frame.id request c' → Dispatch c frame c'
  | accepted {s s' : Stream} {removed : Bool} : frame.id ≠ 0 → c.lookup frame.id = some s → s.terminal = none →
      s.accept pkg c.server frame = .ok (s', removed) →
      Dispatch c frame (if removed then (c.put frame.id s').remove frame.id else c.put frame.id s')
  | invalid {s : Stream} {reason : Reason} : frame.id ≠ 0 → c.lookup frame.id = some s → s.terminal = none →
      s.accept pkg c.server frame = .error reason →
      Dispatch c frame { c.put frame.id (s.resetLocked .protocol) with faults := reason :: c.faults }

inductive Step : Core → Core → Prop where
  | stream {c : Core} {id : Nat} {s s' : Stream} : c.object id = some s →
      StreamOp c.server c.cancelled c.batch s s' → Step c (c.put id s')
  | opened {c c' : Core} (request : OpenRequest) : c.server = false → c.cancelled = false →
      validate pkg request = true → c.nextID ≤ muxMaxID →
      (c.ofClass (leaseRequest pkg request)).length < c.slots (leaseRequest pkg request) →
        Control { c.make c.nextID (leaseRequest pkg request) .none with nextID := c.nextID + 2 }
        ⟨.openFrame, c.nextID, pkg.marshalRequest request⟩ c' → Step c c'
  | admitted {c c' : Core} {id : Nat} {request : OpenRequest} : c.awaiting = some (id, request) →
      Admit pkg c id request c' → Step c c'
  | turnedAway {c : Core} : c.server = false → Step c { c with rejected := c.rejected + 1 }
  | queued {c c' : Core} {frame : Frame} : frame.id = 0 → Control c frame c' → Step c c'
  | pickControl {c : Core} {frame : Frame} {rest : List Frame} : c.cancelled = false → c.control = frame :: rest →
      Step c { c with control := rest, hand := c.hand ++ [frame] }
  | pickStream {c : Core} {id : Nat} {s : Stream} {frame : Frame} {rest : List Frame} : c.cancelled = false →
      c.lookup id = some s → s.send = frame :: rest → frame.kind = .dataFrame ∨ c.control = [] →
      Step c { c.put id { s with send := rest } with hand := c.hand ++ [frame] }
  | announce {c : Core} {id : Nat} {s : Stream} : c.cancelled = false → c.lookup id = some s → s.terminal = none →
      0 < s.creditPending → c.control = [] →
      Step c
        { c.put id { s with creditPending := 0 } with
          hand := c.hand ++ [⟨.windowUpdate, id, BigEndian.put 4 s.creditPending⟩] }
  | remove {c : Core} {id : Nat} {s : Stream} : c.lookup id = some s → s.terminal.isSome = true → s.send = [] →
      Step c (c.remove id)
  | settled {c : Core} : Step c { c with sent := [] }
  | cancel {c : Core} : Step c { c with cancelled := true }
  | finish {c : Core} : Step c c.finishAll
  | clear {c : Core} : c.cancelled = true → Step c { c.finishAll with streams := [], control := [] }

end

inductive Transmit : Core → Frame → Core → Prop where
  | next {c : Core} {frame : Frame} {rest : List Frame} : c.hand = frame :: rest →
      Transmit c frame { c with hand := rest, sent := c.sent ++ [frame] }

end Core

inductive Stream.Accepted (pkg : Packages) (server : Bool) (s : Stream) (frame : Frame) : Stream → Bool → Prop where
  | openOK : frame.kind = .openOK → server = false → s.opened = false →
      Accepted pkg server s frame { s with opened := true } false
  | openError (code : Code) : frame.kind = .openError → server = false → s.opened = false →
      pkg.decodeError frame.payload = some code → validError code = true ∨ code = "stream_limit" →
      Accepted pkg server s frame (s.finishLocked (.openFailed code)) true
  | data : frame.kind = .dataFrame → s.opened = true → s.remoteFIN = false →
      (frame.payload.length : Int) ≤ s.receiveCredit →
      Accepted pkg server s frame
        { s with
          receiveCredit := s.receiveCredit - frame.payload.length
          receive := Ring.fill s.receive s.head s.used frame.payload
          used := s.used + frame.payload.length } false
  | credit : frame.kind = .windowUpdate → s.opened = true →
      (frame.number : Int) ≤ s.receive.length - s.sendCredit →
      Accepted pkg server s frame { s with sendCredit := s.sendCredit + frame.number } false
  | fin : frame.kind = .finFrame → s.opened = true → s.remoteFIN = false →
      Accepted pkg server s frame { s with remoteFIN := true } false
  | closed : frame.kind = .closeFrame → s.localFIN = true → s.remoteFIN = true → server = false → s.closing = true →
      Accepted pkg server s frame (s.finishLocked .eof) true
  | closeRequested : frame.kind = .closeFrame → s.localFIN = true → s.remoteFIN = true →
      server = true ∨ s.closing = false → Accepted pkg server s frame { s with closeRequested := true } false
  | reset : frame.kind = .resetFrame → Accepted pkg server s frame (s.finishLocked .reset) true

variable {s : Stream}

theorem Stream.accepted_of_accept {pkg : Packages} {server removed : Bool} {s' : Stream} {frame : Frame}
    (h : s.accept pkg server frame = .ok (s', removed)) : s.Accepted pkg server frame s' removed := by
  unfold accept at h
  split at h
  · rename_i hKind
    split at h
    · cases h
    · rename_i hState
      simp only [not_or, Bool.not_eq_true] at hState
      cases h
      exact .openOK hKind hState.1 hState.2
  · rename_i hKind
    split at h
    · cases h
    rename_i hState
    simp only [not_or, Bool.not_eq_true] at hState
    split at h
    · cases h
    rename_i code hCode
    split at h
    · cases h
    · rename_i hKnown
      simp only [not_and_or, Bool.not_eq_false, not_not] at hKnown
      cases h
      exact .openError code hKind hState.1 hState.2 hCode hKnown
  · rename_i hKind
    split at h
    · cases h
    · rename_i hState
      simp only [not_or, Bool.not_eq_true, Bool.not_eq_false, not_lt] at hState
      cases h
      exact .data hKind hState.1 hState.2.1 hState.2.2
  · rename_i hKind
    split at h
    · cases h
    · rename_i hState
      simp only [not_or, Bool.not_eq_false, not_lt] at hState
      cases h
      exact .credit hKind hState.1 hState.2
  · rename_i hKind
    split at h
    · cases h
    · rename_i hState
      simp only [not_or, Bool.not_eq_true, Bool.not_eq_false] at hState
      cases h
      exact .fin hKind hState.1 hState.2
  · rename_i hKind
    split at h
    · cases h
    rename_i hState
    simp only [not_or, Bool.not_eq_false] at hState
    split at h
    · rename_i hClosing
      cases h
      exact .closed hKind hState.1 hState.2 hClosing.1 hClosing.2
    · rename_i hClosing
      simp only [not_and_or, Bool.not_eq_true, Bool.not_eq_false] at hClosing
      cases h
      exact .closeRequested hKind hState.1 hState.2 hClosing
  · rename_i hKind
    cases h
    exact .reset hKind
  · cases h

/-! ## The mux runs its core -/

theorem Stream.invalid_of_accept_error {pkg : Packages} {server : Bool} {frame : Frame} {reason : Reason}
    (h : s.accept pkg server frame = .error reason) : reason.invalid = true := by
  unfold accept at h
  repeat' split at h
  all_goals cases h
  all_goals rfl

namespace Mux

open Relation

/-- Steps of the core take one state to the other. -/
abbrev Leads (pkg : Packages) (m m' : Mux) : Prop := ReflTransGen (Core.Step pkg) m.core m'.core

variable {pkg : Packages} {m m' : Mux} {id : Nat}

theorem core_controlLocked (m : Mux) (frame : Frame) : Core.Control m.core frame (m.controlLocked frame).core := by
  unfold controlLocked
  split
  · rename_i hCancelled
    exact .ended hCancelled
  rename_i hCancelled
  have hCancelled : m.cancelled = false := by simpa using hCancelled
  split
  · rename_i hFull
    exact .full hCancelled hFull
  · rename_i hRoom
    exact .queued hCancelled (Nat.lt_of_not_le hRoom)

theorem core_put {s' : Stream} (hObject : m.object id = some s)
    (hOp : StreamOp m.server m.cancelled m.batch s s') : m.Leads pkg (m.put id s') :=
  .single (.stream (c := m.core) hObject hOp)

theorem core_modify {f : Stream → Stream}
    (hOp : ∀ s, m.object id = some s → StreamOp m.server m.cancelled m.batch s (f s)) :
    m.Leads pkg (m.modify id f) := by
  unfold modify
  split
  · exact .refl
  · rename_i s hObject
    exact core_put hObject (hOp s hObject)

/-! ### Admission -/

theorem core_openAdmitted {request : OpenRequest} (hClient : m.server = false) (hCancelled : m.cancelled = false)
    (hValid : validate pkg request = true) (hSlot : m.slotAvailableLocked (leaseRequest pkg request) = true) :
    m.Leads pkg (m.openAdmitted pkg request) := by
  unfold openAdmitted
  split
  · exact .refl
  · rename_i hIds
    refine .single (.opened request hClient hCancelled hValid (Nat.le_of_not_lt hIds) (of_decide_eq_true hSlot) ?_)
    exact core_controlLocked { m.makeStreamLocked m.nextID (leaseRequest pkg request) with nextID := m.nextID + 2 } _

theorem core_openTCP (request : OpenRequest) : m.Leads pkg (m.openTCP pkg request) := by
  unfold openTCP
  split
  · exact .refl
  rename_i hReady
  simp only [not_or, Bool.not_eq_false, Bool.not_eq_true] at hReady
  obtain ⟨hValid, hClient, hCancelled⟩ := hReady
  dsimp only
  split
  · rename_i hSlot
    exact core_openAdmitted hClient hCancelled hValid hSlot.1
  split
  · exact .single (.turnedAway hClient)
  · exact .refl

theorem core_openRetry {w : Waiter} (hClient : m.server = false) (hValid : validate pkg w.request = true) :
    m.Leads pkg (m.openRetry pkg w) := by
  unfold openRetry
  dsimp only
  split
  · rename_i hTurn
    exact core_openAdmitted (m := { m with admission := m.admission.erase w }) hClient hTurn.1 hValid hTurn.2.2
  · exact .refl

theorem core_setJobs (m : Mux) (lease : Bool) (jobs : Nat) : (m.setJobs lease jobs).core = m.core := by
  unfold setJobs
  split <;> rfl

theorem modify_makeStreamLocked (m : Mux) (id : Nat) (lease : Bool) (f : Stream → Stream) :
    (m.makeStreamLocked id lease).modify id f =
      { m.put id (f (.make m.window id lease)) with streams := id :: m.streams, order := m.order ++ [id] } := by
  simp [modify, makeStreamLocked, put]

theorem core_admitOpen (m : Mux) (id : Nat) (request : OpenRequest) :
    Core.Admit pkg m.core id request (m.admitOpen pkg id request).core := by
  unfold admitOpen
  dsimp only
  split
  · rename_i hCancelled
    exact .dropped hCancelled
  rename_i hCancelled
  have hCancelled : m.cancelled = false := by simpa using hCancelled
  split
  · rename_i hSlot
    rw [core_setJobs, modify_makeStreamLocked]
    have hWorker (lease : Bool) :
        (if lease then Worker.waiting else .connecting) = .waiting ∨
          (if lease then Worker.waiting else .connecting) = .connecting := by
      cases lease
      · exact .inr rfl
      · exact .inl rfl
    exact .granted _ hCancelled (of_decide_eq_true hSlot.1) (hWorker (m.renewalHandler pkg request))
  split
  · rename_i hFull
    refine .rejected hCancelled (Nat.le_of_not_lt (of_decide_eq_false hFull.1)) hFull.2 ?_
    exact core_controlLocked { m with awaiting := none, rejected := m.rejected + 1 } _
  · exact .waiting hCancelled

/-! ### The scheduler -/

structure Picked (pkg : Packages) (m m' : Mux) (picked : Option Frame) : Prop where
  pending : m'.pending = m.pending
  session : m'.cancelled = m.cancelled
  nothing : picked = none → m'.core = m.core
  frame : m.cancelled = false → ∀ frame ∈ picked, ∀ hand,
    Core.Step pkg { m.core with hand := hand } { m'.core with hand := hand ++ [frame] }

theorem Picked.of_core {m₁ : Mux} {picked : Option Frame} (h : Picked pkg m₁ m' picked) (hCore : m₁.core = m.core)
    (hPending : m₁.pending = m.pending) : Picked pkg m m' picked := by
  have hSession : m₁.cancelled = m.cancelled := congrArg Core.cancelled hCore
  refine ⟨h.pending.trans hPending, h.session.trans hSession, fun hNone => (h.nothing hNone).trans hCore, ?_⟩
  rw [← hSession, ← hCore]
  exact h.frame

theorem Picked.none (m : Mux) : Picked pkg m m none := ⟨rfl, rfl, fun _ => rfl, by rintro _ _ ⟨⟩⟩

theorem picked_pickLoop (pkg : Packages) (dataOnly : Bool) (count : Nat) (m : Mux)
    (hTurn : dataOnly = true ∨ m.control = []) :
    Picked pkg m (pickLoop dataOnly count m).1 (pickLoop dataOnly count m).2 := by
  induction count generalizing m with
  | zero => exact .none m
  | succ count ih =>
    -- the cursor is not part of the core
    have hNext : Picked pkg m (pickLoop dataOnly count { m with cursor := m.cursor % m.order.length + 1 }).1
        (pickLoop dataOnly count { m with cursor := m.cursor % m.order.length + 1 }).2 :=
      (ih { m with cursor := m.cursor % m.order.length + 1 } hTurn).of_core rfl rfl
    unfold pickLoop
    split
    · exact .none m
    dsimp only
    split
    · exact hNext
    rename_i s hLookup
    split
    · rename_i hCredit
      refine ⟨rfl, rfl, by rintro ⟨⟩, ?_⟩
      rintro hSession _ ⟨⟩ hand
      refine .announce (c := { m.core with hand := hand }) hSession hLookup hCredit.2.2 hCredit.2.1 ?_
      exact hTurn.resolve_left (by simp [hCredit.1])
    split
    · exact hNext
    rename_i frame rest hSend
    split
    · rename_i hKind
      refine ⟨rfl, rfl, by rintro ⟨⟩, ?_⟩
      rintro hSession _ ⟨⟩ hand
      refine .pickStream (c := { m.core with hand := hand }) hSession hLookup hSend ?_
      exact hTurn.imp_left fun hData => of_decide_eq_true (hKind.symm.trans hData)
    · exact hNext

theorem picked_nextPriority (pkg : Packages) (m : Mux) : Picked pkg m m.nextPriority.1 m.nextPriority.2 := by
  unfold nextPriority
  dsimp only
  split
  · rename_i frame rest hControl
    refine ⟨rfl, rfl, by rintro ⟨⟩, ?_⟩
    rintro hSession _ ⟨⟩ hand
    exact .pickControl (c := { m.core with hand := hand }) hSession hControl
  rename_i hControl
  have hFirst := picked_pickLoop pkg false m.order.length
    { m with priorityBurst := m.priorityBurst + 1 } (.inr hControl)
  split
  · rename_i m₁ frame hPick
    rw [pickLocked] at hPick
    rw [hPick] at hFirst
    exact hFirst.of_core rfl rfl
  · rename_i m₁ hPick
    rw [pickLocked] at hPick
    rw [hPick] at hFirst
    exact (picked_pickLoop pkg true _ _ (.inl rfl)).of_core (hFirst.nothing rfl) hFirst.pending

theorem picked_nextLocked (pkg : Packages) (m : Mux) : Picked pkg m m.nextLocked.1 m.nextLocked.2 := by
  unfold nextLocked
  split
  · have hData := picked_pickLoop pkg true m.order.length m (.inl rfl)
    split
    · rename_i m₁ frame hPick
      rw [pickLocked] at hPick
      rw [hPick] at hData
      exact ⟨hData.pending, hData.session, by rintro ⟨⟩, hData.frame⟩
    · rename_i m₁ hPick
      rw [pickLocked] at hPick
      rw [hPick] at hData
      exact (picked_nextPriority pkg m₁).of_core (hData.nothing rfl) hData.pending
  · exact picked_nextPriority pkg m

theorem core_sending (frames : List Frame) (hPending : m.pending = none) :
    { m with sending := frames }.core = { m.core with hand := frames } := by
  simp [core, hPending]

theorem core_collect (pkg : Packages) (room : Nat) (m : Mux) (frames : List Frame) (budget : Nat)
    (hSession : m.cancelled = false) (hPending : m.pending = none) :
    ReflTransGen (Core.Step pkg) { m.core with hand := frames } (collect room m frames budget).core := by
  induction room generalizing m frames budget with
  | zero =>
    rw [collect, core_sending frames hPending]
  | succ room ih =>
    unfold collect
    split
    · have hPicked := picked_nextLocked pkg m
      split
      · rename_i m₁ hNext
        rw [hNext] at hPicked
        rw [core_sending frames (hPicked.pending.trans hPending), hPicked.nothing rfl]
      · rename_i m₁ next hNext
        rw [hNext] at hPicked
        have hStep := hPicked.frame hSession next rfl frames
        split
        · exact .single hStep
        · exact .head hStep (ih m₁ _ _ (hPicked.session.trans hSession) (hPicked.pending.trans hPending))
    · rw [core_sending frames hPending]

theorem core_gather (hSession : m.cancelled = false) (hSending : m.sending = []) :
    ReflTransGen (Core.Step pkg) m.core m.gather.core := by
  unfold gather
  split
  · rename_i frame hPending
    have hRun := core_collect pkg (maxBatchMessages - 1) { m with pending := none } [frame]
      (frameCost frame) hSession rfl
    have hEq : { { m with pending := none }.core with hand := [frame] } = m.core := by
      simp [core, hSending, hPending]
    exact hEq ▸ hRun
  rename_i hPending
  have hPicked := picked_nextLocked pkg m
  have hEq : { m.core with hand := [] } = m.core := by simp [core, hSending, hPending]
  split
  · rename_i m₁ hNext
    rw [hNext] at hPicked
    rw [hPicked.nothing rfl]
  · rename_i m₁ frame hNext
    rw [hNext] at hPicked
    have hStep := hPicked.frame hSession frame rfl []
    rw [hEq] at hStep
    exact .head hStep
      (core_collect pkg _ m₁ _ _ (hPicked.session.trans hSession) (hPicked.pending.trans hPending))

theorem core_settle (pkg : Packages) (m : Mux) (frame : Frame) : m.Leads pkg (m.settle frame) := by
  unfold settle
  split
  · split
    · exact .refl
    · rename_i s hLookup
      split
      · rename_i hOver
        exact .single (.remove (c := m.core) hLookup hOver.1 hOver.2)
      · exact .refl
  · exact .refl

theorem core_sendDone (pkg : Packages) (m : Mux) : m.Leads pkg m.sendDone := by
  have hFold (frames : List Frame) (m : Mux) :
      m.Leads pkg (frames.foldl settle m) := by
    induction frames generalizing m with
    | nil => exact .refl
    | cons frame frames ih => exact (core_settle pkg m frame).trans (ih _)
  exact (hFold m.sent m).tail .settled

/-! ### Frames of the peer -/

variable {frame : Frame}

theorem core_dnsFrameLocked (m : Mux) (hId : frame.id = 0) :
    Core.Dispatch pkg m.core frame (m.dnsFrameLocked pkg frame).core := by
  have hIgnored : Core.Dispatch pkg m.core frame m.core := .ignored (.inl hId)
  unfold dnsFrameLocked
  dsimp only
  split
  · split
    · exact hIgnored
    · split
      · exact hIgnored
      split
      · exact .answered hId rfl (core_controlLocked { m with dnsLast := frame.number } _)
      · exact hIgnored
    · exact hIgnored
  · split
    · exact hIgnored
    split
    · exact hIgnored
    split <;> exact hIgnored

theorem core_openRequested (hId : frame.id ≠ 0) (hKind : frame.kind = .openFrame)
    (hServer : m.server = true) (hLookup : m.lookup frame.id = none) :
    Core.Dispatch pkg m.core frame (m.openRequested pkg frame).core := by
  unfold openRequested
  split
  · rename_i hOld
    exact .ignored (.inr (.inr (.inl ⟨hKind, hOld⟩)))
  rename_i hNew
  have hNew : m.lastID < frame.id := Nat.lt_of_not_le hNew
  split
  · rename_i hDecode
    refine .malformed hKind hId hServer hLookup hNew ?_ (core_controlLocked { m with lastID := frame.id } _)
    intro request hRequest
    rw [hDecode] at hRequest
    cases hRequest
  rename_i request hDecode
  split
  · rename_i hValid
    exact .admitted hKind hId hServer hLookup hNew hDecode hValid (core_admitOpen { m with lastID := frame.id } _ _)
  · rename_i hInvalid
    refine .malformed hKind hId hServer hLookup hNew ?_ (core_controlLocked { m with lastID := frame.id } _)
    intro request' hRequest
    rw [hDecode] at hRequest
    cases hRequest
    simpa using hInvalid

theorem core_dispatchLocked (pkg : Packages) (m : Mux) (frame : Frame) :
    Core.Dispatch pkg m.core frame (m.dispatchLocked pkg frame).core := by
  unfold dispatchLocked
  split
  · rename_i hId
    exact core_dnsFrameLocked m hId
  rename_i hId
  split
  · rename_i hLookup
    split
    · rename_i hOpen
      exact core_openRequested hId hOpen.1 hOpen.2 hLookup
    · rename_i hOther
      exact .ignored (.inr (.inl ⟨hLookup, hOther⟩))
  rename_i s hLookup
  split
  · rename_i hTerminal
    exact .ignored (.inr (.inr (.inr ⟨s, hLookup, hTerminal⟩)))
  rename_i hLive
  have hLive : s.terminal = none := by simpa using hLive
  split
  · rename_i reason hAccept
    have hEq : { m.put frame.id (s.resetLocked .protocol) with errors := reason :: m.errors }.core =
        { m.core.put frame.id (s.resetLocked .protocol) with faults := reason :: m.core.faults } := by
      simp [core, Mux.put, Core.put, Stream.invalid_of_accept_error hAccept]
    rw [hEq]
    exact .invalid hId hLookup hLive hAccept
  · rename_i s' removed hAccept
    have hDispatch := Core.Dispatch.accepted (c := m.core) hId hLookup hLive hAccept
    cases removed
    · exact hDispatch
    · exact hDispatch

/-! ### Workers and calls -/

theorem core_leaseStart (pkg : Packages) (m : Mux) (id : Nat) : m.Leads pkg (m.leaseStart id) := by
  unfold leaseStart
  split
  · exact .refl
  rename_i s hObject
  split
  · exact .refl
  rename_i hWorker
  have hWorker : s.worker = .waiting := by simpa using hWorker
  split
  · exact .refl
  split
  · exact core_put hObject (.abandoned .protocol (by simp [hWorker]) (.inr rfl))
  · rename_i hLive
    simp only [not_or, Bool.not_eq_true, Option.isSome_eq_false_iff, Option.isNone_iff_eq_none] at hLive
    exact core_put hObject (.opened .handling (.inl hWorker) hLive.1 (.inl rfl))

theorem core_worker (w : Worker) (hObject : m.object id = some s) (hWorker : s.worker ≠ .none)
    (hNew : w = .resetting ∨ w = .leaving ∨ w = .exited) : m.Leads pkg (m.put id { s with worker := w }) := by
  apply core_put hObject
  apply StreamOp.worker w hWorker
  all_goals rintro rfl
  all_goals simp at hNew

theorem core_handlerDone (pkg : Packages) (m : Mux) (id : Nat) : m.Leads pkg (m.handlerDone id) := by
  unfold handlerDone
  split
  · exact .refl
  rename_i s hObject
  split
  · rename_i hWorker
    exact core_worker .resetting hObject (by simp [hWorker]) (.inl rfl)
  split
  · rename_i hWorker
    exact core_put hObject (.abandoned .reset (by simp [hWorker]) (.inl rfl))
  · exact .refl

theorem core_connectDone (m : Mux) (id : Nat) {failure : Option Code}
    (hFailure : ∀ code ∈ failure, validError code = true) :
    m.Leads pkg (m.connectDone id failure) := by
  unfold connectDone
  split
  · exact .refl
  rename_i s hObject
  split
  · exact .refl
  rename_i hWorker
  have hWorker : s.worker = .connecting := by simpa using hWorker
  split
  · exact core_worker .leaving hObject (by simp [hWorker]) (.inr (.inl rfl))
  rename_i hLive
  have hLive : s.terminal = none := by simpa using hLive
  split
  · exact core_put hObject (.refused _ hWorker hLive (hFailure _ rfl))
  · exact core_put hObject (.opened .copying (.inr hWorker) hLive (.inr rfl))

theorem core_copyDone (pkg : Packages) (m : Mux) (id : Nat) : m.Leads pkg (m.copyDone id) := by
  unfold copyDone
  split
  · exact .refl
  rename_i s hObject
  split
  · rename_i hOver
    exact core_put hObject
      (.worker .draining (by simp [hOver.1]) (by rintro ⟨⟩) (by rintro ⟨⟩) fun _ => hOver.2)
  · exact .refl

theorem core_drain (pkg : Packages) (m : Mux) (id : Nat) : m.Leads pkg (m.drain id) := by
  unfold drain
  split
  · exact .refl
  rename_i s hObject
  split
  · exact .refl
  rename_i hWorker
  split
  · exact .refl
  · rename_i hOver
    refine core_put hObject (.drained (by simpa using hWorker) ?_)
    simp only [not_and_or, Bool.not_eq_false, ← Option.isSome_iff_ne_none] at hOver
    exact hOver

theorem core_workerExit (pkg : Packages) (m : Mux) (id : Nat) : m.Leads pkg (m.workerExit id) := by
  unfold workerExit
  split
  · exact .refl
  rename_i s hObject
  split
  · rename_i hWorker
    rw [Leads, core_setJobs]
    exact core_worker .exited hObject (by simp [hWorker]) (.inr (.inr rfl))
  · exact .refl

theorem core_queryDNS (m : Mux) (query : Bytes) : m.Leads pkg (m.queryDNS pkg query) := by
  unfold queryDNS
  split
  · exact .refl
  · exact .single (.queued rfl (core_controlLocked
      { m with dns := m.dns.insert m.dnsNext { query := query }, dnsNext := m.dnsNext + 1 }
      (dnsFrame .dnsQuery m.dnsNext query)))

theorem core_queryDone (pkg : Packages) (m : Mux) (id : Nat) : m.Leads pkg (m.queryDone id) := by
  unfold queryDone
  split
  · exact .refl
  split
  · exact .refl
  · exact .single (.queued rfl (core_controlLocked m (dnsFrame .dnsCancel id [])))

theorem core_resolveDNS (m : Mux) (id : Nat) (answer : Option Bytes) : m.Leads pkg (m.resolveDNS pkg id answer) := by
  unfold resolveDNS
  split
  · exact .refl
  dsimp only
  split
  · exact .refl
  split
  · exact .single (.queued rfl (core_controlLocked
      { m with dns := m.dns.erase id, dnsLeaving := m.dnsLeaving + 1 } (dnsFrame .dnsError id [])))
  · rename_i response hAnswer
    exact .single (.queued rfl (core_controlLocked
      { m with dns := m.dns.erase id, dnsLeaving := m.dnsLeaving + 1 } (dnsFrame .dnsResponse id response)))

/-- Every step of a mux is a run of its core. -/
theorem core_local (h : Local pkg m m') : m.Leads pkg m' := by
  cases h with
  | openTCP request => exact core_openTCP request
  | openRetry w _ hClient hValid => exact core_openRetry hClient hValid
  | openAbandon | dnsExit => exact .refl
  | awaitRetry hAwaiting => exact .single (.admitted (c := m.core) hAwaiting (core_admitOpen m _ _))
  | read id size => exact core_modify fun _ _ => .read size
  | write id payload => exact core_modify fun _ _ => .write payload
  | closeWrite id => exact core_modify fun _ _ => .closeWrite
  | reset id => exact core_modify fun _ _ => .reset
  | close id hUser =>
    refine core_modify fun s hObject => .close (hUser.imp_right fun hLease => ?_)
    simpa [hObject] using hLease
  | leaseStart id => exact core_leaseStart pkg m id
  | handlerDone id => exact core_handlerDone pkg m id
  | connectDone id failure hFailure => exact core_connectDone m id hFailure
  | copyDone id => exact core_copyDone pkg m id
  | drain id => exact core_drain pkg m id
  | workerExit id => exact core_workerExit pkg m id
  | queryDNS query => exact core_queryDNS m query
  | queryDone id _ => exact core_queryDone pkg m id
  | resolveDNS id answer _ => exact core_resolveDNS m id answer
  | gather hSession hSending _ => exact core_gather hSession hSending
  | sendDone _ => exact core_sendDone pkg m
  | cancel => exact .single .cancel
  | fail err => exact .single .finish
  | shutdown hCancelled =>
    have hEq : m.shutdown.core = { m.core.finishAll with streams := [], control := [] } := by
      simp [core, shutdown, finishAll, Core.finishAll, hCancelled]
    rw [Leads, hEq]
    exact .single (.clear hCancelled)

theorem core_transmit (h : Transmit m frame m') : Core.Transmit m.core frame m'.core := by
  cases h with
  | next hSending =>
    have hHand : m.core.hand = frame :: (_ ++ m.pending.toList) := congrArg (· ++ m.pending.toList) hSending
    exact .next hHand

end Mux

end FamilyConnect.TCPForward
