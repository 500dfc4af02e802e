import FamilyConnect.TCPForward.Core

/-!
# What a mux keeps against any peer

`Stream.Sound` is the accounting of one live stream, which every operation on
a stream keeps. `Core.Inv` holds it for all streams, with the names of the
streams, their number and the length of the control queue, and every step of a
core keeps it, whatever frame the peer sends.
-/

namespace FamilyConnect.TCPForward

open Lib

namespace Stream

structure Sound (window : Nat) (s : Stream) : Prop where
  ring : s.terminal = none → s.receive.length = window
  head : s.terminal = none → s.head < window
  receive : s.terminal = none → (s.used : Int) + s.receiveCredit = window
  receiveCredit : s.terminal = none → 0 ≤ s.receiveCredit
  sendCredit : s.terminal = none → 0 ≤ s.sendCredit ∧ s.sendCredit ≤ window

variable {window : Nat} {s s' : Stream} {err : Err}

theorem sound_make (hWindow : 0 < window) (id : Nat) (lease : Bool) (worker : Worker) :
    Sound window { make window id lease with worker := worker } where
  ring _ := List.length_replicate
  head _ := hWindow
  receive _ := by simp [make]
  receiveCredit _ := by simp [make]
  sendCredit _ := by simp [make]

theorem sound_of_terminal (h : s.terminal.isSome = true) : Sound window s := by
  have hNot : s.terminal ≠ none := Option.isSome_iff_ne_none.mp h
  exact ⟨fun h => absurd h hNot, fun h => absurd h hNot, fun h => absurd h hNot, fun h => absurd h hNot,
    fun h => absurd h hNot⟩

theorem terminal_finishLocked (s : Stream) (err : Err) : (s.finishLocked err).terminal.isSome = true := by
  unfold finishLocked
  split
  · rename_i hTerminal
    rw [hTerminal]
    rfl
  · rfl

theorem terminal_finishWith (s : Stream) (err : Err) (frame : Frame) :
    (s.finishWith err frame).terminal.isSome = true := by
  unfold finishWith
  split
  · rename_i hTerminal
    rw [hTerminal]
    rfl
  · exact terminal_finishLocked s err

theorem terminal_resetLocked (s : Stream) (err : Err) : (s.resetLocked err).terminal.isSome = true :=
  terminal_finishWith s err _

structure Kept (window : Nat) (s s' : Stream) : Prop where
  sound : Sound window s → Sound window s'
  id : s'.id = s.id
  lease : s'.lease = s.lease

theorem Kept.refl (window : Nat) (s : Stream) : Kept window s s := ⟨fun h => h, rfl, rfl⟩

theorem Kept.trans {s'' : Stream} (h : Kept window s s') (h' : Kept window s' s'') : Kept window s s'' :=
  ⟨fun hs => h'.sound (h.sound hs), h'.id.trans h.id, h'.lease.trans h.lease⟩

theorem kept_finishLocked (window : Nat) (s : Stream) (err : Err) : Kept window s (s.finishLocked err) := by
  refine ⟨fun _ => sound_of_terminal (terminal_finishLocked s err), ?_, ?_⟩
  · unfold finishLocked
    split <;> rfl
  · unfold finishLocked
    split <;> rfl

theorem kept_finishWith (window : Nat) (s : Stream) (err : Err) (frame : Frame) :
    Kept window s (s.finishWith err frame) := by
  refine ⟨fun _ => sound_of_terminal (terminal_finishWith s err frame), ?_, ?_⟩
  · unfold finishWith
    split
    · rfl
    · exact (kept_finishLocked window s err).id
  · unfold finishWith
    split
    · rfl
    · exact (kept_finishLocked window s err).lease

theorem kept_resetLocked (window : Nat) (s : Stream) (err : Err) : Kept window s (s.resetLocked err) :=
  kept_finishWith window s err _

theorem Kept.of_accounts (hTerminal : s'.terminal = s.terminal := by rfl) (hReceive : s'.receive = s.receive := by rfl)
    (hHead : s'.head = s.head := by rfl) (hUsed : s'.used = s.used := by rfl) (hId : s'.id = s.id := by rfl)
    (hReceiveCredit : s'.receiveCredit = s.receiveCredit := by rfl)
    (hSendCredit : s'.sendCredit = s.sendCredit := by rfl) (hLease : s'.lease = s.lease := by rfl) : Kept window s s' := by
  refine ⟨fun h => ?_, hId, hLease⟩
  constructor
  · rw [hTerminal, hReceive]
    exact h.ring
  · rw [hTerminal, hHead]
    exact h.head
  · rw [hTerminal, hUsed, hReceiveCredit]
    exact h.receive
  · rw [hTerminal, hReceiveCredit]
    exact h.receiveCredit
  · rw [hTerminal, hSendCredit]
    exact h.sendCredit

theorem kept_read (window : Nat) (s : Stream) (size : Nat) (cancelled : Bool) :
    Kept window s (s.read size cancelled).1 := by
  unfold read
  split
  · exact .refl window s
  split
  · exact .refl window s
  rename_i hLive
  split
  · exact .refl window s
  split
  · rename_i hUsed
    refine ⟨fun h => ?_, rfl, rfl⟩
    have hReceive := h.receive hLive
    have hLength := h.ring hLive
    have hHead := h.head hLive
    exact
      { ring := h.ring
        head := fun _ => hLength ▸ Nat.mod_lt _ (by omega)
        receive := fun _ => by
          dsimp only
          omega
        receiveCredit := fun _ => by
          have hCredit := h.receiveCredit hLive
          dsimp only
          omega
        sendCredit := h.sendCredit }
  split <;> exact .refl window s

theorem kept_write (window : Nat) (s : Stream) (payload : Bytes) (batch cancelled : Bool) :
    Kept window s (s.write payload batch cancelled).1 := by
  unfold write
  split
  · exact .refl window s
  split
  · exact .refl window s
  rename_i hLive
  split
  · exact .refl window s
  split
  · rename_i hReady
    refine ⟨fun h => { h with sendCredit := fun _ => ?_ }, rfl, rfl⟩
    have hCredit := h.sendCredit hLive
    dsimp only
    omega
  · exact .refl window s

theorem kept_closeWrite (window : Nat) (s : Stream) : Kept window s s.closeWrite.1 := by
  unfold closeWrite
  split
  · exact .refl window s
  split
  · exact .refl window s
  split
  · exact .refl window s
  · exact .of_accounts

theorem kept_close (window : Nat) (s : Stream) (server cancelled : Bool) :
    Kept window s (s.close server cancelled) := by
  unfold close
  split
  · exact .refl window s
  split
  · split
    · split
      · exact kept_finishWith window s _ _
      · exact .refl window s
    · split
      · exact .refl window s
      · exact .of_accounts
  · exact kept_resetLocked window s _

variable {pkg : Packages} {frame : Frame}

/-- A frame that a live stream accepts keeps its accounts, whatever the peer meant by it. -/
theorem kept_accepted {server removed : Bool} (hLive : s.terminal = none)
    (h : s.Accepted pkg server frame s' removed) : Kept window s s' := by
  cases h with
  | openOK | fin | closeRequested => exact .of_accounts
  | openError | closed | reset => exact kept_finishLocked window s _
  | data _ _ _ hFits =>
    refine ⟨fun h => ?_, rfl, rfl⟩
    have hReceive := h.receive hLive
    exact
      { ring := fun _ => (Ring.length_fill _ _ _ _).trans (h.ring hLive)
        head := h.head
        receive := fun _ => by
          dsimp only
          omega
        receiveCredit := fun _ => by
          dsimp only
          omega
        sendCredit := h.sendCredit }
  | credit _ _ hFits =>
    refine ⟨fun h => { h with sendCredit := fun _ => ?_ }, rfl, rfl⟩
    have hCredit := h.sendCredit hLive
    have hLength := h.ring hLive
    dsimp only
    omega

theorem terminal_of_accepted {server : Bool} (h : s.Accepted pkg server frame s' true) : s'.terminal.isSome = true := by
  cases h with
  | openError code _ _ _ _ _ | closed _ _ _ _ _ | reset _ => exact terminal_finishLocked s _

theorem outstanding_accepted {server removed : Bool} (h : s.Accepted pkg server frame s' removed) :
    s'.used + s'.creditPending ≤
      s.used + s.creditPending + if frame.kind = .dataFrame then frame.payload.length else 0 := by
  have hFinish (err : Err) : (s.finishLocked err).used + (s.finishLocked err).creditPending ≤
      s.used + s.creditPending := by
    unfold finishLocked
    split <;> simp
  have hAdd {a b : Nat} (n : Nat) (hLe : a ≤ b) : a ≤ b + n := Nat.le_add_right_of_le hLe
  cases h with
  | openOK | credit | fin | closeRequested => exact Nat.le_add_right _ _
  | openError | closed | reset => exact hAdd _ (hFinish _)
  | data hKind _ _ _ =>
    rw [if_pos hKind]
    dsimp only
    omega

section

variable {cause : Err} (hTerminal : s.terminal = some cause)
include hTerminal

theorem finishWith_of_terminal (frame : Frame) : s.finishWith err frame = s := by
  simp only [finishWith, hTerminal]

theorem read_of_terminal (size : Nat) (cancelled : Bool) : (s.read size cancelled).1 = s := by
  unfold read
  split
  · rfl
  · simp only [hTerminal]

theorem write_of_terminal (payload : Bytes) (batch cancelled : Bool) : (s.write payload batch cancelled).1 = s := by
  unfold write
  split
  · rfl
  · simp only [hTerminal]

theorem closeWrite_of_terminal : s.closeWrite.1 = s := by
  simp only [closeWrite, hTerminal]

theorem close_of_terminal (server cancelled : Bool) : s.close server cancelled = s := by
  simp only [close, hTerminal]

end

end Stream

namespace StreamOp

variable {server cancelled batch : Bool} {window : Nat} {s s' : Stream}

section

variable (h : StreamOp server cancelled batch s s')
include h

theorem kept : s.Kept window s' := by
  cases h with
  | read size => exact Stream.kept_read window s size cancelled
  | write payload => exact Stream.kept_write window s payload batch cancelled
  | closeWrite => exact Stream.kept_closeWrite window s
  | reset => exact Stream.kept_resetLocked window s _
  | close _ => exact Stream.kept_close window s server cancelled
  | worker w _ _ _ _ | opened w _ _ _ => exact .of_accounts
  | refused code _ _ _ =>
    exact (Stream.kept_finishWith window s _ _).trans .of_accounts
  | drained _ _ => exact (Stream.kept_finishWith window s _ _).trans .of_accounts
  | abandoned err _ _ => exact (Stream.kept_resetLocked window s _).trans .of_accounts

theorem eq_of_terminal (hOver : s.terminal.isSome = true) :
    ∃ w, s' = { s with worker := w } := by
  obtain ⟨err, hTerminal⟩ := Option.isSome_iff_exists.mp hOver
  cases h with
  | read size => exact ⟨s.worker, Stream.read_of_terminal hTerminal size cancelled⟩
  | write payload => exact ⟨s.worker, Stream.write_of_terminal hTerminal payload batch cancelled⟩
  | closeWrite => exact ⟨s.worker, Stream.closeWrite_of_terminal hTerminal⟩
  | reset => exact ⟨s.worker, Stream.finishWith_of_terminal hTerminal _⟩
  | close _ => exact ⟨s.worker, Stream.close_of_terminal hTerminal server cancelled⟩
  | worker w _ _ _ _ => exact ⟨w, rfl⟩
  | opened w _ hLive _ | refused code _ hLive _ =>
    rw [hTerminal] at hLive
    cases hLive
  | drained _ _ => exact ⟨.leaving, by rw [Stream.finishWith_of_terminal hTerminal]⟩
  | abandoned err _ _ => exact ⟨.leaving, by rw [Stream.resetLocked, Stream.finishWith_of_terminal hTerminal]⟩

/-- Bytes move from the ring to the credit that is still to be announced; no operation makes more of both. -/
theorem outstanding_le : s'.used + s'.creditPending ≤ s.used + s.creditPending := by
  have hFinish (err : Err) (frame : Frame) :
      (s.finishWith err frame).used + (s.finishWith err frame).creditPending ≤ s.used + s.creditPending := by
    unfold Stream.finishWith Stream.finishLocked
    split <;> simp
  cases h with
  | read | write =>
    dsimp only [Stream.read, Stream.write]
    repeat' split
    all_goals dsimp only
    all_goals omega
  | closeWrite =>
    unfold Stream.closeWrite
    repeat' split
    all_goals exact Nat.le_refl _
  | reset | refused | drained | abandoned => exact hFinish _ _
  | close _ =>
    unfold Stream.close
    repeat' split
    all_goals first | exact Nat.le_refl _ | exact hFinish _ _
  | worker | opened => exact Nat.le_refl _

end

end StreamOp

namespace Core

variable {pkg : Packages} {c c' : Core} {id : Nat} {s s' : Stream}

/-! ## Classes of streams -/

theorem ofClass_put (hObject : c.object id = some s) (hLease : s'.lease = s.lease) (lease : Bool) :
    (c.put id s').ofClass lease = c.ofClass lease := by
  refine List.filter_congr fun i _ => ?_
  by_cases hId : i = id
  · subst hId
    simp [put, hObject, hLease]
  · simp [put, Function.update_of_ne hId]

theorem length_ofClass_make (hNew : id ∉ c.streams) (lease lease' : Bool) (worker : Worker) :
    ((c.make id lease worker).ofClass lease').length =
      (c.ofClass lease').length + if lease = lease' then 1 else 0 := by
  have hOld : c.streams.filter (fun i => ((c.make id lease worker).object i).any fun s => s.lease = lease') =
      c.ofClass lease' := by
    refine List.filter_congr fun i hi => ?_
    have hNe : i ≠ id := fun hEq => hNew (hEq ▸ hi)
    simp [make, put, Function.update_of_ne hNe]
  have hHead : ((c.make id lease worker).object id).any (fun s => s.lease = lease') = decide (lease = lease') := by
    simp [make, put, Stream.make]
  unfold ofClass
  rw [show (c.make id lease worker).streams = id :: c.streams from rfl, List.filter_cons, hHead, hOld]
  by_cases hLease : lease = lease'
  · simp [hLease, ofClass]
  · simp [hLease, ofClass]

theorem length_ofClass_remove_le (c : Core) (id : Nat) (lease : Bool) :
    ((c.remove id).ofClass lease).length ≤ (c.ofClass lease).length :=
  ((List.erase_sublist).filter _).length_le

theorem ofClass_finishAll (c : Core) (lease : Bool) : c.finishAll.ofClass lease = c.ofClass lease := by
  refine List.filter_congr fun i hi => ?_
  have hMem : i ∈ c.streams := hi
  simp only [finishAll, if_pos hMem]
  cases c.object i with
  | none => rfl
  | some s => simp [(Stream.kept_finishLocked c.window s .reset).lease]

/-! ## The invariant -/

/-- What holds of a core whatever its peer sends. On the streams that `Polite` names, the peer sends no more data than
it has credit for. -/
structure Inv (Polite : Nat → Prop) (c : Core) : Prop where
  window : 0 < c.window
  nextID : 0 < c.nextID
  known : ∀ id ∈ c.streams, (c.object id).isSome = true
  sound : ∀ id s, c.object id = some s → s.id = id ∧ s.Sound c.window
  named : ∀ id s, c.object id = some s → id ≠ 0 ∧ if c.server then id ≤ c.lastID else id < c.nextID
  ended : ∀ id s, c.object id = some s → id ∉ c.streams → s.terminal.isSome = true
  awaiting : ∀ id request, c.awaiting = some (id, request) →
    c.server = true ∧ id ≠ 0 ∧ id = c.lastID ∧ c.object id = none
  nodup : c.streams.Nodup
  slots : ∀ lease, (c.ofClass lease).length ≤ c.slots lease
  control : c.control.length ≤ Mux.controlLimit
  granted : ∀ id s, c.object id = some s → Polite id → s.terminal = none → s.used + s.creditPending ≤ c.window

variable {Polite : Nat → Prop}

theorem forall_update {object : Nat → Option Stream} {P : Nat → Stream → Prop}
    (hOld : ∀ i t, object i = some t → P i t) (hNew : P id s) :
    ∀ i t, Function.update object id (some s) i = some t → P i t := by
  intro i t hi
  by_cases hEq : i = id
  · subst hEq
    simp only [Function.update_self, Option.some.injEq] at hi
    exact hi ▸ hNew
  · rw [Function.update_of_ne hEq] at hi
    exact hOld i t hi

theorem isSome_update (object : Nat → Option Stream) (s : Stream) {i : Nat} (h : i = id ∨ (object i).isSome = true) :
    (Function.update object id (some s) i).isSome = true := by
  by_cases hEq : i = id
  · subst hEq
    simp
  · rw [Function.update_of_ne hEq]
    exact h.resolve_left hEq

theorem object_of_lookup (h : c.lookup id = some s) : id ∈ c.streams ∧ c.object id = some s := by
  unfold lookup at h
  split at h
  · rename_i hMem
    exact ⟨hMem, h⟩
  · cases h

section

variable (h : Inv Polite c)
include h

theorem Inv.put (hObject : c.object id = some s) (hKept : s.Kept c.window s')
    (hOver : id ∉ c.streams → s'.terminal.isSome = true)
    (hGranted : Polite id → s'.terminal = none → s'.used + s'.creditPending ≤ c.window) :
    Inv Polite (c.put id s') where
  window := h.window
  nextID := h.nextID
  known i hi := isSome_update c.object s' (.inr (h.known i hi))
  sound := forall_update h.sound
    ⟨hKept.id.trans (h.sound id s hObject).1, hKept.sound (h.sound id s hObject).2⟩
  named := forall_update h.named (h.named id s hObject)
  ended := forall_update h.ended hOver
  awaiting i request hi := by
    obtain ⟨hServer, hZero, hLast, hNone⟩ := h.awaiting i request hi
    have hEq : i ≠ id := by
      rintro rfl
      rw [hObject] at hNone
      cases hNone
    exact ⟨hServer, hZero, hLast, (Function.update_of_ne hEq _ _).trans hNone⟩
  nodup := h.nodup
  slots lease := (ofClass_put hObject hKept.lease lease).symm ▸ h.slots lease
  control := h.control
  granted := forall_update h.granted hGranted

variable {frame : Frame}

theorem Inv.queue (hControl : Control c frame c') : Inv Polite c' := by
  cases hControl with
  | ended _ => exact h
  | full _ _ => exact { h with }
  | queued _ hRoom =>
    refine { h with control := ?_ }
    rw [List.length_append]
    exact hRoom

theorem Inv.make (hZero : id ≠ 0) (hNew : c.object id = none) (lease : Bool) (worker : Worker)
    (hSlot : (c.ofClass lease).length < c.slots lease) (hName : if c.server then id ≤ c.lastID else id < c.nextID)
    (hAwaiting : c.awaiting = none) : Inv Polite (c.make id lease worker) := by
  have hNot : id ∉ c.streams := fun hMem => by
    have hKnown := h.known id hMem
    rw [hNew] at hKnown
    cases hKnown
  exact
    { window := h.window
      nextID := h.nextID
      known := fun i hi => isSome_update c.object _ ((List.mem_cons.mp hi).imp_right (h.known i))
      sound := forall_update h.sound ⟨rfl, Stream.sound_make h.window id lease worker⟩
      named := forall_update h.named ⟨hZero, hName⟩
      ended := forall_update (fun i t hi hMem => h.ended i t hi fun hOld => hMem (.tail _ hOld))
        fun hMem => absurd (.head _) hMem
      awaiting := fun i request hi => by
        have hSome : c.awaiting = some (i, request) := hi
        rw [hAwaiting] at hSome
        cases hSome
      nodup := List.nodup_cons.mpr ⟨hNot, h.nodup⟩
      slots := fun lease' => by
        rw [length_ofClass_make hNot]
        split
        · rename_i hLease
          exact hLease ▸ hSlot
        · exact h.slots lease'
      control := h.control
      granted := forall_update h.granted fun _ _ => Nat.zero_le _ }

theorem Inv.remove (hObject : c.object id = some s) (hOver : s.terminal.isSome = true) : Inv Polite (c.remove id) where
  window := h.window
  nextID := h.nextID
  known i hi := h.known i (List.mem_of_mem_erase hi)
  sound := h.sound
  named := h.named
  ended i t hi hMem := by
    by_cases hEq : i = id
    · subst hEq
      rw [show (c.remove i).object i = c.object i from rfl, hObject] at hi
      cases hi
      exact hOver
    · exact h.ended i t hi fun hOld => hMem ((List.mem_erase_of_ne hEq).mpr hOld)
  awaiting := h.awaiting
  nodup := h.nodup.erase id
  slots lease := (length_ofClass_remove_le c id lease).trans (h.slots lease)
  control := h.control
  granted := h.granted

theorem Inv.finishAll : Inv Polite c.finishAll := by
  have hOf {P : Nat → Stream → Prop} (hOld : ∀ i t, c.object i = some t → P i t ∧ P i (t.finishLocked .reset)) :
      ∀ i t, c.finishAll.object i = some t → P i t := by
    intro i t hi
    simp only [Core.finishAll] at hi
    split at hi
    · obtain ⟨t₀, ht₀, rfl⟩ := Option.map_eq_some_iff.mp hi
      exact (hOld i t₀ ht₀).2
    · exact (hOld i t hi).1
  refine
    { window := h.window
      nextID := h.nextID
      known := fun i hi => by
        have hMem : i ∈ c.streams := hi
        simpa [Core.finishAll, hMem] using h.known i hMem
      sound := hOf fun i t hi => ⟨h.sound i t hi, ?_⟩
      named := hOf fun i t hi => ⟨h.named i t hi, h.named i t hi⟩
      ended := hOf fun i t hi => ⟨h.ended i t hi, fun _ => ?_⟩
      awaiting := fun i request hi => ?_
      nodup := h.nodup
      slots := fun lease => (ofClass_finishAll c lease).symm ▸ h.slots lease
      control := h.control
      granted := hOf fun i t hi => ⟨h.granted i t hi, fun _ hLive => ?_⟩ }
  · have hKept := Stream.kept_finishLocked c.window t .reset
    exact ⟨hKept.id.trans (h.sound i t hi).1, hKept.sound (h.sound i t hi).2⟩
  · exact Stream.terminal_finishLocked t .reset
  · obtain ⟨hServer, hZero, hLast, hNone⟩ := h.awaiting i request hi
    refine ⟨hServer, hZero, hLast, ?_⟩
    simp [Core.finishAll, hNone]
  · have hOver := Stream.terminal_finishLocked t .reset
    rw [hLive] at hOver
    cases hOver

theorem Inv.streamOp (hObject : c.object id = some s)
    (hOp : StreamOp c.server c.cancelled c.batch s s') : Inv Polite (c.put id s') := by
  refine h.put hObject hOp.kept (fun hMem => ?_) fun hPolite hLive => ?_
  · have hOver := h.ended id s hObject hMem
    obtain ⟨w, rfl⟩ := hOp.eq_of_terminal hOver
    exact hOver
  · refine hOp.outstanding_le.trans (h.granted id s hObject hPolite ?_)
    by_contra hTerminal
    obtain ⟨w, rfl⟩ := hOp.eq_of_terminal (Option.isSome_iff_ne_none.mpr hTerminal)
    exact hTerminal hLive

omit h in
theorem Inv.admitted {request : OpenRequest} (h : Inv Polite { c with awaiting := none })
    (hName : c.server = true ∧ id ≠ 0 ∧ id = c.lastID ∧ c.object id = none) (hAdmit : Admit pkg c id request c') :
    Inv Polite c' := by
  obtain ⟨hServer, hZero, hLast, hNone⟩ := hName
  cases hAdmit with
  | dropped _ => exact h
  | granted worker _ hSlot _ =>
    refine h.make hZero hNone _ worker hSlot ?_ rfl
    simp [hServer, hLast]
  | rejected _ _ _ hControl =>
    exact Inv.queue (c := { c with awaiting := none, rejected := c.rejected + 1 })
      { h with } hControl
  | waiting _ =>
    refine { h with awaiting := ?_ }
    rintro _ _ ⟨⟩
    exact ⟨hServer, hZero, hLast, hNone⟩

theorem Inv.step (hStep : Step pkg c c') : Inv Polite c' := by
  cases hStep with
  | stream hObject hOp => exact h.streamOp hObject hOp
  | opened request hClient _ _ _ hSlot hControl =>
    have hNew : c.object c.nextID = none := by
      by_contra hSome
      obtain ⟨s, hs⟩ := Option.ne_none_iff_exists'.mp hSome
      have hName := (h.named _ s hs).2
      rw [hClient] at hName
      exact Nat.lt_irrefl _ hName
    have hAwaiting : c.awaiting = none := by
      by_contra hSome
      obtain ⟨⟨i, r⟩, hs⟩ := Option.ne_none_iff_exists'.mp hSome
      have hServer := (h.awaiting i r hs).1
      rw [hClient] at hServer
      cases hServer
    have hLater : Inv Polite { c with nextID := c.nextID + 2 } :=
      { h with
        nextID := Nat.succ_pos _
        named := fun i s hs => by
          refine ⟨(h.named i s hs).1, ?_⟩
          have hName := (h.named i s hs).2
          simp only [hClient, Bool.false_eq_true, if_false] at hName ⊢
          omega }
    refine (hLater.make (Nat.pos_iff_ne_zero.mp h.nextID) hNew (leaseRequest pkg request) .none hSlot ?_
      hAwaiting).queue hControl
    simp [hClient]
  | admitted hAwaiting hAdmit =>
    exact Inv.admitted { h with awaiting := by rintro _ _ ⟨⟩ } (h.awaiting _ _ hAwaiting) hAdmit
  | turnedAway | settled | cancel => exact { h with }
  | queued _ hControl => exact h.queue hControl
  | pickControl _ hControl =>
    refine { h with control := ?_ }
    have hLength := h.control
    rw [hControl] at hLength
    exact (Nat.le_succ _).trans hLength
  | @pickStream id s _ rest _ hLookup hSend _ =>
    obtain ⟨hMem, hObject⟩ := object_of_lookup hLookup
    have hPut : Inv Polite (c.put id { s with send := rest }) :=
      h.put hObject .of_accounts (fun hNot => absurd hMem hNot)
        (h.granted id s hObject)
    exact { hPut with }
  | @announce id s _ hLookup _ _ _ =>
    obtain ⟨hMem, hObject⟩ := object_of_lookup hLookup
    have hPut : Inv Polite (c.put id { s with creditPending := 0 }) :=
      h.put hObject .of_accounts (fun hNot => absurd hMem hNot)
        fun hPolite hLive => (Nat.le_add_right _ _).trans (h.granted id s hObject hPolite hLive)
    exact { hPut with }
  | remove hLookup hOver _ => exact h.remove (object_of_lookup hLookup).2 hOver
  | finish => exact h.finishAll
  | clear _ =>
    refine { h.finishAll with
      known := by rintro _ ⟨⟩
      ended := fun i s hs _ => ?_
      nodup := .nil
      slots := fun _ => Nat.zero_le _
      control := Nat.zero_le _ }
    simp only [Core.finishAll] at hs
    split at hs
    · obtain ⟨t, _, rfl⟩ := Option.map_eq_some_iff.mp hs
      exact Stream.terminal_finishLocked t .reset
    · rename_i hMem
      exact h.ended i s hs hMem

def Covered (c : Core) (frame : Frame) : Prop :=
  frame.kind = .dataFrame → ∀ s, c.lookup frame.id = some s → s.used + s.creditPending + frame.payload.length ≤ c.window

theorem Inv.dispatch (hAwaiting : c.awaiting = none)
    (hCovered : Polite frame.id → c.Covered frame) (hDispatch : Dispatch pkg c frame c') : Inv Polite c' := by
  have hLast (hServer : c.server = true) (hNew : c.lastID < frame.id) : Inv Polite { c with lastID := frame.id } :=
    { h with
      named := fun i s hs => by
        refine ⟨(h.named i s hs).1, ?_⟩
        have hName := (h.named i s hs).2
        simp only [hServer, if_true] at hName ⊢
        omega
      awaiting := fun i request hi => by
        have hSome : c.awaiting = some (i, request) := hi
        rw [hAwaiting] at hSome
        cases hSome }
  have hUnused (hServer : c.server = true) (hNew : c.lastID < frame.id) : c.object frame.id = none := by
    by_contra hSome
    obtain ⟨s, hs⟩ := Option.ne_none_iff_exists'.mp hSome
    have hName := (h.named _ s hs).2
    rw [if_pos hServer] at hName
    omega
  cases hDispatch with
  | ignored _ => exact h
  | answered _ _ hControl => exact h.queue hControl
  | malformed _ _ hServer _ hNew _ hControl => exact (hLast hServer hNew).queue hControl
  | admitted _ hId hServer _ hNew _ _ hAdmit =>
    refine Inv.admitted (c := { c with lastID := frame.id }) ?_ ⟨hServer, hId, rfl, hUnused hServer hNew⟩ hAdmit
    exact { hLast hServer hNew with awaiting := by rintro _ _ ⟨⟩ }
  | @accepted s s' removed _ hLookup hLive hAccept =>
    obtain ⟨hMem, hObject⟩ := object_of_lookup hLookup
    have hAccepted := Stream.accepted_of_accept hAccept
    have hPut : Inv Polite (c.put frame.id s') := by
      refine h.put hObject (Stream.kept_accepted hLive hAccepted) (fun hNot => absurd hMem hNot) fun hPolite _ => ?_
      refine (Stream.outstanding_accepted hAccepted).trans ?_
      split
      · rename_i hKind
        exact hCovered hPolite hKind s hLookup
      · exact h.granted frame.id s hObject hPolite hLive
    cases removed with
    | false => exact hPut
    | true =>
      refine hPut.remove (s := s') ?_ (Stream.terminal_of_accepted hAccepted)
      simp [Core.put]
  | invalid _ hLookup _ _ =>
    obtain ⟨hMem, hObject⟩ := object_of_lookup hLookup
    have hPut : Inv Polite (c.put frame.id _) :=
      h.put hObject (Stream.kept_resetLocked c.window _ .protocol) (fun hNot => absurd hMem hNot) fun _ hLive => by
        have hOver := Stream.terminal_resetLocked _ _ ▸ congrArg Option.isSome hLive
        cases hOver
    exact { hPut with }

theorem Inv.transmit (hTransmit : Transmit c frame c') : Inv Polite c' := by
  cases hTransmit with
  | next _ => exact { h with }

end

end Core

end FamilyConnect.TCPForward
