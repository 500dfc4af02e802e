import FamilyConnect.TCPForward.MuxInvariant

/-!
# A mux against any peer

The peer sends any frames that decode. The accounts of the streams hold all the
same, a frame touches no stream but the one it names, and only a full control
queue lets it end the session. The credit that is still to be announced stays
within the window as long as the peer keeps to the credit it was given.
-/

namespace FamilyConnect.TCPForward

open Lib

variable {frame : Frame}

namespace Core

variable {pkg : Packages} {c c' : Core} {id : Nat}

structure Isolated (c : Core) (id : Nat) (c' : Core) : Prop where
  object : ∀ i, i ≠ id → c'.object i = c.object i
  streams : ∀ i, i ≠ id → (i ∈ c'.streams ↔ i ∈ c.streams)
  session : c.control.length < Mux.controlLimit → c'.cancelled = c.cancelled

theorem Control.isolated (h : Control c frame c') (id : Nat) : Isolated c id c' := by
  cases h with
  | ended | queued => exact ⟨fun _ _ => rfl, fun _ _ => .rfl, fun _ => rfl⟩
  | full _ hFull => exact ⟨fun _ _ => rfl, fun _ _ => .rfl, fun hRoom => absurd hRoom (Nat.not_lt.mpr hFull)⟩

theorem isolated_put (c : Core) (id : Nat) (s : Stream) : Isolated c id (c.put id s) :=
  ⟨fun _ hNe => Function.update_of_ne hNe _ _, fun _ _ => .rfl, fun _ => rfl⟩

theorem Admit.isolated {request : OpenRequest} (h : Admit pkg c id request c') : Isolated c id c' := by
  cases h with
  | dropped | waiting => exact ⟨fun _ _ => rfl, fun _ _ => .rfl, fun _ => rfl⟩
  | granted worker _ _ _ =>
    refine ⟨fun _ hNe => Function.update_of_ne hNe _ _, fun i hNe => ?_, fun _ => rfl⟩
    exact List.mem_cons.trans (or_iff_right hNe)
  | rejected _ _ _ hControl =>
    have hIsolated := hControl.isolated id
    exact ⟨hIsolated.object, hIsolated.streams, hIsolated.session⟩

theorem Dispatch.isolated (h : Dispatch pkg c frame c') : Isolated c frame.id c' := by
  cases h with
  | ignored _ => exact ⟨fun _ _ => rfl, fun _ _ => .rfl, fun _ => rfl⟩
  | answered _ _ hControl => exact hControl.isolated frame.id
  | malformed _ _ _ _ _ _ hControl =>
    have hIsolated := hControl.isolated frame.id
    exact ⟨hIsolated.object, hIsolated.streams, hIsolated.session⟩
  | admitted _ _ _ _ _ _ _ hAdmit =>
    have hIsolated := hAdmit.isolated
    exact ⟨hIsolated.object, hIsolated.streams, hIsolated.session⟩
  | @accepted s s' removed _ _ _ _ =>
    have hPut := isolated_put c frame.id s'
    cases removed with
    | false => exact hPut
    | true => exact ⟨hPut.object, fun i hNe => List.mem_erase_of_ne hNe, hPut.session⟩
  | @invalid s _ _ _ _ _ =>
    have hPut := isolated_put c frame.id (s.resetLocked .protocol)
    exact ⟨hPut.object, hPut.streams, hPut.session⟩

end Core

/-! ## A mux and any peer -/

namespace Mux

inductive Step (pkg : Packages) (Polite : Nat → Prop) : Mux → Mux → Prop where
  | act {m m' : Mux} : Local pkg m m' → Step pkg Polite m m'
  | transmit {m m' : Mux} {frame : Frame} : Transmit m frame m' → Step pkg Polite m m'
  | receive {m : Mux} {packet : Bytes} {frame : Frame} : m.awaiting = none →
      decodeMuxWindow packet m.window = some frame → (Polite frame.id → m.core.Covered frame) →
      Step pkg Polite m (m.receive pkg packet)

def system (pkg : Packages) (Polite : Nat → Prop) : System Mux where
  initial m := ∃ window server config batch, MuxWindow window ∧ validateMuxConfig config = true ∧
    m = newMux window server config batch
  step := Step pkg Polite

variable {pkg : Packages} {Polite : Nat → Prop} {m m' : Mux}

theorem inv_newMux {window : Nat} (hWindow : MuxWindow window) (server : Bool) (config : MuxConfig) (batch : Bool) :
    Core.Inv Polite (newMux window server config batch).core where
  window := by
    rcases hWindow with h | h <;> simp [newMux, core, h, muxWindow]
  nextID := Nat.one_pos
  known := by rintro _ ⟨⟩
  sound := by rintro _ _ ⟨⟩
  named := by rintro _ _ ⟨⟩
  ended := by rintro _ _ ⟨⟩
  awaiting := by rintro _ _ ⟨⟩
  nodup := .nil
  slots _ := Nat.zero_le _
  control := Nat.zero_le _
  granted := by rintro _ _ ⟨⟩

theorem receive_eq {packet : Bytes} (h : decodeMuxWindow packet m.window = some frame) :
    m.receive pkg packet = m.dispatchLocked pkg frame := by
  simp only [receive, h]

theorem inv_local (h : Core.Inv Polite m.core) (hLocal : Local pkg m m') : Core.Inv Polite m'.core := by
  have hRun := core_local hLocal
  unfold Leads at hRun
  generalize m'.core = c at hRun
  induction hRun with
  | refl => exact h
  | tail _ hStep ih => exact ih.step hStep

theorem inv_step (h : Core.Inv Polite m.core) (hStep : Step pkg Polite m m') : Core.Inv Polite m'.core := by
  cases hStep with
  | act hLocal => exact inv_local h hLocal
  | transmit hTransmit => exact h.transmit (core_transmit hTransmit)
  | receive hAwaiting hDecode hCovered =>
    rw [receive_eq hDecode]
    exact h.dispatch hAwaiting hCovered (core_dispatchLocked pkg m _)

theorem inv_reachable (h : (system pkg Polite).Reachable m) : Core.Inv Polite m.core := by
  refine System.Reachable.invariant (I := fun m => Core.Inv Polite m.core) ?_ (fun _ _ _ hInv => inv_step hInv) h
  rintro _ ⟨window, server, config, batch, hWindow, _, rfl⟩
  exact inv_newMux hWindow server config batch

theorem lookup_eq {id : Nat} (hObject : m'.object id = m.object id) (hMem : id ∈ m'.streams ↔ id ∈ m.streams) :
    m'.lookup id = m.lookup id := by
  simp only [lookup, hObject, hMem]

theorem mux_accounting (h : (system pkg Polite).Reachable m) :
    (∀ id s, m.object id = some s → s.terminal = none →
      (s.used : Int) + s.receiveCredit = m.window ∧ 0 ≤ s.sendCredit ∧ s.sendCredit ≤ m.window ∧
      (Polite id → s.creditPending ≤ m.window) ∧
      s.receive.length = m.window ∧ s.head < s.receive.length ∧ s.used ≤ s.receive.length) ∧
    (m.ofClass false).length ≤ m.config.maxStreams ∧ (m.ofClass true).length ≤ 1 ∧
    m.control.length ≤ 2 * muxMaxStreams + 2 * muxMaxDNS ∧
    ∀ packet frame, decodeMuxWindow packet m.window = some frame →
      (∀ id, id ≠ frame.id →
        (m.receive pkg packet).object id = m.object id ∧ (m.receive pkg packet).lookup id = m.lookup id) ∧
      (m.control.length < 2 * muxMaxStreams + 2 * muxMaxDNS →
        (m.receive pkg packet).cancelled = m.cancelled) := by
  have hInv := inv_reachable h
  refine ⟨?_, hInv.slots false, hInv.slots true, hInv.control, ?_⟩
  · intro id s hObject hLive
    have hSound := (hInv.sound id s hObject).2
    have hRing : s.receive.length = m.window := hSound.ring hLive
    have hReceive : (s.used : Int) + s.receiveCredit = m.window := hSound.receive hLive
    have hCredit := hSound.receiveCredit hLive
    refine ⟨hReceive, (hSound.sendCredit hLive).1, (hSound.sendCredit hLive).2, fun hPolite => ?_, hRing, ?_, ?_⟩
    · exact (Nat.le_add_left _ _).trans (hInv.granted id s hObject hPolite hLive)
    · rw [hRing]
      exact hSound.head hLive
    · omega
  · intro packet frame hDecode
    have hIsolated := (core_dispatchLocked pkg m frame).isolated
    rw [receive_eq hDecode]
    refine ⟨fun id hNe => ⟨hIsolated.object id hNe, ?_⟩, hIsolated.session⟩
    exact lookup_eq (hIsolated.object id hNe) (hIsolated.streams id hNe)

end Mux

/-! ## Runs that are computed -/

namespace Sample

inductive Move where
  | openTCP
  | gather
  | transmit
  | sendDone
  | hear (frame : Frame)
  | read (id size : Nat)
  | write (id : Nat) (payload : Bytes)

instance (c : Core) (frame : Frame) : Decidable (c.Covered frame) :=
  inferInstanceAs (Decidable (_ → ∀ s ∈ c.lookup frame.id, _))

variable (Polite : Prop) [Decidable Polite]

def move (m : Mux) : Move → Option Mux
  | .openTCP => some (m.openTCP packages request)
  | .gather => if m.cancelled = false ∧ m.sending = [] ∧ m.sent = [] then some m.gather else none
  | .transmit =>
    match m.sending with
    | [] => none
    | frame :: rest => some { m with sending := rest, sent := m.sent ++ [frame] }
  | .sendDone => if m.sending = [] then some m.sendDone else none
  | .hear frame =>
    if m.awaiting = none ∧ m.window = muxWindow ∧ (frame.payload.length ≤ maxData ∧ frame.wellFormed muxWindow = true) ∧
        (Polite → m.core.Covered frame) then some (m.receive packages frame.encode)
    else none
  | .read id size => some (m.modify id fun s => (s.read size m.cancelled).1)
  | .write id payload => some (m.modify id fun s => (s.write payload m.batch m.cancelled).1)

def client : Mux := newMux muxWindow false {} false

def played (moves : List Move) : Option Mux := moves.foldlM (move Polite) client

variable {Polite} {m m' : Mux} {moves : List Move}

theorem move_step {x : Move} (h : move Polite m x = some m') : Mux.Step packages (fun _ => Polite) m m' := by
  cases x with
  | openTCP =>
    cases h
    exact .act (.openTCP request)
  | gather =>
    obtain ⟨⟨hSession, hSending, hSent⟩, hEq⟩ := Option.ite_none_right_eq_some.mp h
    cases hEq
    exact .act (.gather hSession hSending hSent)
  | transmit =>
    rw [move] at h
    split at h
    · cases h
    · rename_i hSending
      cases h
      exact .transmit (.next hSending)
  | sendDone =>
    obtain ⟨hSending, hEq⟩ := Option.ite_none_right_eq_some.mp h
    cases hEq
    exact .act (.sendDone hSending)
  | hear frame =>
    obtain ⟨⟨hAwaiting, hWindow, hValid, hCovered⟩, hEq⟩ := Option.ite_none_right_eq_some.mp h
    cases hEq
    refine .receive hAwaiting ?_ hCovered
    rw [hWindow]
    exact decode_encode (.inl rfl) hValid
  | read id size =>
    cases h
    exact .act (.read id size)
  | write id payload =>
    cases h
    exact .act (.write id payload)

theorem reachable_played (h : played Polite moves = some m) : (Mux.system packages fun _ => Polite).Reachable m :=
  System.Reachable.play (fun _ _ _ => move_step) (.start ⟨muxWindow, false, {}, false, .inl rfl, rfl, rfl⟩) h

theorem reachable_getD (h : (played Polite moves).isSome = true) :
    (Mux.system packages fun _ => Polite).Reachable ((played Polite moves).getD client) := by
  obtain ⟨m, hPlayed⟩ := Option.isSome_iff_exists.mp h
  rw [hPlayed]
  exact reachable_played hPlayed

/-- One stream, opened. -/
def opens (id : Nat) : List Move := [.gather, .transmit, .sendDone, .hear ⟨.openOK, id, []⟩]

end Sample

namespace Mux

open Sample

/-- A peer that keeps to its credit: data comes in and is read, its credit is announced, and of two more bytes one is
read. One byte waits in the ring and one is still to be announced. -/
theorem mux_accounting_exchanged :
    ∃ m s, played True (.openTCP :: opens 1 ++ [.hear ⟨.dataFrame, 1, [7]⟩, .read 1 1, .gather, .transmit, .sendDone,
        .hear ⟨.dataFrame, 1, [8, 9]⟩, .read 1 1]) = some m ∧ m.object 1 = some s ∧ s.terminal = none ∧
      s.used = 1 ∧ s.creditPending = 1 ∧ (s.used : Int) + s.receiveCredit = m.window ∧ s.creditPending ≤ m.window := by
  have hEnd : ((played True (.openTCP :: opens 1 ++
      [.hear ⟨.dataFrame, 1, [7]⟩, .read 1 1, .gather, .transmit, .sendDone,
        .hear ⟨.dataFrame, 1, [8, 9]⟩, .read 1 1])).map fun m =>
        (m.object 1).map fun s => (s.terminal, s.used, s.creditPending)) = some (some (none, 1, 1)) := by decide +kernel
  obtain ⟨m, hPlayed, hObject⟩ := Option.map_eq_some_iff.mp hEnd
  obtain ⟨s, hObject, hFields⟩ := Option.map_eq_some_iff.mp hObject
  obtain ⟨hLive, hUsed, hPending⟩ : s.terminal = none ∧ s.used = 1 ∧ s.creditPending = 1 := by simpa using hFields
  have hStream := (mux_accounting (reachable_played hPlayed)).1 1 s hObject hLive
  exact ⟨m, s, hPlayed, hObject, hLive, hUsed, hPending, hStream.1, hStream.2.2.2.1 trivial⟩

/-- Five chunks of data, read at once, and no credit for any of them announced. -/
theorem creditPending_exceeds_window :
    ∃ m s, (system packages fun _ => False).Reachable m ∧ m.object 1 = some s ∧ s.terminal = none ∧
      m.window < s.creditPending := by
  have hEnd : ((played False (.openTCP :: opens 1 ++ (List.replicate 5
      [.hear ⟨.dataFrame, 1, List.replicate maxData 0⟩, .read 1 maxData]).flatten)).map fun m =>
        (m.object 1).map fun s => (s.terminal, decide (m.window < s.creditPending))) = some (some (none, true)) := by
    decide +kernel
  obtain ⟨m, hPlayed, hObject⟩ := Option.map_eq_some_iff.mp hEnd
  obtain ⟨s, hObject, hFields⟩ := Option.map_eq_some_iff.mp hObject
  obtain ⟨hLive, hMore⟩ := Prod.mk.inj hFields
  exact ⟨m, s, reachable_played hPlayed, hObject, hLive, of_decide_eq_true hMore⟩

end Mux

end FamilyConnect.TCPForward
