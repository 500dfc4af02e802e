import FamilyConnect.Lib.Ring
import FamilyConnect.TCPForward.Destination

/-!
# One stream of a mux

Source: `carrier/tcpforward/mux_stream.go`, and the part of `dispatchLocked` in
`mux.go` that changes a single live stream. The blocking calls are given by
one round of their loops; a round that has to wait changes nothing.
-/

namespace FamilyConnect.TCPForward

open Lib

inductive Err where
  | reset
  | protocol
  | eof
  | openFailed (code : Code)
  deriving DecidableEq

inductive Reason where
  | openReplay
  | unknownStream
  | openState
  | dataState
  | creditState
  | finState
  | closeState
  | frameKind
  | dnsReplay
  | dnsRole
  | dnsUnmatched
  deriving DecidableEq

/-- Where the goroutine `forward` of a stream is; a client has none. -/
inductive Worker where
  | none
  | waiting
  | handling
  | resetting
  | connecting
  | copying
  | draining
  | leaving
  | exited
  deriving DecidableEq

/-- A stream. `written` is what `Write` has accepted and `consumed` what `Read` has returned. -/
structure Stream where
  id : Nat
  lease : Bool := false
  opened : Bool := false
  localFIN : Bool := false
  remoteFIN : Bool := false
  closeRequested : Bool := false
  closing : Bool := false
  terminal : Option Err := none
  receive : Bytes
  head : Nat := 0
  used : Nat := 0
  receiveCredit : Int
  sendCredit : Int
  creditPending : Nat := 0
  send : List Frame := []
  worker : Worker := .none
  written : Bytes := []
  consumed : Bytes := []
  deriving DecidableEq

def batchMessageHeaderSize : Nat := 12
def maxBatchMessages : Nat := 32
def maxBatchPlaintext : Nat := 16 * 1024 - 5 - 1 - 16

namespace Stream

def make (window id : Nat) (lease : Bool) : Stream :=
  { id := id, lease := lease, receive := List.replicate window 0, receiveCredit := window, sendCredit := window }

variable (s : Stream)

def finishLocked (err : Err) : Stream :=
  match s.terminal with
  | some _ => s
  | none => { s with terminal := some err, receive := [], send := [], used := 0, creditPending := 0 }

def finishWith (err : Err) (frame : Frame) : Stream :=
  match s.terminal with
  | some _ => s
  | none => { s.finishLocked err with send := [frame] }

def resetLocked (err : Err) : Stream := s.finishWith err ⟨.resetFrame, s.id, []⟩

inductive ReadResult where
  | bytes (data : Bytes)
  | failed (err : Err)
  | wait
  deriving DecidableEq

def read (size : Nat) (cancelled : Bool) : Stream × ReadResult :=
  if size = 0 then (s, .bytes [])
  else
    match s.terminal with
    | some err => (s, .failed err)
    | none =>
      if cancelled then (s, .failed .reset)
      else if 0 < s.used then
        let count := min size s.used
        let data := Ring.taken s.receive s.head count
        ({ s with
            head := (s.head + count) % s.receive.length
            used := s.used - count
            receiveCredit := s.receiveCredit + count
            creditPending := s.creditPending + count
            consumed := s.consumed ++ data }, .bytes data)
      else if s.remoteFIN then (s, .failed .eof)
      else (s, .wait)

inductive WriteResult where
  | accepted (count : Nat)
  | failed (err : Err)
  | closedPipe
  | wait
  deriving DecidableEq

/-- The most bytes that one `Write` puts in a frame; `batch` says that the endpoint can send batches. -/
def chunkSize (batch : Bool) : Nat :=
  if batch then min maxData (maxBatchPlaintext - batchMessageHeaderSize - headerSize) else maxData

/-- One round of the loop of `Write` on what is left of its payload. -/
def write (payload : Bytes) (batch cancelled : Bool) : Stream × WriteResult :=
  if payload = [] then (s, .accepted 0)
  else
    match s.terminal with
    | some err => (s, .failed err)
    | none =>
      if s.localFIN = true ∨ cancelled = true then (s, .closedPipe)
      else if s.opened = true ∧ s.send = [] ∧ 0 < s.sendCredit then
        let count := min (min payload.length (chunkSize batch)) s.sendCredit.toNat
        ({ s with
            sendCredit := s.sendCredit - count
            send := s.send ++ [⟨.dataFrame, s.id, payload.take count⟩]
            written := s.written ++ payload.take count }, .accepted count)
      else (s, .wait)

def closeWrite : Stream × Option Err :=
  match s.terminal with
  | some err => (s, some err)
  | none =>
    if s.localFIN then (s, none)
    else if !s.opened then (s, some .protocol)
    else ({ s with localFIN := true, send := s.send ++ [⟨.finFrame, s.id, []⟩] }, none)

/-- `Close`, up to the point where it waits for the stream to end. The lease stream of a server waits for the request
of the client first. -/
def close (server cancelled : Bool) : Stream :=
  match s.terminal with
  | some _ => s
  | none =>
    if s.localFIN = true ∧ s.remoteFIN = true ∧ s.used = 0 then
      if server = true ∧ s.lease = true then
        if s.closeRequested = true ∧ cancelled = false then s.finishWith .eof ⟨.closeFrame, s.id, []⟩ else s
      else if s.closing then s
      else { s with closing := true, send := s.send ++ [⟨.closeFrame, s.id, []⟩] }
    else s.resetLocked .reset

/-- What a live stream does with a frame for it, and whether it is then removed; the error is the counter of the
invalid branch. -/
def accept (pkg : Packages) (server : Bool) (s : Stream) (frame : Frame) : Except Reason (Stream × Bool) :=
  match frame.kind with
  | .openOK =>
    if server = true ∨ s.opened = true then .error .openState else .ok ({ s with opened := true }, false)
  | .openError =>
    if server = true ∨ s.opened = true then .error .openState
    else
      match pkg.decodeError frame.payload with
      | none => .error .openState
      | some code =>
        if validError code = false ∧ code ≠ "stream_limit" then .error .openState
        else .ok (s.finishLocked (.openFailed code), true)
  | .dataFrame =>
    if s.opened = false ∨ s.remoteFIN = true ∨ (frame.payload.length : Int) > s.receiveCredit then .error .dataState
    else
      .ok ({ s with
          receiveCredit := s.receiveCredit - frame.payload.length
          receive := Ring.fill s.receive s.head s.used frame.payload
          used := s.used + frame.payload.length }, false)
  | .windowUpdate =>
    if s.opened = false ∨ (frame.number : Int) > s.receive.length - s.sendCredit then .error .creditState
    else .ok ({ s with sendCredit := s.sendCredit + frame.number }, false)
  | .finFrame =>
    if s.opened = false ∨ s.remoteFIN = true then .error .finState
    else .ok ({ s with remoteFIN := true }, false)
  | .closeFrame =>
    if s.localFIN = false ∨ s.remoteFIN = false then .error .closeState
    else if server = false ∧ s.closing = true then .ok (s.finishLocked .eof, true)
    else .ok ({ s with closeRequested := true }, false)
  | .resetFrame => .ok (s.finishLocked .reset, true)
  | _ => .error .frameKind

end Stream

end FamilyConnect.TCPForward
