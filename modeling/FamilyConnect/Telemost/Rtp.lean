import FamilyConnect.Lib.Clock
import FamilyConnect.Lib.Table

/-!
# Reordering and reassembly of media packets

Source: `carrier/telemost/rtp.go` and the data-frame envelope of
`carrier/telemost/vp8.go`. A packet keeps the header fields the code reads.
The callback `deliver` becomes the list of packets handed over, in order.
Recycled packet storage is not modelled: a packet is recycled only after it
was delivered or replaced, and every stored packet is a copy.
-/

namespace FamilyConnect.Telemost

open Lib

structure Packet where
  sequenceNumber : BitVec 16
  timestamp : BitVec 32
  marker : Bool
  payload : List UInt8
  deriving DecidableEq

def reorderWindow : Nat := 256
def reorderGapTimeout : Duration := 750 * Duration.millisecond

def fragmentHeaderLen : Nat := 24
def maxFragmentPayload : Nat := 8 * 1024
def maxAssembledFrameSize : Nat := 4 * maxFragmentPayload

def seqLess (a b : BitVec 16) : Bool := (a - b) &&& 0x8000#16 != 0#16

structure ReorderBuffer where
  pkts : Table (BitVec 16) Packet := ∅
  nextSeq : BitVec 16 := 0#16
  started : Bool := false
  gapSince : Instant := 0

def newReorderBuffer : ReorderBuffer := {}

namespace ReorderBuffer

def older (oldest : Option (BitVec 16)) (seq : BitVec 16) : Option (BitVec 16) :=
  match oldest with
  | none => some seq
  | some best => if seqLess seq best then some seq else some best

variable (b : ReorderBuffer)

def skipToOldest : ReorderBuffer :=
  { b with nextSeq := (b.pkts.keys.foldl older none).getD 0#16 }

/-- At most `fuel` rounds of the loop in `drain`. -/
def drainLoop : Nat → ReorderBuffer → ReorderBuffer × List Packet
  | 0, b => (b, [])
  | fuel + 1, b =>
    match b.pkts.lookup b.nextSeq with
    | none => (b, [])
    | some pkt =>
      let (rest, delivered) :=
        drainLoop fuel { b with pkts := b.pkts.erase b.nextSeq, nextSeq := b.nextSeq + 1#16 }
      (rest, pkt :: delivered)

/-- Every round removes a packet, so the number of held packets bounds the rounds. -/
def drain : ReorderBuffer × List Packet := drainLoop b.pkts.keys.length b

/-- At most `fuel` rounds of the loop in `push` that makes room for a packet far ahead. -/
def makeRoom (seq : BitVec 16) : Nat → ReorderBuffer → ReorderBuffer × List Packet
  | 0, b => (b, [])
  | fuel + 1, b =>
    if b.pkts.keys.length > 0 ∧ (seq - b.nextSeq).toNat ≥ reorderWindow then
      let (drained, delivered) := b.skipToOldest.drain
      let (rest, more) := makeRoom seq fuel drained
      (rest, delivered ++ more)
    else (b, [])

def advance (seq : BitVec 16) : ReorderBuffer × List Packet :=
  if (seq - b.nextSeq).toNat ≥ reorderWindow then
    let (roomy, delivered) := makeRoom seq b.pkts.keys.length b
    if (seq - roomy.nextSeq).toNat ≥ reorderWindow then ({ roomy with nextSeq := seq }, delivered)
    else (roomy, delivered)
  else (b, [])

/-- The packet is stored; a full buffer or a gap open for too long gives up on what is missing. -/
def store (pkt : Packet) (since : Duration) : ReorderBuffer :=
  let b := { b with pkts := b.pkts.insert pkt.sequenceNumber pkt }
  if b.pkts.keys.length ≥ reorderWindow ∨ (b.gapSince.isZero = false ∧ since > reorderGapTimeout) then
    b.skipToOldest
  else b

def noteGap (previousNext : BitVec 16) (now : Instant) : ReorderBuffer :=
  if b.pkts.keys.length = 0 then { b with gapSince := 0 }
  else if b.gapSince.isZero = true ∨ b.nextSeq ≠ previousNext then { b with gapSince := now }
  else b

/-- The first packet that is taken places the buffer. -/
def place (pkt : Packet) : ReorderBuffer :=
  if b.started then b else { b with started := true, nextSeq := pkt.sequenceNumber }

def accept (pkt : Packet) (since : Duration) (now : Instant) :
    ReorderBuffer × List Packet :=
  if seqLess pkt.sequenceNumber b.nextSeq then (b, [])
  else
    let advanced := b.advance pkt.sequenceNumber
    let drained := (advanced.1.store pkt since).drain
    (drained.1.noteGap b.nextSeq now, advanced.2 ++ drained.2)

/-- `since` is what `time.Since(gapSince)` reads and `now` what `time.Now()` reads. -/
def push (pkt : Packet) (since : Duration) (now : Instant) :
    ReorderBuffer × List Packet :=
  if pkt.payload.length > 2048 then (b, []) else (b.place pkt).accept pkt since now

def deadline : Instant :=
  if b.gapSince.isZero then 0 else b.gapSince + reorderGapTimeout

def expire (now : Instant) : ReorderBuffer × List Packet :=
  if b.gapSince.isZero = true ∨ now < b.deadline then (b, [])
  else
    let (drained, delivered) := b.skipToOldest.drain
    if drained.pkts.keys.length = 0 then ({ drained with gapSince := 0 }, delivered)
    else ({ drained with gapSince := now }, delivered)

end ReorderBuffer

/-- What `VP8Packet.Unmarshal` leaves in the fields `S` and `PID`, and the payload it returns. -/
structure Descriptor where
  s : Nat
  pid : Nat
  payload : List UInt8
  deriving DecidableEq

def vp8Keepalive : List UInt8 :=
  [0x30, 0x01, 0x00, 0x9d, 0x01, 0x2a, 0x10, 0x00, 0x10, 0x00, 0x00, 0x47, 0x08, 0x85, 0x85, 0x88,
    0x99, 0x84, 0x88, 0xfc]

def vp8Interframe : List UInt8 :=
  [0xb1, 0x01, 0x00, 0x08, 0x11, 0x18, 0x00, 0x18, 0x00, 0x18, 0x58, 0x2f, 0xf4, 0x00, 0x08, 0x00, 0x00]

structure VP8FrameState where
  frameBuf : List UInt8 := []
  lastSeq : BitVec 16 := 0#16
  haveLastSeq : Bool := false
  frameValid : Bool := false
  timestamp : BitVec 32 := 0#32

namespace VP8FrameState

def discard (st : VP8FrameState) : VP8FrameState := { st with frameValid := false, frameBuf := [] }

/-- The part of `process` before the payload is read: a sequence gap abandons the frame. -/
def observe (st : VP8FrameState) (pkt : Packet) : VP8FrameState :=
  let st := if st.haveLastSeq = true ∧ pkt.sequenceNumber ≠ st.lastSeq + 1#16 then st.discard else st
  { st with lastSeq := pkt.sequenceNumber, haveLastSeq := true }

/-- The part of `process` between reading the payload and using it. -/
def align (st : VP8FrameState) (pkt : Packet) (d : Descriptor) : VP8FrameState :=
  let st := if st.timestamp ≠ pkt.timestamp then st.discard else st
  let st := { st with timestamp := pkt.timestamp }
  if d.s = 1 ∧ d.pid = 0 then { st with frameBuf := [], frameValid := true } else st

def process (unmarshal : List UInt8 → Option Descriptor) (st : VP8FrameState) (pkt : Packet) :
    VP8FrameState × Option (List UInt8) :=
  let st := st.observe pkt
  match unmarshal pkt.payload with
  | none => (st.discard, none)
  | some d =>
    let st := st.align pkt d
    if st.frameValid = false then (st, none)
    else if st.frameBuf.length + d.payload.length > maxAssembledFrameSize then (st.discard, none)
    else
      let st := { st with frameBuf := st.frameBuf ++ d.payload }
      if pkt.marker = false then (st, none)
      else
        let frame := st.frameBuf
        if frame.length ≥ vp8Interframe.length then (st.discard, some frame) else (st.discard, none)

end VP8FrameState

def encodeVP8DataFrame (fragment : List UInt8) : List UInt8 := vp8Interframe ++ fragment

def decodeVP8Frame (frame : List UInt8) : Option (List UInt8) :=
  match frame with
  | [] => none
  | first :: _ =>
    if vp8Interframe.head? = some first then
      if frame.length < vp8Interframe.length + fragmentHeaderLen ∨
          frame.length > vp8Interframe.length + fragmentHeaderLen + maxFragmentPayload ∨
          ¬ vp8Interframe <+: frame then none
      else some (frame.drop vp8Interframe.length)
    else if vp8Keepalive.head? = some first then none
    else none

end FamilyConnect.Telemost
