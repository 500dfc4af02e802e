import FamilyConnect.Lib.Table
import FamilyConnect.Lib.Word
import FamilyConnect.ReliableStream.Protocol

/-!
# The reliable stream engine

Source: `carrier/reliablestream/engine.go`. The engine is a pure state
machine: every operation maps a state and an instant to a state and either
frames to transmit or an error. A failing operation keeps whatever it wrote
before it failed, as the source does. Reading `sent[seq]` where no block is
held is a nil dereference in the source and the error `nilDereference` here.
-/

namespace FamilyConnect.ReliableStream

open Lib

structure Pending where
  data : List UInt8
  first : Instant
  last : Instant
  retries : Nat := 0
  timeouts : Nat := 0
  sacked : Bool := false
  deriving DecidableEq

structure Engine where
  config : Config
  localEpoch : Epoch
  remote : Epoch := Epoch.zero
  remoteWindow : Int := 0
  remoteSize : Int := 0
  started : Instant
  established : Instant := 0
  lastOpen : Instant := 0
  openAttempts : Nat := 0
  smoothedRTT : Duration := 0
  rttVariation : Duration := 0
  sendAllowance : Int
  ackCredit : Nat := 0
  recoveryUntil : Nat := 0
  lastRefresh : Instant := 0
  next : Nat := 0
  base : Nat := 0
  receive : Nat := 0
  sent : Table Nat Pending := ∅
  buffer : Table Nat (List UInt8) := ∅
  gaps : Table Nat Instant := ∅
  bufferedBytes : Int := 0
  gapsDetected : Nat := 0
  gapsRecovered : Nat := 0
  lastACK : Instant := 0
  failureReason : Option String := none

def newEngine (config : Config) (localEpoch : Epoch) (now : Instant) : Engine :=
  { config := config, localEpoch := localEpoch, started := now, sendAllowance := min 4 config.sendWindow }

/-- The test `bits & (1 << k) != 0` on a 32-bit mask. -/
def testBit (bits : BitVec 32) (k : Nat) : Bool := bits &&& (1#32 <<< k) != 0#32

namespace Engine

variable (state : Engine)

def packet (kind : Kind) : Frame :=
  { kind := kind, source := state.localEpoch, target := state.remote }

def opening (target : Epoch) : Frame :=
  { kind := .openFrame, source := state.localEpoch, target := target,
    window := state.config.receiveWindow, payload := state.config.payload }

def sackBits : BitVec 32 :=
  state.buffer.keys.foldl (fun bits seq => bits ||| (1#32 <<< Word.sub 64 seq state.receive)) 0#32

def ack : Frame :=
  { state.packet .ackFrame with ack := state.receive, bits := state.sackBits }

def observeRTT (sample : Duration) : Engine :=
  if sample ≤ 0 then state
  else
    let sample := min sample state.config.maxAge
    if state.smoothedRTT = 0 then
      { state with smoothedRTT := sample, rttVariation := sample.tdiv 2 }
    else
      let difference := state.smoothedRTT - sample
      let difference := if difference < 0 then -difference else difference
      { state with
        rttVariation := (3 * state.rttVariation + difference).tdiv 4
        smoothedRTT := (7 * state.smoothedRTT + sample).tdiv 8 }

def inputOpen (packet : Frame) (now : Instant) : Engine × Except Err (List Frame) :=
  if packet.target = Epoch.zero then (state, .ok [state.opening packet.source])
  else if state.remote = Epoch.zero then
    let state := if state.openAttempts = 1 then state.observeRTT (now.sub state.lastOpen) else state
    let state :=
      { state with
        remote := packet.source, remoteWindow := packet.window, remoteSize := packet.payload
        established := now }
    (state, .ok [state.opening packet.source, state.ack])
  else if packet.window ≠ state.remoteWindow ∨ packet.payload ≠ state.remoteSize then
    (state, .error .protocol)
  else (state, .ok [state.ack])

def acknowledged (packet : Frame) (seq : Nat) : Bool :=
  seq < packet.ack || testBit packet.bits (Word.sub 64 seq packet.ack)

/-- The shortest positive age of a block this ACK newly covers and that was never retransmitted. -/
def sampleRTT (packet : Frame) (now : Instant) : Duration :=
  state.sent.entries.foldl (fun sample entry =>
    if acknowledged packet entry.1 && !entry.2.sacked && entry.2.retries == 0 then
      let elapsed := now.sub entry.2.first
      if 0 < elapsed ∧ (sample = 0 ∨ elapsed < sample) then elapsed else sample
    else sample) 0

def settle (packet : Frame) (seq : Nat) (block : Pending) : Option Pending :=
  if seq < packet.ack then none
  else if testBit packet.bits (Word.sub 64 seq packet.ack) then some { block with sacked := true }
  else some block

def blockBytes (block : Pending) : Nat := block.data.length

/-- Growth of the send allowance on cumulative progress, unless the path is slow. -/
def growAllowance (packet : Frame) : Engine :=
  if packet.ack > state.base ∧ state.smoothedRTT < state.config.maxAge.tdiv 4 then
    let credit := Word.add 64 state.ackCredit (Word.sub 64 packet.ack state.base)
    if credit ≥ Word.ofInt 64 state.sendAllowance then
      { state with
        ackCredit := 0
        sendAllowance := min (min (state.sendAllowance + 1) state.config.sendWindow) state.remoteWindow }
    else { state with ackCredit := credit }
  else if state.smoothedRTT ≥ state.config.maxAge.tdiv 4 then { state with ackCredit := 0 }
  else state

def inputAck (packet : Frame) (now : Instant) : Engine × Except Err (List Frame) :=
  if packet.ack < state.base then (state, .ok [])
  else if packet.ack > state.next then (state, .error .protocol)
  else if (List.range maxWindow).any fun bit =>
      testBit packet.bits bit && decide (bit ≥ Word.sub 64 state.next packet.ack) then
    (state, .error .protocol)
  else
    let sample := state.sampleRTT packet now
    let state :=
      { state with
        lastACK := now
        bufferedBytes := state.bufferedBytes - Table.droppedWeight blockBytes (settle packet) state.sent
        sent := Table.filterMap (settle packet) state.sent }
    let state := (state.observeRTT sample).growAllowance packet
    ({ state with base := packet.ack }, .ok [])

def noteGap (now : Instant) (state : Engine) (missing : Nat) : Engine :=
  if (state.buffer.lookup missing).isSome then state
  else if (state.gaps.lookup missing).isSome then state
  else { state with gaps := state.gaps.insert missing now, gapsDetected := state.gapsDetected + 1 }

def closeGap (seq : Nat) : Engine :=
  if (state.gaps.lookup seq).isSome then
    { state with gaps := state.gaps.erase seq, gapsRecovered := state.gapsRecovered + 1 }
  else state

def inputData (packet : Frame) (now : Instant) : Engine × Except Err (List Frame) :=
  if (packet.data.length : Int) > state.config.payload ∨ packet.seq = Word.greatest 64 then
    (state, .error .protocol)
  else if packet.seq < state.receive then (state, .ok [state.ack])
  else if Word.sub 64 packet.seq state.receive ≥ Word.ofInt 64 state.config.receiveWindow then
    (state, .error .protocol)
  else
    match state.buffer.lookup packet.seq with
    | some previous =>
      if previous ≠ packet.data then (state, .error .protocol) else (state, .ok [state.ack])
    | none =>
      let state :=
        { state with
          buffer := state.buffer.insert packet.seq packet.data
          bufferedBytes := state.bufferedBytes + packet.data.length }
      let state := (List.range' state.receive (packet.seq - state.receive)).foldl (noteGap now) state
      let state := state.closeGap packet.seq
      (state, .ok [state.ack])

def input (packet : Frame) (now : Instant) : Engine × Except Err (List Frame) :=
  if packet.target ≠ state.localEpoch ∧ ¬(packet.kind = .openFrame ∧ packet.target = Epoch.zero) ∨
      state.remote ≠ Epoch.zero ∧ packet.source ≠ state.remote then
    (state, .ok [])
  else if packet.kind = .openFrame then state.inputOpen packet now
  else if state.remote = Epoch.zero then (state, .ok [])
  else
    match packet.kind with
    | .resetFrame => (state, .error .reset)
    | .ackFrame => state.inputAck packet now
    | .dataFrame => state.inputData packet now
    | .openFrame => (state, .ok [])

def sendLimit : Int :=
  min (min state.config.sendWindow state.remoteWindow) state.sendAllowance

def writable : Bool :=
  state.remote ≠ Epoch.zero && Word.sub 64 state.next state.base < Word.ofInt 64 state.sendLimit

def send (data : List UInt8) (now : Instant) : Engine × Except Err Frame :=
  if ¬state.writable ∨ data.length = 0 ∨ (data.length : Int) > min state.config.payload state.remoteSize ∨
      state.next = Word.greatest 64 then
    (state, .error .protocol)
  else
    ({ state with
        sent := state.sent.insert state.next { data := data, first := now, last := now }
        next := Word.add 64 state.next 1
        bufferedBytes := state.bufferedBytes + data.length },
      .ok { state.packet .dataFrame with seq := state.next, data := data })

def consume : Engine × List UInt8 × Frame :=
  let data := (state.buffer.lookup state.receive).getD []
  let state :=
    { state with
      buffer := state.buffer.erase state.receive
      receive := Word.add 64 state.receive 1
      bufferedBytes := state.bufferedBytes - data.length }
  (state, data, state.ack)

def exhausted (reason : String) : Engine × Except Err (List Frame) :=
  ({ state with failureReason := some reason }, .error .exhausted)

def confirmedAmong (state : Engine) : List Nat → Option Nat
  | [] => some 0
  | later :: rest =>
    match state.sent.lookup later with
    | none => none
    | some block => (state.confirmedAmong rest).map (· + if block.sacked then 1 else 0)

def fastRetransmit (sequence : Nat) (block : Pending) (now : Instant) : Option Bool :=
  if sequence ≠ state.base ∨ block.retries ≠ 0 ∨ now.sub block.last < state.config.rto.tdiv 4 then
    some false
  else
    (state.confirmedAmong (List.range' (sequence + 1) (state.next - (sequence + 1)))).map
      fun confirmed => decide (confirmed ≥ 3)

/-- The backoff loop `interval = min(2*interval, ceiling)`, at most `attempts` times. -/
def backoff (ceiling : Duration) : Nat → Duration → Duration
  | 0, interval => interval
  | attempts + 1, interval =>
    if interval < ceiling then backoff ceiling attempts (min (2 * interval) ceiling) else interval

def retryInterval (block : Pending) : Duration :=
  let interval := max state.config.rto (state.smoothedRTT + 4 * state.rttVariation)
  let ceiling := min (min (4 * interval) (10 * Duration.second)) state.config.maxAge
  backoff ceiling block.timeouts (min interval ceiling)

def noteTimeout (seq : Nat) (block : Pending) : Engine :=
  let state := { state with sent := state.sent.insert seq { block with timeouts := block.timeouts + 1 } }
  if state.base ≥ state.recoveryUntil then
    { state with
      sendAllowance := max 1 (state.sendAllowance.tdiv 2)
      ackCredit := 0
      recoveryUntil := state.next }
  else state

def resend (seq : Nat) (block : Pending) (now : Instant) : Engine × Frame :=
  ({ state with sent := state.sent.insert seq { block with last := now, retries := block.retries + 1 } },
    { state.packet .dataFrame with seq := seq, data := block.data })

def retransmit (now : Instant) : List Nat → Engine → List Frame → Engine × Except Err (List Frame)
  | [], state, output => (state, .ok output)
  | seq :: rest, state, output =>
    match state.sent.lookup seq with
    | none => (state, .error .nilDereference)
    | some block =>
      if now.sub block.first ≥ state.config.maxAge then state.exhausted "RELIABLE_FRAME_TIMEOUT"
      else if block.sacked then retransmit now rest state output
      else if now.sub block.last ≥ state.retryInterval block then
        let state := state.noteTimeout seq block
        let block := { block with timeouts := block.timeouts + 1 }
        if (block.retries : Int) ≥ state.config.maxRetries then state.exhausted "RELIABLE_RETRY_EXHAUSTED"
        else
          let (state, packet) := state.resend seq block now
          retransmit now rest state (output ++ [packet])
      else
        match state.fastRetransmit seq block now with
        | none => (state, .error .nilDereference)
        | some false => retransmit now rest state output
        | some true =>
          if (block.retries : Int) ≥ state.config.maxRetries then state.exhausted "RELIABLE_RETRY_EXHAUSTED"
          else
            let (state, packet) := state.resend seq block now
            retransmit now rest state (output ++ [packet])

def idleTooLong (now : Instant) : Bool :=
  let lastACK := if state.lastACK.isZero then state.established else state.lastACK
  state.sent.entries.isEmpty && !lastACK.isZero && decide (now.sub lastACK ≥ state.config.maxAge)

def tick (now : Instant) : Engine × Except Err (List Frame) :=
  if state.remote = Epoch.zero then
    if now.sub state.started ≥ state.config.maxAge then state.exhausted "RELIABLE_HANDSHAKE_TIMEOUT"
    else if state.lastOpen.isZero || decide (now.sub state.lastOpen ≥ state.config.rto) then
      ({ state with lastOpen := now, openAttempts := state.openAttempts + 1 },
        .ok [state.opening Epoch.zero])
    else (state, .ok [])
  else if state.idleTooLong now then state.exhausted "RELIABLE_IDLE_TIMEOUT"
  else
    let due := List.range' state.base (state.next - state.base)
    if now.sub state.lastRefresh ≥ state.config.rto then
      let state := { state with lastRefresh := now }
      retransmit now due state [state.ack]
    else retransmit now due state []

/-- The end of a local write of a copy of block `seq` in `Stream.run`: the timer of the block
restarts, unless a later copy is on its way or the peer has it. -/
def written (seq attempt : Nat) (now : Instant) : Engine :=
  match state.sent.lookup seq with
  | none => state
  | some block =>
    if block.retries = attempt ∧ block.sacked = false then
      { state with sent := state.sent.insert seq { block with last := now } }
    else state

end Engine

end FamilyConnect.ReliableStream
