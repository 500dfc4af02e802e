import FamilyConnect.Lib.Table
import FamilyConnect.Lib.Transition
import FamilyConnect.TCPForward.Stream

/-!
# The mux

Source: `carrier/tcpforward/mux.go`, `admission.go` and `mux_dns.go`. The map
`streams` is a list of ids; a stream object stays in `object` after it was
removed from the map, for its users. Everything done under the lock of the mux
is one function. The write loop holds frames in `sending`, `sent` and
`pending`, and a server that waits for a slot holds the request in `awaiting`.
-/

namespace FamilyConnect.TCPForward

open Lib

structure MuxConfig where
  maxStreams : Nat := 16
  waitForSlot : Bool := false
  leaseRenewal : Bool := false
  credentialRenewal : Bool := false
  deriving DecidableEq

structure DnsCall where
  query : Bytes
  response : Bytes := []
  done : Bool := false
  failed : Bool := false
  cancelled : Bool := false
  deriving DecidableEq

structure Waiter where
  ticket : Nat
  request : OpenRequest
  deriving DecidableEq

/-- A mux. `removedAt id` is the value of `nextID` when the stream was removed from the map. -/
structure Mux where
  window : Nat
  server : Bool
  config : MuxConfig
  batch : Bool := false
  cancelled : Bool := false
  err : Option Err := none
  object : Nat → Option Stream := fun _ => none
  streams : List Nat := []
  order : List Nat := []
  cursor : Nat := 0
  nextID : Nat := 1
  lastID : Nat := 0
  control : List Frame := []
  priorityBurst : Nat := 0
  jobs : Nat := 0
  leaseJobs : Nat := 0
  leaseOpen : Bool := false
  admission : List Waiter := []
  nextTicket : Nat := 0
  awaiting : Option (Nat × OpenRequest) := none
  dns : Table Nat DnsCall := ∅
  dnsNext : Nat := 1
  dnsLast : Nat := 0
  dnsJobs : Nat := 0
  dnsLeaving : Nat := 0
  pending : Option Frame := none
  sending : List Frame := []
  sent : List Frame := []
  errors : List Reason := []
  rejected : Nat := 0
  removedAt : Nat → Option Nat := fun _ => none

def newMux (window : Nat) (server : Bool) (config : MuxConfig) (batch : Bool) : Mux :=
  { window := window
    server := server
    config := if config.maxStreams = 0 then { config with maxStreams := 16 } else config
    batch := batch }

def validateMuxConfig (config : MuxConfig) : Bool := config.maxStreams ≤ muxMaxStreams

namespace Mux

variable (m : Mux)

def lookup (id : Nat) : Option Stream := if id ∈ m.streams then m.object id else none

def put (id : Nat) (s : Stream) : Mux := { m with object := Function.update m.object id (some s) }

def modify (id : Nat) (f : Stream → Stream) : Mux :=
  match m.object id with
  | none => m
  | some s => m.put id (f s)

def controlLimit : Nat := 2 * muxMaxStreams + 2 * muxMaxDNS

def controlLocked (frame : Frame) : Mux :=
  if m.cancelled then m
  else if m.control.length ≥ controlLimit then { m with err := m.err.or (some .protocol), cancelled := true }
  else { m with control := m.control ++ [frame] }

def removeLocked (id : Nat) : Mux :=
  { m with
    streams := m.streams.erase id
    order := m.order.erase id
    removedAt := Function.update m.removedAt id (some m.nextID) }

def makeStreamLocked (id : Nat) (lease : Bool) : Mux :=
  { m.put id (.make m.window id lease) with streams := id :: m.streams, order := m.order ++ [id] }

/-- All streams of the map end, as when the session fails. -/
def finishAll : Mux :=
  { m with
    object := fun id => if id ∈ m.streams then (m.object id).map (·.finishLocked .reset) else m.object id
    dns := Table.filterMap (fun _ call => some { call with cancelled := true }) m.dns }

def fail (err : Err) : Mux := { m.finishAll with err := m.err.or (some err), cancelled := true }

/-- The end of `run`. -/
def shutdown : Mux := { m.finishAll with streams := [], order := [], control := [], dns := ∅ }

/-! ## The scheduler -/

def pickLoop (dataOnly : Bool) : Nat → Mux → Mux × Option Frame
  | 0, m => (m, none)
  | count + 1, m =>
    match m.order[m.cursor % m.order.length]? with
    | none => (m, none)
    | some id =>
      let m := { m with cursor := m.cursor % m.order.length + 1 }
      match m.lookup id with
      | none => pickLoop dataOnly count m
      | some s =>
        if dataOnly = false ∧ 0 < s.creditPending ∧ s.terminal = none then
          (m.put id { s with creditPending := 0 }, some ⟨.windowUpdate, id, BigEndian.put 4 s.creditPending⟩)
        else
          match s.send with
          | [] => pickLoop dataOnly count m
          | frame :: rest =>
            if dataOnly = decide (frame.kind = .dataFrame) then (m.put id { s with send := rest }, some frame)
            else pickLoop dataOnly count m

def pickLocked (dataOnly : Bool) : Mux × Option Frame := pickLoop dataOnly m.order.length m

/-- `nextLocked` after the turn of the data frames that eight priority frames have delayed. -/
def nextPriority : Mux × Option Frame :=
  let m := { m with priorityBurst := m.priorityBurst + 1 }
  match m.control with
  | frame :: rest => ({ m with control := rest }, some frame)
  | [] =>
    match m.pickLocked false with
    | (m, some frame) => (m, some frame)
    | (m, none) => pickLocked { m with priorityBurst := 0 } true

def nextLocked : Mux × Option Frame :=
  if m.priorityBurst ≥ 8 then
    match m.pickLocked true with
    | (m, some frame) => ({ m with priorityBurst := 0 }, some frame)
    | (m, none) => m.nextPriority
  else m.nextPriority

def frameCost (frame : Frame) : Nat := batchMessageHeaderSize + headerSize + frame.payload.length

def collect : Nat → Mux → List Frame → Nat → Mux
  | 0, m, frames, _ => { m with sending := frames }
  | room + 1, m, frames, budget =>
    if m.batch = true ∧ budget < maxBatchPlaintext then
      match m.nextLocked with
      | (m, none) => { m with sending := frames }
      | (m, some next) =>
        if budget + frameCost next > maxBatchPlaintext then { m with sending := frames, pending := some next }
        else collect room m (frames ++ [next]) (budget + frameCost next)
    else { m with sending := frames }

def gather : Mux :=
  match m.pending with
  | some frame => collect (maxBatchMessages - 1) { m with pending := none } [frame] (frameCost frame)
  | none =>
    match m.nextLocked with
    | (m, none) => m
    | (m, some frame) => collect (maxBatchMessages - 1) m [frame] (frameCost frame)

/-- After a frame was sent its stream is removed if that frame was its last. -/
def settle (frame : Frame) : Mux :=
  if frame.kind = .resetFrame ∨ frame.kind = .closeFrame ∨ frame.kind = .openError then
    match m.lookup frame.id with
    | none => m
    | some s => if s.terminal.isSome = true ∧ s.send = [] then m.removeLocked frame.id else m
  else m

/-- The second critical section of a round of the write loop. -/
def sendDone : Mux := { m.sent.foldl settle m with sent := [] }

/-! ## Admission -/

def ofClass (lease : Bool) : List Nat := m.streams.filter fun id => (m.object id).any fun s => s.lease = lease

def slots (lease : Bool) : Nat := if lease then 1 else m.config.maxStreams

def slotAvailableLocked (lease : Bool) : Bool := (m.ofClass lease).length < m.slots lease

def releasing (lease : Bool) : Bool :=
  (m.ofClass lease).any fun id => (m.object id).any fun s => s.terminal.isSome

def jobSlots (lease : Bool) : Nat := if lease then m.leaseJobs else m.jobs

def setJobs (lease : Bool) (jobs : Nat) : Mux :=
  if lease then { m with leaseJobs := jobs } else { m with jobs := jobs }

section

variable (pkg : Packages)

def renewalHandler (m : Mux) (request : OpenRequest) : Bool :=
  leaseRequest pkg request &&
    (if request.port = credentialRenewalPort then m.config.credentialRenewal else m.config.leaseRenewal)

/-- A client has a slot: the stream is made and its OPEN is queued. -/
def openAdmitted (m : Mux) (request : OpenRequest) : Mux :=
  if m.nextID > muxMaxID then m
  else
    { m.makeStreamLocked m.nextID (leaseRequest pkg request) with nextID := m.nextID + 2 }.controlLocked
      ⟨.openFrame, m.nextID, pkg.marshalRequest request⟩

/-- `OpenTCP` up to the point where it waits, for a slot or for the answer to its OPEN. -/
def openTCP (m : Mux) (request : OpenRequest) : Mux :=
  if validate pkg request = false ∨ m.server = true ∨ m.cancelled = true then m
  else
    let lease := leaseRequest pkg request
    let waiting := (m.admission.filter fun w => leaseRequest pkg w.request = lease).length
    if m.slotAvailableLocked lease = true ∧ waiting = 0 then m.openAdmitted pkg request
    else if (lease = true ∧ (waiting ≠ 0 ∨ m.releasing true = false)) ∨
        (lease = false ∧ (m.config.waitForSlot = false ∨ waiting ≥ muxMaxPendingOpens)) then
      { m with rejected := m.rejected + 1 }
    else
      { m with
        admission := m.admission ++ [⟨m.nextTicket, request⟩]
        nextTicket := m.nextTicket + 1 }

/-- A waiting caller of `OpenTCP` looks again: it goes on if it is the first of its class and has a slot. -/
def openRetry (m : Mux) (w : Waiter) : Mux :=
  let lease := leaseRequest pkg w.request
  if m.cancelled = false ∧ (m.admission.find? fun w' => leaseRequest pkg w'.request = lease) = some w ∧
      m.slotAvailableLocked lease = true then
    { m with admission := m.admission.erase w }.openAdmitted pkg w.request
  else m

def admitOpen (m : Mux) (id : Nat) (request : OpenRequest) : Mux :=
  let lease := m.renewalHandler pkg request
  if m.cancelled then { m with awaiting := none }
  else if m.slotAvailableLocked lease = true ∧ m.jobSlots lease < m.slots lease then
    let m := { m with awaiting := none }.makeStreamLocked id lease
    (m.modify id fun s => { s with worker := if lease then .waiting else .connecting }).setJobs lease
      (m.jobSlots lease + 1)
  else if m.slotAvailableLocked lease = false ∧ m.releasing lease = false then
    { m with awaiting := none, rejected := m.rejected + 1 }.controlLocked
      ⟨.openError, id, errorPayload "stream_limit"⟩
  else { m with awaiting := some (id, request) }

/-- The branch of `dispatchLocked` for a new stream. -/
def openRequested (m : Mux) (frame : Frame) : Mux :=
  if frame.id ≤ m.lastID then { m with errors := .openReplay :: m.errors }
  else
    let m := { m with lastID := frame.id }
    match pkg.decodeRequest frame.payload with
    | none => m.controlLocked ⟨.openError, frame.id, errorPayload "malformed_request"⟩
    | some request =>
      if validate pkg request then m.admitOpen pkg frame.id request
      else m.controlLocked ⟨.openError, frame.id, errorPayload "malformed_request"⟩

/-! ## DNS -/

def dnsFrame (kind : Kind) (id : Nat) (payload : Bytes) : Frame := ⟨kind, 0, BigEndian.put 4 id ++ payload⟩

/-- `QueryDNS` up to the point where it waits. -/
def queryDNS (m : Mux) (query : Bytes) : Mux :=
  if pkg.validDNS query false = false ∨ m.server = true ∨ m.cancelled = true ∨ m.dns.keys.length ≥ muxMaxDNS ∨
      m.dnsNext > muxMaxID then m
  else
    { m with dns := m.dns.insert m.dnsNext { query := query }, dnsNext := m.dnsNext + 1 }.controlLocked
      (dnsFrame .dnsQuery m.dnsNext query)

/-- `QueryDNS` returns, with the answer or because its context or the mux has ended. -/
def queryDone (m : Mux) (id : Nat) : Mux :=
  match m.dns.lookup id with
  | none => m
  | some call =>
    if call.done then { m with dns := m.dns.erase id }
    else { m.controlLocked (dnsFrame .dnsCancel id []) with dns := m.dns.erase id }

def resolveDNS (m : Mux) (id : Nat) (answer : Option Bytes) : Mux :=
  match m.dns.lookup id with
  | none => m
  | some call =>
    let m := { m with dns := m.dns.erase id, dnsLeaving := m.dnsLeaving + 1 }
    if m.cancelled = true ∨ call.cancelled = true then m
    else
      match answer.filter (pkg.matchesDNS call.query) with
      | none => m.controlLocked (dnsFrame .dnsError id [])
      | some response => m.controlLocked (dnsFrame .dnsResponse id response)

def dnsFrameLocked (m : Mux) (frame : Frame) : Mux :=
  let id := frame.number
  let payload := frame.payload.drop 4
  if m.server then
    match frame.kind with
    | .dnsCancel =>
      { m with dns := Table.filterMap (fun i call => some (if i = id then { call with cancelled := true } else call)) m.dns }
    | .dnsQuery =>
      if id ≤ m.dnsLast then { m with errors := .dnsReplay :: m.errors }
      else
        let m := { m with dnsLast := id }
        if pkg.validDNS payload false = false ∨ m.dns.keys.length ≥ muxMaxDNS ∨ m.dnsJobs ≥ muxMaxDNS then
          m.controlLocked (dnsFrame .dnsError id [])
        else { m with dns := m.dns.insert id { query := payload }, dnsJobs := m.dnsJobs + 1 }
    | _ => { m with errors := .dnsRole :: m.errors }
  else
    match m.dns.lookup id with
    | none => { m with errors := .dnsUnmatched :: m.errors }
    | some call =>
      if call.done then { m with errors := .dnsUnmatched :: m.errors }
      else if frame.kind = .dnsResponse ∧ pkg.matchesDNS call.query payload = true then
        { m with dns := m.dns.insert id { call with response := payload, done := true } }
      else { m with dns := m.dns.insert id { call with failed := true, done := true } }

/-! ## Dispatch -/

def dispatchLocked (m : Mux) (frame : Frame) : Mux :=
  if frame.id = 0 then m.dnsFrameLocked pkg frame
  else
    match m.lookup frame.id with
    | none =>
      if frame.kind = .openFrame ∧ m.server = true then m.openRequested pkg frame
      else { m with errors := .unknownStream :: m.errors }
    | some s =>
      if s.terminal.isSome then m
      else
        match s.accept pkg m.server frame with
        | .error reason => { m.put frame.id (s.resetLocked .protocol) with errors := reason :: m.errors }
        | .ok (s', removed) => if removed then (m.put frame.id s').removeLocked frame.id else m.put frame.id s'

/-- What `run` does with a packet. -/
def receive (m : Mux) (packet : Bytes) : Mux :=
  match decodeMuxWindow packet m.window with
  | none => m.fail .protocol
  | some frame => m.dispatchLocked pkg frame

end

/-! ## The goroutine of a stream on the server -/

/-- The part of `forward` for a lease: it waits for the previous handler, then opens the stream. -/
def leaseStart (m : Mux) (id : Nat) : Mux :=
  match m.object id with
  | none => m
  | some s =>
    if s.worker ≠ .waiting then m
    else if m.leaseOpen = true ∧ s.terminal = none ∧ m.cancelled = false then m
    else if s.terminal.isSome = true ∨ m.cancelled = true then
      m.put id { s.resetLocked .protocol with worker := .leaving }
    else
      { m.put id { s with opened := true, send := s.send ++ [⟨.openOK, s.id, []⟩], worker := .handling } with
        leaseOpen := true }

def handlerDone (m : Mux) (id : Nat) : Mux :=
  match m.object id with
  | none => m
  | some s =>
    if s.worker = .handling then { m.put id { s with worker := .resetting } with leaseOpen := false }
    else if s.worker = .resetting then m.put id { s.resetLocked .reset with worker := .leaving }
    else m

/-- `connect` has returned, with an error if `failure` is one. -/
def connectDone (m : Mux) (id : Nat) (failure : Option Code) : Mux :=
  match m.object id with
  | none => m
  | some s =>
    if s.worker ≠ .connecting then m
    else if s.terminal.isSome then m.put id { s with worker := .leaving }
    else
      match failure with
      | some code =>
        m.put id { s.finishWith (.openFailed code) ⟨.openError, s.id, errorPayload code⟩ with worker := .leaving }
      | none => m.put id { s with opened := true, send := s.send ++ [⟨.openOK, s.id, []⟩], worker := .copying }

/-- Both copies have ended: each has reset the stream, or seen its end and closed the other way. -/
def copyDone (m : Mux) (id : Nat) : Mux :=
  match m.object id with
  | none => m
  | some s =>
    if s.worker = .copying ∧
        (s.terminal.isSome = true ∨ (s.localFIN = true ∧ s.remoteFIN = true ∧ s.used = 0)) then
      m.put id { s with worker := .draining }
    else m

/-- The end of `forward`, once the client has asked to close. -/
def drain (m : Mux) (id : Nat) : Mux :=
  match m.object id with
  | none => m
  | some s =>
    if s.worker ≠ .draining then m
    else if s.terminal = none ∧ s.closeRequested = false ∧ m.cancelled = false then m
    else m.put id { s.finishWith .eof ⟨.closeFrame, s.id, []⟩ with worker := .leaving }

/-- The job slot of a stream becomes free. -/
def workerExit (m : Mux) (id : Nat) : Mux :=
  match m.object id with
  | none => m
  | some s =>
    if s.worker = .leaving then
      (m.put id { s with worker := .exited }).setJobs s.lease (m.jobSlots s.lease - 1)
    else m

/-- Everything that happens to a mux except that it receives a packet or puts one on the wire. -/
inductive Local (pkg : Packages) : Mux → Mux → Prop where
  | openTCP {m : Mux} (request : OpenRequest) : Local pkg m (m.openTCP pkg request)
  -- the waiting call has made its checks
  | openRetry {m : Mux} (w : Waiter) : w ∈ m.admission → m.server = false → validate pkg w.request = true →
      Local pkg m (m.openRetry pkg w)
  | openAbandon {m : Mux} (w : Waiter) : Local pkg m { m with admission := m.admission.erase w }
  | awaitRetry {m : Mux} {id : Nat} {request : OpenRequest} : m.awaiting = some (id, request) →
      Local pkg m (m.admitOpen pkg id request)
  | read {m : Mux} (id size : Nat) : Local pkg m (m.modify id fun s => (s.read size m.cancelled).1)
  | write {m : Mux} (id : Nat) (payload : Bytes) :
      Local pkg m (m.modify id fun s => (s.write payload m.batch m.cancelled).1)
  | closeWrite {m : Mux} (id : Nat) : Local pkg m (m.modify id fun s => s.closeWrite.1)
  | reset {m : Mux} (id : Nat) : Local pkg m (m.modify id fun s => s.resetLocked .reset)
  | close {m : Mux} (id : Nat) : m.server = false ∨ (m.object id).any (·.lease) = true →
      Local pkg m (m.modify id fun s => s.close m.server m.cancelled)
  | leaseStart {m : Mux} (id : Nat) : Local pkg m (m.leaseStart id)
  | handlerDone {m : Mux} (id : Nat) : Local pkg m (m.handlerDone id)
  | connectDone {m : Mux} (id : Nat) (failure : Option Code) : (∀ code ∈ failure, validError code = true) →
      Local pkg m (m.connectDone id failure)
  | copyDone {m : Mux} (id : Nat) : Local pkg m (m.copyDone id)
  | drain {m : Mux} (id : Nat) : Local pkg m (m.drain id)
  | workerExit {m : Mux} (id : Nat) : Local pkg m (m.workerExit id)
  | queryDNS {m : Mux} (query : Bytes) : Local pkg m (m.queryDNS pkg query)
  | queryDone {m : Mux} (id : Nat) : m.server = false → Local pkg m (m.queryDone id)
  | resolveDNS {m : Mux} (id : Nat) (answer : Option Bytes) : m.server = true → Local pkg m (m.resolveDNS pkg id answer)
  | dnsExit {m : Mux} : 0 < m.dnsLeaving →
      Local pkg m { m with dnsLeaving := m.dnsLeaving - 1, dnsJobs := m.dnsJobs - 1 }
  -- the endpoint sends nothing for a context that has ended, so a later round is lost
  | gather {m : Mux} : m.cancelled = false → m.sending = [] → m.sent = [] → Local pkg m m.gather
  | sendDone {m : Mux} : m.sending = [] → Local pkg m m.sendDone
  | cancel {m : Mux} : Local pkg m { m with cancelled := true }
  | fail {m : Mux} (err : Err) : Local pkg m (m.fail err)
  | shutdown {m : Mux} : m.cancelled = true → Local pkg m m.shutdown

/-- The endpoint takes the next frame of the write loop. -/
inductive Transmit : Mux → Frame → Mux → Prop where
  | next {m : Mux} {frame : Frame} {rest : List Frame} : m.sending = frame :: rest →
      Transmit m frame { m with sending := rest, sent := m.sent ++ [frame] }

end Mux

end FamilyConnect.TCPForward
