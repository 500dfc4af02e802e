import FamilyConnect.Lib.Clock
import FamilyConnect.Lib.Table
import FamilyConnect.Lib.Transition

/-!
# The room broker

Source: `carrier/roombroker/broker.go`, with `reauthorize` from
`authorization.go` and the lease from `lease.go`. A setup lives in `heap` at a
fixed index, its pointer; the map `setups` leads from an id to that pointer.
Everything done under the broker lock is one function. The goroutines of a
setup, its monitor and the call of `Create` that goes on as the gateway
worker, are program counters in the setup itself.
-/

namespace FamilyConnect.RoomBroker

open Lib

inductive State where
  | authorized
  | creating
  | created
  | gatewayJoining
  | ready
  | clientIssued
  | active
  | closed
  | failed
  | expired
  | cancelled
  deriving DecidableEq

def terminal (state : State) : Bool :=
  state = .closed || state = .failed || state = .expired || state = .cancelled

abbrev SetupId := String

abbrev Code := String

structure Identity where
  family : String
  device : String
  publicKey : List UInt8
  deriving DecidableEq

def authorized (ctxEnded : Bool) (answer : Option Identity) : Option Identity :=
  answer.filter fun identity =>
    identity.family.utf8ByteSize = 32 && identity.device.utf8ByteSize = 32 && !ctxEnded

structure Room where
  id : String
  joinURL : String
  deriving DecidableEq

structure Limits where
  create : Duration
  ready : Duration
  unused : Duration
  lifetime : Duration
  recheck : Duration
  outstanding : Int
  deriving DecidableEq

def creationTimeout : Duration := 15 * Duration.second

def defaultLimits : Limits :=
  { create := creationTimeout
    ready := 45 * Duration.second
    unused := 60 * Duration.second
    lifetime := 10 * Duration.minute
    recheck := Duration.second
    outstanding := 32 }

inductive CtxErr where
  | canceled
  | deadlineExceeded
  deriving DecidableEq

structure LeaseReceipt where
  setupID : SetupId := ""
  sequence : Nat := 0
  expiresAt : Instant := 0
  deriving DecidableEq

/-- Where the goroutine `monitor` of a setup is. -/
inductive Monitor where
  | watching
  | terminating (state : State) (code : Code)
  | leaving
  | exited
  deriving DecidableEq

def Monitor.worker : Monitor → Nat
  | .exited => 0
  | _ => 1

/-- Where the call of `Create` for a setup, and then its gateway worker, is. From `checking` to
`closing` it owns an open gateway. -/
inductive Creator where
  | idle
  | creating
  | created (room : Room)
  | joining (room : Room)
  | starting (room : Room)
  | checking (room : Room)
  | issuing (room : Room)
  | abandoning (code : Code)
  | failing (code : Code)
  | discarding
  | running
  | ending (failed : Bool)
  | closing
  | finishing
  | removing
  | leaving
  | exited
  deriving DecidableEq

def Creator.worker : Creator → Nat
  | .idle | .exited => 0
  | _ => 1

/-- A setup. The counters at the end say how often `done` was closed, `Claim` succeeded, and a gateway
was returned by `Start` and closed. -/
structure Setup where
  id : SetupId
  identity : Identity
  state : State := .authorized
  ctx : Option CtxErr := none
  deadline : Instant
  started : Bool := false
  claimed : Bool := false
  leaseUntil : Instant
  renewal : Nat := 0
  lastLease : LeaseReceipt := {}
  lastRequest : LeaseReceipt := {}
  monitor : Monitor := .watching
  creator : Creator := .idle
  events : List (State × Code) := []
  doneClosed : Nat := 0
  claims : Nat := 0
  gatewayOpened : Nat := 0
  gatewayClosed : Nat := 0

namespace Setup

variable (o : Setup)

def enter (state : State) (code : Code) : Setup :=
  { o with state := state, events := o.events ++ [(state, code)] }

/-- The first cause of the end of a context stays. -/
def cancel : Setup := { o with ctx := o.ctx.or (some .canceled) }

def expire (now : Instant) : Setup :=
  if now < o.leaseUntil then o else { o with ctx := o.ctx.or (some .deadlineExceeded) }

def terminate (state : State) (code : Code) : Setup :=
  (if terminal o.state then o else o.enter state code).cancel

def transition (state : State) : Setup := if terminal o.state then o else o.enter state ""

/-- The branch of `monitor` for an ended context, up to the removal of the setup. -/
def contextDone : Setup :=
  if terminal o.state then o
  else if o.ctx = some .deadlineExceeded then o.enter .expired "lifetime_expired"
  else o.enter .cancelled "cancelled"

/-- What `reauthorize` decides; `answer` is the identity the session or the callback vouches for. -/
def reauthorize (answer : Option Identity) (now : Instant) : Option (State × Code) :=
  match answer with
  | none => some (.failed, "authorization_changed")
  | some identity =>
    if terminal o.state = true ∨ o.ctx.isSome = true then none
    else if identity ≠ o.identity then some (.failed, "authorization_changed")
    else if o.state ≠ .active ∧ now > o.deadline then some (.expired, "unused_expired")
    else none

/-- The code `Create` fails with when `CreateRoom` returned `err` or its context ended. -/
def providerCode (err : Option Code) (creationErr : Option CtxErr) : Code :=
  match creationErr with
  | some .deadlineExceeded => "provider_timeout"
  | some .canceled => "provider_cancelled"
  | none => err.getD "provider_failure"

def activate (answer : Option Identity) (now : Instant) : Setup × Except Code Unit :=
  if authorized o.ctx.isSome answer ≠ some o.identity ∨ o.ctx.isSome = true ∨ o.state ≠ .clientIssued ∨
      o.claimed = false ∨ ¬ now < o.deadline then (o, .error "stale_or_unbound_setup")
  else (o.enter .active "", .ok ())

/-- The critical section that ends `Create`: the descriptor is issued unless the setup has ended. -/
def issue (unused : Duration) (now : Instant) : Setup :=
  if terminal o.state then { o with creator := .discarding }
  else { (o.enter .ready "").enter .clientIssued "" with deadline := now + unused, creator := .running }

def workers : Nat := o.monitor.worker + o.creator.worker

end Setup

structure Broker where
  limits : Limits
  heap : List Setup := []
  setups : Table SetupId Nat := ∅
  closed : Bool := false
  workers : Int := 0
  cancels : List Nat := []
  waiting : Nat := 0
  returned : Nat := 0

def new (limits : Limits) : Except Code Broker :=
  if limits.create ≤ 0 ∨ limits.create > creationTimeout ∨ limits.ready ≤ 0 ∨ limits.ready > Duration.minute ∨
      limits.unused ≤ 0 ∨ limits.unused > 2 * Duration.minute ∨ limits.lifetime ≤ 0 ∨
      limits.lifetime > 60 * Duration.minute ∨ limits.recheck ≤ 0 ∨ limits.recheck > Duration.second ∨
      limits.outstanding < 1 ∨ limits.outstanding > 32 then .error "invalid_limits"
  else .ok { limits := limits }

namespace Broker

variable (b : Broker)

def modify (r : Nat) (f : Setup → Setup) : Broker := { b with heap := b.heap.modify r f }

def busy (identity : Identity) : Bool :=
  b.setups.entries.any fun e => (b.heap[e.2]?).any fun o => o.identity = identity

/-- `Challenge` for the authorized identity `who`; `id` is the random nonce in hexadecimal. -/
def challenge (who : Option Identity) (id : SetupId) (now : Instant) :
    Broker × Except Code SetupId :=
  match who with
  | none => (b, .error "unauthorized")
  | some identity =>
    if b.closed then (b, .error "closed")
    else if (b.setups.keys.length : Int) ≥ b.limits.outstanding then (b, .error "outstanding_limit")
    else if b.busy identity then (b, .error "device_busy")
    else
      let current : Setup :=
        { id := id, identity := identity, deadline := now + b.limits.unused, leaseUntil := now + b.limits.lifetime }
      ({ b with
          heap := b.heap ++ [current]
          setups := b.setups.insert id b.heap.length
          workers := b.workers + 1 }, .ok id)

def lookup (ctxEnded : Bool) (id : SetupId) (identity : Identity) (now : Instant) :
    Except Code (Nat × Setup) :=
  match b.setups.lookup id with
  | none => .error "stale_or_unbound_setup"
  | some r =>
    match b.heap[r]? with
    | none => .error "stale_or_unbound_setup"
    | some current =>
      if ctxEnded = true ∨ current.identity ≠ identity ∨ current.ctx.isSome = true ∨ terminal current.state = true ∨
          (current.state ≠ .active ∧ ¬ now < current.deadline) then .error "stale_or_unbound_setup"
      else .ok (r, current)

def create (ctxEnded : Bool) (id : SetupId) (who : Option Identity) (now : Instant) :
    Broker × Except Code Nat :=
  match who with
  | none => (b, .error "unauthorized")
  | some identity =>
    match b.lookup ctxEnded id identity now with
    | .error code => (b, .error code)
    | .ok (r, current) =>
      if current.state ≠ .authorized then (b, .error "setup_replayed")
      else
        ({ b.modify r (fun o =>
            { o.enter .creating "" with
              started := true
              deadline := now + (b.limits.create + b.limits.ready + b.limits.unused)
              creator := .creating }) with workers := b.workers + 1 }, .ok r)

def claim (ctxEnded : Bool) (id : SetupId) (who : Option Identity) (now : Instant) :
    Broker × Except Code Unit :=
  match who with
  | none => (b, .error "unauthorized")
  | some identity =>
    match b.lookup ctxEnded id identity now with
    | .error code => (b, .error code)
    | .ok (r, current) =>
      if current.state ≠ .clientIssued ∨ current.claimed = true then (b, .error "descriptor_replayed")
      else (b.modify r (fun o => { o with claimed := true, claims := o.claims + 1 }), .ok ())

def cancel (ctxEnded : Bool) (id : SetupId) (who : Option Identity) (now : Instant) :
    Broker × Except Code Unit :=
  match who with
  | none => (b, .error "unauthorized")
  | some identity =>
    match b.lookup ctxEnded id identity now with
    | .error code => (b, .error code)
    | .ok (r, _) => ({ b with cancels := r :: b.cancels }, .ok ())

/-- `renew` on the setup at `r`; the clock is read at the guard, for the new bound and by `extend`. -/
def renew (r : Nat) (ctxEnded : Bool) (request : LeaseReceipt) (who : Option Identity)
    (securityDeadline : Instant) (guard bound extended : Instant) : Broker × Except Code LeaseReceipt :=
  match who, b.heap[r]? with
  | none, _ => (b, .error "unauthorized")
  | some _, none => (b, .error "stale_or_unbound_setup")
  | some identity, some current =>
    if b.closed = true ∨ b.setups.lookup current.id ≠ some r ∨ current.state ≠ .active ∨ current.ctx.isSome = true ∨
        ctxEnded = true ∨ identity ≠ current.identity ∨ request.setupID ≠ current.id ∨ ¬ guard < current.leaseUntil ∨
        ¬ guard < securityDeadline then (b, .error "stale_or_unbound_setup")
    else if request.sequence = current.renewal ∧ current.renewal ≠ 0 ∧
        request.expiresAt = current.lastRequest.expiresAt then (b, .ok current.lastLease)
    else if current.renewal = 2 ^ 64 - 1 ∨ request.sequence ≠ current.renewal + 1 ∨
        request.expiresAt ≠ current.leaseUntil then (b, .error "renewal_replayed")
    else
      let extension := min (bound + b.limits.lifetime) securityDeadline
      if ¬ current.leaseUntil < extension then (b, .error "renewal_limited")
      else if ¬ extended < current.leaseUntil then (b, .error "renewal_expired")
      else
        let receipt : LeaseReceipt := ⟨current.id, request.sequence, extension⟩
        (b.modify r (fun o =>
          { o with
            leaseUntil := extension
            renewal := request.sequence
            lastRequest := request
            lastLease := receipt }), .ok receipt)

def remove (r : Nat) (id : SetupId) : Broker :=
  { b.modify r (fun o => { o with doneClosed := o.doneClosed + 1 }) with setups := b.setups.erase id }

def monitorDone (r : Nat) (current : Setup) : Broker :=
  let b := b.modify r fun o => { o.contextDone with monitor := .leaving }
  if current.started then b else b.remove r current.id

def finish (r : Nat) (current : Setup) : Broker :=
  let b := b.modify r fun o => { o with creator := .leaving }
  if b.setups.lookup current.id = some r then b.remove r current.id else b

def close : Broker :=
  { b with
    closed := true
    heap := b.heap.mapIdx fun r o => if b.setups.lookup o.id = some r then o.cancel else o
    waiting := b.waiting + 1 }

end Broker

/-- The steps in which one setup changes by itself: its context ends, its monitor looks at it, or its
`Create` goes on with whatever the provider, the gateway and the authorization answered. Whether a
join URL is valid is part of the provider's answer. -/
inductive Setup.Step (limits : Limits) : Setup → Setup → Prop where
  | cancel {o : Setup} : Step limits o o.cancel
  | expire {o : Setup} (now : Instant) : Step limits o (o.expire now)
  | recheck {o : Setup} {state : State} {code : Code} (answer : Option Identity) (now : Instant) :
      o.monitor = .watching → o.reauthorize answer now = some (state, code) →
      Step limits o { o with monitor := .terminating state code }
  | monitorTerminate {o : Setup} {state : State} {code : Code} : o.monitor = .terminating state code →
      Step limits o { o.terminate state code with monitor := .watching }
  | monitorReturn {o : Setup} : o.monitor = .watching → 0 < o.doneClosed → Step limits o { o with monitor := .leaving }
  | providerFailed {o : Setup} (err : Option Code) (creationErr : Option CtxErr) : o.creator = .creating →
      Step limits o { o with creator := .failing (providerCode err creationErr) }
  | providerInvalid {o : Setup} : o.creator = .creating →
      Step limits o { o with creator := .failing "provider_response" }
  | providerRoom {o : Setup} (room : Room) : o.creator = .creating → room.id ≠ "" →
      Step limits o { o with creator := .created room }
  | enterCreated {o : Setup} {room : Room} : o.creator = .created room →
      Step limits o { o.transition .created with creator := .joining room }
  | enterJoining {o : Setup} {room : Room} : o.creator = .joining room →
      Step limits o { o.transition .gatewayJoining with creator := .starting room }
  | startFailed {o : Setup} {room : Room} (timeout : Bool) : o.creator = .starting room →
      Step limits o
        { o with creator := .failing (if timeout then "gateway_ready_timeout" else "gateway_failed") }
  | startFailedOpen {o : Setup} {room : Room} (timeout : Bool) : o.creator = .starting room →
      Step limits o
        { o with
          creator := .abandoning (if timeout then "gateway_ready_timeout" else "gateway_failed")
          gatewayOpened := o.gatewayOpened + 1 }
  | startOk {o : Setup} {room : Room} : o.creator = .starting room →
      Step limits o { o with creator := .checking room, gatewayOpened := o.gatewayOpened + 1 }
  | checkFailed {o : Setup} {room : Room} (who : Option Identity) : o.creator = .checking room →
      who ≠ some o.identity ∨ o.ctx.isSome = true →
      Step limits o { o with creator := .abandoning "authorization_changed" }
  | checkOk {o : Setup} {room : Room} (who : Option Identity) : o.creator = .checking room →
      who = some o.identity → o.ctx = none → Step limits o { o with creator := .issuing room }
  | abandon {o : Setup} {code : Code} : o.creator = .abandoning code →
      Step limits o { o with creator := .failing code, gatewayClosed := o.gatewayClosed + 1 }
  | fail {o : Setup} {code : Code} : o.creator = .failing code →
      Step limits o { o.terminate .failed code with creator := .finishing }
  | issue {o : Setup} {room : Room} (now : Instant) : o.creator = .issuing room →
      Step limits o (o.issue limits.unused now)
  | discard {o : Setup} : o.creator = .discarding →
      Step limits o { o with creator := .finishing, gatewayClosed := o.gatewayClosed + 1 }
  | activate {o : Setup} (answer : Option Identity) (now : Instant) : o.creator = .running →
      Step limits o (o.activate answer now).1
  | runReturned {o : Setup} (failed : Bool) : o.creator = .running →
      Step limits o { o with creator := .ending failed }
  | runTerminate {o : Setup} {failed : Bool} : o.creator = .ending failed →
      Step limits o
        { (if failed then o.terminate .failed "gateway_session_failed" else o.terminate .closed "") with
          creator := .closing }
  | gatewayClose {o : Setup} : o.creator = .closing →
      Step limits o { o with creator := .finishing, gatewayClosed := o.gatewayClosed + 1 }
  | finishCancel {o : Setup} : o.creator = .finishing → Step limits o { o.cancel with creator := .removing }

/-- All steps of the broker, by any number of callers and goroutines. The nonce of a challenge is
one that no earlier setup got. -/
inductive Broker.Step : Broker → Broker → Prop where
  | challenge {b : Broker} {id : SetupId} (who : Option Identity) (now : Instant) : (∀ o ∈ b.heap, o.id ≠ id) →
      Step b (b.challenge who id now).1
  | create {b : Broker} (ctxEnded : Bool) (id : SetupId) (who : Option Identity) (now : Instant) :
      Step b (b.create ctxEnded id who now).1
  | claim {b : Broker} (ctxEnded : Bool) (id : SetupId) (who : Option Identity) (now : Instant) :
      Step b (b.claim ctxEnded id who now).1
  | cancel {b : Broker} (ctxEnded : Bool) (id : SetupId) (who : Option Identity) (now : Instant) :
      Step b (b.cancel ctxEnded id who now).1
  | cancelTerminate {b : Broker} {r : Nat} : r ∈ b.cancels →
      Step b { b.modify r (fun o => o.terminate .cancelled "cancelled") with cancels := b.cancels.erase r }
  | renew {b : Broker} (r : Nat) (ctxEnded : Bool) (request : LeaseReceipt) (who : Option Identity)
      (securityDeadline guard bound extended : Instant) :
      Step b (b.renew r ctxEnded request who securityDeadline guard bound extended).1
  | setup {b : Broker} {r : Nat} {o o' : Setup} : b.heap[r]? = some o → Setup.Step b.limits o o' →
      Step b (b.modify r fun _ => o')
  | monitorDone {b : Broker} {r : Nat} {o : Setup} : b.heap[r]? = some o → o.monitor = .watching →
      o.ctx.isSome = true → Step b (b.monitorDone r o)
  | monitorExit {b : Broker} {r : Nat} {o : Setup} : b.heap[r]? = some o → o.monitor = .leaving →
      Step b { b.modify r (fun o => { o with monitor := .exited }) with workers := b.workers - 1 }
  | finish {b : Broker} {r : Nat} {o : Setup} : b.heap[r]? = some o → o.creator = .removing →
      Step b (b.finish r o)
  | creatorExit {b : Broker} {r : Nat} {o : Setup} : b.heap[r]? = some o → o.creator = .leaving →
      Step b { b.modify r (fun o => { o with creator := .exited }) with workers := b.workers - 1 }
  | close {b : Broker} : Step b b.close
  | closeReturn {b : Broker} : 0 < b.waiting → b.workers = 0 →
      Step b { b with waiting := b.waiting - 1, returned := b.returned + 1 }

def brokerSystem (limits : Limits) : System Broker where
  initial b := new limits = .ok b
  step := Broker.Step

end FamilyConnect.RoomBroker
