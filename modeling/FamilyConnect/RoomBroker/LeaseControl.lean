import FamilyConnect.RoomBroker.Broker

/-!
# Lease renewal between a client and the broker

Source: `carrier/roombroker/lease_control.go`, with `renew` and `extend` of
`lease.go`. An attempt is one mux stream: a handler on the server, and the
messages on their way in both directions. Only the newest attempt has a
client; the handlers of abandoned attempts go on with what has reached them.
A handler reads the clock and the security deadline at different moments, so
every reading is a step of its own.
-/

namespace FamilyConnect.RoomBroker

open Lib

structure Lease where
  id : SetupId
  renewal : Nat
  deadline : Instant
  lastRequest : LeaseReceipt
  lastLease : LeaseReceipt
  deriving DecidableEq

def Setup.lease (o : Setup) : Lease := ⟨o.id, o.renewal, o.leaseUntil, o.lastRequest, o.lastLease⟩

namespace Broker

def lease (b : Broker) (r : Nat) : Option Lease := b.heap[r]?.map Setup.lease

def snapshot (b : Broker) (r : Nat) (ctxEnded : Bool) (who : Option Identity) (securityDeadline now : Instant) :
    Except Code LeaseReceipt :=
  match who, b.heap[r]? with
  | none, _ => .error "unauthorized"
  | some _, none => .error "stale_or_unbound_setup"
  | some identity, some current =>
    if b.closed = true ∨ b.setups.lookup current.id ≠ some r ∨ current.state ≠ .active ∨ current.ctx.isSome = true ∨
        ctxEnded = true ∨ identity ≠ current.identity ∨ ¬ now < securityDeadline ∨ ¬ now < current.leaseUntil then
      .error "stale_or_unbound_setup"
    else .ok ⟨current.id, current.renewal, current.leaseUntil⟩

end Broker

inductive MessageType where
  | offer
  | denied
  | renew
  | accepted
  | limited
  | applied
  | confirmed
  | done
  deriving DecidableEq

structure LeaseMessage where
  type : MessageType
  lease : LeaseReceipt := {}
  remaining : Duration := 0
  deriving DecidableEq

/-- Decoding into a message that is already there: `remaining_ns` is left out when it is zero, and then
the old value stays. -/
def LeaseMessage.decode (old new : LeaseMessage) : LeaseMessage :=
  { new with remaining := if new.remaining = 0 then old.remaining else new.remaining }

/-! ## The server -/

/-- Where `dynamicHandler` is, with its variables. -/
inductive Handler where
  | opened
  | offering (current : LeaseReceipt) (securityDeadline : Instant)
  | offered (current : LeaseReceipt)
  | renewing (request current : LeaseReceipt)
  | answering (type : MessageType) (current : LeaseReceipt) (securityDeadline : Instant)
  | answered (current : LeaseReceipt)
  | applied (current : LeaseReceipt)
  | denying (code : Code)
  | closing
  | exited
  deriving DecidableEq

namespace Handler

def afterSnapshot (securityDeadline : Instant) : Except Code LeaseReceipt → Handler
  | .ok current => .offering current securityDeadline
  | .error code => .denying code

def afterRequest (current : LeaseReceipt) (message : LeaseMessage) : Handler :=
  if message.type ≠ .applied ∨ message.lease ≠ current then .exited else .applied current

def afterRenewal (current : LeaseReceipt) (securityDeadline : Instant) : Except Code LeaseReceipt → Handler
  | .ok accepted => .answering .accepted accepted securityDeadline
  | .error code => if code = "renewal_limited" then .answering .limited current securityDeadline else .denying code

end Handler

/-- The time that is left of the nearer deadline; the clock is read once for each. -/
def remainingTime (current : LeaseReceipt) (securityDeadline first second : Instant) : Duration :=
  min (Instant.sub current.expiresAt first) (Instant.sub securityDeadline second)

/-- One stream. `late` remembers that the handler told something that was over: a remaining time when one of
the deadlines it had read before had passed, or a confirmation of another lease than the client has applied. -/
structure Attempt where
  handler : Handler := .opened
  toServer : List LeaseMessage := []
  toClient : List LeaseMessage := []
  late : Bool := false

namespace Attempt

def send (a : Attempt) (handler : Handler) (message : LeaseMessage) : Attempt :=
  { a with handler := handler, toClient := a.toClient ++ [message] }

def tell (a : Attempt) (handler : Handler) (type : MessageType) (current : LeaseReceipt)
    (securityDeadline first second : Instant) : Attempt :=
  { a.send handler ⟨type, current, remainingTime current securityDeadline first second⟩ with
    late := a.late || decide (current.expiresAt ≤ first ∨ securityDeadline ≤ second) }

/-- The second snapshot replaces `current`, and what it found is sent. -/
def confirm (a : Attempt) (applied : LeaseReceipt) : Except Code LeaseReceipt → Attempt
  | .ok current =>
    { a.send .closing { type := .confirmed, lease := current } with late := a.late || decide (current ≠ applied) }
  | .error code => { a with handler := .denying code }

end Attempt

/-- One step of a handler for the setup at `r`, from the instant `now` to another, with `security` in force. -/
inductive Serve (r : Nat) (security : Instant) : Broker → Instant → Attempt → Broker → Instant → Attempt → Prop where
  | snapshot {b : Broker} {now : Instant} {a : Attempt} (ctxEnded : Bool) (who : Option Identity) :
      a.handler = .opened →
      Serve r security b now a b now
        { a with handler := .afterSnapshot security (b.snapshot r ctxEnded who security now) }
  | offer {b : Broker} {now second : Instant} {a : Attempt} {current : LeaseReceipt} {securityDeadline : Instant} :
      a.handler = .offering current securityDeadline → now ≤ second →
      Serve r security b now a b second (a.tell (.offered current) .offer current securityDeadline now second)
  | renewRequest {b : Broker} {now : Instant} {a : Attempt} {current : LeaseReceipt} {message : LeaseMessage}
      {rest : List LeaseMessage} : a.handler = .offered current → a.toServer = message :: rest →
      message.type = .renew →
      Serve r security b now a b now { a with handler := .renewing message.lease current, toServer := rest }
  | applyRequest {b : Broker} {now : Instant} {a : Attempt} {current : LeaseReceipt} {message : LeaseMessage}
      {rest : List LeaseMessage} : a.handler = .offered current ∧ message.type ≠ .renew ∨
      a.handler = .answered current → a.toServer = message :: rest →
      Serve r security b now a b now { a with handler := .afterRequest current message, toServer := rest }
  | renew {b : Broker} {now bound extended : Instant} {a : Attempt} {request current : LeaseReceipt}
      (ctxEnded : Bool) (who : Option Identity) : a.handler = .renewing request current → now ≤ bound →
      bound ≤ extended →
      Serve r security b now a (b.renew r ctxEnded request who security now bound extended).1 extended
        { a with
          handler := .afterRenewal current security (b.renew r ctxEnded request who security now bound extended).2 }
  | answer {b : Broker} {now second : Instant} {a : Attempt} {type : MessageType} {current : LeaseReceipt}
      {securityDeadline : Instant} : a.handler = .answering type current securityDeadline → now ≤ second →
      Serve r security b now a b second (a.tell (.answered current) type current securityDeadline now second)
  | confirm {b : Broker} {now : Instant} {a : Attempt} {current : LeaseReceipt} (ctxEnded : Bool)
      (who : Option Identity) : a.handler = .applied current →
      Serve r security b now a b now (a.confirm current (b.snapshot r ctxEnded who security now))
  | deny {b : Broker} {now : Instant} {a : Attempt} {code : Code} : a.handler = .denying code →
      Serve r security b now a b now (a.send .closing { type := .denied })
  | exit {b : Broker} {now : Instant} {a : Attempt} : Serve r security b now a b now { a with handler := .exited }

/-! ## The client -/

/-- Where `exchangeLease` waits, with its variables; `idle` is between two attempts. -/
inductive Phase where
  | idle
  | waitOffer (started : Instant) (renew : Bool)
  | waitAnswer (started : Instant) (request : LeaseReceipt) (response : LeaseMessage)
  | waitConfirm (accepted : LeaseReceipt) (deadline : Instant)
  deriving DecidableEq

/-- The variables of `maintainSession`. `deadline` is set by the first exchange, and `failure` is the code with
which the session was closed. -/
structure Client where
  known : LeaseReceipt := {}
  deadline : Option Instant := none
  phase : Phase := .idle
  failure : Option Code := none

namespace Client

def fail (c : Client) (code : Code) : Client := { c with phase := .idle, failure := some code }

def succeed (c : Client) (next : LeaseReceipt) (nextDeadline : Instant) : Client :=
  match c.deadline with
  | none => { c with known := next, deadline := some nextDeadline, phase := .idle }
  | some deadline =>
    if ¬ c.known.expiresAt < next.expiresAt then
      { c with deadline := some (if nextDeadline < deadline then nextDeadline else deadline), phase := .idle }
    else { c with known := next, deadline := some nextDeadline, phase := .idle }

def valid (c : Client) (setupID : SetupId) (message : LeaseMessage) : Bool :=
  message.lease.setupID = setupID ∧ 0 < message.remaining ∧ message.remaining ≤ 10 * Duration.minute ∧
    c.known.sequence ≤ message.lease.sequence ∧ ¬ message.lease.expiresAt < c.known.expiresAt

/-- `exchangeLease` from one message of the server to the next, with what it sends. -/
def receive (c : Client) (setupID : SetupId) (message : LeaseMessage) : Client × List LeaseMessage :=
  match c.phase with
  | .idle => (c, [])
  | .waitOffer started renew =>
    if message.type = .denied then (c.fail "unauthorized", [])
    else if message.type ≠ .offer ∨ c.valid setupID message = false then (c.fail "renewal_protocol", [])
    else if renew = true ∧ message.lease.sequence = c.known.sequence then
      let request := { message.lease with sequence := (message.lease.sequence + 1) % 2 ^ 64 }
      ({ c with phase := .waitAnswer started request message }, [{ type := .renew, lease := request }])
    else
      ({ c with phase := .waitConfirm message.lease (started + message.remaining) },
        [{ type := .applied, lease := message.lease }])
  | .waitAnswer started request offer =>
    let response := offer.decode message
    if response.type = .denied then (c.fail "unauthorized", [])
    else if c.valid setupID response = false ∨
        ¬ (response.type = .accepted ∧ response.lease.sequence = request.sequence ∨
          response.type = .limited ∧ response.lease.sequence = c.known.sequence ∧
            response.lease.expiresAt = c.known.expiresAt) then (c.fail "renewal_protocol", [])
    else
      ({ c with phase := .waitConfirm response.lease (started + response.remaining) },
        [{ type := .applied, lease := response.lease }])
  | .waitConfirm accepted deadline =>
    if message.type ≠ .confirmed ∨ message.lease ≠ accepted then
      if message.type = .denied then (c.fail "unauthorized", []) else (c.fail "renewal_protocol", [])
    else (c.succeed accepted deadline, [{ type := .done }])

end Client

/-! ## Both together -/

/-- `now` is the server's clock and `security` the deadline of the secured session. The attempts so far are
`1` to `count`, and the client takes part in the last one only. -/
structure World where
  broker : Broker
  now : Instant
  security : Instant
  client : Client := {}
  attempts : Nat → Attempt := fun _ => {}
  count : Nat := 0

namespace World

def put (w : World) (i : Nat) (a : Attempt) : World := { w with attempts := Function.update w.attempts i a }

/-- The steps for the setup `setupID` at `r`, with the client's clock `skew` ahead. Nothing but a handler
renews the lease, messages can be lost, and handlers and exchanges can end at any point. -/
inductive Step (setupID : SetupId) (r : Nat) (skew : Duration) : World → World → Prop where
  | tick {w : World} {t : Instant} : w.now ≤ t → Step setupID r skew w { w with now := t }
  | secure {w : World} {deadline : Instant} : w.security ≤ deadline →
      Step setupID r skew w { w with security := deadline }
  | broker {w : World} {b : Broker} : Broker.Step w.broker b → b.lease r = w.broker.lease r →
      Step setupID r skew w { w with broker := b }
  | start {w : World} (renew : Bool) : w.client.phase = .idle → w.client.failure = none →
      (renew = true → w.client.deadline.isSome = true) →
      Step setupID r skew w
        { w.put (w.count + 1) {} with
          client := { w.client with phase := .waitOffer (w.now + skew) renew }
          count := w.count + 1 }
  | abort {w : World} : Step setupID r skew w { w with client := { w.client with phase := .idle } }
  | receive {w : World} {message : LeaseMessage} {rest : List LeaseMessage} : w.client.phase ≠ .idle →
      (w.attempts w.count).toClient = message :: rest →
      Step setupID r skew w
        { w.put w.count
            { w.attempts w.count with
              toClient := rest
              toServer := (w.attempts w.count).toServer ++ (w.client.receive setupID message).2 } with
          client := (w.client.receive setupID message).1 }
  | lostRequest {w : World} {i : Nat} {message : LeaseMessage} {rest : List LeaseMessage} :
      (w.attempts i).toServer = message :: rest →
      Step setupID r skew w (w.put i { w.attempts i with toServer := rest })
  | lostReply {w : World} {i : Nat} {message : LeaseMessage} {rest : List LeaseMessage} :
      (w.attempts i).toClient = message :: rest →
      Step setupID r skew w (w.put i { w.attempts i with toClient := rest })
  | serve {w : World} {i : Nat} {b : Broker} {now : Instant} {a : Attempt} : 0 < i → i ≤ w.count →
      Serve r w.security w.broker w.now (w.attempts i) b now a →
      Step setupID r skew w { w.put i a with broker := b, now := now }

end World

/-- Runs that begin when `Challenge` has made the setup, long before it is active. -/
def leaseSystem (limits : Limits) (setupID : SetupId) (r : Nat) (skew : Duration) : System World where
  initial w := ∃ b who, (brokerSystem limits).Reachable b ∧ (∀ o ∈ b.heap, o.id ≠ setupID) ∧ b.heap.length = r ∧
    b.challenge who setupID w.now = (w.broker, .ok setupID) ∧ 0 ≤ w.now ∧ w.client = {} ∧ w.count = 0
  step := World.Step setupID r skew

end FamilyConnect.RoomBroker
