import FamilyConnect.Friends.Access

/-!
# Paid subscriptions

Source: `control/friends/paid_beta.py`. Times are integers of at least zero, so
only the upper bound of `instant` is checked; arguments of another type, unknown
event types and unknown states are not values here. Hashes of references and of
payloads are the values themselves.
-/

namespace FamilyConnect.Friends

open Lib Transaction

def maxTime : Nat := 253402300799

def cohortLimit : Nat := 10

inductive PaidState where
  | trial
  | active
  | grace
  | expired
  | revoked
  deriving DecidableEq

inductive EventType where
  | payment
  | grace
  | expire
  | revoke
  deriving DecidableEq

structure Subscription where
  device : String
  state : PaidState
  periodStart : Nat
  paidUntil : Nat
  graceUntil : Option Nat
  createdAt : Nat
  updatedAt : Nat
  version : Nat
  lastEventId : String
  revokedAt : Option Nat
  deriving DecidableEq

structure Payload where
  device : String
  eventType : EventType
  eventId : String
  periodStart : Option Nat
  paidUntil : Option Nat
  graceUntil : Option Nat
  referenceHash : String
  apkSha256 : Option String
  deriving DecidableEq

/-- A row of `paid_beta_events`; its column `result` is constant. -/
structure Event where
  eventId : String
  device : String
  eventType : EventType
  occurredAt : Nat
  previousState : Option PaidState
  newState : PaidState
  periodStart : Nat
  paidUntil : Nat
  graceUntil : Option Nat
  referenceHash : String
  payloadHash : Payload
  appliedAt : Nat
  deriving DecidableEq

structure Paid where
  subscriptions : List Subscription := []
  events : List Event := []

inductive PaidFailure where
  | invalidTime
  | opaqueEventIdRequired
  | referenceRequired
  | paymentBoundsOrApkInvalid
  | graceBoundsInvalid
  | unexpectedEventFields
  | invalidSupportSelector
  | uniqueExistingDeviceRequired
  | eventIdConflict
  | paymentBoundsInvalid
  | invalidDevice
  | revocationTerminal
  | activeIdentityRequired
  | androidBaselineRequired
  | invalidVersionObservation
  | androidVersionConflict
  | existingMeshRevocation
  | cohortEnrollmentRequiresPayment
  | cohortLimit
  | paymentMustNotShorten
  | graceMustNotShorten
  | transportPreparationRequired
  | integrity
  deriving DecidableEq

abbrev PaidTx := Transaction Paid PaidFailure

def instant (value : Nat) : Except PaidFailure Unit := demand (value ≤ maxTime) .invalidTime

/-! ## The state that counts -/

namespace Paid

def subscription (p : Paid) (device : String) : Option Subscription :=
  Rows.get Subscription.device device p.subscriptions

def event (p : Paid) (eventId : String) : Option Event := Rows.get Event.eventId eventId p.events

def eventsOf (p : Paid) (device : String) : List Event :=
  p.events.filter fun e => decide (e.device = device)

end Paid

def Subscription.boundary (s : Subscription) : Option Nat :=
  if s.state = .grace then s.graceUntil else some s.paidUntil

/-- `SubscriptionState` -/
structure Effective where
  state : PaidState
  allowed : Bool
  expiresAt : Option Nat
  deriving DecidableEq

def effectiveOf (s : Subscription) (now : Nat) : Except PaidFailure Effective :=
  if s.state = .revoked ∨ s.revokedAt ≠ none then .ok ⟨.revoked, false, none⟩
  else
    match s.boundary with
    | none => .error .invalidTime
    | some boundary =>
      if maxTime < boundary then .error .invalidTime
      else if s.state ≠ .expired ∧ now < boundary then .ok ⟨s.state, true, some boundary⟩
      else .ok ⟨.expired, false, none⟩

def effectiveSubscriptionState (p : Paid) (device : String) (now : Nat) :
    Except PaidFailure (Option Effective) :=
  if maxTime < now then .error .invalidTime
  else if hex 32 device = false then .error .invalidDevice
  else
    match p.subscription device with
    | none => .ok none
    | some s => (effectiveOf s now).map some

/-! ## What an event depends on -/

/-- The answer of a device in `restricted_readiness_results`; `none` is an answer that cannot be
read. -/
structure Readiness where
  device : String
  ackAt : Nat
  ack : Option (Option String × Option Nat)
  deriving DecidableEq

/-- The rest of the database: the registry, the readiness results, the devices in
`restricted_grants` with their revocation, and the result of preparing the nodes, where transports
are enforced. -/
structure Surroundings where
  registry : Registry
  readiness : List Readiness := []
  grants : List (String × Bool) := []
  prepared : Option Bool := none

structure AndroidRelease where
  versionName : String
  versionCode : Nat
  apkSha256 : String
  deriving DecidableEq

def paidAndroidReleases : List AndroidRelease :=
  [⟨"0.1.18-beta108", 108, "144b158fe4c07dd19a67683887558cf88a0202b937d135a9924698ffc11b4fdf"⟩,
   ⟨"0.1.18-beta119", 119, "52a9847b74181c48808c86a0c5bf5925b53ef498eec628aef2d78d26f1c92d2d"⟩]

def supportAlphabet : List Char := "23456789ABCDEFGHJKMNPQRSTVWXYZ".toList

/-- Whether the text begins with `PATTERN`. -/
def startsWithSupportId : List Char → Bool
  | 'F' :: 'C' :: '-' :: a :: b :: c :: d :: '-' :: e :: f :: g :: h :: _ =>
      [a, b, c, d, e, f, g, h].all (supportAlphabet.contains ·)
  | _ => false

/-- `normalize` of `support_ids` -/
def normalize (support : String) : Option String :=
  let value := Text.upper (Text.strip support.toList)
  if value.length = 12 ∧ startsWithSupportId value = true then some (String.ofList value) else none

structure Resolved where
  device : String
  revoked : Bool
  inviteRevoked : Option Bool
  deriving DecidableEq

/-- The join of `device_support`, `devices` and `invites`. -/
def Registry.resolutions (r : Registry) (supportId : String) : List Resolved :=
  (r.support.filter fun s => decide (s.supportId = supportId)).flatMap fun s =>
    (r.devices.filter fun d => decide (d.device = s.device)).flatMap fun d =>
      match r.invites.filter fun i => decide (i.device = some d.device) with
      | [] => [⟨d.device, d.revoked, none⟩]
      | invites => invites.map fun i => ⟨d.device, d.revoked, some i.revoked⟩

def resolveDevice (r : Registry) (support : String) : Except PaidFailure Resolved := do
  let supportId ← given (normalize support) .invalidSupportSelector
  match r.resolutions supportId with
  | [row] => pure row
  | _ => throw .uniqueExistingDeviceRequired

structure Observed where
  seen : Nat
  version : Option String
  code : Option Nat
  deriving DecidableEq

variable (e : Surroundings) (call : EventCall)

def acknowledged (device : String) (lastSeen : Option Nat) : Except PaidFailure (List Observed) :=
  let rows := e.readiness.filter fun row => decide (row.device = device)
  let latest := rows.filter fun row => rows.all fun other => decide (other.ackAt ≤ row.ackAt)
  (latest.filter fun row => lastSeen.all fun seen => decide (seen ≤ row.ackAt)).mapM fun row => do
    let (version, code) ← given row.ack .invalidVersionObservation
    pure ⟨row.ackAt, version, code⟩

def releaseOf (o : Observed) : List AndroidRelease :=
  paidAndroidReleases.filter fun release => decide (o.version = some release.versionName ∧
    o.code = some release.versionCode)

def agreed : Option AndroidRelease → List Observed → Except PaidFailure (Option AndroidRelease)
  | selected, [] => pure selected
  | selected, o :: rest =>
    match releaseOf o with
    | [release] => do
      demand (selected = none ∨ selected = some release) .androidVersionConflict
      agreed (some release) rest
    | _ => throw .androidBaselineRequired

def confirmedAndroidRelease (device : String) : Except PaidFailure AndroidRelease := do
  let support ← given (e.registry.supportOf device) .androidBaselineRequired
  demand (support.platform = some .android) .androidBaselineRequired
  let acks ← acknowledged e device support.lastSeen
  let observations := (support.lastSeen.toList.map
    fun seen => ⟨seen, support.appVersion, support.versionCode⟩) ++ acks
  let selected ← agreed none (observations.filter fun o => observations.all
    fun other => decide (other.seen ≤ o.seen))
  given selected .androidBaselineRequired

/-! ## Events -/

structure EventCall where
  eventType : EventType
  eventId : String
  reference : String
  periodStart : Option Nat := none
  paidUntil : Option Nat := none
  graceUntil : Option Nat := none
  apkSha256 : Option String := none
  deriving DecidableEq

/-- `[A-Za-z0-9_-]{8,128}`, and no support id in it. -/
def opaqueEventId (eventId : String) : Bool :=
  decide (8 ≤ eventId.length ∧ eventId.length ≤ 128) &&
    eventId.toList.all (fun c => c.isAlphanum || c = '_' || c = '-') &&
    !(Text.upper eventId.toList).tails.any startsWithSupportId

def validReference (reference : String) : Bool :=
  decide (1 ≤ reference.utf8ByteSize ∧ reference.utf8ByteSize ≤ 1024) &&
    decide (Text.strip reference.toList ≠ [])

/-- The fields that belong to the type of an event. -/
def wellFormed : Except PaidFailure Unit :=
  match call.eventType with
  | .payment => do
    let periodStart ← given call.periodStart .invalidTime
    instant periodStart
    let paidUntil ← given call.paidUntil .invalidTime
    instant paidUntil
    demand (periodStart < paidUntil ∧ call.graceUntil = none ∧
      call.apkSha256.any (hex 64) = true) .paymentBoundsOrApkInvalid
  | .grace => do
    let graceUntil ← given call.graceUntil .invalidTime
    instant graceUntil
    demand (call.periodStart = none ∧ call.paidUntil = none ∧
      call.apkSha256 = none) .graceBoundsInvalid
  | .expire | .revoke =>
    demand (call.periodStart = none ∧ call.paidUntil = none ∧ call.graceUntil = none ∧
      call.apkSha256 = none) .unexpectedEventFields

def EventCall.payload (device : String) : Payload :=
  ⟨device, call.eventType, call.eventId, call.periodStart, call.paidUntil, call.graceUntil,
    call.reference, call.apkSha256⟩

def timely (now : Nat) : Except PaidFailure Unit :=
  match call.eventType with
  | .payment =>
    demand ((∀ start, call.periodStart = some start → start ≤ now) ∧
      ∀ paid, call.paidUntil = some paid → now < paid) .paymentBoundsInvalid
  | .grace => demand (∀ grace, call.graceUntil = some grace → now < grace) .graceBoundsInvalid
  | .expire | .revoke => pure ()

def eligible (device : Resolved) : Except PaidFailure Unit := do
  demand (device.revoked = false ∧ device.inviteRevoked = some false) .activeIdentityRequired
  let release ← confirmedAndroidRelease e device.device
  demand (call.eventType = .payment → call.apkSha256 = some release.apkSha256)
    .paymentBoundsOrApkInvalid
  demand (∀ grant ∈ e.grants, grant.1 = device.device → grant.2 = false) .existingMeshRevocation

structure Bounds where
  newState : PaidState
  periodStart : Nat
  paidUntil : Nat
  graceUntil : Option Nat
  deriving DecidableEq

def bounds (previous : Option Subscription) : Except PaidFailure Bounds :=
  match call.eventType, previous with
  | .payment, previous => do
    let periodStart ← given call.periodStart .invalidTime
    let paidUntil ← given call.paidUntil .invalidTime
    demand (∀ old, previous = some old → old.periodStart ≤ periodStart ∧
      max old.paidUntil (old.graceUntil.getD 0) ≤ paidUntil) .paymentMustNotShorten
    pure ⟨.active, periodStart, paidUntil, call.graceUntil⟩
  | _, none => throw .cohortEnrollmentRequiresPayment
  | .grace, some old => do
    let graceUntil ← given call.graceUntil .invalidTime
    demand (max old.paidUntil (old.graceUntil.getD 0) ≤ graceUntil) .graceMustNotShorten
    pure ⟨.grace, old.periodStart, old.paidUntil, some graceUntil⟩
  | .expire, some old => pure ⟨.expired, old.periodStart, old.paidUntil, old.graceUntil⟩
  | .revoke, some old => pure ⟨.revoked, old.periodStart, old.paidUntil, old.graceUntil⟩

/-- The `CHECK`s of `paid_beta_subscriptions`. -/
def Subscription.Checked (s : Subscription) : Prop :=
  s.periodStart < s.paidUntil ∧ (s.graceUntil.all fun grace => decide (s.paidUntil ≤ grace)) =
    true ∧ 0 < s.version ∧ (s.state = .grace → s.graceUntil ≠ none) ∧
      (s.state = .revoked ↔ s.revokedAt ≠ none)

instance (s : Subscription) : Decidable s.Checked := inferInstanceAs (Decidable (_ ∧ _ ∧ _ ∧ _ ∧ _))

/-- `INSERT ... ON CONFLICT(device) DO UPDATE`, with the triggers. -/
def putSubscription (s : Subscription) : PaidTx Unit := do
  require s.Checked .integrity
  let p ← get
  match p.subscription s.device with
  | none => do
    require (p.subscriptions.length < cohortLimit) .integrity
    set { p with subscriptions := Rows.put Subscription.device s p.subscriptions }
  | some old => do
    require (old.state ≠ .revoked) .integrity
    set { p with subscriptions := Rows.put Subscription.device { s with createdAt := old.createdAt, version := old.version + 1 } p.subscriptions }

def insertEvent (event : Event) : PaidTx Unit := do
  let p ← get
  require (p.event event.eventId = none) .integrity
  set { p with events := p.events ++ [event] }

structure Applied where
  duplicate : Bool
  event : Event
  deriving DecidableEq

/-- The part of `apply_event` for a new event id. -/
def applyNew (now : Nat) (call : EventCall) (device : Resolved) : PaidTx Applied := do
  timely call now
  let p ← get
  let previous := p.subscription device.device
  let effective ← effectiveSubscriptionState p device.device now
  require (∀ found, effective = some found → found.state ≠ .revoked) .revocationTerminal
  (if call.eventType = .payment ∨ call.eventType = .grace then eligible e call device else pure ())
  require (previous ≠ none ∨ call.eventType = .payment) .cohortEnrollmentRequiresPayment
  require (previous = none → p.subscriptions.length < cohortLimit) .cohortLimit
  let new ← bounds call previous
  let event : Event :=
    { eventId := call.eventId, device := device.device, eventType := call.eventType, occurredAt := now
      previousState := effective.map (·.state), newState := new.newState
      periodStart := new.periodStart, paidUntil := new.paidUntil
      graceUntil := new.graceUntil, referenceHash := call.reference
      payloadHash := call.payload device.device, appliedAt := now }
  require (previous = none → e.prepared ≠ some false) .transportPreparationRequired
  insertEvent event
  putSubscription
    { device := device.device, state := new.newState, periodStart := new.periodStart
      paidUntil := new.paidUntil, graceUntil := new.graceUntil
      createdAt := now, updatedAt := now, version := 1, lastEventId := call.eventId
      revokedAt := if new.newState = .revoked then some now else none }
  pure ⟨false, event⟩

def applyEvent (now : Nat) (support : String) (call : EventCall) : PaidTx Applied := do
  instant now
  require (opaqueEventId call.eventId = true) .opaqueEventIdRequired
  require (validReference call.reference = true) .referenceRequired
  wellFormed call
  let device ← resolveDevice e.registry support
  let p ← get
  match p.event call.eventId with
  | some previous => do
    require (previous.payloadHash = call.payload device.device) .eventIdConflict
    pure ⟨true, previous⟩
  | none => applyNew e now call device

end FamilyConnect.Friends
