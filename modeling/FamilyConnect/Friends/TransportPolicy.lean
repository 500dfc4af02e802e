import FamilyConnect.Friends.PaidBeta

/-!
# Transport decisions

Source: `control/friends/transport_policy.py`. Schema, profile and the types of
fields are those of the values here. Times at a gateway are rational numbers of
seconds.
-/

namespace FamilyConnect.Friends

open Lib Transaction

inductive Node where
  | gatewayRu
  | amsterdam1
  | amsterdam2
  deriving DecidableEq

def leaseSeconds : Nat := 120

def clockSkewSeconds : Nat := 5

def decisionLimit : Nat := 10000

inductive DecisionState where
  | noncohort
  | paid (state : PaidState)
  deriving DecidableEq

@[ext]
structure Decision where
  device : String
  publicKey : String
  tcpId : String
  cohort : Bool
  revision : Nat
  state : DecisionState
  identityAllowed : Bool
  allowed : Bool
  paidUntil : Option Nat
  graceUntil : Option Nat
  observedAt : Nat
  validUntil : Nat
  deriving DecidableEq

structure Envelope where
  node : Node
  observedAt : Nat
  decisions : List Decision
  deriving DecidableEq

inductive PolicyFailure where
  | unknownDevice
  | paid (failure : PaidFailure)
  | invalidEnvelope
  | invalidDecision
  | bindingConflict
  | terminalDecision
  | staleOrConflicting
  | sameClockAllowConflict
  | sameRevisionStateConflict
  | invalidCache
  | duplicateBinding
  | invalidPreparation
  | membershipConflict
  deriving DecidableEq

structure Encoding where
  validWg : String → Bool
  canonicalUuid : String → Bool

/-! ## Reading decisions -/

def Registry.identity (r : Registry) (record : Device) : Bool :=
  !record.revoked && r.invites.any fun i => decide (i.device = some record.device ∧ i.revoked = false)

def deadline (now : Nat) (allowed : Bool) (effective : Option Effective) : Nat :=
  match allowed, effective.bind (·.expiresAt) with
  | true, some expiresAt => min (now + leaseSeconds) expiresAt
  | _, _ => now + leaseSeconds

def decisionOf (r : Registry) (p : Paid) (now : Nat) (record : Device) :
    Except PolicyFailure Decision := do
  let effective ← (effectiveSubscriptionState p record.device now).mapError .paid
  let row := p.subscription record.device
  let allowed := r.identity record && effective.all (·.allowed)
  pure
    { device := record.device, publicKey := record.wg, tcpId := record.tcp
      cohort := effective.isSome, revision := (row.map (·.version)).getD 0
      state := (effective.map fun e => DecisionState.paid e.state).getD .noncohort
      identityAllowed := r.identity record, allowed := allowed
      paidUntil := row.map (·.paidUntil), graceUntil := row.bind (·.graceUntil), observedAt := now
      validUntil := deadline now allowed effective }

def readSnapshot (r : Registry) (p : Paid) (node : Node) (now : Nat) (device : Option String) :
    Except PolicyFailure Envelope := do
  let records := (r.devices.filter fun d => device.all
    fun name => decide (d.device = name)).insertionSort fun d e => d.device ≤ e.device
  demand (device = none ∨ records.length = 1) .unknownDevice
  let decisions ← records.mapM (decisionOf r p now)
  pure ⟨node, now, decisions⟩

/-! ## Checking them -/

def Decision.boundary (d : Decision) : Option Nat :=
  if d.state = .paid .grace then d.graceUntil else d.paidUntil

structure Decision.Valid (encoding : Encoding) (observedAt : Nat) (d : Decision) : Prop where
  device : hex 32 d.device = true
  tcpId : encoding.canonicalUuid d.tcpId = true
  publicKey : encoding.validWg d.publicKey = true
  revision : d.cohort = true → 1 ≤ d.revision
  observedAt : d.observedAt = observedAt
  validUntil : d.observedAt < d.validUntil ∧ d.validUntil ≤ d.observedAt + leaseSeconds
  cohort : d.cohort = true ↔ d.state ≠ .noncohort
  allowed : d.allowed = true → d.identityAllowed = true ∧ d.state ≠ .paid .expired ∧
    d.state ≠ .paid .revoked
  paidUntil : d.cohort = true → d.paidUntil ≠ none
  boundary : d.allowed = true → d.cohort = true →
    (d.boundary.any fun boundary => decide (d.validUntil ≤ boundary)) = true

instance (encoding : Encoding) (observedAt : Nat) (d : Decision) :
    Decidable (d.Valid encoding observedAt) :=
  decidable_of_iff (hex 32 d.device = true ∧ encoding.canonicalUuid d.tcpId = true ∧
      encoding.validWg d.publicKey = true ∧ (d.cohort = true → 1 ≤ d.revision) ∧
      d.observedAt = observedAt ∧ (d.observedAt < d.validUntil ∧
      d.validUntil ≤ d.observedAt + leaseSeconds) ∧ (d.cohort = true ↔ d.state ≠ .noncohort) ∧
        (d.allowed = true → d.identityAllowed = true ∧ d.state ≠ .paid .expired ∧
      d.state ≠ .paid .revoked) ∧ (d.cohort = true → d.paidUntil ≠ none) ∧
      (d.allowed = true → d.cohort = true → (d.boundary.any
        fun boundary => decide (d.validUntil ≤ boundary)) = true))
    ⟨fun ⟨h₁, h₂, h₃, h₄, h₅, h₆, h₇, h₈, h₉, h₁₀⟩ => ⟨h₁, h₂, h₃, h₄, h₅, h₆, h₇, h₈, h₉, h₁₀⟩,
      fun h => ⟨h.device, h.tcpId, h.publicKey, h.revision, h.observedAt, h.validUntil, h.cohort,
        h.allowed, h.paidUntil, h.boundary⟩⟩

def distinct (decisions : List Decision) : Prop :=
  (decisions.map Decision.device).Nodup ∧ (decisions.map Decision.publicKey).Nodup ∧
    (decisions.map Decision.tcpId).Nodup

instance (decisions : List Decision) : Decidable (distinct decisions) :=
  inferInstanceAs (Decidable (_ ∧ _ ∧ _))

def validate (encoding : Encoding) (envelope : Envelope) (node : Node) (now : ℚ) :
    Except PolicyFailure Unit := do
  demand (envelope.node = node ∧ now - leaseSeconds < envelope.observedAt ∧
    (envelope.observedAt : ℚ) ≤ now + clockSkewSeconds ∧
    envelope.decisions.length ≤ decisionLimit) .invalidEnvelope
  demand ((∀ d ∈ envelope.decisions, d.Valid encoding envelope.observedAt) ∧
    distinct envelope.decisions) .invalidDecision

def successor (previous record : Decision) : Except PolicyFailure Unit := do
  demand (previous.device = record.device ∧ previous.publicKey = record.publicKey ∧
    previous.tcpId = record.tcpId) .bindingConflict
  demand ((previous.cohort = true → record.cohort = true) ∧
    (previous.state = .paid .revoked → record.state = .paid .revoked) ∧
      (record.identityAllowed = true → previous.identityAllowed = true)) .terminalDecision
  demand (previous.revision ≤ record.revision ∧ previous.observedAt ≤ record.observedAt ∧
    (record.revision = previous.revision → record.paidUntil = previous.paidUntil ∧
      record.graceUntil = previous.graceUntil ∧ record.cohort = previous.cohort)) .staleOrConflicting
  demand (record.observedAt = previous.observedAt → record ≠ previous →
    record.revision ≤ previous.revision → record.allowed = false)
    .sameClockAllowConflict
  demand (record.revision = previous.revision → record.state ≠ previous.state →
    record.state = .paid .expired ∧ (previous.boundary.any
      fun boundary => decide (boundary ≤ record.observedAt)) = true) .sameRevisionStateConflict

theorem validate_ok_iff {encoding : Encoding} {envelope : Envelope} {node : Node} {now : ℚ} :
    validate encoding envelope node now = .ok () ↔
    (envelope.node = node ∧ now - leaseSeconds < envelope.observedAt ∧
      (envelope.observedAt : ℚ) ≤ now + clockSkewSeconds ∧ envelope.decisions.length ≤ decisionLimit) ∧
    (∀ d ∈ envelope.decisions, d.Valid encoding envelope.observedAt) ∧
    distinct envelope.decisions := by
  unfold validate
  rw [both_ok_iff, demand_iff, demand_iff]

/-- One clause for each check of `successor`. -/
structure Decision.Follows (previous record : Decision) : Prop where
  bound : previous.device = record.device ∧ previous.publicKey = record.publicKey ∧
    previous.tcpId = record.tcpId
  terminal : (previous.cohort = true → record.cohort = true) ∧
    (previous.state = .paid .revoked → record.state = .paid .revoked) ∧
      (record.identityAllowed = true → previous.identityAllowed = true)
  fresh : previous.revision ≤ record.revision ∧ previous.observedAt ≤ record.observedAt ∧
    (record.revision = previous.revision → record.paidUntil = previous.paidUntil ∧
      record.graceUntil = previous.graceUntil ∧ record.cohort = previous.cohort)
  sameClock : record.observedAt = previous.observedAt → record ≠ previous →
    record.revision ≤ previous.revision → record.allowed = false
  sameRevision : record.revision = previous.revision → record.state ≠ previous.state →
    record.state = .paid .expired ∧ (previous.boundary.any
      fun boundary => decide (boundary ≤ record.observedAt)) = true

theorem successor_ok_iff {previous record : Decision} :
    successor previous record = .ok () ↔ previous.Follows record := by
  unfold successor
  rw [both_ok_iff, both_ok_iff, both_ok_iff, both_ok_iff, demand_iff, demand_iff, demand_iff,
    demand_iff, demand_iff]
  exact ⟨fun ⟨h₁, h₂, h₃, h₄, h₅⟩ => ⟨h₁, h₂, h₃, h₄, h₅⟩,
    fun h => ⟨h.bound, h.terminal, h.fresh, h.sameClock, h.sameRevision⟩⟩

end FamilyConnect.Friends
