import Mathlib

/-!
# The inventory of the fleet

Source: `control/fleet.py`. A registry that `load_registry` accepts is a value
of `Registry`. The percentages and rates of an observation are rational numbers
here, and the pseudorandom part of a score is a parameter.
-/

namespace FamilyConnect.Fleet

inductive Transport where
  | wireguard
  | amneziawg
  | vlessReality
  deriving DecidableEq

inductive Version where
  | v1
  | v20
  | v31
  deriving DecidableEq

/-- `version in ({'2.0', '3.1'} if transport == 'amneziawg' else {'1'})` -/
def Transport.speaks : Transport → Version → Bool
  | .amneziawg, .v20 | .amneziawg, .v31 | .wireguard, .v1 | .vlessReality, .v1 => true
  | _, _ => false

inductive Family where
  | ipv4
  | ipv6
  deriving DecidableEq

structure Endpoint where
  transport : Transport
  version : Version
  family : Family
  address : Nat
  port : Nat
  spoken : transport.speaks version = true := by decide
  deriving DecidableEq

def Endpoint.socket (endpoint : Endpoint) : Bool × Family × Nat × Nat :=
  (endpoint.transport = .vlessReality, endpoint.family, endpoint.address, endpoint.port)

structure Pool where
  base : Nat
  length : Nat
  wide : 16 ≤ length ∧ length ≤ 29 := by decide
  aligned : base % 2 ^ (32 - length) = 0 := by decide
  reserved : 10 * 2 ^ 24 ≤ base ∧ base + 2 ^ (32 - length) ≤ 11 * 2 ^ 24 ∨
    (172 * 256 + 16) * 2 ^ 16 ≤ base ∧ base + 2 ^ (32 - length) ≤ (172 * 256 + 32) * 2 ^ 16 ∨
    (192 * 256 + 168) * 2 ^ 16 ≤ base ∧ base + 2 ^ (32 - length) ≤ (192 * 256 + 169) * 2 ^ 16 :=
      by decide
  deriving DecidableEq

namespace Pool

/-- `num_addresses` -/
def size (pool : Pool) : Nat := 2 ^ (32 - pool.length)

def broadcast (pool : Pool) : Nat := pool.base + pool.size - 1

def Overlaps (pool other : Pool) : Prop := pool.base ≤ other.broadcast ∧ other.base ≤ pool.broadcast

instance (pool other : Pool) : Decidable (pool.Overlaps other) := inferInstanceAs (Decidable (_ ∧ _))

/-- An address for a device: not that of the network, of the gateway or for broadcast. -/
def Hosts (pool : Pool) (address : Nat) : Prop := pool.base + 1 < address ∧ address < pool.broadcast

instance (pool : Pool) (address : Nat) : Decidable (pool.Hosts address) :=
  inferInstanceAs (Decidable (_ ∧ _))

end Pool

inductive NodeState where
  | provisioning
  | active
  | draining
  | disabled
  deriving DecidableEq

structure Gateway where
  id : String
  failureDomain : String
  country : String
  state : NodeState
  endpoints : List Endpoint
  pool : Pool
  maxDevices : Nat
  weight : Rat := 1
  egressBudget : Rat
  capacity : 1 ≤ maxDevices ∧ maxDevices ≤ pool.size - 3 := by decide
  deriving DecidableEq

structure Ingress where
  id : String
  failureDomain : String
  family : Family
  address : Nat
  port : Nat
  providerPublic : String
  deriving DecidableEq

structure Registry where
  revision : Nat
  gateways : List Gateway
  ingresses : List Ingress
  positive : 0 < revision := by decide
  gatewayIds : (gateways.map (·.id)).Nodup := by decide
  ingressIds : (ingresses.map (·.id)).Nodup := by decide
  pools : gateways.Pairwise fun gateway other => ¬gateway.pool.Overlaps other.pool := by decide
  sockets : (gateways.flatMap (·.endpoints.map Endpoint.socket) ++ ingresses.map
    fun i => (true, i.family, i.address, i.port)).Nodup := by
    decide
  deriving DecidableEq

def Registry.gateway (registry : Registry) (id : String) : Option Gateway :=
  registry.gateways.find? (·.id = id)

/-- Exceptions of the store and of the inventory. -/
inductive Failure where
  | invalidInteger
  | invalidClock
  | stateOrClock
  | registryMissing
  | leaseMissing
  | accessDenied
  | endpointMigrationRequired
  | bindingMismatch
  | accessRevisionOrBinding
  | expiredAccess
  | invalidRequest
  | requestConflict
  | registryStale
  | assignmentExists
  | deviceLimit
  | noCapacity
  | staleWork
  | expiredWork
  | staleReady
  | staleRemoval
  | revisionMustIncrease
  | leaseMigrationRequired
  | ingressOverlapRequired
  | ambiguousTelemetry
  | integrity
  | stopIteration
  deriving DecidableEq

def Ingress.binding (ingress : Ingress) : Family × Nat × Nat × String :=
  (ingress.family, ingress.address, ingress.port, ingress.providerPublic)

def Registry.retains (candidate : Registry) (old : Gateway) : Bool :=
  match candidate.gateway old.id with
  | none => false
  | some new => decide (new.pool = old.pool ∧ new.failureDomain = old.failureDomain)

def validateUpdate (previous candidate : Registry) : Except Failure Unit :=
  if candidate.revision ≤ previous.revision then .error .revisionMustIncrease
  else if previous.gateways.all candidate.retains = false then .error .leaseMigrationRequired
  else if (previous.ingresses.map Ingress.binding).all
    (· ∉ candidate.ingresses.map Ingress.binding) = true then
    .error .ingressOverlapRequired
  else .ok ()

/-- The nearest integer, of two the even one. -/
def roundEven (q : Rat) : Int :=
  if q - q.floor < 1 / 2 ∨ q - q.floor = 1 / 2 ∧ q.floor % 2 = 0 then q.floor else q.floor + 1

/-- The `float` of Python that an operation with the exact result `q` gives, as long as it does not
overflow. -/
def binary64 (q : Rat) : Rat :=
  let size : Int := q.num.natAbs.log2 - q.den.log2
  let exponent := if |q| < 2 ^ size then size - 1 else size
  let unit : Rat := 2 ^ max (exponent - 52) (-1074)
  roundEven (q / unit) * unit

-- the literal `.85` is a little less than it says
example : binary64 (85 / 100) = 7656119366529843 / 2 ^ 53 ∧ binary64 (85 / 100) < 85 / 100 :=
  by decide +kernel

structure Observation where
  gatewayId : String
  registryRevision : Nat
  observedAt : Nat
  readyTransports : List Transport
  allocatedDevices : Nat
  cpuPercent : Rat
  memoryPercent : Rat
  txMbps : Rat
  deriving DecidableEq

def Observation.pressure (sample : Observation) (gateway : Gateway) : Rat :=
  max (max (binary64 (sample.cpuPercent / 100)) (binary64 (sample.memoryPercent / 100)))
    (binary64 (sample.txMbps / gateway.egressBudget))

structure Wish where
  country : String
  transport : Transport
  version : Version
  families : List Family
  deriving DecidableEq

/-- The loop body of `rank_gateways`: the headroom of a gateway that can be proposed. -/
def headroom (registry : Registry) (samples : List Observation) (wish : Wish) (now : Nat)
    (gateway : Gateway) : Option Rat :=
  if gateway.country ≠ wish.country then none
  else if (gateway.endpoints.any fun e =>
      decide (e.transport = wish.transport ∧ e.version = wish.version ∧ e.family ∈ wish.families)) =
        false then none
  else
    match samples.find? (·.gatewayId = gateway.id) with
    | none => none
    | some sample =>
      if sample.registryRevision ≠ registry.revision ∨ now < sample.observedAt ∨
          45 < now - sample.observedAt ∨ wish.transport ∉ sample.readyTransports ∨
          gateway.state ≠ .active ∨ gateway.maxDevices ≤ sample.allocatedDevices ∨
            binary64 (85 / 100) ≤ sample.pressure gateway then none
      else
        some (min (binary64 (1 - sample.pressure gateway))
          (binary64 (1 - binary64 (sample.allocatedDevices / gateway.maxDevices))))

def ranksBefore (a b : Rat × String) : Prop := a.1 < b.1 ∨ a.1 = b.1 ∧ a.2 ≤ b.2

instance : DecidableRel ranksBefore := fun _ _ => inferInstanceAs (Decidable (_ ∨ _ ∧ _))

/-- `draw` is `-math.log(unit)` for the hash of a device and a gateway. -/
def rankGateways (draw : String → String → Rat) (registry : Registry) (samples : List Observation)
    (device : String) (wish : Wish) (now : Nat) : Except Failure (List String) :=
  if ¬(samples.map (·.gatewayId)).Nodup then .error .ambiguousTelemetry
  else
    .ok (((registry.gateways.filterMap fun gateway =>
      (headroom registry samples wish now gateway).map fun room =>
        (binary64 (draw device gateway.id / binary64 (gateway.weight * room)),
          gateway.id)).insertionSort
          ranksBefore).map (·.2))

theorem Registry.gateway_eq {registry : Registry} {gateway : Gateway}
    (hMem : gateway ∈ registry.gateways) : registry.gateway gateway.id = some gateway := by
  obtain ⟨other, hOther⟩ : ∃ other, registry.gateway gateway.id = some other :=
    Option.isSome_iff_exists.mp (List.find?_isSome.mpr ⟨gateway, hMem, by simp⟩)
  have hId : other.id = gateway.id := by simpa using List.find?_some hOther
  rw [hOther, List.inj_on_of_nodup_map registry.gatewayIds (List.mem_of_find?_eq_some hOther) hMem hId]

theorem validateUpdate_ok {previous candidate : Registry}
    (h : validateUpdate previous candidate = .ok ()) :
    previous.revision < candidate.revision ∧ ∀ old ∈ previous.gateways, ∃ new ∈ candidate.gateways,
      new.id = old.id ∧ new.pool = old.pool := by
  unfold validateUpdate at h
  split at h
  · cases h
  · rename_i hRevision
    split at h
    · cases h
    · rename_i hRetains
      refine ⟨not_le.mp hRevision, fun old hOld => ?_⟩
      rw [Bool.not_eq_false, List.all_eq_true] at hRetains
      have hRetained := hRetains old hOld
      unfold Registry.retains at hRetained
      split at hRetained
      · cases hRetained
      · rename_i new hNew
        refine ⟨new, List.mem_of_find?_eq_some hNew, ?_, (of_decide_eq_true hRetained).1⟩
        simpa using List.find?_some hNew

end FamilyConnect.Fleet
