import FamilyConnect.Fleet.Registry
import FamilyConnect.Lib.Rows
import FamilyConnect.Lib.Transaction

/-!
# Leases of the fleet

Source: `FleetStore` of `control/fleet_store.py`, without the tables of other
services and the log of events. Random identifiers are numbers; a fingerprint is
the value that is hashed.
-/

namespace FamilyConnect.Fleet

open Lib Transaction

structure Access where
  device : String
  publicKey : String
  wg : String
  revision : Nat
  expiresAt : Nat
  maxLeases : Nat
  revoked : Bool
  deriving DecidableEq

inductive LeaseState where
  | reserved
  | ready
  | retiring
  | released
  deriving DecidableEq

structure Lease where
  id : Nat
  device : String
  gatewayId : String
  country : String
  transport : Transport
  version : Version
  address : Nat
  registryRevision : Nat
  accessRevision : Nat
  createdAt : Nat
  expiresAt : Nat
  state : LeaseState
  generation : Nat
  deriving DecidableEq

namespace Lease

def Live (lease : Lease) : Prop := lease.state ≠ .released

def Active (lease : Lease) : Prop := lease.state = .reserved ∨ lease.state = .ready

instance (lease : Lease) : Decidable lease.Live := inferInstanceAs (Decidable (_ ≠ _))

instance (lease : Lease) : Decidable lease.Active := inferInstanceAs (Decidable (_ ∨ _))

def scope (lease : Lease) : String × Transport × Version :=
  (lease.country, lease.transport, lease.version)

end Lease

structure Fingerprint where
  country : String
  transport : Transport
  version : Version
  lifetime : Nat
  ipv4 : Bool
  ipv6 : Bool
  deriving DecidableEq

structure RequestRow where
  device : String
  requestId : String
  fingerprint : Fingerprint
  leaseId : Nat
  deriving DecidableEq

structure Db where
  lastNow : Nat
  registries : List Registry
  access : List Access := []
  leases : List Lease := []
  requests : List RequestRow := []

abbrev Tx := Transaction Db Failure

structure Setting where
  identify : String → Option String
  validWg : String → Bool
  draw : String → String → Rat

/-! ## Reading -/

/-- `ORDER BY revision DESC LIMIT 1` -/
def newest : List Registry → Option Registry
  | [] => none
  | first :: rest =>
    match newest rest with
    | none => some first
    | some later => if first.revision < later.revision then some later else some first

def Db.registry (db : Db) : Option Registry := newest db.registries

def Db.lease (db : Db) (id : Nat) : Option Lease := Rows.get Lease.id id db.leases

def Db.accessOf (db : Db) (device : String) : Option Access := Rows.get Access.device device db.access

def Db.request (db : Db) (device requestId : String) : Option RequestRow :=
  db.requests.find? fun row => row.device = device ∧ row.requestId = requestId

def Db.ofDevice (db : Db) (device : String) : List Lease :=
  db.leases.filter fun l => l.device = device ∧ l.Live

def Db.ofGateway (db : Db) (gatewayId : String) : List Lease :=
  db.leases.filter fun l => l.gatewayId = gatewayId ∧ l.Live

def positive (value : Nat) (maximum : Nat := 2 ^ 63 - 1) : Tx Unit :=
  require (1 ≤ value ∧ value ≤ maximum) .invalidInteger

def opened (now : Nat) : Tx Unit := do
  require (now < 2 ^ 63) .invalidClock
  let db ← get
  require (db.lastNow ≤ now) .stateOrClock
  set { db with lastNow := now }

def readRegistry : Tx Registry := do
  let db ← get
  found db.registry .registryMissing

def readLease (id : Nat) : Tx Lease := do
  let db ← get
  found (db.lease id) .leaseMissing

def authorized (device : String) (now : Nat) : Tx Access := do
  let db ← get
  let row ← found (db.accessOf device) .accessDenied
  require (row.revoked = false ∧ now < row.expiresAt) .accessDenied
  pure row

/-! ## Writing -/

def putLease (lease : Lease) : Tx Unit :=
  modify fun db => { db with leases := Rows.put Lease.id lease db.leases }

/-- `_retire` -/
def retireLease (id : Nat) : Tx Lease := do
  let lease ← readLease id
  (if lease.Active then putLease
    { lease with state := .retiring, generation := lease.generation + 1 } else pure ())
  readLease id

def retire (now : Nat) (id : Nat) : Tx Lease := do
  opened now
  retireLease id

/-- The loop body of `install_registry`. -/
def migrate (previous : Registry) (node : Gateway) : Tx Unit :=
  match previous.gateway node.id with
  | none => pure ()
  | some old => do
    let db ← get
    require (node.endpoints = old.endpoints ∨ db.ofGateway node.id = []) .endpointMigrationRequired
    let _ ← collect retireLease (if node.state = .disabled ∨ node.state = .provisioning then
      (db.leases.filter fun l => l.gatewayId = node.id ∧ l.Active).map Lease.id else [])
    pure ()

def installRegistry (now : Nat) (candidate : Registry) : Tx Unit := do
  opened now
  let previous ← readRegistry
  if candidate = previous then pure ()
  else do
    (match validateUpdate previous candidate with
      | .ok () => pure ()
      | .error failure => throw failure)
    let _ ← collect (migrate previous) candidate.gateways
    modify fun db => { db with registries := candidate :: db.registries }

def putAccess (row : Access) : Tx Unit := do
  let db ← get
  require (∀ other ∈ db.access, other.device ≠ row.device → other.publicKey ≠ row.publicKey ∧
    other.wg ≠ row.wg) .integrity
  set { db with access := Rows.put Access.device row db.access }

def setAccess (setting : Setting) (now : Nat) (row : Access) : Tx Unit := do
  positive row.revision
  positive row.expiresAt
  positive row.maxLeases 8
  require (setting.identify row.publicKey = some row.device ∧
    setting.validWg row.wg = true) .bindingMismatch
  opened now
  let db ← get
  if db.accessOf row.device = some row then pure ()
  else do
    require (∀ old, db.accessOf row.device = some old → old.publicKey = row.publicKey ∧
      old.wg = row.wg ∧ old.revision < row.revision)
      .accessRevisionOrBinding
    require (now < row.expiresAt ∨ row.revoked = true) .expiredAccess
    putAccess row
    let _ ← collect retireLease ((db.leases.filter fun l => l.device = row.device ∧ l.Active ∧
      (row.revoked = true ∨ row.expiresAt < l.expiresAt)).map Lease.id)
    pure ()

structure Request where
  device : String
  requestId : String
  registryRevision : Nat
  wish : Wish
  lifetime : Nat
  observations : List Observation

/-- `[A-Za-z0-9_-]{1,64}` -/
def validRequestId (id : String) : Bool :=
  decide (1 ≤ id.length ∧ id.length ≤ 64) && id.toList.all fun c => c.isAlphanum || c = '_' || c = '-'

/-- `[a-z]{2}` -/
def validCountry (country : String) : Bool :=
  decide (country.length = 2) && country.toList.all Char.isLower

def Request.fingerprint (request : Request) : Fingerprint :=
  { country := request.wish.country, transport := request.wish.transport
    version := request.wish.version, lifetime := request.lifetime
    ipv4 := request.wish.families.contains .ipv4, ipv6 := request.wish.families.contains .ipv6 }

def Request.valid (request : Request) : Bool :=
  validRequestId request.requestId && validCountry request.wish.country &&
    request.wish.transport.speaks request.wish.version &&
    !request.wish.families.isEmpty

def freeAddress (pool : Pool) (used : List Nat) : Option Nat :=
  ((List.range (pool.broadcast - (pool.base + 2))).map (pool.base + 2 + ·)).find? (· ∉ used)

/-- The `INSERT` into `leases`, with its unique columns. -/
def insertLease (lease : Lease) : Tx Unit := do
  let db ← get
  require (db.lease lease.id = none ∧ ∀ l ∈ db.leases, l.Live →
    ¬(l.gatewayId = lease.gatewayId ∧ l.address = lease.address) ∧
    ¬(l.device = lease.device ∧ l.gatewayId = lease.gatewayId) ∧
    ¬(l.device = lease.device ∧ l.scope = lease.scope)) .integrity
  set { db with leases := Rows.put Lease.id lease db.leases }

def insertRequest (row : RequestRow) : Tx Unit := do
  let db ← get
  require (db.request row.device row.requestId = none) .integrity
  set { db with requests := row :: db.requests }

/-- The search for a gateway in `_reserve`; `used` are the gateways where the device has a lease. -/
def place (db : Db) (registry : Registry) (used : List String) : List String → Option (Gateway × Nat)
  | [] => none
  | id :: rest =>
    match registry.gateway id with
    | none => none
    | some node =>
      if id ∈ used ∨ node.maxDevices ≤ (db.ofGateway id).length then place db registry used rest
      else
        match freeAddress node.pool ((db.ofGateway id).map (·.address)) with
        | none => place db registry used rest
        | some address => some (node, address)

/-- The part of `_reserve` for a new request. -/
def assign (setting : Setting) (now uuid : Nat) (request : Request) (access : Access) : Tx Lease := do
  let registry ← readRegistry
  require (registry.revision = request.registryRevision) .registryStale
  let db ← get
  let existing := db.ofDevice request.device
  require (∀ l ∈ existing, l.scope ≠ (request.wish.country, request.wish.transport,
    request.wish.version)) .assignmentExists
  require (existing.length < access.maxLeases) .deviceLimit
  let samples := request.observations.map fun sample =>
    { sample with allocatedDevices := max sample.allocatedDevices (db.ofGateway sample.gatewayId).length }
  match rankGateways setting.draw registry samples request.device request.wish now with
  | .error failure => throw failure
  | .ok candidates => do
    let (node, address) ← found (place db registry (existing.map (·.gatewayId)) candidates) .noCapacity
    insertLease
      { id := uuid, device := request.device, gatewayId := node.id, country := request.wish.country
        transport := request.wish.transport, version := request.wish.version, address := address
        registryRevision := registry.revision, accessRevision := access.revision
        createdAt := now, expiresAt := min (now + request.lifetime) access.expiresAt
        state := .reserved, generation := 1 }
    insertRequest ⟨request.device, request.requestId, request.fingerprint, uuid⟩
    readLease uuid

def reserve (setting : Setting) (now uuid : Nat) (request : Request) : Tx Lease := do
  opened now
  positive request.registryRevision
  positive request.lifetime 86400
  require (request.valid = true) .invalidRequest
  let access ← authorized request.device now
  let db ← get
  match db.request request.device request.requestId with
  | some prior => do
    require (prior.fingerprint = request.fingerprint) .requestConflict
    readLease prior.leaseId
  | none => assign setting now uuid request access

def markReady (now id generation : Nat) : Tx Lease := do
  positive generation
  opened now
  let lease ← readLease id
  let _ ← authorized lease.device now
  require (lease.generation = generation ∧ lease.Active ∧ now < lease.expiresAt) .staleReady
  (if lease.state ≠ .ready then putLease { lease with state := .ready } else pure ())
  readLease id

/-- `ORDER BY l.expires_at,l.lease_id` -/
def endsBefore (lease other : Lease) : Prop :=
  lease.expiresAt < other.expiresAt ∨ lease.expiresAt = other.expiresAt ∧ lease.id ≤ other.id

instance : DecidableRel endsBefore := fun _ _ => inferInstanceAs (Decidable (_ ∨ _ ∧ _))

def Db.overdue (db : Db) (now : Nat) (lease : Lease) : Bool :=
  decide lease.Active && (db.accessOf lease.device).any fun a => decide (lease.expiresAt ≤ now) ||
    decide (a.expiresAt ≤ now) || a.revoked

def expire (now : Nat) (limit : Nat := 1000) : Tx (List Lease) := do
  positive limit 1000
  opened now
  let db ← get
  collect retireLease ((((db.leases.filter (db.overdue now)).insertionSort endsBefore).take
    limit).map Lease.id)

def confirmRemoved (now id generation : Nat) : Tx Lease := do
  positive generation
  opened now
  let lease ← readLease id
  require (lease.generation = generation ∧ (lease.state = .retiring ∨ lease.state = .released))
    .staleRemoval
  (if lease.state = .retiring then putLease { lease with state := .released } else pure ())
  readLease id

/-! ## Work -/

/-- `ORDER BY CASE state WHEN 'retiring' THEN 0 ELSE 1 END,created_at,lease_id` -/
def worksBefore (lease other : Lease) : Prop :=
  (lease.state = .retiring ∧ other.state ≠ .retiring) ∨
    ((lease.state = .retiring ↔ other.state = .retiring) ∧
      (lease.createdAt < other.createdAt ∨ lease.createdAt = other.createdAt ∧ lease.id ≤ other.id))

instance : DecidableRel worksBefore := fun _ _ => inferInstanceAs (Decidable (_ ∨ _ ∧ _))

def pending (now : Nat) (limit : Nat := 100) : Tx (List Lease) := do
  positive limit 1000
  opened now
  let db ← get
  pure (((db.leases.filter fun l => l.state = .reserved ∨
    l.state = .retiring).insertionSort worksBefore).take limit)

structure LeaseWork where
  lease : Lease
  gateway : Gateway
  publicKey : String
  wg : String

def workItem (now id generation : Nat) : Tx LeaseWork := do
  positive generation
  opened now
  let lease ← readLease id
  require (lease.generation = generation ∧ (lease.state = .reserved ∨ lease.state = .retiring))
    .staleWork
  (if lease.state = .reserved then do
    let _ ← authorized lease.device now
    require (now < lease.expiresAt) .expiredWork
  else pure ())
  let db ← get
  let access ← found (db.accessOf lease.device) .stopIteration
  let registry ← found (db.registries.find? (·.revision = lease.registryRevision)) .stopIteration
  let gateway ← found (registry.gateway lease.gatewayId) .stopIteration
  pure ⟨lease, gateway, access.publicKey, access.wg⟩

end FamilyConnect.Fleet
