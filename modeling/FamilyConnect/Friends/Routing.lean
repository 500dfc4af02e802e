import FamilyConnect.Friends.Access

/-!
# Assignment of catalogs to devices

Source: `control/friends/gateway_routing.py`. A catalog and a policy are their own
hashes. `Document.Valid` has the checks of the constructor of `Policy`; `files` says
which policies can be loaded.
-/

namespace FamilyConnect.Friends

open Lib Transaction

/-! ## Catalogs and policies -/

inductive Country where
  | ru
  | nl
  deriving DecidableEq

/-- An IPv4 address in its canonical form. -/
structure Host where
  a : UInt8
  b : UInt8
  c : UInt8
  d : UInt8
  deriving DecidableEq

/-- `address` -/
def Host.usable (h : Host) : Prop := 0 < h.a ∧ h.a < 224 ∧ h.a ≠ 127

instance (h : Host) : Decidable h.usable := inferInstanceAs (Decidable (_ ∧ _ ∧ _))

structure GatewayEntry where
  server : Host
  endpoints : List Host
  profile : String
  deriving DecidableEq

structure CatalogPayload where
  sequence : Nat
  ru : GatewayEntry
  nl : GatewayEntry
  deriving DecidableEq

def CatalogPayload.gateway (payload : CatalogPayload) : Country → GatewayEntry
  | .ru => payload.ru
  | .nl => payload.nl

structure Catalog where
  payload : CatalogPayload
  signature : String
  deriving DecidableEq

def Catalog.sequence (catalog : Catalog) : Nat := catalog.payload.sequence

def maxSequence : Nat := 9007199254740991

/-- `verify_catalog` without a floor; `signed` stands for the checks of signature and format. -/
def Catalog.Verified (signed : Catalog → Bool) (catalog : Catalog) : Prop :=
  signed catalog = true ∧ (1 ≤ catalog.sequence ∧ catalog.sequence ≤ maxSequence) ∧
    catalog.payload.ru.server.usable ∧ catalog.payload.nl.server.usable

instance (signed : Catalog → Bool) (catalog : Catalog) : Decidable (catalog.Verified signed) :=
  inferInstanceAs (Decidable (_ ∧ _ ∧ _ ∧ _))

/-- `nl-[a-z0-9][a-z0-9-]{0,47}` -/
def nodeName (node : String) : Bool :=
  match node.toList with
  | 'n' :: 'l' :: '-' :: first :: rest =>
    (first.isDigit || first.isLower) && decide (rest.length ≤ 47) && rest.all fun c => c.isDigit ||
      c.isLower || c == '-'
  | _ => false

structure CatalogRecord where
  node : String
  catalog : Catalog
  deriving DecidableEq

structure Document where
  generation : Nat
  legacy : Catalog
  admitted : Catalog
  catalogs : List CatalogRecord
  deriving DecidableEq

structure Route where
  node : String
  host : Host
  sequence : Nat
  deriving DecidableEq

def CatalogRecord.route (record : CatalogRecord) : Route :=
  ⟨record.node, record.catalog.payload.nl.server, record.catalog.sequence⟩

def Document.route (document : Document) (catalog : Catalog) : Option Route :=
  (Rows.get CatalogRecord.catalog catalog document.catalogs).map CatalogRecord.route

structure Document.Valid (signed : Catalog → Bool) (document : Document) : Prop where
  generation : 0 < document.generation ∧ document.generation < 2 ^ 53
  size : 1 ≤ document.catalogs.length ∧ document.catalogs.length ≤ 32
  nodes : ∀ record ∈ document.catalogs, nodeName record.node = true
  catalogs : Rows.Keyed CatalogRecord.catalog document.catalogs
  verified : ∀ record ∈ document.catalogs, record.catalog.Verified signed
  sequences : (document.catalogs.map fun record => record.catalog.sequence).Nodup
  ru : ∀ record ∈ document.catalogs, ∀ other ∈ document.catalogs,
    record.catalog.payload.ru = other.catalog.payload.ru
  endpoints : ∀ record ∈ document.catalogs, record.catalog.payload.nl.endpoints =
    [record.catalog.payload.nl.server]
  hosts : ∀ record ∈ document.catalogs, ∀ other ∈ document.catalogs,
    record.node = other.node ↔ record.catalog.payload.nl.server = other.catalog.payload.nl.server
  legacy : document.route document.legacy ≠ none
  admitted : document.route document.admitted ≠ none
  order : document.legacy.sequence ≤ document.admitted.sequence

/-- `Policy` -/
abbrev Policy (signed : Catalog → Bool) := { document : Document // document.Valid signed }

/-! ## The tables -/

structure Assignment where
  device : String
  catalog : Catalog
  node : String
  sequence : Nat
  deriving DecidableEq

/-- What is hashed into `request_sha256`. -/
inductive RoutingRequest where
  | install (policy : Document)
  | replacePolicy (previous policy : Document)
  | assign (device : String) (expected destination : Catalog) (policy : Document) (operation : String)
  deriving DecidableEq

inductive Evidence where
  | catalog (catalog : Catalog)
  | policy (policy : Document)
  deriving DecidableEq

/-- A row of `gateway_assignment_events`. -/
structure RoutingEvent where
  operation : String
  request : RoutingRequest
  device : String
  previous : Evidence
  catalog : Evidence
  deriving DecidableEq

/-- `gateway_routing_state`, `gateway_assignments` and `gateway_assignment_events`. -/
structure Routing where
  policy : Document
  generation : Nat
  assignments : List Assignment
  events : List RoutingEvent := []

inductive RoutingFailure where
  | refused
  | rejected
  | unreadable
  deriving DecidableEq

/-- The tables are there from `install` on. -/
abbrev RoutingTx := Transaction (Option Routing) RoutingFailure

inductive RoutingResult where
  | unchanged
  | installed (devices : Nat)
  | policyInstalled
  | assigned
  deriving DecidableEq

def Routing.assignment (routing : Routing) (device : String) : Option Assignment :=
  Rows.get Assignment.device device routing.assignments

def Routing.event (routing : Routing) (operation : String) : Option RoutingEvent :=
  Rows.get RoutingEvent.operation operation routing.events

/-- `[a-zA-Z0-9][a-zA-Z0-9_-]{7,95}` -/
def operationId (operation : String) : Bool :=
  match operation.toList with
  | first :: rest =>
    first.isAlphanum && decide (7 ≤ rest.length ∧ rest.length ≤ 95) && rest.all fun c =>
      c.isAlphanum || c == '_' || c == '-'
  | [] => false

/-- `replayed`: whether the operation was done before. -/
def Routing.replayed (routing : Routing) (operation : String) (request : RoutingRequest) :
    Except RoutingFailure Bool :=
  match routing.event operation with
  | some event => do
    demand (event.request = request) .refused
    pure true
  | none => pure false

/-! ## Calls -/

section Calls

variable {signed : Catalog → Bool}

/-- The row of a device that is there on the day of the installation. -/
def seeded (catalog : Catalog) (route : Route) (device : Device) : Assignment :=
  ⟨device.device, catalog, route.node, route.sequence⟩

def install (r : Registry) (policy : Policy signed) (legacyRaw : Catalog) (operation : String) :
    RoutingTx RoutingResult := do
  require (legacyRaw = policy.val.legacy) .refused
  require (operationId operation = true) .refused
  match ← get with
  | some current => do
    require (current.policy = policy.val ∧ current.generation = policy.val.generation) .refused
    let repeated ← current.replayed operation (.install policy.val)
    require (repeated = true) .refused
    pure .unchanged
  | none => do
    let route ← found (policy.val.route policy.val.legacy) .refused
    let assignments := r.devices.map (seeded policy.val.legacy route)
    let event : RoutingEvent := ⟨operation, .install policy.val, "", .catalog policy.val.legacy,
      .policy policy.val⟩
    set (some (⟨policy.val, policy.val.generation, assignments, [event]⟩ : Routing))
    pure (.installed assignments.length)

/-- The checks of `replace_policy` on the two policies. -/
def Document.Retained (previous replacement : Document) : Prop :=
  previous.generation < replacement.generation ∧ previous.legacy = replacement.legacy ∧
    (∀ record ∈ previous.catalogs, replacement.route record.catalog = previous.route record.catalog)

instance (previous replacement : Document) : Decidable (previous.Retained replacement) :=
  inferInstanceAs (Decidable (_ ∧ _ ∧ _))

def replacePolicy (previous replacement : Policy signed) (operation : String) :
    RoutingTx RoutingResult := do
  require (previous.val.Retained replacement.val) .refused
  require (operationId operation = true) .refused
  let current ← found (← get) .refused
  require (current.policy = previous.val ∨ current.policy = replacement.val) .refused
  require (current.generation = (if current.policy = previous.val then previous.val.generation
    else replacement.val.generation)) .refused
  let repeated ← current.replayed operation (.replacePolicy previous.val replacement.val)
  if repeated = true then pure .unchanged
  else do
    require (current.policy = previous.val) .refused
    let event : RoutingEvent :=
      ⟨operation, .replacePolicy previous.val replacement.val, "", .policy previous.val,
        .policy replacement.val⟩
    set (some { current with policy := replacement.val, generation := replacement.val.generation, events := current.events ++ [event] })
    pure .policyInstalled

def Registry.active (r : Registry) (device : String) : Bool :=
  match r.device device, r.inviteOf device with
  | some row, some invite => !row.revoked && !invite.revoked
  | _, _ => false

/-- `assign` on the tables of a routing. -/
def Routing.assign (r : Registry) (policy : Document) (device : String) (routing : Routing) :
    Except RoutingFailure (Catalog × Routing) := do
  demand (hex 32 device = true) .refused
  demand (r.active device = true) .rejected
  match routing.assignment device with
  | none => do
    let route ← given (policy.route policy.admitted) .refused
    pure (policy.admitted, { routing with
      assignments := routing.assignments ++ [⟨device, policy.admitted, route.node,
      route.sequence⟩] })
  | some assigned => do
    let route ← given (policy.route assigned.catalog) .refused
    demand (assigned.node = route.node ∧ assigned.sequence = route.sequence) .refused
    pure (assigned.catalog, routing)

/-- `None` before the installation. -/
def configuration (files : Document → Bool) (r : Registry) (country : Country) (device : String) :
    RoutingTx (Option (Catalog × Host)) := do
  match ← get with
  | none => pure none
  | some current => do
    require (files current.policy = true) .unreadable
    require (current.generation = current.policy.generation) .refused
    let (catalog, routing) ← current.assign r current.policy device
    set (some routing)
    let host := (catalog.payload.gateway country).server
    require host.usable .refused
    pure (some (catalog, host))

def move (r : Registry) (policy : Policy signed) (device : String) (expected destination : Catalog)
    (operation : String) : RoutingTx RoutingResult := do
  require (operationId operation = true) .refused
  let before ← found (policy.val.route expected) .refused
  let after ← found (policy.val.route destination) .refused
  require (before.sequence < after.sequence) .refused
  let request := RoutingRequest.assign device expected destination policy.val operation
  let current ← found (← get) .refused
  require (current.policy = policy.val ∧ current.generation = policy.val.generation) .refused
  let repeated ← current.replayed operation request
  if repeated = true then pure .unchanged
  else do
    let (catalog, routing) ← current.assign r policy.val device
    require (catalog = expected) .refused
    let row : Assignment := ⟨device, destination, after.node, after.sequence⟩
    let event : RoutingEvent := ⟨operation, request, device, .catalog expected, .catalog destination⟩
    set (some { routing with assignments := Rows.put Assignment.device row routing.assignments, events := routing.events ++ [event] })
    pure .assigned

end Calls

end FamilyConnect.Friends
