import FamilyConnect.Lib.Transaction

/-!
# The signed catalogue of the network

Source: `State`, `verify` and `nonrollback` of `core/src/discovery.rs`. The formats and the
signature are parameters; what is proved holds for all of them.
-/

namespace FamilyConnect.Discovery

open Lib Transaction

abbrev Bytes := List UInt8

def maxState : Nat := 65536

structure Envelope where
  payload : String
  signature : String
  deriving DecidableEq

inductive IpAddr where
  | v4 (octets : Vector UInt8 4)
  | v6 (segments : Vector UInt16 8)
  deriving DecidableEq

def IpAddr.unspecified : IpAddr → Bool
  | .v4 octets => octets.all (· == 0)
  | .v6 segments => segments.all (· == 0)

def IpAddr.multicast : IpAddr → Bool
  | .v4 octets => decide ((224 : UInt8) ≤ octets[0] ∧ octets[0] ≤ 239)
  | .v6 segments => decide ((0xff00 : UInt16) ≤ segments[0])

structure SocketAddr where
  ip : IpAddr
  port : UInt16
  deriving DecidableEq

structure Node where
  identity : String
  name : String
  endpoint : SocketAddr
  role : String
  internetExit : Bool
  certSha256 : String
  serverName : String
  deriving DecidableEq

structure Device where
  identity : String
  certSha256 : String
  deriving DecidableEq

structure NetworkState where
  version : Nat
  epoch : Nat
  issuedAt : Nat
  expiresAt : Nat
  nodes : List Node
  devices : List Device
  deriving DecidableEq

inductive Failure where
  | oversizedEnvelope
  | malformed
  | badSignature
  | invalidValidity
  | capacityExceeded
  | invalidNode
  | invalidDevice
  | catalogRollback
  | membershipChanged
  | leaseExpired
  | nodeMissing
  | parentMissing
  | io
  deriving DecidableEq

/-- `signed` is `verify_strict` of the domain and the payload, with a key and a signature of the right size. -/
structure Format where
  envelope : Bytes → Option Envelope
  base64 : String → Option Bytes
  signed : (root payload signature : Bytes) → Bool
  state : Bytes → Option NetworkState

/-! ## Authorisation -/

structure Readings where
  first : Nat
  second : Nat
  ordered : first ≤ second

namespace NetworkState

def valid (s : NetworkState) (now : Readings) : Bool := decide (s.issuedAt ≤ now.first ∧ now.second < s.expiresAt)

def deviceAllowed (s : NetworkState) (now : Readings) (pin : String) : Bool :=
  s.valid now && s.devices.any fun d => d.certSha256 == pin

def node (s : NetworkState) (now : Readings) (name role : String) : Except Failure Node :=
  if s.valid now = false then .error .leaseExpired
  else given (s.nodes.find? fun n => n.name == name && n.role == role) .nodeMissing

def Covers (s : NetworkState) (now : Readings) : Prop :=
  ∀ time, now.first ≤ time → time ≤ now.second → s.issuedAt ≤ time ∧ time < s.expiresAt

variable {s : NetworkState} {now : Readings}

theorem covers_of_valid (h : s.valid now = true) : s.Covers now := by
  have hReadings := of_decide_eq_true h
  exact fun time hFirst hSecond => ⟨hReadings.1.trans hFirst, hSecond.trans_lt hReadings.2⟩

theorem covers_of_deviceAllowed {pin : String} (h : s.deviceAllowed now pin = true) :
    s.Covers now ∧ ∃ d ∈ s.devices, d.certSha256 = pin := by
  rw [deviceAllowed, Bool.and_eq_true, List.any_eq_true] at h
  obtain ⟨hValid, d, hD, hPin⟩ := h
  exact ⟨covers_of_valid hValid, d, hD, beq_iff_eq.mp hPin⟩

theorem covers_of_node {name role : String} {n : Node} (h : s.node now name role = .ok n) :
    s.Covers now ∧ n ∈ s.nodes ∧ n.name = name ∧ n.role = role := by
  unfold node at h
  split at h
  · cases h
  · rename_i hValid
    have hFound := given_ok h
    have hMatch := List.find?_some hFound
    rw [Bool.and_eq_true, beq_iff_eq, beq_iff_eq] at hMatch
    exact ⟨covers_of_valid (Bool.not_eq_false _ ▸ hValid), List.mem_of_find?_eq_some hFound, hMatch⟩

end NetworkState

/-! ## Verification -/

def fingerprint (value : String) : Bool :=
  decide (value.length = 64) && value.toList.all fun c => c.isDigit || decide ('a' ≤ c ∧ c ≤ 'f')

def NetworkState.Timely (s : NetworkState) (time : Nat) : Prop :=
  s.version = 2 ∧ s.epoch ≠ 0 ∧ s.issuedAt ≤ time ∧ time < s.expiresAt ∧ s.issuedAt < s.expiresAt ∧
    s.expiresAt - s.issuedAt ≤ 3600

instance (s : NetworkState) (time : Nat) : Decidable (s.Timely time) :=
  inferInstanceAs (Decidable (_ ∧ _ ∧ _ ∧ _ ∧ _ ∧ _))

structure Seen where
  ids : List String := []
  names : List String := []
  pins : List String := []

def Node.Valid (n : Node) : Prop :=
  fingerprint n.identity = true ∧ fingerprint n.certSha256 = true ∧ (n.role = "relay" ∨ n.role = "gateway") ∧
    ¬(n.role = "relay" ∧ n.internetExit = true) ∧ n.name ≠ "" ∧ n.endpoint.port ≠ 0 ∧
    n.endpoint.ip.unspecified = false ∧ n.endpoint.ip.multicast = false ∧ n.serverName ≠ ""

instance (n : Node) : Decidable n.Valid := inferInstanceAs (Decidable (_ ∧ _ ∧ _ ∧ _ ∧ _ ∧ _ ∧ _ ∧ _ ∧ _))

def Device.Valid (d : Device) : Prop := fingerprint d.identity = true ∧ fingerprint d.certSha256 = true

instance (d : Device) : Decidable d.Valid := inferInstanceAs (Decidable (_ ∧ _))

def checkNodes (seen : Seen) : List Node → Except Failure Seen
  | [] => .ok seen
  | n :: rest => do
    demand (n.Valid ∧ n.identity ∉ seen.ids ∧ n.name ∉ seen.names ∧ n.certSha256 ∉ seen.pins) .invalidNode
    checkNodes ⟨n.identity :: seen.ids, n.name :: seen.names, n.certSha256 :: seen.pins⟩ rest

def checkDevices (seen : Seen) : List Device → Except Failure Unit
  | [] => .ok ()
  | d :: rest => do
    demand (d.Valid ∧ d.identity ∉ seen.ids ∧ d.certSha256 ∉ seen.pins) .invalidDevice
    checkDevices { seen with ids := d.identity :: seen.ids, pins := d.certSha256 :: seen.pins } rest

def verify (format : Format) (bytes root : Bytes) (time : Nat) : Except Failure (Envelope × NetworkState) := do
  demand (bytes.length ≤ maxState) .oversizedEnvelope
  let envelope ← given (format.envelope bytes) .malformed
  let raw ← given (format.base64 envelope.payload) .malformed
  let signature ← given (format.base64 envelope.signature) .malformed
  demand (format.signed root raw signature = true) .badSignature
  let state ← given (format.state raw) .malformed
  demand (state.Timely time) .invalidValidity
  demand (state.nodes.length ≤ 128 ∧ state.devices.length ≤ 128) .capacityExceeded
  let seen ← checkNodes {} state.nodes
  let _ ← checkDevices seen state.devices
  pure (envelope, state)

/-! ## What is verified -/

structure Verified (format : Format) (root bytes : Bytes) (envelope : Envelope) (state : NetworkState) : Prop where
  size : bytes.length ≤ maxState
  parsed : format.envelope bytes = some envelope
  signed : ∃ raw signature, format.base64 envelope.payload = some raw ∧
    format.base64 envelope.signature = some signature ∧ format.signed root raw signature = true ∧
      format.state raw = some state
  lasting : state.version = 2 ∧ state.epoch ≠ 0 ∧ state.issuedAt < state.expiresAt ∧
    state.expiresAt - state.issuedAt ≤ 3600
  capacity : state.nodes.length ≤ 128 ∧ state.devices.length ≤ 128
  members : ∃ seen, checkNodes {} state.nodes = .ok seen ∧ checkDevices seen state.devices = .ok ()

variable {format : Format} {root bytes : Bytes} {time : Nat} {envelope : Envelope} {state : NetworkState}

theorem verify_iff : verify format bytes root time = .ok (envelope, state) ↔
    Verified format root bytes envelope state ∧ state.issuedAt ≤ time ∧ time < state.expiresAt := by
  constructor
  · intro h
    obtain ⟨_, hSize, h⟩ := bind_ok h
    obtain ⟨env, hEnvelope, h⟩ := bind_ok h
    obtain ⟨raw, hRaw, h⟩ := bind_ok h
    obtain ⟨signature, hSignature, h⟩ := bind_ok h
    obtain ⟨_, hSigned, h⟩ := bind_ok h
    obtain ⟨s, hState, h⟩ := bind_ok h
    obtain ⟨_, hTimely, h⟩ := bind_ok h
    obtain ⟨_, hCapacity, h⟩ := bind_ok h
    obtain ⟨seen, hNodes, h⟩ := bind_ok h
    obtain ⟨_, hDevices, h⟩ := bind_ok h
    cases h
    obtain ⟨hVersion, hEpoch, hIssued, hExpires, hLasting, hShort⟩ := demand_ok hTimely
    exact ⟨⟨demand_ok hSize, given_ok hEnvelope,
      ⟨raw, signature, given_ok hRaw, given_ok hSignature, demand_ok hSigned, given_ok hState⟩,
        ⟨hVersion, hEpoch, hLasting, hShort⟩, demand_ok hCapacity, ⟨seen, hNodes, hDevices⟩⟩,
        hIssued, hExpires⟩
  · rintro ⟨h, hIssued, hExpires⟩
    obtain ⟨raw, signature, hRaw, hSignature, hSigned, hState⟩ := h.signed
    obtain ⟨seen, hNodes, hDevices⟩ := h.members
    obtain ⟨hVersion, hEpoch, hLasting, hShort⟩ := h.lasting
    refine both_ok_iff.mpr ⟨demand_iff.mpr h.size, ok_bind (congrArg (given · _) h.parsed) ?_⟩
    refine ok_bind (congrArg (given · _) hRaw) (ok_bind (congrArg (given · _) hSignature) ?_)
    refine both_ok_iff.mpr ⟨demand_iff.mpr hSigned, ok_bind (congrArg (given · _) hState) ?_⟩
    refine both_ok_iff.mpr ⟨demand_iff.mpr ⟨hVersion, hEpoch, hIssued, hExpires, hLasting, hShort⟩, ?_⟩
    exact both_ok_iff.mpr ⟨demand_iff.mpr h.capacity, ok_bind hNodes (ok_bind hDevices rfl)⟩

/-! ## Succession -/

def NetworkState.mark (s : NetworkState) : ℕ ×ₗ ℕ := toLex (s.epoch, s.issuedAt)

def nonrollback (old new : NetworkState) : Except Failure Unit := do
  demand (¬(new.epoch < old.epoch ∨ new.epoch = old.epoch ∧ new.issuedAt < old.issuedAt)) .catalogRollback
  demand (¬(new.epoch = old.epoch ∧ (new.nodes ≠ old.nodes ∨ new.devices ≠ old.devices))) .membershipChanged

structure NetworkState.Follows (new old : NetworkState) : Prop where
  mark : old.mark ≤ new.mark
  members : new.epoch = old.epoch → new.nodes = old.nodes ∧ new.devices = old.devices

theorem nonrollback_iff {old new : NetworkState} : nonrollback old new = .ok () ↔ new.Follows old := by
  have hMark : ¬(new.epoch < old.epoch ∨ new.epoch = old.epoch ∧ new.issuedAt < old.issuedAt) ↔
      old.mark ≤ new.mark := by
    rw [NetworkState.mark, NetworkState.mark, ← not_lt, Prod.Lex.toLex_lt_toLex]
  have hMembers : ¬(new.epoch = old.epoch ∧ (new.nodes ≠ old.nodes ∨ new.devices ≠ old.devices)) ↔
      (new.epoch = old.epoch → new.nodes = old.nodes ∧ new.devices = old.devices) := by
    tauto
  rw [nonrollback, both_ok_iff, demand_iff, demand_iff, hMark, hMembers]
  exact ⟨fun h => ⟨h.1, h.2⟩, fun h => ⟨h.mark, h.members⟩⟩

namespace NetworkState.Follows

variable {first second third : NetworkState}

theorem epoch_le (h : second.Follows first) : first.epoch ≤ second.epoch := by
  rcases Prod.Lex.toLex_le_toLex.mp h.mark with hLess | ⟨hSame, -⟩
  · exact hLess.le
  · exact hSame.le

theorem trans (h : second.Follows first) (h' : third.Follows second) : third.Follows first := by
  refine ⟨h.mark.trans h'.mark, fun hEpoch => ?_⟩
  have hSecond : second.epoch = first.epoch := le_antisymm (h'.epoch_le.trans hEpoch.le) h.epoch_le
  obtain ⟨hNodes, hDevices⟩ := h.members hSecond
  obtain ⟨hNodes', hDevices'⟩ := h'.members (hEpoch.trans hSecond.symm)
  exact ⟨hNodes'.trans hNodes, hDevices'.trans hDevices⟩

end NetworkState.Follows

end FamilyConnect.Discovery
