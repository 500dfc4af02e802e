import Mathlib

/-!
# The packet rules of the Linux Auto guard

Source: `policy`, `match` and `objects` of `clients/linux/auto_guard.py`. The
table is the list of objects that `objects` makes, and `accepts` is what the
kernel does with such a table. `Allowed` says what the rules are for, and
`accepts_objects_iff` that they do it.
-/

namespace FamilyConnect.LinuxGuard

inductive Kind where
  | wg
  | awg
  | tcp
  | mesh
  deriving DecidableEq

/-- The errors that the guard raises; `system` stands for any failure of a command or a file. -/
inductive Failure where
  | invalidInterface
  | meshEndpoint
  | invalidGateway
  | invalidState
  | candidateRequired
  | invalidAllowance
  | notAcquired
  | journalChanged
  | disappeared
  | ownershipMismatch
  | verificationFailed
  | alreadyAcquired
  | namespaceOccupied
  | ownerMismatch
  | pendingOperation
  | cleanupIncomplete
  | blockFirst
  | notPreparing
  | notLive
  | releaseUnverified
  | noneType
  | missingFile
  | protocol
  | cancelled
  | system
  deriving DecidableEq

/-! ## Policy states -/

/-- An IPv4 address; a text that is not the usual form of one never gets this far. -/
abbrev Address := BitVec 32

/-- The networks that are not global, from `ipaddress`, with the lengths of their prefixes. -/
def notGlobal : List (Address × Nat) :=
  [(0x00000000, 8), (0x0a000000, 8), (0x64400000, 10), (0x7f000000, 8), (0xa9fe0000, 16), (0xac100000, 12),
    (0xc0000000, 24), (0xc0000200, 24), (0xc0a80000, 16), (0xc6120000, 15), (0xc6336400, 24), (0xcb007100, 24),
    (0xf0000000, 4)]

/-- 192.0.0.9 and 192.0.0.10 are global inside a network that is not. -/
def Address.isGlobal (a : Address) : Bool :=
  a == 0xc0000009 || a == 0xc000000a || notGlobal.all fun network =>
    a >>> (32 - network.2) != network.1 >>> (32 - network.2)

def Address.isMulticast (a : Address) : Bool := a >>> 28 == 0xe#32

def isHex (c : Char) : Bool := c.isDigit || ('a' ≤ c && c ≤ 'f')

def hexName (start name : String) : Bool :=
  name.toList.take start.length == start.toList && (name.toList.drop start.length).length == 8 &&
    (name.toList.drop start.length).all isHex

/-- `NAMES` -/
def nameMatches : Kind → String → Bool
  | .wg, _ => false
  | .awg, name => hexName "fcawg" name
  | .tcp, name => hexName "fctcp" name
  | .mesh, name => name == "fcmesh0"

structure Candidate where
  kind : Kind
  interface : String
  endpoint : Option Address
  port : Option Nat
  deriving DecidableEq

/-- The error that `candidate` raises, if any. Ports and indices are natural numbers here: anything
else is refused like a number that is too large. -/
def Candidate.check (c : Candidate) : Option Failure :=
  if !nameMatches c.kind c.interface then some .invalidInterface
  else if c.kind = .mesh then
    if c.endpoint.isSome || c.port.isSome then some .meshEndpoint else none
  else
    match c.endpoint, c.port with
    | some endpoint, some port =>
      if !endpoint.isGlobal || endpoint.isMulticast || port < 1 || 65535 < port then some .invalidGateway else none
    | _, _ => some .invalidGateway

inductive Mode where
  | blocked
  | probe
  | ready
  deriving DecidableEq

/-- The error that `policy` raises, if any. -/
def policyCheck (mode : Mode) (selected : Option Candidate) (index : Nat) (ipv6 : Bool) : Option Failure :=
  if 2 ^ 31 - 1 < index then some .invalidState
  else
    match selected.bind Candidate.check with
    | some failure => some failure
    | none =>
      if mode ≠ .blocked ∧ selected = none then some .candidateRequired
      else if (decide (mode = .ready) ≠ decide (0 < index)) ∨ (mode ≠ .ready ∧ ipv6 = true) ∨
          (ipv6 = true ∧ selected.map (·.kind) = some .mesh) then some .invalidAllowance
      else none

structure State where
  mode : Mode
  selected : Option Candidate
  index : Nat
  ipv6 : Bool
  valid : policyCheck mode selected index ipv6 = none
  deriving DecidableEq

def policy (mode : Mode) (selected : Option Candidate) (index : Nat) (ipv6 : Bool) : Except Failure State :=
  match h : policyCheck mode selected index ipv6 with
  | some failure => .error failure
  | none => .ok ⟨mode, selected, index, ipv6, h⟩

variable {selected : Option Candidate} {s : State}

theorem policy_eq_ok {mode : Mode} {index : Nat} {ipv6 : Bool}
    (h : policy mode selected index ipv6 = .ok s) :
    s.mode = mode ∧ s.selected = selected ∧ s.index = index ∧ s.ipv6 = ipv6 := by
  unfold policy at h
  split at h
  · cases h
  · cases h
    exact ⟨rfl, rfl, rfl, rfl⟩

theorem policy_blocked (hValid : selected.bind Candidate.check = none) :
    ∃ s, policy .blocked selected 0 false = .ok s := by
  have hCheck : policyCheck .blocked selected 0 false = none := by simp [policyCheck, hValid]
  unfold policy
  split
  · rename_i failure hFailed
    rw [hCheck] at hFailed
    cases hFailed
  · exact ⟨_, rfl⟩

theorem State.selected_valid (s : State) : s.selected.bind Candidate.check = none := by
  have hValid := s.valid
  unfold policyCheck at hValid
  split at hValid
  · cases hValid
  · split at hValid
    · cases hValid
    · assumption

/-! ## Tables -/

structure Generation where
  text : String
  valid : text.length = 32 ∧ text.toList.all isHex = true
  deriving DecidableEq

inductive Hook where
  | output
  | forward
  deriving DecidableEq

inductive MetaKey where
  | oifname
  | oif
  | iifname
  | iif
  | skuid
  | nfproto
  | mark
  deriving DecidableEq

inductive Protocol where
  | ip
  | ip6
  | udp
  | tcp
  | icmpv6
  deriving DecidableEq

inductive Field where
  | sport
  | dport
  | daddr
  | hoplimit
  | type
  | code
  deriving DecidableEq

inductive Left where
  | metadata (key : MetaKey)
  | payload (protocol : Protocol) (field : Field)
  | ctState
  deriving DecidableEq

inductive Right where
  | number (n : Nat)
  | text (s : String)
  | subnet (address : Nat) (length : Nat)
  | set (values : List Nat)
  deriving DecidableEq

structure Match where
  left : Left
  right : Right
  deriving DecidableEq

inductive Verdict where
  | accept
  | drop
  deriving DecidableEq

/-- The objects of a table; every rule ends with `accept`. -/
inductive Object where
  | table (comment : String)
  | chain (hook : Hook) (priority : Nat) (policy : Verdict)
  | rule (chain : Hook) (expressions : List Match) (comment : String)
  deriving DecidableEq

def matchMeta (key : MetaKey) (value : Right) : Match := ⟨.metadata key, value⟩

def matchPayload (key : Field) (value : Right) (protocol : Protocol) : Match := ⟨.payload protocol key, value⟩

def allow (label : String) (expressions : List Match) (chain : Hook := .output) : Object :=
  .rule chain expressions label

def root : List Match := [matchMeta .skuid (.number 0)]
def ipv4 : List Match := [matchMeta .nfproto (.number 2)]
def ipv6 : List Match := [matchMeta .nfproto (.number 10)]

/-- `fe80::` and `ff02::` with their lengths -/
def scopes : List (Nat × Nat) := [(0xfe80 * 2 ^ 112, 10), (0xff02 * 2 ^ 112, 16)]

def discoveries : List (String × Nat) := [("nd-router-solicit", 133), ("nd-neighbor-solicit", 135),
    ("nd-neighbor-advert", 136)]

/-- The rules for one kind of link-local destination. -/
def scopeRules (network : Nat × Nat) : List Object :=
  let scope := [matchPayload .daddr (.subnet network.1 network.2) .ip6]
  allow ("dhcp6-" ++ toString network.2)
      (root ++ scope ++ [matchPayload .sport (.number 546) .udp, matchPayload .dport (.number 547) .udp]) ::
    discoveries.map fun (kind, code) =>
      allow (kind ++ "-" ++ toString network.2) (scope ++ [matchPayload .hoplimit (.number 255) .ip6,
        matchPayload .type (.number code) .icmpv6, matchPayload .code (.number 0) .icmpv6])

def commonRules : List Object :=
  [allow "loopback" [matchMeta .oifname (.text "lo")],
    allow "service-mesh-bootstrap" (root ++ ipv4 ++ [matchMeta .mark (.number 64640)]),
    allow "dhcp4" (root ++ ipv4 ++ [matchPayload .sport (.number 68) .udp, matchPayload .dport (.number 67) .udp])] ++
  scopes.flatMap scopeRules

/-- The rules for the root's own traffic to a candidate that is not blocked. -/
def serviceRules (mode : Mode) (c : Candidate) : List Object :=
  (if mode = .probe then [allow "privileged-probe"
    (root ++ ipv4 ++ [matchMeta .oifname (.text c.interface)])] else []) ++
  match c.kind, c.endpoint, c.port with
  | .awg, some endpoint, some port =>
    [allow "service-awg" (root ++ [matchPayload .daddr (.number endpoint.toNat) .ip,
      matchPayload .dport (.number port) .udp])]
  | .tcp, some endpoint, some port =>
    [allow "service-tcp" (root ++ [matchPayload .daddr (.number endpoint.toNat) .ip,
      matchPayload .dport (.number port) .tcp, matchMeta .mark (.number 64630)])]
  | _, _, _ => []

/-- The rules of a ready state for one family of addresses. -/
def familyRules (index : Nat) (interface : String) (family : List Match) (suffix : String) : List Object :=
  let packet := [matchMeta .oif (.number index), matchMeta .oifname (.text interface)]
  let inbound := [matchMeta .iif (.number index), matchMeta .iifname (.text interface)]
  [allow ("packet-" ++ suffix) (family ++ packet),
    allow ("forward-packet-" ++ suffix) (family ++ packet) .forward,
    allow ("forward-return-" ++ suffix) (family ++ inbound ++ [⟨.ctState, .set [2, 4]⟩]) .forward]

def selectedRules (s : State) : List Object :=
  match s.mode, s.selected with
  | .blocked, _ | _, none => []
  | mode, some c => serviceRules mode c

def readyRules (s : State) : List Object :=
  match s.mode, s.selected with
  | .ready, some c =>
    familyRules s.index c.interface ipv4 "ipv4" ++ if s.ipv6 then familyRules s.index c.interface ipv6 "ipv6" else []
  | _, _ => []

def objects (generation : Generation) (s : State) : List Object :=
  [.table ("fc-auto-v1:" ++ generation.text), .chain .output 10 .drop, .chain .forward 10 .drop] ++ commonRules ++
    selectedRules s ++ readyRules s

/-! ## Packets -/

/-- What the rules see of a packet: `field` is the value of a header field, if the packet has that header. -/
structure Packet where
  hook : Hook
  oif : Nat
  oifname : String
  iif : Nat
  iifname : String
  skuid : Option Nat
  nfproto : Nat
  mark : Nat
  ctState : Nat
  field : Protocol → Field → Option Nat

def Match.holds (p : Packet) (m : Match) : Bool :=
  match m.left, m.right with
  | .metadata .oifname, .text s => p.oifname == s
  | .metadata .iifname, .text s => p.iifname == s
  | .metadata .oif, .number n => p.oif == n
  | .metadata .iif, .number n => p.iif == n
  | .metadata .skuid, .number n => p.skuid == some n
  | .metadata .nfproto, .number n => p.nfproto == n
  | .metadata .mark, .number n => p.mark == n
  | .payload protocol key, .number n => p.field protocol key == some n
  | .payload protocol key, .subnet address length =>
    (p.field protocol key).map (· / 2 ^ (128 - length)) == some (address / 2 ^ (128 - length))
  | .ctState, .set values => values.contains p.ctState
  | _, _ => false

def Object.accepts (p : Packet) : Object → Bool
  | .rule named expressions _ => named == p.hook && expressions.all (Match.holds p)
  | _ => false

def Object.default (hook : Hook) : Object → Option Verdict
  | .chain named _ verdict => if named = hook then some verdict else none
  | _ => none

/-- What a table does with a packet: without a chain for its hook it is not filtered. -/
def accepts (table : List Object) (p : Packet) : Bool :=
  match table.findSome? (Object.default p.hook) with
  | none => true
  | some verdict => table.any (Object.accepts p) || verdict == .accept

/-! ## What the rules allow -/

def Packet.InScope (p : Packet) (network : Nat × Nat) : Prop :=
  (p.field .ip6 .daddr).map (· / 2 ^ (128 - network.2)) = some (network.1 / 2 ^ (128 - network.2))

def Packet.LinkLocal (p : Packet) : Prop := ∃ network ∈ scopes, p.InScope network

@[mk_iff]
structure Packet.NeighbourDiscovery (p : Packet) : Prop where
  linkLocal : p.LinkLocal
  hoplimit : p.field .ip6 .hoplimit = some 255
  type : p.field .icmpv6 .type = some 133 ∨ p.field .icmpv6 .type = some 135 ∨ p.field .icmpv6 .type = some 136
  code : p.field .icmpv6 .code = some 0

@[mk_iff]
structure State.Leaves (s : State) (p : Packet) : Prop where
  mode : s.mode = .ready
  index : p.oif = s.index
  interface : s.selected.map (·.interface) = some p.oifname
  family : p.nfproto = 2 ∨ p.nfproto = 10 ∧ s.ipv6 = true

@[mk_iff]
structure State.Returns (s : State) (p : Packet) : Prop where
  mode : s.mode = .ready
  index : p.iif = s.index
  interface : s.selected.map (·.interface) = some p.iifname
  family : p.nfproto = 2 ∨ p.nfproto = 10 ∧ s.ipv6 = true
  state : p.ctState = 2 ∨ p.ctState = 4

def Candidate.Outer (c : Candidate) (p : Packet) : Prop :=
  ∃ endpoint port, c.endpoint = some endpoint ∧ c.port = some port ∧ p.field .ip .daddr = some endpoint.toNat ∧
    (c.kind = .awg ∧ p.field .udp .dport = some port ∨
      c.kind = .tcp ∧ p.field .tcp .dport = some port ∧ p.mark = 64630)

/-- What the root may send besides: leases, the bootstrap of the mesh, and the transport of the current candidate. -/
@[mk_iff]
inductive State.Serves (s : State) (p : Packet) : Prop where
  | bootstrap : p.nfproto = 2 → p.mark = 64640 → Serves s p
  | dhcp4 : p.nfproto = 2 → p.field .udp .sport = some 68 → p.field .udp .dport = some 67 → Serves s p
  | dhcp6 : p.LinkLocal → p.field .udp .sport = some 546 → p.field .udp .dport = some 547 → Serves s p
  | probe : s.mode = .probe → p.nfproto = 2 → s.selected.map (·.interface) = some p.oifname → Serves s p
  | outer (c : Candidate) : s.mode ≠ .blocked → s.selected = some c → c.Outer p → Serves s p

def Allowed (s : State) (p : Packet) : Prop :=
  match p.hook with
  | .output => p.oifname = "lo" ∨ p.NeighbourDiscovery ∨ p.skuid = some 0 ∧ s.Serves p ∨ s.Leaves p
  | .forward => s.Leaves p ∨ s.Returns p

theorem default_objects (generation : Generation) (s : State) (hook : Hook) :
    (objects generation s).findSome? (Object.default hook) = some .drop := by
  cases hook with
  | output | forward => rfl

theorem accepts_objects (generation : Generation) (s : State) (p : Packet) :
    accepts (objects generation s) p = (objects generation s).any (Object.accepts p) := by
  simp [accepts, default_objects]

theorem any_scopeRules (network : Nat × Nat) (p : Packet) : (scopeRules network).any (Object.accepts p) = true ↔
    p.hook = .output ∧ p.InScope network ∧
      (p.skuid = some 0 ∧ p.field .udp .sport = some 546 ∧ p.field .udp .dport = some 547 ∨
        p.field .ip6 .hoplimit = some 255 ∧ (p.field .icmpv6 .type = some 133 ∨ p.field .icmpv6 .type = some 135 ∨
          p.field .icmpv6 .type = some 136) ∧ p.field .icmpv6 .code = some 0) := by
  have hScope : Match.holds p (matchPayload .daddr (.subnet network.1 network.2) .ip6) = true ↔
    p.InScope network := beq_iff_eq
  simp only [scopeRules, discoveries, allow, root, List.any_cons, List.map_cons, List.map_nil,
    List.any_nil, Object.accepts, List.cons_append, List.nil_append, List.all_cons, List.all_nil,
      Bool.and_true, Bool.or_false, Bool.or_eq_true,
    Bool.and_eq_true, hScope, beq_iff_eq, eq_comm (a := Hook.output)]
  simp only [Match.holds, matchMeta, matchPayload, beq_iff_eq]
  grind

theorem any_commonRules (p : Packet) : commonRules.any (Object.accepts p) = true ↔
    p.hook = .output ∧ (p.oifname = "lo" ∨ p.NeighbourDiscovery ∨ p.skuid = some 0 ∧
      (p.nfproto = 2 ∧ p.mark = 64640 ∨
        p.nfproto = 2 ∧ p.field .udp .sport = some 68 ∧ p.field .udp .dport = some 67 ∨
        p.LinkLocal ∧ p.field .udp .sport = some 546 ∧ p.field .udp .dport = some 547)) := by
  have hScopes : (scopes.flatMap scopeRules).any (Object.accepts p) = true ↔
      ∃ network ∈ scopes, (scopeRules network).any (Object.accepts p) = true := by
    rw [List.any_flatMap, List.any_eq_true]
  rw [commonRules, List.any_append, Bool.or_eq_true, hScopes]
  simp only [any_scopeRules, Packet.neighbourDiscovery_iff, Packet.LinkLocal]
  simp only [allow, root, ipv4, List.any_cons, List.any_nil, Object.accepts, List.cons_append, List.nil_append,
    List.all_cons, List.all_nil, Bool.and_true, Bool.or_false, Bool.or_eq_true, Bool.and_eq_true,
      Match.holds, matchMeta,
    matchPayload, beq_iff_eq, eq_comm (a := Hook.output)]
  grind

theorem any_serviceRules (mode : Mode) (c : Candidate) (p : Packet) :
    (serviceRules mode c).any (Object.accepts p) = true ↔
      p.hook = .output ∧ p.skuid = some 0 ∧ (mode = .probe ∧ p.nfproto = 2 ∧ p.oifname = c.interface ∨ c.Outer p) := by
  have hProbe : (if mode = .probe then [allow "privileged-probe"
    (root ++ ipv4 ++ [matchMeta .oifname (.text c.interface)])]
      else []).any (Object.accepts p) = true ↔
      p.hook = .output ∧ p.skuid = some 0 ∧ mode = .probe ∧ p.nfproto = 2 ∧ p.oifname = c.interface := by
    split
    · simp [allow, root, ipv4, Object.accepts, Match.holds, matchMeta, eq_comm (a := Hook.output), *]
    · simp [*]
  rw [serviceRules, List.any_append, Bool.or_eq_true, hProbe, Candidate.Outer]
  split
  · simp [allow, root, Object.accepts, Match.holds, matchMeta, matchPayload, eq_comm (a := Hook.output), *]
    grind
  · simp [allow, root, Object.accepts, Match.holds, matchMeta, matchPayload, eq_comm (a := Hook.output), *]
    grind
  · simp
    grind

theorem any_familyRules (index : Nat) (interface : String) (nfproto : Nat) (suffix : String) (p : Packet) :
    (familyRules index interface [matchMeta .nfproto (.number nfproto)] suffix).any (Object.accepts p) = true ↔
      p.nfproto = nfproto ∧ (p.oif = index ∧ p.oifname = interface ∨
        p.hook = .forward ∧ p.iif = index ∧ p.iifname = interface ∧ (p.ctState = 2 ∨ p.ctState = 4)) := by
  cases hHook : p.hook with
  | output => simp [familyRules, allow, Object.accepts, Match.holds, matchMeta, hHook]
  | forward =>
    simp [familyRules, allow, Object.accepts, Match.holds, matchMeta, hHook]
    grind

theorem any_selectedRules (s : State) (p : Packet) : (selectedRules s).any (Object.accepts p) = true ↔
    p.hook = .output ∧ p.skuid = some 0 ∧
      (s.mode = .probe ∧ p.nfproto = 2 ∧ s.selected.map (·.interface) = some p.oifname ∨
        ∃ c, s.mode ≠ .blocked ∧ s.selected = some c ∧ c.Outer p) := by
  cases hSelected : s.selected with
  | none => cases hMode : s.mode <;> simp [selectedRules, hSelected, hMode]
  | some c =>
    have hService := any_serviceRules s.mode c p
    cases hMode : s.mode with
    | blocked => simp [selectedRules, hMode]
    | probe =>
      rw [hMode] at hService
      rw [selectedRules, hMode, hSelected, hService]
      simp [eq_comm (a := c.interface)]
    | ready =>
      rw [hMode] at hService
      rw [selectedRules, hMode, hSelected, hService]
      simp

theorem any_readyRules (s : State) (p : Packet) : (readyRules s).any (Object.accepts p) = true ↔
    s.Leaves p ∨ p.hook = .forward ∧ s.Returns p := by
  rw [State.leaves_iff, State.returns_iff]
  cases hSelected : s.selected with
  | none => simp [readyRules, hSelected]
  | some c =>
    cases hMode : s.mode with
    | blocked | probe => simp [readyRules, hMode]
    | ready =>
      have hFour := any_familyRules s.index c.interface 2 "ipv4" p
      have hSix := any_familyRules s.index c.interface 10 "ipv6" p
      simp only [readyRules, hMode, hSelected, List.any_append, Bool.or_eq_true, ipv4, hFour]
      cases s.ipv6 with
      | false =>
        simp [eq_comm (a := c.interface)]
        grind
      | true =>
        simp [ipv6, hSix, eq_comm (a := c.interface)]
        grind

theorem accepts_objects_iff (generation : Generation) (s : State) (p : Packet) :
    accepts (objects generation s) p = true ↔ Allowed s p := by
  have hHead : [Object.table ("fc-auto-v1:" ++ generation.text), .chain .output 10 .drop, .chain .forward 10 .drop].any
      (Object.accepts p) = false := rfl
  rw [accepts_objects, objects, List.any_append, List.any_append, List.any_append, hHead]
  simp only [Bool.or_eq_true, any_commonRules, any_selectedRules, any_readyRules, Bool.false_eq_true, false_or, Allowed,
    State.serves_iff]
  cases p.hook with
  | output => simp only [true_and, reduceCtorEq, false_and, or_false, and_or_left, or_assoc]
  | forward => simp

variable {generation : Generation}

theorem leaves_of_accepts {p : Packet} (h : accepts (objects generation s) p = true)
    (hHook : p.hook = .output) (hUser : p.skuid ≠ some 0) (hInterface : p.oifname ≠ "lo") :
    p.NeighbourDiscovery ∨ s.Leaves p := by
  rw [accepts_objects_iff, Allowed, hHook] at h
  rcases h with hLo | hDiscovery | hRoot | hLeaves
  · exact absurd hLo hInterface
  · exact .inl hDiscovery
  · exact absurd hRoot.1 hUser
  · exact .inr hLeaves

theorem not_forwarded {p : Packet} (hMode : s.mode ≠ .ready) (hHook : p.hook = .forward) :
    accepts (objects generation s) p = false := by
  rw [← Bool.not_eq_true, accepts_objects_iff, Allowed, hHook]
  rintro (hLeaves | hReturns)
  · exact hMode hLeaves.mode
  · exact hMode hReturns.mode

end FamilyConnect.LinuxGuard
