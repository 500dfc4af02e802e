import FamilyConnect.Friends.TransportPolicy

/-!
# The cache of decisions at a gateway

Source: `load`, `allowed`, `accept` and `prepare` of `control/friends/transport_gateway.py`.
The file is written as a whole. A call reads its clocks once; what `apply` has
recorded in the cache is left out.
-/

namespace FamilyConnect.Friends

open Lib Transaction

structure Cached where
  device : String
  decision : Decision
  boot : String
  deadline : ℚ
  prepared : Option String := none
  deriving DecidableEq

structure Cache where
  node : Node
  records : List Cached := []
  observedAt : Nat := 0

structure Reading where
  clock : ℚ
  monotonic : ℚ
  boot : String

namespace Cache

def record (cache : Cache) (device : String) : Option Cached :=
  Rows.get Cached.device device cache.records

structure Sound (encoding : Encoding) (node : Node) (cached : Cached) : Prop where
  prepared : cached.prepared.all (hex 64) = true
  device : cached.device = cached.decision.device
  decision : validate encoding ⟨node, cached.decision.observedAt,
    [cached.decision]⟩ node cached.decision.observedAt = .ok ()

instance (encoding : Encoding) (node : Node) (cached : Cached) :
    Decidable (Sound encoding node cached) :=
  decidable_of_iff (cached.prepared.all (hex 64) = true ∧ cached.device = cached.decision.device ∧
      validate encoding ⟨node, cached.decision.observedAt,
        [cached.decision]⟩ node cached.decision.observedAt = .ok ())
    ⟨fun ⟨h₁, h₂, h₃⟩ => ⟨h₁, h₂, h₃⟩, fun h => ⟨h.prepared, h.device, h.decision⟩⟩

def load (encoding : Encoding) (node : Node) (reading : Reading) (cache : Cache) :
    Except PolicyFailure Cache := do
  demand (cache.node = node ∧ cache.records.length ≤ decisionLimit ∧
    (cache.observedAt : ℚ) ≤ reading.clock + clockSkewSeconds) .invalidCache
  demand (∀ cached ∈ cache.records, Sound encoding node cached) .invalidCache
  pure cache

end Cache

def Cached.allowed (reading : Reading) (cached : Cached) : Bool :=
  cached.decision.allowed &&
    if cached.decision.cohort then
      decide (cached.boot = reading.boot ∧ reading.clock < cached.decision.validUntil ∧
        reading.monotonic < cached.deadline)
    else cached.prepared.isNone

namespace Cache

/-- The end of a decision by the monotonic clock. -/
def deadlineOf (reading : Reading) (decision : Decision) : ℚ :=
  reading.monotonic + min (leaseSeconds : ℚ) (max 0 (decision.validUntil - reading.clock))

/-- The loop body of `accept`. -/
def take (reading : Reading) (records : List Cached) (decision : Decision) :
    Except PolicyFailure (List Cached) := do
  let old := Rows.get Cached.device decision.device records
  (match old with
    | none => pure ()
    | some cached => successor cached.decision decision)
  demand (∀ cached ∈ records, cached.device ≠ decision.device →
    cached.decision.publicKey ≠ decision.publicKey ∧
      cached.decision.tcpId ≠ decision.tcpId) .duplicateBinding
  pure (if old.any (fun cached => decide (cached.decision = decision)) = true then records
    else Rows.put Cached.device ⟨decision.device, decision, reading.boot,
      deadlineOf reading decision, old.bind (·.prepared)⟩ records)

/-- The file that `accept` writes. -/
def accept (encoding : Encoding) (node : Node) (reading : Reading) (cache : Cache)
    (envelope : Envelope) : Except PolicyFailure Cache := do
  validate encoding envelope node reading.clock
  let state ← cache.load encoding node reading
  let records ← envelope.decisions.foldlM (take reading) state.records
  pure { state with records := records, observedAt := max state.observedAt ⌊reading.clock⌋₊ }

/-- The exception of `accept`, if any, and the file it leaves. -/
def accepted (encoding : Encoding) (node : Node) (reading : Reading) (cache : Cache)
    (envelope : Envelope) : Option PolicyFailure × Cache :=
  match cache.accept encoding node reading envelope with
  | .ok state => (none, state)
  | .error failure => (some failure, cache)

/-- `accept` has written the file before `prepare` looks at the decision. -/
def prepared (encoding : Encoding) (node : Node) (reading : Reading) (cache : Cache)
    (envelope : Envelope) (token : String) : Option PolicyFailure × Cache :=
  if hex 64 token = true then
    match envelope.decisions with
    | [decision] =>
      match cache.accept encoding node reading envelope with
      | .error failure => (some failure, cache)
      | .ok state =>
        match state.record decision.device with
        | none => (some .invalidPreparation, state)
        | some cached =>
          if cached.decision.cohort then (some .membershipConflict, state)
          else (none, { state with records := Rows.put Cached.device { cached with prepared := some token } state.records })
    | _ => (some .invalidPreparation, cache)
  else (some .invalidPreparation, cache)

end Cache

end FamilyConnect.Friends
