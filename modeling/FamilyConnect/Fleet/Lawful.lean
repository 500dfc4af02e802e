import FamilyConnect.Fleet.Leases

/-!
# The rules of the lease table

Any sequence of calls to the store. A clock that goes back makes a call raise,
so nothing is assumed about it.
-/

namespace FamilyConnect.Fleet

open Lib Transaction

inductive Operation where
  | installRegistry (candidate : Registry)
  | setAccess (row : Access)
  | reserve (uuid : Nat) (request : Request)
  | markReady (id generation : Nat)
  | retire (id : Nat)
  | expire (limit : Nat)
  | confirmRemoved (id generation : Nat)

def outcome {α : Type} (t : Tx α) (db : Db) : Option Failure × Db :=
  (match (t.commit db).1 with | .ok _ => none | .error failure => some failure, (t.commit db).2)

def Operation.perform (setting : Setting) (now : Nat) (db : Db) : Operation → Option Failure × Db
  | .installRegistry candidate => outcome (Fleet.installRegistry now candidate) db
  | .setAccess row => outcome (Fleet.setAccess setting now row) db
  | .reserve uuid request => outcome (Fleet.reserve setting now uuid request) db
  | .markReady id generation => outcome (Fleet.markReady now id generation) db
  | .retire id => outcome (Fleet.retire now id) db
  | .expire limit => outcome (Fleet.expire now limit) db
  | .confirmRemoved id generation => outcome (Fleet.confirmRemoved now id generation) db

def fleetSystem (setting : Setting) : System Db where
  initial db := db.leases = [] ∧ db.requests = [] ∧ db.access = [] ∧
    ∃ registry, db.registries = [registry]
  step db db' := ∃ now operation, db' = (Operation.perform setting now db operation).2

variable {setting : Setting} {db db' : Db} {now : Nat} {uuid : Nat} {prior : RequestRow}

theorem outcome_next {α : Type} {t : Tx α} {removed : Option Nat} (h : db.Inv)
    (hNext : t.Ensures (fun _ db' => db.Next removed db') db) :
    db.Next removed (outcome t db).2 := hNext.commit (db.Next removed) (h.moves (.refl db))
      fun _ _ hStep => hStep

theorem outcome_raised {α : Type} {t : Tx α} (h : (outcome t db).1 ≠ none) :
    (outcome t db).2 = db := by
  cases hResult : (t.commit db).1 with
  | ok a => simp [outcome, hResult] at h
  | error failure => exact commit_raised hResult

def Operation.removes : Operation → Option Nat
  | .confirmRemoved id _ => some id
  | _ => none

theorem Db.Inv.perform (h : db.Inv) (now : Nat) (operation : Operation) :
    db.Next operation.removes (operation.perform setting now db).2 := by
  cases operation with
  | installRegistry candidate => exact outcome_next h (ensures_installRegistry h)
  | setAccess row => exact outcome_next h (ensures_setAccess h)
  | reserve uuid request => exact outcome_next h (ensures_reserve_next h)
  | markReady id generation => exact outcome_next h (ensures_markReady h)
  | retire id => exact outcome_next h (ensures_retire h)
  | expire limit => exact outcome_next h (ensures_expire h)
  | confirmRemoved id generation => exact outcome_next h (ensures_confirmRemoved h)

theorem Operation.perform_raised {operation : Operation}
    (h : (operation.perform setting now db).1 ≠ none) :
    (operation.perform setting now db).2 = db := by
  cases operation with
  | installRegistry | setAccess | reserve | markReady | retire | expire | confirmRemoved =>
    exact outcome_raised h

theorem Db.Inv.reachable (h : (fleetSystem setting).Reachable db) : db.Inv := by
  refine h.invariant (I := Db.Inv) ?_ ?_
  · rintro db ⟨hLeases, hRequests, -, -⟩
    have hNone : ∀ {id l}, db.lease id ≠ some l := by
      intro id l hL
      rw [Db.lease, hLeases] at hL
      cases hL
    constructor
    case keyed =>
      rw [hLeases]
      exact List.nodup_nil
    case numbered | hosted | access => exact fun _ _ hL => absurd hL hNone
    case apart => exact fun _ _ _ _ hL => absurd hL hNone
    case requests =>
      rw [hRequests]
      exact fun _ hMem => absurd hMem List.not_mem_nil
  · rintro db db' - hInv ⟨now, operation, rfl⟩
    exact (hInv.perform now operation).inv

/-! ## What holds of the tables -/

structure Db.Lawful (db : Db) : Prop where
  addresses : ∀ l ∈ db.leases, ∀ m ∈ db.leases, l.Live → m.Live → l.gatewayId = m.gatewayId →
    l.address = m.address → l = m
  hosts : ∀ l ∈ db.leases, l.Live → ∃ registry, db.registry = some registry ∧
    ∃ gateway ∈ registry.gateways, gateway.id = l.gatewayId ∧ gateway.pool.Hosts l.address
  gateways : ∀ l ∈ db.leases, ∀ m ∈ db.leases, l.Live → m.Live → l.device = m.device →
    l.gatewayId = m.gatewayId → l = m
  scopes : ∀ l ∈ db.leases, ∀ m ∈ db.leases, l.Live → m.Live → l.device = m.device →
    l.scope = m.scope → l = m
  first : ∀ l ∈ db.leases, l.generation = 1 ↔ l.state = .reserved ∨ l.state = .ready
  second : ∀ l ∈ db.leases, l.generation = 2 ↔ l.state = .retiring ∨ l.state = .released
  access : ∀ l ∈ db.leases, l.state = .reserved ∨ l.state = .ready →
    ∃ a, db.accessOf l.device = some a ∧ a.revoked = false ∧ l.expiresAt ≤ a.expiresAt

theorem Db.Inv.lawful (h : db.Inv) : db.Lawful := by
  have hRow : ∀ {l}, l ∈ db.leases → db.lease l.id = some l := fun hMem => h.keyed.get hMem
  have hApart : ∀ {l m}, l ∈ db.leases → m ∈ db.leases → l.Live → m.Live → l.Clashes m → l = m := by
    intro l m hL hM hLive hLive' hClash
    have hId := h.apart l.id m.id l m (hRow hL) (hRow hM) hLive hLive' hClash
    exact Option.some.inj ((hRow hL).symm.trans (by rw [hId]; exact hRow hM))
  constructor
  case addresses =>
    exact fun l hL m hM hLive hLive' hGateway hAddress =>
      hApart hL hM hLive hLive' (.inl ⟨hGateway, hAddress⟩)
  case hosts => exact fun l hL _ => h.hosted l.id l (hRow hL)
  case gateways =>
    exact fun l hL m hM hLive hLive' hDevice hGateway =>
      hApart hL hM hLive hLive' (.inr (.inl ⟨hDevice, hGateway⟩))
  case scopes =>
    exact fun l hL m hM hLive hLive' hDevice hScope =>
      hApart hL hM hLive hLive' (.inr (.inr ⟨hDevice, hScope⟩))
  case first | second =>
    intro l hL
    rw [show l.generation = l.state.generation from h.numbered l.id l (hRow hL)]
    cases l.state <;> simp [LeaseState.generation]
  case access => exact fun l hL hActive => h.access l.id l (hRow hL) hActive

/-! ## What a call does -/

theorem length_assigned {p : Lease → Bool} {lease : Lease} {leases : List Lease} {limit : Nat}
    (hLimit : p lease = true → (leases.filter p).length < limit) :
    ((leases ++ [lease]).filter p).length ≤ (leases.filter p).length ∨ p lease = true ∧
    ((leases ++ [lease]).filter p).length ≤ limit := by
  rw [List.filter_append, List.length_append]
  cases hP : p lease with
  | false => simp [hP]
  | true =>
    have hRoom := hLimit hP
    simp only [List.filter_cons, hP, if_true, List.filter_nil, List.length_singleton, true_and]
    omega

structure Db.Limited (db db' : Db) : Prop where
  devices : ∀ device, (db'.ofDevice device).length ≤ (db.ofDevice device).length ∨
    ∃ a, db'.accessOf device = some a ∧ (db'.ofDevice device).length ≤ a.maxLeases
  gateways : ∀ id, (db'.ofGateway id).length ≤ (db.ofGateway id).length ∨
    ∃ registry gateway, db'.registry = some registry ∧ registry.gateway id = some gateway ∧
      (db'.ofGateway id).length ≤ gateway.maxDevices

theorem limited_reserve (uuid : Nat) (request : Request) :
    db.Limited (outcome (reserve setting now uuid request) db).2 := by
  refine ensures_reserve.commit db.Limited ⟨fun _ => .inl le_rfl, fun _ => .inl le_rfl⟩
    fun lease db' hReserved => ?_
  obtain ⟨access, hAccess, -, ⟨prior, -, -, -, rfl⟩ | ⟨-, hAssigned⟩⟩ := hReserved
  · exact ⟨fun _ => .inl le_rfl, fun _ => .inl le_rfl⟩
  · rw [hAssigned.after]
    constructor
    case devices =>
      intro device
      have hLimit : decide (lease.device = device ∧ lease.Live) = true →
          (db.ofDevice device).length < access.maxLeases := by
        intro hMine
        rw [← (of_decide_eq_true hMine).1, hAssigned.device]
        exact hAssigned.limit
      rcases length_assigned (p := fun l => decide (l.device = device ∧ l.Live)) hLimit with hSame |
        ⟨hMine, hBelow⟩
      · exact .inl hSame
      · refine .inr ⟨access, ?_, hBelow⟩
        rw [← (of_decide_eq_true hMine).1, hAssigned.device]
        exact hAccess
    case gateways =>
      intro id
      obtain ⟨registry, hRegistry, gateway, hMem, hId, -, hRoom⟩ := hAssigned.node
      have hLimit : decide (lease.gatewayId = id ∧ lease.Live) = true →
          (db.ofGateway id).length < gateway.maxDevices := by
        intro hMine
        rw [← (of_decide_eq_true hMine).1, ← hId]
        exact hRoom
      rcases length_assigned (p := fun l => decide (l.gatewayId = id ∧ l.Live)) hLimit with hSame |
        ⟨hMine, hBelow⟩
      · exact .inl hSame
      · refine .inr ⟨registry, gateway, hRegistry, ?_, hBelow⟩
        rw [← (of_decide_eq_true hMine).1, ← hId]
        exact Registry.gateway_eq hMem

structure Db.Orderly (setting : Setting) (db : Db) (now : Nat) (operation : Operation) : Prop where
  raised : (operation.perform setting now db).1 ≠ none → (operation.perform setting now db).2 = db
  forward : ∀ l ∈ db.leases, ∃ l' ∈ (operation.perform setting now db).2.leases, l'.id = l.id ∧
    l.state.rank ≤ l'.state.rank
  limits : ∀ uuid request, operation = .reserve uuid request →
    db.Limited (operation.perform setting now db).2

theorem Db.Inv.orderly (h : db.Inv) (now : Nat) (operation : Operation) :
    db.Orderly setting now operation := by
  constructor
  case raised => exact Operation.perform_raised
  case forward =>
    intro l hL
    obtain ⟨l', hL', hMoves⟩ := (h.perform now operation).forth l.id l (h.keyed.get hL)
    exact ⟨l', Rows.mem_of_get hL', Db.id_of_lease hL', hMoves.rank⟩
  case limits =>
    rintro uuid request rfl
    exact limited_reserve uuid request

/-! ## Repeated requests -/

theorem request_of_reserved {request : Request} {lease : Lease}
    (hOk : (reserve setting now uuid request).commit db = (.ok lease, db')) :
    db'.request request.device request.requestId = some
      ⟨request.device, request.requestId, request.fingerprint, lease.id⟩ := by
  obtain ⟨access, -, -, ⟨prior, hPrior, hSame, hLease, rfl⟩ | ⟨-, hAssigned⟩⟩ :=
    ensures_reserve _ _ (commit_ok hOk)
  · have hKey : prior.device = request.device ∧ prior.requestId = request.requestId := by
      simpa using List.find?_some hPrior
    change db.request request.device request.requestId = _
    rw [hPrior, ← hKey.1, ← hKey.2, ← hSame, Db.id_of_lease hLease]
  · rw [hAssigned.after, Db.request, hAssigned.id]
    exact List.find?_cons_of_pos (by simp)

theorem steps_request {device requestId : String} {row : RequestRow} (hInv : db.Inv)
    (hRow : db.request device requestId = some row)
    (hSteps : Relation.ReflTransGen (fleetSystem setting).step db db') :
    db'.Inv ∧ db'.request device requestId = some row := by
  induction hSteps with
  | refl => exact ⟨hInv, hRow⟩
  | tail _ hStep ih =>
    obtain ⟨now, operation, rfl⟩ := hStep
    exact ⟨(ih.1.perform now operation).inv, (ih.1.perform now operation).requests _ _ _ ih.2⟩

theorem reserve_conflict {request : Request}
    (hPrior : db.request request.device request.requestId = some prior)
    (hOther : prior.fingerprint ≠ request.fingerprint) :
    ∃ failure, (reserve setting now uuid request).commit db = (.error failure, db) := by
  cases hResult : (reserve setting now uuid request).commit db with
  | mk result after =>
    cases result with
    | error failure =>
      have hSame := commit_raised (t := reserve setting now uuid request) (by rw [hResult])
      rw [hResult] at hSame
      exact ⟨failure, by rw [← hSame]⟩
    | ok lease =>
      obtain ⟨access, -, -, ⟨prior', hPrior', hSame, -⟩ | ⟨hNone, -⟩⟩ :=
        ensures_reserve _ _ (commit_ok hResult)
      · cases hPrior.symm.trans hPrior'
        exact absurd hSame hOther
      · rw [hPrior] at hNone
        cases hNone

/-- A call of `reserve` that is not refused for its clock or its revision. -/
structure Db.Admits (db : Db) (now : Nat) (request : Request) : Prop where
  clock : db.lastNow ≤ now ∧ now < 2 ^ 63
  revision : 1 ≤ request.registryRevision ∧ request.registryRevision ≤ 2 ^ 63 - 1

def Db.Allows (db : Db) (now : Nat) (device : String) : Prop :=
  ∃ a, db.accessOf device = some a ∧ a.revoked = false ∧ now < a.expiresAt

theorem reserve_checked {request : Request} (hAdmits : db.Admits now request)
    (hLifetime : 1 ≤ request.lifetime ∧ request.lifetime ≤ 86400) (hValid : request.valid = true) :
    reserve setting now uuid request db = (do
      let access ← authorized request.device now
      let db ← get
      match db.request request.device request.requestId with
      | some prior => do
        require (prior.fingerprint = request.fingerprint) .requestConflict
        readLease prior.leaseId
      | none => assign setting now uuid request access : Tx Lease) { db with lastNow := now } := by
  obtain ⟨⟨hClock, hNow⟩, hRevision⟩ := hAdmits
  have hOpened : opened now db = .ok ((), { db with lastNow := now }) := by
    refine (run_bind (run_require _ hNow)).trans ?_
    refine (run_bind run_get).trans ?_
    exact run_bind (run_require _ hClock)
  refine (run_bind hOpened).trans ?_
  refine (run_bind (run_require _ hRevision)).trans ?_
  refine (run_bind (run_require _ hLifetime)).trans ?_
  exact run_bind (run_require _ hValid)

theorem reserve_repeated {request : Request} {lease : Lease} (hAdmits : db.Admits now request)
    (hLifetime : 1 ≤ request.lifetime ∧ request.lifetime ≤ 86400) (hValid : request.valid = true)
    (hAllows : db.Allows now request.device)
    (hPrior : db.request request.device request.requestId = some prior)
    (hSame : prior.fingerprint = request.fingerprint) (hLease : db.lease prior.leaseId = some lease) :
    (reserve setting now uuid request).commit db = (.ok lease, { db with lastNow := now }) := by
  obtain ⟨access, hAccess, hRevoked, hExpires⟩ := hAllows
  have hAuthorized : authorized request.device now { db with lastNow := now } = .ok
      (access, { db with lastNow := now }) := by
    refine (run_bind run_get).trans ?_
    refine (run_bind (run_found _ hAccess)).trans ?_
    exact run_bind (run_require _ ⟨hRevoked, hExpires⟩)
  refine commit_of_run ((reserve_checked hAdmits hLifetime hValid).trans ?_)
  refine (run_bind hAuthorized).trans ?_
  refine (run_bind run_get).trans ?_
  have hRow : ({ db with lastNow := now } : Db).request request.device request.requestId =
    some prior := hPrior
  rw [hRow]
  refine (run_bind (run_require _ hSame)).trans ?_
  exact (run_bind run_get).trans (run_found _ hLease)

theorem reserve_denied {request : Request} (hAdmits : db.Admits now request)
    (hLifetime : 1 ≤ request.lifetime ∧ request.lifetime ≤ 86400) (hValid : request.valid = true)
    (hDenied : ¬db.Allows now request.device) :
    (reserve setting now uuid request).commit db = (.error .accessDenied, db) := by
  have hAuthorized : authorized request.device now
      { db with lastNow := now } = .error .accessDenied := by
    refine (run_bind run_get).trans ?_
    cases hAccess : ({ db with lastNow := now } : Db).accessOf request.device with
    | none => rfl
    | some access =>
      refine (run_bind (run_found _ rfl)).trans (run_bind_error (run_require_error _ ?_))
      exact fun hOpen => hDenied ⟨access, hAccess, hOpen⟩
  exact commit_of_error ((reserve_checked hAdmits hLifetime hValid).trans (run_bind_error hAuthorized))

theorem ensures_reserve_valid {request : Request} : (reserve setting now uuid request).Ensures
    (fun _ _ => (1 ≤ request.lifetime ∧ request.lifetime ≤ 86400) ∧ request.valid = true) db := by
  refine bind_opened fun _ => ?_
  refine bind_positive ?_
  refine bind_require fun hLifetime => ?_
  refine bind_require fun hValid => ?_
  exact fun _ _ _ => ⟨hLifetime, hValid⟩

theorem valid_of_fingerprint {request again : Request} (hId : again.requestId = request.requestId)
    (hSame : again.fingerprint = request.fingerprint) (hValid : request.valid = true) :
    again.valid = true := by
  have hEmpty : ∀ families : List Family, families.isEmpty =
      (!families.contains .ipv4 && !families.contains .ipv6) := by
    intro families
    cases families with
    | nil => rfl
    | cons family rest => cases family <;> simp
  simp only [Request.fingerprint, Fingerprint.mk.injEq] at hSame
  obtain ⟨hCountry, hTransport, hVersion, -, hFour, hSix⟩ := hSame
  rw [Request.valid, hEmpty] at hValid ⊢
  rw [hId, hCountry, hTransport, hVersion, hFour, hSix]
  exact hValid

/-! ## A lease that was revoked -/

namespace Sample

def pool : Pool := { base := 10 * 2 ^ 24, length := 29 }

def endpoint : Endpoint :=
  { transport := .wireguard, version := .v1, family := .ipv4, address := 1, port := 51820 }

def gateway : Gateway :=
  { id := "gw", failureDomain := "fd", country := "de", state := .active, endpoints := [endpoint]
    pool := pool, maxDevices := 5, egressBudget := 1 }

def registry : Registry :=
  { revision := 1, gateways := [gateway], ingresses := [⟨"in", "fd", .ipv4, 2, 443, "key"⟩] }

def trusting : Setting := { identify := some, validWg := fun _ => true, draw := fun _ _ => 1 }

def access (revision : Nat) (revoked : Bool) : Access :=
  ⟨"device", "device", "wg", revision, 1000, 2, revoked⟩

def request : Request :=
  { device := "device", requestId := "r", registryRevision := 1
    wish := ⟨"de", .wireguard, .v1, [.ipv4]⟩, lifetime := 100
    observations := [⟨"gw", 1, 5, [.wireguard], 0, 0, 0, 0⟩] }

def empty : Db := { lastNow := 0, registries := [registry] }

def granted : Db := ((Operation.setAccess (access 1 false)).perform trusting 1 empty).2

def leased : Db := ((Operation.reserve 7 request).perform trusting 5 granted).2

def revoked : Db := ((Operation.setAccess (access 2 true)).perform trusting 6 leased).2

def lease : Lease := ⟨7, "device", "gw", "de", .wireguard, .v1, 10 * 2 ^ 24 + 2, 1, 1, 5, 105,
    .reserved, 1⟩

theorem reachable_granted : (fleetSystem trusting).Reachable granted :=
  .next (.start ⟨rfl, rfl, rfl, registry, rfl⟩) ⟨1, .setAccess (access 1 false), rfl⟩

theorem reserved : (reserve trusting 5 7 request).commit granted = (.ok lease, leased) := by
  have hOk : ((reserve trusting 5 7 request).commit granted).1 = .ok lease := by decide +kernel
  exact Prod.ext hOk rfl

end Sample

/-- The tables are lawful after any calls, each call keeps to the limits, and the request of a lease
gets the same lease again as long as its device is allowed one. -/
theorem fleet_leases (hReachable : (fleetSystem setting).Reachable db) :
    db.Lawful ∧ (∀ now operation, db.Orderly setting now operation) ∧
      ∀ now uuid request lease db', (reserve setting now uuid request).commit db = (.ok lease, db') →
        ∀ later, Relation.ReflTransGen (fleetSystem setting).step db' later →
          ∀ now' uuid' again, again.device = request.device → again.requestId = request.requestId →
            (again.fingerprint ≠ request.fingerprint →
              ∃ failure, (reserve setting now' uuid' again).commit later = (.error failure, later)) ∧
            (again.fingerprint = request.fingerprint → later.Admits now' again →
              (later.Allows now' again.device → ∃ same,
                (reserve setting now' uuid' again).commit later =
                  (.ok same, { later with lastNow := now' }) ∧ same.id = lease.id) ∧
              (¬later.Allows now' again.device →
                (reserve setting now' uuid' again).commit later = (.error .accessDenied, later))) := by
  have hInv := Db.Inv.reachable hReachable
  refine ⟨hInv.lawful, fun now operation => hInv.orderly now operation, ?_⟩
  intro now uuid request lease db' hOk later hSteps now' uuid' again hDevice hId
  have hAfter : db'.Inv := (ensures_reserve_next hInv _ _ (commit_ok hOk)).inv
  obtain ⟨hLater, hRow⟩ := steps_request hAfter (request_of_reserved hOk) hSteps
  rw [← hDevice, ← hId] at hRow
  refine ⟨fun hOther => reserve_conflict hRow fun hSame => hOther hSame.symm, fun hSame hAdmits => ?_⟩
  obtain ⟨hLifetime, hValid⟩ := ensures_reserve_valid _ _ (commit_ok hOk)
  have hSameLifetime : again.lifetime = request.lifetime := congrArg Fingerprint.lifetime hSame
  rw [← hSameLifetime] at hLifetime
  have hValid := valid_of_fingerprint hId hSame hValid
  refine ⟨fun hAllows => ?_, reserve_denied hAdmits hLifetime hValid⟩
  obtain ⟨same, hLease⟩ := hLater.requests _ (List.mem_of_find?_eq_some hRow)
  exact ⟨same, reserve_repeated hAdmits hLifetime hValid hAllows hRow hSame.symm hLease,
    Db.id_of_lease hLease⟩

open Sample

/-- The device has its lease; the request is answered again, and refused once the access is revoked. -/
theorem fleet_leases_leased : (∃ l ∈ leased.leases, l.Live) ∧ leased.Lawful ∧
    (∃ same, (reserve trusting 8 9 request).commit leased =
    (.ok same, { leased with lastNow := 8 }) ∧ same.id = 7) ∧
      (reserve trusting 8 9 request).commit revoked = (.error .accessDenied, revoked) := by
  have hLeased : (fleetSystem trusting).step granted leased := ⟨5, .reserve 7 request, rfl⟩
  obtain ⟨hLawful, -, -⟩ := fleet_leases (reachable_granted.next hLeased)
  obtain ⟨-, -, hRepeat⟩ := fleet_leases reachable_granted
  have hAgain := hRepeat 5 7 request lease leased reserved
  have hRevoked : (fleetSystem trusting).step leased revoked := ⟨6, .setAccess (access 2 true), rfl⟩
  refine ⟨by decide +kernel, hLawful, ?_, ?_⟩
  · refine ((hAgain leased .refl 8 9 request rfl rfl).2 rfl ⟨by decide +kernel, by decide⟩).1 ?_
    exact ⟨access 1 false, by decide +kernel, rfl, by decide⟩
  · refine ((hAgain revoked (.single hRevoked) 8 9 request rfl rfl).2 rfl
      ⟨by decide +kernel, by decide⟩).2 ?_
    rintro ⟨a, hAccess, hOpen, -⟩
    have hGone : (revoked.accessOf request.device).map Access.revoked = some true := by decide +kernel
    rw [hAccess, Option.map_some, hOpen] at hGone
    cases hGone

/-- The access of the device is gone, so the request that was answered is refused. -/
theorem fleet_repeat_refused : (fleetSystem trusting).Reachable granted ∧
    ((reserve trusting 5 7 request).commit granted).1 = .ok lease ∧
    ((reserve trusting 7 9 request).commit revoked).1 = .error .accessDenied :=
  ⟨reachable_granted, by decide +kernel, by decide +kernel⟩

end FamilyConnect.Fleet
