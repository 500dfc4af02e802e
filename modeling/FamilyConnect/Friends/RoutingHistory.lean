import FamilyConnect.Friends.Crowd
import FamilyConnect.Friends.ConfigurationStore

/-!
# Routing and its clients

Policies are installed and replaced, devices are moved, and clients fetch catalogs
while devices are activated and revoked. Every assignment stays a route of the active
policy, and what a client is sent follows what it has.
-/

namespace FamilyConnect.Friends

open Lib Transaction

variable {signed : Catalog → Bool} {r : Registry} {routing routing' : Routing}
  {s s' : Option Routing} {device operation : String} {catalog : Catalog} {policy : Policy signed}
  {document : Document} {route : Route} {request : RoutingRequest} {files : Document → Bool}

/-! ## Routes -/

theorem Document.route_eq (h : document.route catalog = some route) :
    ∃ record ∈ document.catalogs, record.catalog = catalog ∧ route = record.route := by
  obtain ⟨record, hRecord, rfl⟩ := Option.map_eq_some_iff.mp h
  exact ⟨record, Rows.mem_of_get hRecord, Rows.key_of_get hRecord, rfl⟩

theorem Document.route_sequence (h : document.route catalog = some route) :
    route.sequence = catalog.sequence := by
  obtain ⟨record, -, rfl, rfl⟩ := Document.route_eq h
  rfl

theorem Document.Valid.route_verified (hValid : document.Valid signed)
    (h : document.route catalog = some route) : catalog.Verified signed := by
  obtain ⟨record, hRecord, rfl, -⟩ := Document.route_eq h
  exact hValid.verified record hRecord

theorem Document.Retained.kept {previous replacement : Document} (h : previous.Retained replacement)
    (hRoute : previous.route catalog = some route) : replacement.route catalog = some route := by
  obtain ⟨record, hRecord, rfl, -⟩ := Document.route_eq hRoute
  rw [h.2.2 record hRecord]
  exact hRoute

/-! ## The tables -/

def Assignment.Routed (document : Document) (a : Assignment) : Prop :=
  ∃ route, document.route a.catalog = some route ∧ a.node = route.node ∧ a.sequence = route.sequence

structure Routing.Inv (signed : Catalog → Bool) (routing : Routing) : Prop where
  policy : routing.policy.Valid signed
  generation : routing.generation = routing.policy.generation
  assignments : Rows.Keyed Assignment.device routing.assignments
  routed : ∀ a ∈ routing.assignments, a.Routed routing.policy
  events : Rows.Keyed RoutingEvent.operation routing.events

structure Routing.Forward (routing routing' : Routing) : Prop where
  assignments : ∀ device a, routing.assignment device = some a →
    ∃ a', routing'.assignment device = some a' ∧ (a' = a ∨ a.sequence < a'.sequence)
  events : ∀ operation event, routing.event operation = some event →
    routing'.event operation = some event

theorem Routing.Forward.refl (routing : Routing) : routing.Forward routing :=
  ⟨fun _ a h => ⟨a, h, .inl rfl⟩, fun _ _ h => h⟩

theorem Routing.Forward.trans {routing'' : Routing} (h : routing.Forward routing')
    (h' : routing'.Forward routing'') : routing.Forward routing'' := by
  refine ⟨fun device a hA => ?_, fun operation event hEvent => h'.events _ _ (h.events _ _ hEvent)⟩
  obtain ⟨a', hA', hFirst⟩ := h.assignments device a hA
  obtain ⟨a'', hA'', hSecond⟩ := h'.assignments device a' hA'
  refine ⟨a'', hA'', ?_⟩
  rcases hFirst with rfl | hFirst
  · exact hSecond
  · rcases hSecond with rfl | hSecond
    · exact .inr hFirst
    · exact .inr (Nat.lt_trans hFirst hSecond)

def TablesInv (signed : Catalog → Bool) (s : Option Routing) : Prop :=
  ∀ routing, s = some routing → routing.Inv signed

structure TablesNext (signed : Catalog → Bool) (s s' : Option Routing) : Prop where
  inv : TablesInv signed s'
  forward : ∀ routing, s = some routing → ∃ routing', s' = some routing' ∧ routing.Forward routing'

theorem TablesNext.refl (h : TablesInv signed s) : TablesNext signed s s :=
  ⟨h, fun routing hS => ⟨routing, hS, .refl routing⟩⟩

theorem TablesNext.some (hInv : routing'.Inv signed) (hForward : routing.Forward routing') :
    TablesNext signed (some routing) (some routing') := by
  refine ⟨fun _ h => ?_, fun _ h => ?_⟩
  · cases h
    exact hInv
  · cases h
    exact ⟨routing', rfl, hForward⟩

theorem TablesNext.trans {s'' : Option Routing} (h : TablesNext signed s s')
    (h' : TablesNext signed s' s'') : TablesNext signed s s'' := by
  refine ⟨h'.inv, fun routing hS => ?_⟩
  obtain ⟨routing', hS', hFirst⟩ := h.forward routing hS
  obtain ⟨routing'', hS'', hSecond⟩ := h'.forward routing' hS'
  exact ⟨routing'', hS'', hFirst.trans hSecond⟩

/-! ## Calls -/

theorem replayed_cases {repeated : Bool} (h : routing.replayed operation request = .ok repeated) :
    repeated = true ∧ (∃ event, routing.event operation = some event ∧ event.request = request) ∨
      repeated = false ∧ routing.event operation = none := by
  unfold Routing.replayed at h
  split at h
  · rename_i event hEvent
    obtain ⟨_, hSame, h⟩ := bind_ok h
    cases h
    exact .inl ⟨rfl, event, hEvent, demand_ok hSame⟩
  · rename_i hNone
    cases h
    exact .inr ⟨rfl, hNone⟩

def Replays (operation : String) (request : RoutingRequest) (s s' : Option Routing) : Prop :=
  ∀ routing event, s = some routing → routing.event operation = some event → s' = s ∧
    event.request = request

theorem Replays.of_event {event : RoutingEvent} (hEvent : routing.event operation = some event)
    (hSame : event.request = request) :
    Replays operation request (some routing) (some routing) := by
  rintro _ found ⟨⟩ hFound
  cases hEvent.symm.trans hFound
  exact ⟨rfl, hSame⟩

theorem Replays.of_none (hNone : routing.event operation = none) :
    Replays operation request (some routing) s' := by
  rintro _ found ⟨⟩ hFound
  rw [hNone] at hFound
  cases hFound

theorem Routing.Inv.record (h : routing.Inv signed) (event : RoutingEvent)
    (hNew : routing.event event.operation = none) :
    Rows.Keyed RoutingEvent.operation (routing.events ++ [event]) ∧
      ∀ operation old, routing.event operation = some old →
        Rows.get RoutingEvent.operation operation (routing.events ++ [event]) = some old := by
  exact ⟨h.events.append hNew, fun _ _ => Rows.get_append_of_some event⟩

theorem ensures_install (hRegistry : r.Inv) (hInv : TablesInv signed s) (legacyRaw : Catalog) :
    (install r policy legacyRaw operation).Ensures
      (fun _ s' => TablesNext signed s s' ∧ Replays operation (.install policy.val) s s') s := by
  refine bind_require fun _ => bind_require fun _ => bind_get ?_
  cases s with
  | some current =>
    refine bind_require fun _ => bind_lift fun repeated hRepeated => ?_
    refine bind_require fun hYes => ensures_pure ⟨.refl hInv, ?_⟩
    rcases replayed_cases hRepeated with ⟨-, event, hEvent, hSame⟩ | ⟨hNo, -⟩
    · exact .of_event hEvent hSame
    · rw [hNo] at hYes
      cases hYes
  | none =>
    refine bind_found fun route hRoute => bind_set (ensures_pure ⟨⟨?_, nofun⟩, nofun⟩)
    rintro _ ⟨⟩
    constructor
    case policy => exact policy.property
    case generation => rfl
    case assignments =>
      have hKeys : (r.devices.map (seeded policy.val.legacy route)).map Assignment.device =
          r.devices.map Device.device := by
        rw [List.map_map]
        rfl
      change ((r.devices.map (seeded policy.val.legacy route)).map Assignment.device).Nodup
      rw [hKeys]
      exact hRegistry.devices
    case routed =>
      intro a hA
      obtain ⟨d, -, rfl⟩ := List.mem_map.mp hA
      exact ⟨route, hRoute, rfl, rfl⟩
    case events => exact List.nodup_singleton _

theorem ensures_replacePolicy {previous replacement : Policy signed} (hInv : TablesInv signed s) :
    (replacePolicy previous replacement operation).Ensures
      (fun _ s' => TablesNext signed s s' ∧ Replays operation
        (.replacePolicy previous.val replacement.val) s s' ∧
        s'.map (·.assignments) = s.map (·.assignments)) s := by
  refine bind_require fun hRetained => bind_require fun _ => bind_get ?_
  refine bind_found fun current hCurrent => ?_
  subst hCurrent
  refine bind_require fun _ => bind_require fun _ => bind_lift fun repeated hRepeated => ?_
  have hNow := hInv current rfl
  rcases replayed_cases hRepeated with ⟨rfl, event, hEvent, hSame⟩ | ⟨rfl, hNew⟩
  · exact ensures_pure ⟨.refl hInv, .of_event hEvent hSame, rfl⟩
  · refine bind_require fun hPrevious => bind_set (ensures_pure ⟨.some ?_ ?_, .of_none hNew, rfl⟩)
    · refine ⟨replacement.property, rfl, hNow.assignments, fun a hA => ?_, (hNow.record _ hNew).1⟩
      obtain ⟨route, hRoute, hNode, hSequence⟩ := hNow.routed a hA
      rw [hPrevious] at hRoute
      exact ⟨route, hRetained.kept hRoute, hNode, hSequence⟩
    · exact ⟨fun _ a hA => ⟨a, hA, .inl rfl⟩, (hNow.record _ hNew).2⟩

structure Assigned (signed : Catalog → Bool) (device : String) (catalog : Catalog)
    (routing routing' : Routing) : Prop where
  inv : routing'.Inv signed
  forward : routing.Forward routing'
  policy : routing'.policy = routing.policy
  generation : routing'.generation = routing.generation
  events : routing'.events = routing.events
  row : ∃ a, routing'.assignment device = some a ∧ a.catalog = catalog

theorem Routing.Inv.assign (h : routing.Inv signed)
    (hAssign : routing.assign r routing.policy device = .ok (catalog, routing')) :
    Assigned signed device catalog routing routing' := by
  obtain ⟨_, -, hAssign⟩ := bind_ok hAssign
  obtain ⟨_, -, hAssign⟩ := bind_ok hAssign
  split at hAssign
  · rename_i hNone
    obtain ⟨route, hRoute, hAssign⟩ := bind_ok hAssign
    cases hAssign
    constructor
    case inv =>
      refine ⟨h.policy, h.generation, h.assignments.append hNone, ?_, h.events⟩
      exact Rows.forall_append h.routed ⟨route, given_ok hRoute, rfl, rfl⟩
    case forward =>
      exact ⟨fun _ a hA => ⟨a, Rows.get_append_of_some _ hA, .inl rfl⟩, fun _ _ hEvent => hEvent⟩
    case policy | generation | events => rfl
    case row => exact ⟨_, Rows.get_append_of_none hNone rfl, rfl⟩
  · rename_i assigned hAssigned
    obtain ⟨_, -, hAssign⟩ := bind_ok hAssign
    obtain ⟨_, -, hAssign⟩ := bind_ok hAssign
    cases hAssign
    exact ⟨h, .refl _, rfl, rfl, rfl, assigned, hAssigned, rfl⟩

theorem Routing.Inv.assigns (h : routing.Inv signed) (hHex : hex 32 device = true)
    (hActive : r.active device = true) :
    ∃ catalog routing', routing.assign r routing.policy device = .ok (catalog, routing') := by
  unfold Routing.assign
  simp only [demand, hHex, hActive, if_true]
  cases hRow : routing.assignment device with
  | none =>
    obtain ⟨route, hRoute⟩ := Option.ne_none_iff_exists'.mp h.policy.admitted
    let row : Assignment := ⟨device, routing.policy.admitted, route.node, route.sequence⟩
    refine ⟨routing.policy.admitted, { routing with assignments := routing.assignments ++ [row] }, ?_⟩
    change (given (routing.policy.route routing.policy.admitted) RoutingFailure.refused >>= _) = _
    rw [hRoute]
    rfl
  | some assigned =>
    obtain ⟨route, hRoute, hNode, hSequence⟩ := h.routed assigned (Rows.mem_of_get hRow)
    refine ⟨assigned.catalog, routing, ?_⟩
    change (given (routing.policy.route assigned.catalog) RoutingFailure.refused >>= _) = _
    rw [hRoute]
    exact both_ok_iff.mpr ⟨demand_iff.mpr ⟨hNode, hSequence⟩, rfl⟩

structure Serves (signed : Catalog → Bool) (device : String) (catalog : Catalog)
    (s s' : Option Routing) : Prop where
  next : TablesNext signed s s'
  row : ∃ routing' a, s' = some routing' ∧ routing'.assignment device = some a ∧ a.catalog = catalog

theorem ensures_configuration (hInv : TablesInv signed s) (files : Document → Bool)
    (country : Country) : (configuration files r country device).Ensures
      (fun reply s' => TablesNext signed s s' ∧ ∀ catalog host, reply = some (catalog, host) →
        Serves signed device catalog s s') s := by
  refine bind_get ?_
  cases s with
  | none => exact ensures_pure ⟨.refl hInv, nofun⟩
  | some current =>
    refine bind_require fun _ => bind_require fun _ => bind_lift fun result hAssign => ?_
    obtain ⟨catalog, routing'⟩ := result
    have hAssigned := (hInv current rfl).assign hAssign
    have hNext : TablesNext signed (some current) (some routing') :=
      .some hAssigned.inv hAssigned.forward
    refine bind_set (bind_require fun _ => ensures_pure ⟨hNext, ?_⟩)
    rintro _ _ ⟨⟩
    obtain ⟨a, hA, hCatalog⟩ := hAssigned.row
    exact ⟨hNext, routing', a, rfl, hA, hCatalog⟩

theorem configuration_serves (h : routing.Inv signed) (hFiles : files routing.policy = true)
    (country : Country) (hHex : hex 32 device = true) (hActive : r.active device = true) :
    ∃ catalog host routing', configuration files r country device (some routing) = .ok
      (some (catalog, host), some routing') := by
  obtain ⟨catalog, routing', hAssign⟩ := h.assigns hHex hActive
  obtain ⟨a, hA, rfl⟩ := (h.assign hAssign).row
  obtain ⟨route, hRoute, -⟩ := (h.assign hAssign).inv.routed a (Rows.mem_of_get hA)
  obtain ⟨-, -, hRu, hNl⟩ := (h.assign hAssign).inv.policy.route_verified hRoute
  have hUsable : (a.catalog.payload.gateway country).server.usable := by
    cases country with
    | ru => exact hRu
    | nl => exact hNl
  refine ⟨a.catalog, (a.catalog.payload.gateway country).server, routing', ?_⟩
  rw [configuration, run_bind run_get]
  change (require _ _ >>= _ : RoutingTx _) (some routing) = _
  rw [run_bind (run_require _ hFiles), run_bind (run_require _ h.generation),
    run_bind (run_lift hAssign)]
  change (set (some routing') >>= _ : RoutingTx _) (some routing) = _
  refine Eq.trans (run_bind rfl) ?_
  rw [run_bind (run_require _ hUsable)]
  rfl

def assignActive (r : Registry) (device : String) : RoutingTx Catalog := do
  let current ← found (← get) .refused
  let (catalog, routing) ← current.assign r current.policy device
  set (some routing)
  pure catalog

theorem ensures_assignActive (hInv : TablesInv signed s) :
    (assignActive r device).Ensures (fun _ s' => TablesNext signed s s') s := by
  refine bind_get (bind_found fun current hCurrent => ?_)
  subst hCurrent
  refine bind_lift fun result hAssign => bind_set (ensures_pure ?_)
  have hAssigned := (hInv current rfl).assign hAssign
  exact .some hAssigned.inv hAssigned.forward

theorem ensures_move (hInv : TablesInv signed s) (expected destination : Catalog) :
    (move r policy device expected destination operation).Ensures
      (fun _ s' => TablesNext signed s s' ∧ Replays operation
        (.assign device expected destination policy.val operation) s s') s := by
  refine bind_require fun _ => bind_found fun before hBefore => bind_found fun after hAfter => ?_
  refine bind_require fun hOrder => bind_get (bind_found fun current hCurrent => ?_)
  subst hCurrent
  refine bind_require fun hActive => bind_lift fun repeated hRepeated => ?_
  have hNow := hInv current rfl
  rcases replayed_cases hRepeated with ⟨rfl, event, hEvent, hSame⟩ | ⟨rfl, hNew⟩
  · exact ensures_pure ⟨.refl hInv, .of_event hEvent hSame⟩
  · refine bind_lift fun result hAssign => ?_
    obtain ⟨catalog, routing'⟩ := result
    refine bind_require fun hExpected => bind_set (ensures_pure ⟨?_, .of_none hNew⟩)
    rw [← hActive.1] at hAssign hBefore hAfter
    have hAssigned := hNow.assign hAssign
    have hNew' : routing'.event operation = none := by
      rw [Routing.event, hAssigned.events]
      exact hNew
    rw [← hAssigned.policy] at hBefore hAfter
    refine .some ⟨hAssigned.inv.policy, hAssigned.inv.generation, hAssigned.inv.assignments.put _, ?_,
      (hAssigned.inv.record _ hNew').1⟩
      (hAssigned.forward.trans ⟨fun other a hA => ?_, (hAssigned.inv.record _ hNew').2⟩)
    · exact Rows.forall_put hAssigned.inv.routed ⟨after, hAfter, rfl, rfl⟩
    · -- The old row of the device is the expected one.
      change ∃ a', Rows.get Assignment.device other
        (Rows.put Assignment.device _ routing'.assignments) = some a' ∧ _
      rw [Rows.get_put]
      split
      · rename_i hSame
        refine ⟨_, rfl, .inr ?_⟩
        obtain ⟨old, hOld, hCatalog⟩ := hAssigned.row
        change device = other at hSame
        subst hSame
        cases hA.symm.trans hOld
        obtain ⟨route, hRoute, -, hSequence⟩ := hAssigned.inv.routed a (Rows.mem_of_get hA)
        rw [hCatalog, hExpected, hBefore] at hRoute
        cases hRoute
        rw [hSequence]
        exact hOrder
      · exact ⟨a, hA, .inl rfl⟩

/-! ## Runs -/

inductive RoutingCall (signed : Catalog → Bool) where
  | install (policy : Policy signed) (legacyRaw : Catalog) (operation : String)
  | replacePolicy (previous replacement : Policy signed) (operation : String)
  | assign (device : String)
  | configuration (files : Document → Bool) (country : Country) (device : String)
  | move (policy : Policy signed) (device : String) (expected destination : Catalog)
      (operation : String)

namespace RoutingCall

def run (r : Registry) : RoutingCall signed → RoutingTx Unit
  | .install policy legacyRaw operation => do
    let _ ← Friends.install r policy legacyRaw operation
    pure ()
  | .replacePolicy previous replacement operation => do
    let _ ← Friends.replacePolicy previous replacement operation
    pure ()
  | .assign device => do
    let _ ← assignActive r device
    pure ()
  | .configuration files country device => do
    let _ ← Friends.configuration files r country device
    pure ()
  | .move policy device expected destination operation => do
    let _ ← Friends.move r policy device expected destination operation
    pure ()

def asks : RoutingCall signed → Option (String × RoutingRequest)
  | .install policy _ operation => some (operation, .install policy.val)
  | .replacePolicy previous replacement operation =>
      some (operation, .replacePolicy previous.val replacement.val)
  | .move policy device expected destination operation =>
      some (operation, .assign device expected destination policy.val operation)
  | _ => none

end RoutingCall

variable {call : RoutingCall signed}

theorem ensures_run (hRegistry : r.Inv) (hInv : TablesInv signed s) : (call.run r).Ensures
    (fun _ s' => TablesNext signed s s' ∧ ∀ operation request,
      call.asks = some (operation, request) → Replays operation request s s') s := by
  cases call with
  | install policy legacyRaw operation =>
    refine ensures_bind ((ensures_install hRegistry hInv legacyRaw).mono
      fun _ s' h => ensures_pure ⟨h.1, ?_⟩)
    rintro _ _ ⟨⟩
    exact h.2
  | replacePolicy previous replacement operation =>
    refine ensures_bind ((ensures_replacePolicy hInv).mono fun _ s' h => ensures_pure ⟨h.1, ?_⟩)
    rintro _ _ ⟨⟩
    exact h.2.1
  | assign device =>
    exact ensures_bind ((ensures_assignActive hInv).mono
      fun _ s' h => ensures_pure ⟨h, fun _ _ hAsks => (by cases hAsks)⟩)
  | configuration files country device =>
    exact ensures_bind ((ensures_configuration hInv files country).mono
      fun _ s' h => ensures_pure ⟨h.1, fun _ _ hAsks => (by cases hAsks)⟩)
  | move policy device expected destination operation =>
    refine ensures_bind ((ensures_move hInv expected destination).mono
      fun _ s' h => ensures_pure ⟨h.1, ?_⟩)
    rintro _ _ ⟨⟩
    exact h.2

structure Fleetwide where
  registry : Registry := {}
  tables : Option Routing := none
  sent : String → List Catalog := fun _ => []
  clients : String → Store := fun _ => {}

def Store.after (store : Store) : Except StoreFailure Store → Store
  | .ok store' => store'
  | .error _ => store

inductive Fleetwide.Step (setting : Setting) (signed : Catalog → Bool) :
    Fleetwide → Fleetwide → Prop where
  | access {w : Fleetwide} (now : Nat) (call : Call) :
      Step setting signed w { w with registry := (call.perform setting now w.registry).2 }
  | revokeInvite {w : Fleetwide} (hash : String) :
      Step setting signed w { w with registry := w.registry.revokeInvite hash }
  | call {w : Fleetwide} (call : RoutingCall signed) :
      Step setting signed w { w with tables := ((call.run w.registry).commit w.tables).2 }
  | fetch {w : Fleetwide} (files : Document → Bool) (country : Country) (device : String)
      (catalog : Catalog) (host : Host)
      (tables : Option Routing) : (configuration files w.registry country device).commit w.tables =
      (.ok (some (catalog, host)), tables) → Step setting signed w
        { w with
          tables := tables
          sent := Function.update w.sent device (w.sent device ++ [catalog])
          clients := Function.update w.clients device ((w.clients device).after
            ((w.clients device).accept signed country catalog)) }
  | lost {w : Fleetwide} (files : Document → Bool) (country : Country) (device : String)
      (catalog : Catalog) (host : Host)
      (tables : Option Routing) : (configuration files w.registry country device).commit w.tables =
      (.ok (some (catalog, host)), tables) → Step setting signed w
        { w with tables := tables, sent := Function.update w.sent device (w.sent device ++ [catalog]) }
  | merge {w : Fleetwide} (device : String) (catalog : Catalog) : catalog ∈ w.sent device →
      Step setting signed w
        { w with clients := Function.update w.clients device ((w.clients device).after ((w.clients device).merge signed catalog)) }

def fleetwide (setting : Setting) (signed : Catalog → Bool) : System Fleetwide where
  initial w := w = {}
  step := Fleetwide.Step setting signed

variable {setting : Setting} {w w' : Fleetwide} {list : List Catalog}

structure Sent (signed : Catalog → Bool) (device : String) (s : Option Routing)
    (list : List Catalog) : Prop where
  verified : ∀ c ∈ list, c.Verified signed
  rows : ∀ c ∈ list, ∃ routing a, s = some routing ∧ routing.assignment device = some a ∧
    (c = a.catalog ∨ c.sequence < a.sequence)
  ordered : list.Pairwise fun c c' => c = c' ∨ c.sequence < c'.sequence

theorem Routing.Inv.sequence {a : Assignment} (h : routing.Inv signed)
    (hA : routing.assignment device = some a) : a.sequence = a.catalog.sequence := by
  obtain ⟨route, hRoute, -, hSequence⟩ := h.routed a (Rows.mem_of_get hA)
  exact hSequence.trans (Document.route_sequence hRoute)

theorem Sent.next (h : Sent signed device s list) (hInv : TablesInv signed s)
    (hNext : TablesNext signed s s') : Sent signed device s' list := by
  refine ⟨h.verified, fun c hC => ?_, h.ordered⟩
  obtain ⟨routing, a, hS, hA, hBelow⟩ := h.rows c hC
  obtain ⟨routing', hS', hForward⟩ := hNext.forward routing hS
  obtain ⟨a', hA', hChange⟩ := hForward.assignments device a hA
  refine ⟨routing', a', hS', hA', ?_⟩
  rcases hChange with rfl | hHigher
  · exact hBelow
  · rcases hBelow with rfl | hBelow
    · exact .inr ((hInv routing hS).sequence hA ▸ hHigher)
    · exact .inr (Nat.lt_trans hBelow hHigher)

theorem Sent.coherent (h : Sent signed device s list) : Store.Coherent signed list := by
  refine ⟨h.verified, ?_⟩
  have hPair : list.Pairwise fun c c' => c.sequence = c'.sequence → c.payload = c'.payload := by
    refine h.ordered.imp fun hOrder hSame => ?_
    rcases hOrder with rfl | hLt
    · rfl
    · exact absurd hSame (Nat.ne_of_lt hLt)
  have hFlip : list.Pairwise (flip fun c c' => c.sequence = c'.sequence → c.payload = c'.payload) :=
    hPair.imp fun hImp hSame => (hImp hSame.symm).symm
  exact fun a hA b hB => hPair.forall_of_forall_of_flip (fun _ _ _ => rfl) hFlip hA hB

theorem Sent.serve (h : Sent signed device s list) (hInv : TablesInv signed s)
    (hServes : Serves signed device catalog s s') :
    Sent signed device s' (list ++ [catalog]) ∧ catalog.Verified signed ∧
      ∀ c ∈ list, c.Precedes catalog := by
  obtain ⟨hVerified, hRows, hOrdered⟩ := h.next hInv hServes.next
  obtain ⟨routing, a, rfl, hA, rfl⟩ := hServes.row
  have hNow := hServes.next.inv routing rfl
  obtain ⟨route, hRoute, -⟩ := hNow.routed a (Rows.mem_of_get hA)
  have hLast := hNow.policy.route_verified hRoute
  have hBelow : ∀ c ∈ list, c = a.catalog ∨ c.sequence < a.catalog.sequence := by
    intro c hC
    obtain ⟨_, a', ⟨⟩, hA', hBelow⟩ := hRows c hC
    cases hA.symm.trans hA'
    rw [← hNow.sequence hA]
    exact hBelow
  refine ⟨⟨?_, ?_, ?_⟩, hLast, fun c hC => ?_⟩
  · exact Rows.forall_append hVerified hLast
  · exact Rows.forall_append hRows ⟨routing, a, rfl, hA, .inl rfl⟩
  · refine List.pairwise_append.mpr ⟨hOrdered, List.pairwise_singleton _ _, fun c hC last hNew => ?_⟩
    cases List.mem_singleton.mp hNew
    exact hBelow c hC
  · rcases hBelow c hC with rfl | hLt
    · exact ⟨Nat.le_refl _, fun _ => rfl⟩
    · exact ⟨Nat.le_of_lt hLt, fun hSame => absurd hSame (Nat.ne_of_lt hLt)⟩

structure Fleetwide.Inv (signed : Catalog → Bool) (w : Fleetwide) : Prop where
  registry : w.registry.Inv
  tables : TablesInv signed w.tables
  sent : ∀ device, Sent signed device w.tables (w.sent device)
  clients : ∀ device, (w.clients device).entries none ⊆ w.sent device

section

variable (h : w.Inv signed)
include h

section

variable {country : Country} {host : Host}
  (hReply : (configuration files w.registry country device).commit w.tables =
    (.ok (some (catalog, host)), s'))
include hReply

theorem Fleetwide.Inv.serves : Serves signed device catalog w.tables s' :=
  (ensures_configuration h.tables files country _ _ (commit_ok hReply)).2 catalog host rfl

theorem Fleetwide.Inv.accepts : (w.clients device).accept signed country catalog =
      .ok { w.clients device with cache := Rows.put Prod.fst (country, catalog) (w.clients device).cache } := by
  obtain ⟨-, hVerified, hNext⟩ := (h.sent device).serve h.tables (h.serves hReply)
  exact Store.accept_ok ((h.sent device).coherent.subset (h.clients device)) hVerified
    (fun c hC => hNext c (h.clients device hC)) country

end

theorem Fleetwide.Inv.sending (hServes : Serves signed device catalog w.tables s') :
    ∀ other, Sent signed other s' (Function.update w.sent device
      (w.sent device ++ [catalog]) other) := by
  refine (Function.forall_update_iff w.sent fun other list => Sent signed other s' list).mpr
    ⟨?_, fun other _ => ?_⟩
  · exact ((h.sent device).serve h.tables hServes).1
  · exact (h.sent other).next h.tables hServes.next

omit h in
theorem Store.after_entries {store : Store} {result : Except StoreFailure Store}
    (h : ∀ store', result = .ok store' → store'.entries none ⊆ catalog :: store.entries none) :
    (store.after result).entries none ⊆ catalog :: store.entries none := by
  cases result with
  | error failure => exact List.subset_cons_self _ _
  | ok store' => exact h store' rfl

theorem Fleetwide.Inv.step (hStep : Fleetwide.Step setting signed w w') :
    w'.Inv signed ∧ TablesNext signed w.tables w'.tables := by
  cases hStep with
  | access now call =>
    exact ⟨⟨(h.registry.perform now call).inv, h.tables, h.sent, h.clients⟩, .refl h.tables⟩
  | revokeInvite hash =>
    exact ⟨⟨(h.registry.revokeInvite hash).inv, h.tables, h.sent, h.clients⟩, .refl h.tables⟩
  | call call =>
    have hNext : TablesNext signed w.tables ((call.run w.registry).commit w.tables).2 :=
      (ensures_run h.registry h.tables).commit (fun s' => TablesNext signed w.tables s')
        (.refl h.tables) fun _ _ hPost => hPost.1
    exact ⟨⟨h.registry, hNext.inv, fun device => (h.sent device).next h.tables hNext, h.clients⟩,
      hNext⟩
  | fetch files country device catalog host tables hReply =>
    have hServes := h.serves hReply
    refine ⟨⟨h.registry, hServes.next.inv, h.sending hServes, fun other => ?_⟩, hServes.next⟩
    by_cases hSame : other = device
    · subst hSame
      change (Function.update w.clients other _ other).entries none ⊆ Function.update w.sent other
        _ other
      rw [Function.update_self, Function.update_self]
      refine List.Subset.trans (Store.after_entries fun _ => Store.entries_accept)
        (List.cons_subset.mpr ⟨?_, ?_⟩)
      · exact List.mem_append_right _ (List.mem_singleton_self _)
      · exact List.Subset.trans (h.clients other) (List.subset_append_left _ _)
    · change (Function.update w.clients device _ other).entries none ⊆ Function.update w.sent device
        _ other
      rw [Function.update_of_ne hSame, Function.update_of_ne hSame]
      exact h.clients other
  | lost files country device catalog host tables hReply =>
    have hServes := h.serves hReply
    have hMore := (Function.forall_update_iff (b := w.sent device ++ [catalog]) w.sent
      fun other list => w.sent other ⊆ list).mpr
      ⟨List.subset_append_left _ _, fun other _ => List.Subset.refl _⟩
    exact ⟨⟨h.registry, hServes.next.inv, h.sending hServes,
      fun other => List.Subset.trans (h.clients other) (hMore other)⟩, hServes.next⟩
  | merge device catalog hSent =>
    refine ⟨⟨h.registry, h.tables, h.sent, ?_⟩, .refl h.tables⟩
    refine (Function.forall_update_iff w.clients
      fun other store => store.entries none ⊆ w.sent other).mpr
      ⟨?_, fun other _ => h.clients other⟩
    exact List.Subset.trans (Store.after_entries fun _ => Store.entries_merge)
      (List.cons_subset.mpr ⟨hSent, h.clients device⟩)

theorem Fleetwide.Inv.steps (hSteps : Relation.ReflTransGen (fleetwide setting signed).step w w') :
    w'.Inv signed ∧ TablesNext signed w.tables w'.tables := by
  induction hSteps with
  | refl => exact ⟨h, .refl h.tables⟩
  | tail _ hStep ih =>
    obtain ⟨hInv, hNext⟩ := ih.1.step hStep
    exact ⟨hInv, ih.2.trans hNext⟩

omit h in
theorem Fleetwide.Inv.reachable (h : (fleetwide setting signed).Reachable w) : w.Inv signed := by
  refine h.invariant ?_ fun _ _ _ hInv hStep => (hInv.step hStep).1
  rintro _ rfl
  refine ⟨.empty, nofun, fun device => ⟨nofun, nofun, .nil⟩, fun device => List.nil_subset _⟩

structure Fleetwide.Reliable (signed : Catalog → Bool) (w : Fleetwide) : Prop where
  routed : ∀ routing, w.tables = some routing → ∀ device a, routing.assignment device = some a →
    a.Routed routing.policy
  served : ∀ routing, w.tables = some routing → ∀ files : Document →
    Bool, files routing.policy = true → ∀ country device, hex 32 device = true →
      w.registry.active device = true → ∃ catalog host,
        ((configuration files w.registry country device).commit w.tables).1 = .ok
        (some (catalog, host))
  replaced : ∀ (previous replacement : Policy signed) operation,
    ((replacePolicy previous replacement operation).commit w.tables).2.map
      (·.assignments) = w.tables.map (·.assignments)
  repeated : ∀ (call : RoutingCall signed) operation request,
    call.asks = some (operation, request) → ∀ routing event, w.tables = some routing →
      routing.event operation = some event → ((call.run w.registry).commit w.tables).2 = w.tables ∧
        (event.request ≠ request → ∃ failure, ((call.run w.registry).commit w.tables).1 = .error
        failure)
  ordered : ∀ device, (w.sent device).Pairwise Catalog.Precedes
  accepted : ∀ files country device catalog host tables,
    (configuration files w.registry country device).commit w.tables =
      (.ok (some (catalog, host)), tables) → ∃ store,
        (w.clients device).accept signed country catalog = .ok store

theorem Fleetwide.Inv.reliable : w.Reliable signed := by
  constructor
  case routed =>
    exact fun routing hTables device a hA => (h.tables routing hTables).routed a
      (Rows.mem_of_get hA)
  case served =>
    intro routing hTables files hFiles country device hHex hActive
    obtain ⟨catalog, host, routing', hRun⟩ := configuration_serves
      (h.tables routing hTables) hFiles country hHex hActive
    rw [hTables, commit_of_run hRun]
    exact ⟨catalog, host, rfl⟩
  case replaced =>
    intro previous replacement operation
    exact (ensures_replacePolicy h.tables).commit
      (fun s' => s'.map (·.assignments) = w.tables.map (·.assignments)) rfl fun _ _ hPost =>
      hPost.2.2
  case repeated =>
    intro call operation request hAsks routing event hTables hEvent
    have hRun : (call.run w.registry).Ensures (fun _ s' => s' = w.tables ∧
        event.request = request) w.tables :=
      (ensures_run h.registry h.tables).mono fun _ _ hPost =>
        hPost.2 operation request hAsks routing event hTables hEvent
    refine ⟨hRun.commit (fun s' => s' = w.tables) rfl fun _ _ hPost => hPost.1, fun hOther => ?_⟩
    cases hResult : ((call.run w.registry).commit w.tables).1 with
    | error failure => exact ⟨failure, rfl⟩
    | ok result => exact absurd (hRun.committed hResult).2 hOther
  case ordered =>
    intro device
    refine (h.sent device).ordered.imp fun hOrder => ?_
    rcases hOrder with rfl | hLt
    · exact ⟨Nat.le_refl _, fun _ => rfl⟩
    · exact ⟨Nat.le_of_lt hLt, fun hSame => absurd hSame (Nat.ne_of_lt hLt)⟩
  case accepted => exact fun files country device catalog host tables hReply => ⟨_, h.accepts hReply⟩

end

theorem reachable_registry {encoding : Encoding} {b : Books}
    (h : (history setting encoding).Reachable b) :
    (fleetwide setting signed).Reachable { registry := b.registry } := by
  induction h with
  | start hInitial =>
    cases hInitial
    exact .start rfl
  | next _ hStep ih =>
    cases hStep with
    | wait | event => exact ih
    | access now call hDraws => exact ih.next (.access now call)
    | revokeInvite hash => exact ih.next (.revokeInvite hash)

namespace Sample

def entryAt (n : UInt8) : GatewayEntry := ⟨⟨192, 0, 2, n⟩, [⟨192, 0, 2, n⟩], "awg"⟩

def catalogAt (sequence : Nat) (n : UInt8) : Catalog :=
  ⟨⟨sequence, entryAt 10, entryAt n⟩, "signature"⟩

def everySignature : Catalog → Bool := fun _ => true

def twoNodes : Policy everySignature where
  val :=
    { generation := 1, legacy := catalogAt 1 20, admitted := catalogAt 1 20
      catalogs := [⟨"nl-first", catalogAt 1 20⟩, ⟨"nl-second", catalogAt 2 21⟩] }
  property := by
    constructor
    case catalogs =>
      unfold Rows.Keyed
      decide
    all_goals decide

def called (w : Fleetwide) (call : RoutingCall everySignature) : Fleetwide :=
  { w with tables := ((call.run w.registry).commit w.tables).2 }

def routed : Fleetwide := called { registry := crowd 1 }
    (.install twoNodes (catalogAt 1 20) "install-1")

def fetched : Fleetwide :=
  { routed with
    tables := ((configuration (fun _ => true) routed.registry .nl (nameOf 0)).commit routed.tables).2
    sent := Function.update routed.sent (nameOf 0) (routed.sent (nameOf 0) ++ [catalogAt 1 20])
    clients := Function.update routed.clients (nameOf 0)
      ((routed.clients (nameOf 0)).after ((routed.clients (nameOf 0)).accept everySignature .nl
        (catalogAt 1 20))) }

def moved : Fleetwide :=
  called fetched (.move twoNodes (nameOf 0) (catalogAt 1 20) (catalogAt 2 21) "operation-1")

theorem reachable_routed : (fleetwide plain everySignature).Reachable routed :=
  (reachable_registry (reachable_crowd (by decide : 1 ≤ 2 ^ 32))).next (.call _)

theorem configuration_routed :
    ((configuration (fun _ => true) routed.registry .nl (nameOf 0)).commit routed.tables).1 = .ok
    (some (catalogAt 1 20, ⟨192, 0, 2, 20⟩)) := by
  decide +kernel

theorem reachable_moved : (fleetwide plain everySignature).Reachable moved := by
  have hFetched : (fleetwide plain everySignature).Reachable fetched := by
    refine reachable_routed.next (.fetch (fun _ => true) .nl (nameOf 0) (catalogAt 1 20)
      ⟨192, 0, 2, 20⟩ _ ?_)
    rw [← configuration_routed]
  exact hFetched.next (.call _)

end Sample

/-- Whatever is installed, replaced, assigned and moved, the clients accept every configuration that
they are served, and no assignment goes back. -/
theorem gateway_routing (hReachable : (fleetwide setting signed).Reachable w) :
    w.Reliable signed ∧ ∀ later, Relation.ReflTransGen (fleetwide setting signed).step w later →
      ∀ routing, w.tables = some routing → ∃ routing', later.tables = some routing' ∧
        routing.Forward routing' := by
  have hInv := Fleetwide.Inv.reachable hReachable
  exact ⟨hInv.reliable, fun later hSteps => (hInv.steps hSteps).2.forward⟩

open Sample

/-- A device with a configuration is moved, and its client takes the next one. -/
theorem gateway_routing_moved : (moved.clients (nameOf 0)).cache = [(.nl, catalogAt 1 20)] ∧
    ((configuration (fun _ => true) moved.registry .nl (nameOf 0)).commit moved.tables).1 =
      .ok (some (catalogAt 2 21, ⟨192, 0, 2, 21⟩)) ∧
    ∃ store, (moved.clients (nameOf 0)).accept everySignature .nl (catalogAt 2 21) = .ok store := by
  obtain ⟨hReliable, -⟩ := gateway_routing reachable_moved
  have hReply : ((configuration (fun _ => true) moved.registry .nl (nameOf 0)).commit moved.tables).1 =
      .ok (some (catalogAt 2 21, ⟨192, 0, 2, 21⟩)) := by decide +kernel
  refine ⟨by decide +kernel, hReply, ?_⟩
  exact hReliable.accepted (fun _ => true) .nl (nameOf 0) (catalogAt 2 21) ⟨192, 0, 2, 21⟩ _
    (Prod.ext hReply rfl)

end FamilyConnect.Friends
