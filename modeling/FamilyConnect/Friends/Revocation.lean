import FamilyConnect.Friends.RoutingHistory

/-!
# Configuration requests and revocation

Source: the configuration request of `deploy/friends/access-api.py`, `configuration` of
`control/friends/gateway_selection.py` and `configuration_decision` of
`control/friends/transport_policy.py`. A request has been served when the gateway is
asked to register the device.
-/

namespace FamilyConnect.Friends

open Lib Transaction

structure SelectionCatalog where
  sequence : Nat
  amsterdam1 : GatewayEntry
  amsterdam2 : GatewayEntry
  signature : String
  deriving DecidableEq

def SelectionCatalog.gateway (catalog : SelectionCatalog) : GatewayChoice → GatewayEntry
  | .amsterdam1 => catalog.amsterdam1
  | .amsterdam2 => catalog.amsterdam2

def GatewayChoice.node : GatewayChoice → String
  | .amsterdam1 => "nl-amsterdam-1"
  | .amsterdam2 => "nl-amsterdam-2"

structure Selection where
  policy : Document
  catalog : SelectionCatalog
  sequence : Nat

structure Root where
  policies : Document → Bool
  selections : SelectionCatalog → Bool
  catalogFile : Option Catalog
  enforcement : Option (Host → Option Node)

structure Server where
  registry : Registry
  paid : Paid := {}
  tables : Option Routing := none
  selection : Option Selection := none

inductive RequestFailure where
  | access (failure : Failure)
  | routing (failure : RoutingFailure)
  | policy (failure : PolicyFailure)
  | rejected
  | invalid
  deriving DecidableEq

inductive Target where
  | country (country : Country)
  | gateway (choice : GatewayChoice)
  deriving DecidableEq

def Target.purpose : Target → Purpose
  | .country .ru => .ru
  | .country .nl => .nl
  | .gateway choice => .gateway choice

def Document.newest (document : Document) (node : String) : Option CatalogRecord :=
  (document.catalogs.filter fun record => decide (record.node = node)).foldl
    (fun best record =>
      match best with
      | none => some record
      | some other =>
        if other.catalog.sequence < record.catalog.sequence then some record else some other) none

def Selection.Bound (document : Document) (catalog : SelectionCatalog) : Prop :=
  (document.newest GatewayChoice.amsterdam1.node).any
    (fun record => decide (record.catalog.payload.nl = catalog.amsterdam1)) = true ∧
      (document.newest GatewayChoice.amsterdam2.node).any
      (fun record => decide (record.catalog.payload.nl = catalog.amsterdam2)) = true

instance (document : Document) (catalog : SelectionCatalog) :
    Decidable (Selection.Bound document catalog) :=
  inferInstanceAs (Decidable (_ ∧ _))

/-- `configuration` of `gateway_selection` -/
def selected (root : Root) (server : Server) (choice : GatewayChoice) (device : String) :
    Except RequestFailure Host := do
  demand (server.registry.active device = true) .rejected
  let selection ← given server.selection .invalid
  let active ← given server.tables .invalid
  demand (selection.policy = active.policy) .invalid
  demand (root.policies active.policy = true ∧ root.selections selection.catalog = true ∧
    Selection.Bound active.policy selection.catalog) .invalid
  demand (selection.catalog.sequence = selection.sequence) .invalid
  pure (selection.catalog.gateway choice).server

/-- The end of `configuration_catalog`: the only catalog, from its file. -/
def fallback (root : Root) (country : Country) : Except RequestFailure Host := do
  let catalog ← given root.catalogFile .invalid
  let host := (catalog.payload.gateway country).server
  demand host.usable .invalid
  pure host

/-- `configuration_decision`, if the transports are enforced. -/
def enforced (root : Root) (server : Server) (now : Nat) (host : Host) (record : Configured) :
    Except RequestFailure Unit :=
  match root.enforcement with
  | none => pure ()
  | some hosts => do
    let node ← given (hosts host) .invalid
    let envelope ← (readSnapshot server.registry server.paid node now (some record.device)).mapError
      .policy
    let decision ← given envelope.decisions.head? .invalid
    demand (decision.allowed = true) .rejected
    demand (decision.publicKey = record.publicKey ∧ decision.tcpId = record.tcpId) .invalid

/-- The host whose configuration is for the device, and the tables that this leaves. -/
def located (root : Root) (server : Server) (target : Target) (device : String) :
    Except RequestFailure (Host × Option Routing) :=
  match target with
  | .gateway choice => do
    let host ← selected root server choice device
    pure (host, server.tables)
  | .country country =>
    match (configuration root.policies server.registry country device).commit server.tables with
    | (.error failure, _) => .error (.routing failure)
    | (.ok (some (_, host)), tables) => .ok (host, tables)
    | (.ok none, tables) => do
      let host ← fallback root country
      pure (host, tables)

def configurationRequest (setting : Setting) (root : Root) (now : Nat) (uuid : String)
    (draws : List String) (proof : Proof) (target : Target) (server : Server) :
    Except RequestFailure Configured × Server :=
  match (complete setting now uuid draws proof target.purpose).commit server.registry with
  | (.error failure, registry) => (.error (.access failure), { server with registry := registry })
  | (.ok record, registry) =>
    let completed := { server with registry := registry }
    match located root completed target record.device with
    | .error failure => (.error failure, completed)
    | .ok (host, tables) =>
      let found := { completed with tables := tables }
      match enforced root found now host record with
      | .error failure => (.error failure, found)
      | .ok () => (.ok record, found)

/-! ## Who is served -/

variable {setting : Setting} {encoding : Encoding} {root : Root} {now : Nat} {uuid device : String}
  {draws : List String} {proof : Proof} {target : Target} {purpose : Purpose} {r r' : Registry}
  {server server' : Server} {record : Configured} {b : Books} {host : Host} {row : Device}

def Registry.invited (r : Registry) (device : String) : Prop :=
  ∀ i ∈ r.invites, i.device = some device → i.revoked = false

theorem Registry.Inv.invited_of (h : r.Inv) {i : Invite} (hI : i ∈ r.invites)
    (hDevice : i.device = some device) (hValid : i.revoked = false) : r.invited device := by
  intro j hJ hSame
  rw [← h.bound i hI j hJ device hDevice hSame]
  exact hValid

theorem Registry.inviteOf_some {i : Invite} (h : r.inviteOf device = some i) :
    i ∈ r.invites ∧ i.device = some device :=
  ⟨List.mem_of_find?_eq_some h, by simpa using List.find?_some h⟩

theorem Registry.Inv.invited_of_active (h : r.Inv) (hActive : r.active device = true) :
    r.invited device := by
  unfold Registry.active at hActive
  split at hActive
  · rename_i row invite hRow hInvite
    have hValid := ((Bool.and_eq_true _ _).mp hActive).2
    obtain ⟨hI, hDevice⟩ := Registry.inviteOf_some hInvite
    exact h.invited_of hI hDevice (Bool.not_eq_true' _ |>.mp hValid)
  · cases hActive

theorem Registry.Inv.invited_of_identity (h : r.Inv) (hIdentity : r.identity row = true) :
    r.invited row.device := by
  simp only [Registry.identity, Bool.and_eq_true, List.any_eq_true, decide_eq_true_eq] at hIdentity
  obtain ⟨-, i, hI, hDevice, hValid⟩ := hIdentity
  exact h.invited_of hI hDevice hValid

theorem Registry.invited.report (h : r.invited device) (hRow : r.device device = some row)
    (hValid : row.revoked = false) (hKeys : row.publicKey = proof.publicIdentity ∧
      row.wg = proof.wg) : (r.report proof device).active = true := by
  have hNone : (r.inviteOf device).any (·.revoked) = false := by
    cases hInvite : r.inviteOf device with
    | none => rfl
    | some i =>
      obtain ⟨hI, hDevice⟩ := Registry.inviteOf_some hInvite
      exact h i hI hDevice
  simp [Registry.report, hRow, hValid, hNone, hKeys]

theorem Registry.Inv.invited_of_report (h : r.Inv)
    (hActive : (r.report proof device).active = true) : r.invited device := by
  unfold Registry.report at hActive
  split at hActive
  · cases hActive
  · simp only [Bool.and_eq_true, Bool.not_eq_true', Bool.or_eq_false_iff] at hActive
    intro i hI hDevice
    obtain ⟨j, hJ⟩ : ∃ j, r.inviteOf device = some j :=
      Option.isSome_iff_exists.mp (List.find?_isSome.mpr ⟨i, hI, decide_eq_true hDevice⟩)
    obtain ⟨hMem, hSame⟩ := Registry.inviteOf_some hJ
    have hValid := hActive.1.2
    rw [hJ, Option.any_some] at hValid
    rw [h.bound i hI j hMem device hDevice hSame]
    exact hValid

theorem complete_keeps (h : r.Inv) (hVerify : setting.verify proof = some device)
    (hRow : r.device device = some row)
    (hRun : (complete setting now uuid draws proof purpose).commit r = (.ok record, r')) :
    record.device = device ∧ r'.Inv ∧ r'.invites = r.invites := by
  obtain ⟨hNext, c, hConsumed, hDevice, -, -, -, -, -, -, -, hOld⟩ :=
    ensures_complete h _ _ (commit_ok hRun)
  obtain rfl : c.device = device := Option.some.inj (hConsumed.device.symm.trans hVerify)
  rcases hOld with ⟨-, -, hInvites⟩ | ⟨hNew, -⟩
  · exact ⟨hDevice, hNext.inv, hInvites⟩
  · cases hRow.symm.trans hNew

/-- What `complete` asks of a call for a registered device, apart from the flag of the device. -/
structure Answers (setting : Setting) (r : Registry) (now : Nat) (draws : List String)
    (proof : Proof) (purpose : Purpose) (row : Device) : Prop where
  challenge : ∃ c, r.challenge (setting.sha256 proof.challenge) = some c ∧
    c.Admits now purpose row.device proof
  keys : row.publicKey = proof.publicIdentity ∧ row.wg = proof.wg
  support : purpose = .support ∨ r.supportOf row.device ≠ none ∨
    ((draws.take 32).find? fun id => r.support.all fun s => decide (s.supportId ≠ id)) ≠ none

theorem ensures_answers (hVerify : setting.verify proof = some device)
    (hRow : r.device device = some row) : (complete setting now uuid draws proof purpose).Ensures
      (fun _ _ => Answers setting r now draws proof purpose row ∧ row.revoked = false) r := by
  obtain rfl : row.device = device := Rows.key_of_get hRow
  refine ensures_bind (ensures_answered.mono fun answer r₁ hAnswered => ?_)
  obtain ⟨device, c⟩ := answer
  obtain ⟨rfl, hDevice, hChallenge, hAdmits⟩ := hAnswered
  obtain rfl : row.device = device := Option.some.inj (hVerify.symm.trans hDevice)
  refine ensures_bind (bind_get ?_)
  rw [hRow]
  refine ensures_pure (bind_require fun hValid => ensures_bind (ensures_modify (ensures_bind ?_)))
  have hEnd (hSupport : purpose = .support ∨ r₁.supportOf row.device ≠ none ∨
      ((draws.take 32).find? fun id => r₁.support.all fun s => decide (s.supportId ≠ id)) ≠ none) :
      Answers setting r₁ now draws proof purpose row ∧ row.revoked = false :=
    ⟨⟨⟨c, hChallenge, hAdmits⟩, hValid.2, hSupport⟩, hValid.1⟩
  split
  · refine bind_get ?_
    split
    · rename_i support hSupport
      refine ensures_pure (ensures_pure (hEnd (.inr (.inl ?_))))
      exact fun hNone => by cases hSupport.symm.trans hNone
    · refine bind_require fun _ => bind_found fun id hFound =>
        ensures_set (ensures_pure (hEnd (.inr (.inr ?_))))
      exact fun hNone => by cases hFound.symm.trans hNone
  · rename_i hPurpose
    exact ensures_pure (ensures_pure (hEnd (.inl (not_not.mp hPurpose))))

theorem registered_known (hKnown : r.device device ≠ none) (h : r.supportOf device ≠ none ∨
    ((draws.take 32).find? fun id => r.support.all fun s => decide (s.supportId ≠ id)) ≠ none) :
    ∃ r', registered draws device r = .ok ((), r') := by
  rw [registered, run_bind run_get]
  cases hSupport : r.supportOf device with
  | some support => exact ⟨_, rfl⟩
  | none =>
    obtain ⟨id, hFound⟩ := Option.ne_none_iff_exists'.mp (h.resolve_left (not_not.mpr hSupport))
    exact ⟨_, (run_bind (run_require _ hKnown)).trans ((run_bind (run_found _ hFound)).trans rfl)⟩

theorem complete_answers (uuid : String) (hVerify : setting.verify proof = some device)
    (hRow : r.device device = some row) (h : Answers setting r now draws proof purpose row)
    (hFlag : row.revoked = false) :
    ∃ r', (complete setting now uuid draws proof purpose).commit r =
      (.ok ⟨row.device, row.wg, row.tcp⟩, r') := by
  obtain rfl : row.device = device := Rows.key_of_get hRow
  obtain ⟨⟨c, hChallenge, hAdmits⟩, hKeys, hSupport⟩ := h
  have hAnswered : answered setting now proof purpose r = .ok ((row.device, c), r) := by
    refine (run_bind (run_found _ hVerify)).trans ?_
    refine (run_bind run_get).trans ?_
    refine (run_bind (run_found _ hChallenge)).trans ?_
    exact run_bind (run_require _ hAdmits)
  have hEnrolled : enrolled uuid proof purpose row.device c r = .ok (row, r) := by
    refine (run_bind run_get).trans ?_
    rw [hRow]
    rfl
  have hRegistered : ∃ r', (if purpose ≠ .support then registered draws row.device
    else pure () : Tx Unit)
      { r with challenges := Rows.put Challenge.nonce { c with used := true } r.challenges } = .ok
        ((), r') := by
    by_cases hPurpose : purpose = .support
    · rw [if_neg (not_not.mpr hPurpose)]
      exact ⟨_, rfl⟩
    · rw [if_pos hPurpose]
      refine registered_known ?_ (hSupport.resolve_left hPurpose)
      exact fun hNone => by cases hRow.symm.trans hNone
  obtain ⟨r', hRegistered⟩ := hRegistered
  refine ⟨r', commit_of_run ?_⟩
  refine (run_bind hAnswered).trans ?_
  refine (run_bind hEnrolled).trans ?_
  refine (run_bind (run_require _ ⟨hFlag, hKeys⟩)).trans ?_
  refine (run_bind run_modify).trans ?_
  exact run_bind hRegistered

/-! ## The parts of a request -/

theorem ensures_configuration_active {files : Document → Bool} {country : Country}
    {routing : Routing} :
    (configuration files r country device).Ensures (fun _ _ => r.active device = true)
    (some routing) := by
  refine bind_get (bind_require fun _ => bind_require fun _ => ?_)
  refine bind_lift fun result hAssign => ?_
  obtain ⟨catalog, routing'⟩ := result
  refine bind_set (bind_require fun _ => ensures_pure ?_)
  obtain ⟨_, -, hAssign⟩ := bind_ok hAssign
  obtain ⟨_, hActive, -⟩ := bind_ok hAssign
  exact demand_ok hActive

/-- Routing and the explicit choice look at both flags. -/
theorem located_active {tables : Option Routing}
    (h : located root server target device = .ok (host, tables))
    (hLooks : server.tables ≠ none ∨ ∃ choice, target = .gateway choice) :
    server.registry.active device = true := by
  cases target with
  | gateway choice =>
    obtain ⟨_, hSelected, -⟩ := bind_ok h
    obtain ⟨_, hActive, -⟩ := bind_ok hSelected
    exact demand_ok hActive
  | country country =>
    obtain ⟨routing, hTables⟩ : ∃ routing, server.tables = some routing := by
      rcases hLooks with hSome | ⟨choice, hChoice⟩
      · exact Option.ne_none_iff_exists'.mp hSome
      · cases hChoice
    cases hCommit : (configuration root.policies server.registry country device).commit
      server.tables with
    | mk result tables' =>
      cases result with
      | error failure =>
        simp only [located, hCommit] at h
        cases h
      | ok reply =>
        rw [hTables] at hCommit
        exact ensures_configuration_active reply tables' (commit_ok hCommit)

theorem enforced_invited (hInv : server.registry.Inv) (hEnforced : root.enforcement ≠ none)
    (h : enforced root server now host record = .ok ()) :
    server.registry.invited record.device := by
  obtain ⟨hosts, hHosts⟩ := Option.ne_none_iff_exists'.mp hEnforced
  rw [enforced, hHosts] at h
  obtain ⟨node, -, h⟩ := bind_ok h
  obtain ⟨envelope, hRead, h⟩ := bind_ok h
  obtain ⟨decision, hDecision, h⟩ := bind_ok h
  obtain ⟨_, hAllowed, -⟩ := bind_ok h
  have hAllowed := demand_ok hAllowed
  cases hSnapshot : readSnapshot server.registry server.paid node now (some record.device) with
  | error failure =>
    rw [hSnapshot] at hRead
    cases hRead
  | ok found =>
    rw [hSnapshot] at hRead
    cases hRead
    have hMem : decision ∈ envelope.decisions := List.mem_of_mem_head? (given_ok hDecision)
    obtain ⟨row, -, hOf⟩ := readSnapshot_mem hSnapshot hMem
    obtain ⟨⟨hOwner, -⟩, hIdentity, -⟩ := decisionOf_identity hOf
    rw [← readSnapshot_device hSnapshot hMem, hOwner]
    exact hInv.invited_of_identity (hIdentity ▸ decisionOf_allowed hOf hAllowed)

theorem configurationRequest_ok
    (h : configurationRequest setting root now uuid draws proof target server =
    (.ok record, server')) :
    ∃ registry tables host, (complete setting now uuid draws proof target.purpose).commit
      server.registry = (.ok record, registry) ∧ located root
      { server with registry := registry } target record.device = .ok (host, tables) ∧
        enforced root { server with registry := registry, tables := tables } now host record = .ok
        () := by
  unfold configurationRequest at h
  split at h
  · cases h
  · rename_i found registry hComplete
    dsimp only at h
    split at h
    · cases h
    · rename_i host tables hLocated
      split at h
      · cases h
      · rename_i hEnforced
        cases h
        exact ⟨registry, tables, host, hComplete, hLocated, hEnforced⟩

def Guarded (root : Root) (server : Server) (target : Target) : Prop :=
  server.tables ≠ none ∨ root.enforcement ≠ none ∨ ∃ choice, target = .gateway choice

/-- Without routing, enforcement or an explicit choice only the catalog file is looked at. -/
theorem located_unguarded (server : Server) (device : String) {country : Country}
    (h : ¬Guarded root server (.country country)) : root.enforcement = none ∧
      located root server (.country country) device = (do
        let host ← fallback root country
        pure (host, none)) := by
  simp only [Guarded, not_or, not_not] at h
  refine ⟨h.2.1, ?_⟩
  rw [located, h.1]
  rfl

theorem Registry.Inv.of_history (h : (history setting encoding).Reachable b) : b.registry.Inv := by
  have hFleet : (fleetwide setting fun _ => true).Reachable { registry := b.registry } :=
    reachable_registry h
  exact (Fleetwide.Inv.reachable hFleet).registry

namespace Sample

def requesting (r : Registry) : Books :=
  { registry := ((Call.challenge "nonce" (nameOf 0) (nameOf 0) .ru "").perform plain 0 r).2 }

def requestProof : Proof := ⟨"nonce", nameOf 0, nameOf 0, ""⟩

/-- Routing is not installed, and the transports are not enforced. -/
def bareRoot : Root := ⟨fun _ => true, fun _ => true, some (catalogAt 1 20), none⟩

def revokedInvite : Books := { registry := (requesting (crowd 1)).registry.revokeInvite (nameOf 0) }

def revokedBoth : Books :=
  { registry := ((Call.revokeDevice (nameOf 0)).perform plain 0 revokedInvite.registry).2 }

theorem reachable_requesting (h : (history plain anything).Reachable { registry := r }) :
    (history plain anything).Reachable (requesting r) := h.next (.access 0 _ trivial)

end Sample

/-- A call for a registered device is honoured if the device's own flag is set or its invitation is
valid, and otherwise only if it is refused for another reason. -/
theorem revocation_honoured (hReachable : (history setting encoding).Reachable b)
    (hVerify : setting.verify proof = some device) (hRow : b.registry.device device = some row) :
    (∀ now uuid draws purpose,
      (∀ record r', (complete setting now uuid draws proof purpose).commit b.registry =
        (.ok record, r') → (b.registry.report proof device).active = true) ↔
      row.revoked = true ∨ b.registry.invited device ∨
        ¬Answers setting b.registry now draws proof purpose row) ∧
    ∀ now uuid draws root server target, server.registry = b.registry →
      ((∀ record server', configurationRequest setting root now uuid draws proof target server =
        (.ok record, server') → (b.registry.report proof device).active = true) ↔
      row.revoked = true ∨ b.registry.invited device ∨
        ¬Answers setting b.registry now draws proof target.purpose row ∨
          Guarded root server target ∨ ∀ country host, target = .country country →
          fallback root country ≠ .ok host) := by
  have hInv := Registry.Inv.of_history hReachable
  constructor
  · intro now uuid draws purpose
    constructor
    · intro hHonoured
      by_contra hNot
      simp only [not_or, not_not, Bool.not_eq_true] at hNot
      obtain ⟨hFlag, hInvited, hAnswers⟩ := hNot
      obtain ⟨r', hRun⟩ := complete_answers uuid hVerify hRow hAnswers hFlag
      exact hInvited (hInv.invited_of_report (hHonoured _ _ hRun))
    · intro hCondition record r' hRun
      obtain ⟨hAnswers, hFlag⟩ := ensures_answers hVerify hRow _ _ (commit_ok hRun)
      refine Registry.invited.report ?_ hRow hFlag hAnswers.keys
      rcases hCondition with hSet | hInvited | hRefused
      · rw [hFlag] at hSet
        cases hSet
      · exact hInvited
      · exact absurd hAnswers hRefused
  · rintro now uuid draws root server target hSame
    rw [← hSame] at hInv hRow ⊢
    constructor
    · intro hHonoured
      by_contra hNot
      simp only [not_or, not_not, Bool.not_eq_true, not_forall] at hNot
      obtain ⟨hFlag, hInvited, hAnswers, hOpen, country, host, rfl, hHost⟩ := hNot
      obtain ⟨r', hRun⟩ := complete_answers uuid hVerify hRow hAnswers hFlag
      have hLocated : located root { server with registry := r' }
          (.country country) row.device = .ok (host, none) := by
        rw [(located_unguarded { server with registry := r' } _ hOpen).2, hHost]
        rfl
      have hServed : configurationRequest setting root now uuid draws proof (.country country) server =
          (.ok ⟨row.device, row.wg, row.tcp⟩, { server with registry := r', tables := none }) := by
        simp only [configurationRequest, hRun, hLocated, enforced,
          (located_unguarded server device hOpen).1]
        rfl
      exact hInvited (hInv.invited_of_report (hHonoured _ _ hServed))
    · intro hCondition record server' hServed
      obtain ⟨registry, tables, host, hComplete, hLocated, hEnforced⟩ :=
        configurationRequest_ok hServed
      obtain ⟨hAnswers, hFlag⟩ := ensures_answers hVerify hRow _ _ (commit_ok hComplete)
      obtain ⟨rfl, hAfter, hInvites⟩ := complete_keeps hInv hVerify hRow hComplete
      have hKept (hInvited : registry.invited record.device) : server.registry.invited record.device :=
        fun i hI hDevice => hInvited i (hInvites ▸ hI) hDevice
      refine Registry.invited.report ?_ hRow hFlag hAnswers.keys
      have hGuards : Guarded root server target → server.registry.invited record.device := by
        rintro (hTables | hEnforcement | hChoice)
        · exact hKept (hAfter.invited_of_active (located_active hLocated (.inl hTables)))
        · exact hKept (enforced_invited hAfter hEnforcement hEnforced)
        · exact hKept (hAfter.invited_of_active (located_active hLocated (.inr hChoice)))
      rcases hCondition with hSet | hInvited | hRefused | hGuarded | hUnusable
      · rw [hFlag] at hSet
        cases hSet
      · exact hInvited
      · exact absurd hAnswers hRefused
      · exact hGuards hGuarded
      · apply hGuards
        by_contra hOpen
        cases target with
        | gateway choice => exact hOpen (.inr (.inr ⟨choice, rfl⟩))
        | country country =>
          rw [(located_unguarded { server with registry := registry } _ hOpen).2] at hLocated
          obtain ⟨found, hFound, -⟩ := bind_ok hLocated
          exact hUnusable country found rfl hFound

open Sample

/-- Both flags are set after the challenge was issued, and `complete` does not succeed. With the
invitation alone revoked no configuration is served where the transports are enforced. -/
theorem revocation_honoured_revoked :
    (∃ row, revokedBoth.registry.device (nameOf 0) = some row ∧ row.revoked = true ∧
      Answers plain revokedBoth.registry 0 [] requestProof .ru row ∧
      ∀ record r', (complete plain 0 "" [] requestProof .ru).commit revokedBoth.registry =
        (.ok record, r') → (revokedBoth.registry.report requestProof (nameOf 0)).active = true) ∧
    ∀ record server', configurationRequest plain
      { bareRoot with enforcement := some fun _ => some .gatewayRu } 0 "" []
        requestProof (.country .ru) { registry := revokedInvite.registry } = (.ok record, server') →
      (revokedInvite.registry.report requestProof (nameOf 0)).active = true := by
  have hInvite : (history plain anything).Reachable revokedInvite :=
    (reachable_requesting (reachable_crowd (by decide : 1 ≤ 2 ^ 32))).next (.revokeInvite (nameOf 0))
  have hBoth : (history plain anything).Reachable revokedBoth :=
    hInvite.next (.access 0 (.revokeDevice (nameOf 0)) trivial)
  have hFlag : (revokedBoth.registry.device (nameOf 0)).map Device.revoked = some true :=
    by decide +kernel
  have hOther : (revokedInvite.registry.device (nameOf 0)).isSome = true := by decide +kernel
  have hChallenge : (revokedBoth.registry.challenge "nonce").any
      (·.Admits 0 .ru (nameOf 0) requestProof) = true := by
    decide +kernel
  have hKeys : (revokedBoth.registry.device (nameOf 0)).all (fun row => row.device = nameOf 0 ∧
      row.publicKey = requestProof.publicIdentity ∧ row.wg = requestProof.wg) = true :=
        by decide +kernel
  have hSupport : (revokedBoth.registry.supportOf (nameOf 0)).isSome = true := by decide +kernel
  obtain ⟨row, hRow, hFlag⟩ := Option.map_eq_some_iff.mp hFlag
  obtain ⟨other, hOther⟩ := Option.isSome_iff_exists.mp hOther
  obtain ⟨c, hC, hAdmits⟩ := Option.any_eq_true _ _ |>.mp hChallenge
  rw [hRow, Option.all_some, decide_eq_true_eq] at hKeys
  refine ⟨⟨row, hRow, hFlag, ⟨⟨c, hC, ?_⟩, hKeys.2, .inr (.inl ?_)⟩, ?_⟩, ?_⟩
  · rw [hKeys.1]
    exact of_decide_eq_true hAdmits
  · rw [hKeys.1]
    exact Option.isSome_iff_ne_none.mp hSupport
  · exact ((revocation_honoured hBoth rfl hRow).1 0 "" [] .ru).mpr (.inl hFlag)
  · refine ((revocation_honoured hInvite rfl hOther).2 0 "" [] _ _ (.country .ru) rfl).mpr ?_
    exact .inr (.inr (.inr (.inl (.inr (.inl (Option.some_ne_none _))))))

/-- The invitation of a device is revoked, and the device still gets its configuration. -/
theorem revocation_missed :
    (history plain anything).Reachable (requesting ((crowd 1).revokeInvite (nameOf 0))) ∧
      ((complete plain 0 "" [] requestProof .ru).commit
        (requesting ((crowd 1).revokeInvite (nameOf 0))).registry).1 =
        .ok ⟨nameOf 0, nameOf 0, nameOf 0⟩ ∧
      ((requesting ((crowd 1).revokeInvite (nameOf 0))).registry.report requestProof (nameOf 0)) =
      ⟨nameOf 0, true, true, false⟩ ∧
        ((requesting ((crowd 1).revokeInvite (nameOf 0))).registry.devices.all fun row =>
        !(requesting ((crowd 1).revokeInvite (nameOf 0))).registry.identity row) = true ∧
      (requesting ((crowd 1).revokeInvite (nameOf 0))).registry.active (nameOf 0) = false ∧
      (configurationRequest plain bareRoot 0 "" [] requestProof (.country .ru)
        { registry := (requesting ((crowd 1).revokeInvite (nameOf 0))).registry }).1 = .ok
        ⟨nameOf 0, nameOf 0, nameOf 0⟩ := by
  have hRevoked : (history plain anything).Reachable
      { registry := (crowd 1).revokeInvite (nameOf 0) } :=
    (reachable_crowd (by decide : 1 ≤ 2 ^ 32)).next (.revokeInvite (nameOf 0))
  refine ⟨reachable_requesting hRevoked, ?_, ?_, ?_, ?_, ?_⟩
  all_goals decide +kernel

end FamilyConnect.Friends
