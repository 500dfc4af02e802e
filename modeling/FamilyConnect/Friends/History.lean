import FamilyConnect.Friends.Enrolment
import FamilyConnect.Friends.Ledger
import FamilyConnect.Friends.TransportPolicy

/-!
# The history of the registry

Devices are activated and revoked, invitations are revoked, events are applied, and
time passes. A decision that is read later follows every one that was read before.
-/

namespace FamilyConnect.Friends

open Lib Transaction

structure Books where
  registry : Registry := {}
  paid : Paid := {}
  now : Nat := 0

def Registry.revokeInvite (r : Registry) (hash : String) : Registry :=
  { r with invites := r.invites.map fun i => if i.hash = hash then { i with revoked := true } else i }

def Call.Draws (encoding : Encoding) : Call → Prop
  | .complete uuid _ _ _ => encoding.canonicalUuid uuid = true
  | _ => True

inductive Books.Step (setting : Setting) (encoding : Encoding) : Books → Books → Prop where
  | wait {b : Books} (now : Nat) : b.now ≤ now → Step setting encoding b { b with now := now }
  | access {b : Books} (now : Nat) (call : Call) : call.Draws encoding →
      Step setting encoding b { b with registry := (call.perform setting now b.registry).2 }
  | revokeInvite {b : Books} (hash : String) :
      Step setting encoding b { b with registry := b.registry.revokeInvite hash }
  | event {b : Books} (e : Surroundings) (support : String) (call : EventCall) :
      e.registry = b.registry → Step setting encoding b
        { b with paid := ((applyEvent e b.now support call).commit b.paid).2 }

def history (setting : Setting) (encoding : Encoding) : System Books where
  initial b := b = {}
  step := Books.Step setting encoding

structure Setting.Fits (setting : Setting) (encoding : Encoding) : Prop where
  wg : ∀ wg, setting.validWg wg = true → encoding.validWg wg = true
  identity : ∀ publicKey device, setting.identify publicKey = some device → hex 32 device = true

variable {setting : Setting} {encoding : Encoding} {r r' : Registry} {p p' : Paid} {b b' : Books}
  {now now' : Nat} {call : Call}

/-! ## The registry -/

structure Registry.Formed (setting : Setting) (encoding : Encoding) (r : Registry) : Prop where
  devices : ∀ d ∈ r.devices, hex 32 d.device = true ∧ encoding.validWg d.wg = true ∧
    encoding.canonicalUuid d.tcp = true
  challenges : ∀ c ∈ r.challenges, binding setting c.publicKey c.wg = some c.device

theorem binding_some {publicKey wg device : String} (h : binding setting publicKey wg = some device) :
    setting.validWg wg = true ∧ setting.identify publicKey = some device := by
  unfold binding at h
  split at h
  · rename_i hWg
    exact ⟨hWg, h⟩
  · cases h

theorem Consumed.bound {proof : Proof} {purpose : Purpose} {used : Challenge}
    (h : Consumed setting now proof purpose r r' used) (hFormed : r.Formed setting encoding) :
    ∀ c ∈ r'.challenges, binding setting c.publicKey c.wg = some c.device := by
  rw [h.challenges]
  exact Rows.forall_put hFormed.challenges (hFormed.challenges used (Rows.mem_of_get h.row))

theorem Call.perform_devices (hInv : r.Inv) (hFormed : r.Formed setting encoding)
    (hFits : setting.Fits encoding) (hDraws : call.Draws encoding)
    (hOk : (call.perform setting now r).1 = none) :
      ∀ d ∈ (call.perform setting now r).2.devices, hex 32 d.device = true ∧
        encoding.validWg d.wg = true ∧ encoding.canonicalUuid d.tcp = true := by
  intro d hD
  cases call with
  | invite code =>
    obtain ⟨_, -, -, hDevices⟩ := outcome_ok (ensures_invite hInv) hOk
    exact hFormed.devices d (hDevices ▸ hD)
  | challenge nonce publicKey wg purpose invitation =>
    obtain ⟨_, -, c, hIssued⟩ := outcome_ok (ensures_challenge hInv) hOk
    exact hFormed.devices d (hIssued.devices ▸ hD)
  | status proof =>
    obtain ⟨_, -, hDevices, -⟩ := outcome_ok (ensures_status hInv) hOk
    exact hFormed.devices d (hDevices ▸ hD)
  | revokeDevice device =>
    obtain ⟨_, -, -, row, hRow, hDevices⟩ := outcome_ok (ensures_revokeDevice hInv) hOk
    have hMem : d ∈ Rows.put Device.device { row with revoked := true } r.devices := hDevices ▸ hD
    rcases Rows.mem_put hMem with rfl | hOld
    · exact hFormed.devices row (Rows.mem_of_get hRow)
    · exact hFormed.devices d hOld
  | complete uuid draws proof purpose =>
    obtain ⟨_, -, c, hConsumed, -, -, -, -, -, -, -, -, ⟨-, hDevices, -⟩ | ⟨-, hDevices⟩⟩ :=
      outcome_ok (ensures_complete hInv) hOk
    · exact hFormed.devices d (hDevices ▸ hD)
    · have hMem : d ∈ r.devices ++ [⟨c.device, proof.publicIdentity, proof.wg, uuid, false⟩] :=
        hDevices ▸ hD
      rcases List.mem_append.mp hMem with hOld | hNew
      · exact hFormed.devices d hOld
      · cases List.mem_singleton.mp hNew
        obtain ⟨hWg, hIdentity⟩ := binding_some (hFormed.challenges c (Rows.mem_of_get hConsumed.row))
        obtain ⟨-, -, -, -, -, hSameWg⟩ := hConsumed.admits
        rw [hSameWg] at hWg
        exact ⟨hFits.identity _ _ hIdentity, hFits.wg _ hWg, hDraws⟩

theorem Call.perform_challenges (hInv : r.Inv) (hFormed : r.Formed setting encoding)
    (hOk : (call.perform setting now r).1 = none) :
    ∀ c ∈ (call.perform setting now r).2.challenges,
      binding setting c.publicKey c.wg = some c.device := by
  intro c hC
  cases call with
  | challenge nonce publicKey wg purpose invitation =>
    obtain ⟨_, -, new, hIssued⟩ := outcome_ok (ensures_challenge hInv) hOk
    have hMem : c ∈ (r.challenges.filter fun c => decide (now < c.expires)) ++ [new] :=
      hIssued.challenges ▸ hC
    rcases List.mem_append.mp hMem with hOld | hNew
    · exact hFormed.challenges c (List.mem_of_mem_filter hOld)
    · cases List.mem_singleton.mp hNew
      rw [hIssued.keys.1, hIssued.keys.2]
      exact hIssued.device
  | invite code =>
    obtain ⟨_, -, hSame, -⟩ := outcome_ok (ensures_invite hInv) hOk
    exact hFormed.challenges c (hSame ▸ hC)
  | revokeDevice device =>
    obtain ⟨_, ⟨-, hSame⟩, -⟩ := outcome_ok (ensures_revokeDevice hInv) hOk
    exact hFormed.challenges c (hSame ▸ hC)
  | complete uuid draws proof purpose =>
    obtain ⟨_, -, used, hConsumed, -⟩ := outcome_ok (ensures_complete hInv) hOk
    exact hConsumed.bound hFormed c hC
  | status proof =>
    obtain ⟨_, -, -, -, used, hConsumed, -⟩ := outcome_ok (ensures_status hInv) hOk
    exact hConsumed.bound hFormed c hC

theorem Registry.Formed.perform (h : r.Formed setting encoding) (hInv : r.Inv)
    (hFits : setting.Fits encoding) (hDraws : call.Draws encoding) (now : Nat) :
    (call.perform setting now r).2.Formed setting encoding := by
  cases hResult : (call.perform setting now r).1 with
  | some failure =>
    rw [Call.perform_raised (by rw [hResult]; exact Option.some_ne_none failure)]
    exact h
  | none =>
    exact ⟨Call.perform_devices hInv h hFits hDraws hResult, Call.perform_challenges hInv h hResult⟩

theorem Registry.Inv.revokeInvite (h : r.Inv) (hash : String) : r.Next (r.revokeInvite hash) := by
  have hRow : ∀ i : Invite, (if i.hash = hash then { i with revoked := true } else i).hash = i.hash ∧
      (if i.hash = hash then { i with revoked := true } else i).device = i.device ∧
      (i.revoked = true → (if i.hash = hash then { i with revoked := true }
        else i).revoked = true) := by
    intro i
    split
    · exact ⟨rfl, rfl, fun _ => rfl⟩
    · exact ⟨rfl, rfl, fun hR => hR⟩
  refine ⟨⟨h.invites.map fun i => (hRow i).1, h.devices, h.challenges, h.apart, ?_, ?_, h.window⟩,
    ⟨fun device row hDevice => ?_, fun other i hI => ?_⟩⟩
  · intro i hI j hJ device hDevice hDevice'
    obtain ⟨i₀, hI₀, rfl⟩ := List.mem_map.mp hI
    obtain ⟨j₀, hJ₀, rfl⟩ := List.mem_map.mp hJ
    rw [(hRow i₀).2.1] at hDevice
    rw [(hRow j₀).2.1] at hDevice'
    rw [h.bound i₀ hI₀ j₀ hJ₀ device hDevice hDevice']
  · intro d hD
    obtain ⟨i, hI, hBound⟩ := h.created d hD
    exact ⟨_, List.mem_map_of_mem hI, (hRow i).2.1.trans hBound⟩
  · exact ⟨row, hDevice, rfl, rfl, rfl, fun hR => hR⟩
  · refine ⟨_, ?_, fun device hDevice => (hRow i).2.1.trans hDevice, (hRow i).2.2⟩
    change Rows.get Invite.hash other (r.invites.map _) = _
    rw [Rows.get_map (fun i => (hRow i).1)]
    change (r.invite other).map _ = _
    rw [hI]
    rfl

variable {record record' : Device}

theorem Registry.Keeps.identity (h : r.Keeps r') (hInv : r.Inv) (hInv' : r'.Inv)
    (hMem : record ∈ r.devices) (hMem' : record' ∈ r'.devices)
    (hSame : record'.device = record.device) (hIdentity : r'.identity record' = true) :
    r.identity record = true := by
  obtain ⟨row, hRow, -, -, -, hRevoked⟩ := h.devices _ _ (hInv.devices.get hMem)
  have hGet := hInv'.devices.get hMem'
  rw [hSame] at hGet
  cases hRow.symm.trans hGet
  simp only [Registry.identity, Bool.and_eq_true, Bool.not_eq_true', List.any_eq_true,
    decide_eq_true_eq] at hIdentity ⊢
  obtain ⟨hValid, i', hI', hBound', hValid'⟩ := hIdentity
  refine ⟨?_, ?_⟩
  · cases hFlag : record.revoked with
    | false => rfl
    | true =>
      rw [hRevoked hFlag] at hValid
      cases hValid
  · -- The invitation of the device is still the same one.
    obtain ⟨i, hI, hBound⟩ := hInv.created record hMem
    refine ⟨i, hI, hBound, ?_⟩
    obtain ⟨i'', hI'', hDevice, hFlag⟩ := h.invites _ _ (hInv.invites.get hI)
    rw [hSame] at hBound'
    cases hInv'.bound i'' (Rows.mem_of_get hI'') i' hI' record.device (hDevice _ hBound) hBound'
    cases hRevokedOld : i.revoked with
    | false => rfl
    | true =>
      rw [hFlag hRevokedOld] at hValid'
      cases hValid'

/-! ## Decisions -/

variable {d : Decision} {record : Device}

section

variable (h : decisionOf r p now record = .ok d)
include h

theorem decisionOf_ok :
    ∃ effective, effectiveSubscriptionState p record.device now = .ok effective ∧
      d =
        { device := record.device, publicKey := record.wg, tcpId := record.tcp,
          cohort := effective.isSome
          revision := ((p.subscription record.device).map (·.version)).getD 0
          state := (effective.map fun e => DecisionState.paid e.state).getD .noncohort
          identityAllowed := r.identity record
          allowed := r.identity record && effective.all (·.allowed)
          paidUntil := (p.subscription record.device).map (·.paidUntil)
          graceUntil := (p.subscription record.device).bind (·.graceUntil), observedAt := now
          validUntil := deadline now (r.identity record && effective.all (·.allowed)) effective } := by
  obtain ⟨effective, hEffective, h⟩ := bind_ok h
  cases hState : effectiveSubscriptionState p record.device now with
  | error failure =>
    rw [hState] at hEffective
    cases hEffective
  | ok effective =>
    rw [hState] at hEffective
    cases hEffective
    cases h
    exact ⟨effective, rfl, rfl⟩

theorem decisionOf_row :
    p.subscription record.device = none ∧ d.cohort = false ∧ d.revision = 0 ∧ d.state = .noncohort ∧
        d.allowed = r.identity record ∧ d.paidUntil = none ∧ d.graceUntil = none ∧
        d.validUntil = now + leaseSeconds ∨
      ∃ s e, p.subscription record.device = some s ∧ effectiveOf s now = .ok e ∧ d.cohort = true ∧
        d.revision = s.version ∧ d.state = .paid e.state ∧
        d.allowed = (r.identity record && e.allowed) ∧ d.paidUntil = some s.paidUntil ∧
          d.graceUntil = s.graceUntil ∧ d.validUntil = deadline now (r.identity record && e.allowed)
          (some e) := by
  obtain ⟨effective, hEffective, rfl⟩ := decisionOf_ok h
  cases effective with
  | none =>
    have hNone := effective_none hEffective
    refine .inl ⟨hNone, rfl, ?_, rfl, ?_, ?_, ?_, ?_⟩
    · rw [hNone]
      rfl
    · exact Bool.and_true _
    · rw [hNone]
      rfl
    · rw [hNone]
      rfl
    · cases hIdentity : (r.identity record && Option.all (fun e : Effective => e.allowed) none) <;> rfl
  | some e =>
    obtain ⟨s, hS, hOf⟩ := effective_some hEffective
    refine .inr ⟨s, e, hS, hOf, rfl, ?_, rfl, rfl, ?_, ?_, rfl⟩
    · rw [hS]
      rfl
    · rw [hS]
      rfl
    · rw [hS]
      rfl

theorem decisionOf_identity :
    (d.device = record.device ∧ d.publicKey = record.wg ∧ d.tcpId = record.tcp) ∧
    d.identityAllowed = r.identity record ∧ d.observedAt = now := by
  obtain ⟨effective, -, rfl⟩ := decisionOf_ok h
  exact ⟨⟨rfl, rfl, rfl⟩, rfl, rfl⟩

end

variable {s : Subscription}

theorem Decision.boundary_eq (hState : d.state = .paid s.state)
    (hPaid : d.paidUntil = some s.paidUntil) (hGrace : d.graceUntil = s.graceUntil) :
    d.boundary = s.boundary := by
  rw [Decision.boundary, Subscription.boundary, hState, hPaid, hGrace]
  simp only [DecisionState.paid.injEq]

theorem decisionOf_valid (hInv : p.Inv) (hDevice : hex 32 record.device = true)
    (hWg : encoding.validWg record.wg = true) (hTcp : encoding.canonicalUuid record.tcp = true)
    (h : decisionOf r p now record = .ok d) : d.Valid encoding now := by
  obtain ⟨⟨hOwner, hKey, hId⟩, hIdentity, hObserved⟩ := decisionOf_identity h
  have hLease : now < now + leaseSeconds := Nat.lt_add_of_pos_right (by decide)
  rcases decisionOf_row h with ⟨-, hCohort, -, hState, hAllowed, -, -, hEnd⟩ |
      ⟨s, e, hS, hOf, hCohort, hRevision, hState, hAllowed, hPaid, hGrace, hEnd⟩
  · constructor
    case device => exact hOwner ▸ hDevice
    case tcpId => exact hId ▸ hTcp
    case publicKey => exact hKey ▸ hWg
    case observedAt => exact hObserved
    case validUntil =>
      rw [hObserved, hEnd]
      exact ⟨hLease, le_rfl⟩
    case cohort => simp [hCohort, hState]
    case allowed =>
      intro hYes
      rw [hState, hIdentity, ← hAllowed]
      exact ⟨hYes, nofun, nofun⟩
    all_goals simp [hCohort]
  · have hChecked := (hInv.rows s (Rows.mem_of_get hS)).1
    -- What an allowed device has.
    have hYes : d.allowed = true → r.identity record = true ∧ s.state ≠ .expired ∧
        s.state ≠ .revoked ∧ e.state = s.state ∧ ∃ boundary, d.validUntil = min
          (now + leaseSeconds) boundary ∧ now < boundary ∧ s.boundary = some boundary := by
      intro hBoth
      rw [hAllowed] at hBoth
      obtain ⟨hCounts, hPays⟩ := (Bool.and_eq_true _ _).mp hBoth
      obtain ⟨hRevoked, hExpired, hSame, boundary, hBoundary, hExpires, hNow⟩ :=
        effectiveOf_allowed hOf hPays
      refine ⟨hCounts, hExpired, hRevoked, hSame, boundary, ?_, hNow, hBoundary⟩
      rw [hEnd, hBoth]
      simp only [deadline, Option.bind_some, hExpires]
    constructor
    case device => exact hOwner ▸ hDevice
    case tcpId => exact hId ▸ hTcp
    case publicKey => exact hKey ▸ hWg
    case revision => exact fun _ => hRevision ▸ hChecked.2.2.1
    case observedAt => exact hObserved
    case validUntil =>
      rw [hObserved]
      cases hBoth : d.allowed with
      | false =>
        rw [hEnd, ← hAllowed, hBoth]
        exact ⟨hLease, le_rfl⟩
      | true =>
        obtain ⟨-, -, -, -, boundary, hDeadline, hNow, -⟩ := hYes hBoth
        rw [hDeadline]
        exact ⟨lt_min hLease hNow, min_le_left _ _⟩
    case cohort => simp [hCohort, hState]
    case allowed =>
      intro hBoth
      obtain ⟨hCounts, hExpired, hRevoked, hSame, -⟩ := hYes hBoth
      rw [hState, hSame, hIdentity]
      exact ⟨hCounts, fun hEq => hExpired (DecisionState.paid.inj hEq),
        fun hEq => hRevoked (DecisionState.paid.inj hEq)⟩
    case paidUntil => simp [hPaid]
    case boundary =>
      intro hBoth _
      obtain ⟨-, -, -, hSame, boundary, hDeadline, -, hBoundary⟩ := hYes hBoth
      rw [Decision.boundary_eq (hState.trans (congrArg _ hSame)) hPaid hGrace, hBoundary, hDeadline]
      simp

/-! ## Later decisions -/

/-- The state that counts changes without an event only when the boundary is reached. -/
theorem effectiveOf_later {e e' : Effective} (h : effectiveOf s now = .ok e)
    (h' : effectiveOf s now' = .ok e') (hTime : now ≤ now') (hState : e'.state ≠ e.state) :
    e'.state = .expired ∧ e.state = s.state ∧ ∃ boundary, s.boundary = some boundary ∧
      boundary ≤ now' := by
  rcases effectiveOf_cases h with ⟨hRevoked, rfl⟩ |
    ⟨hValid, boundary, hBoundary, ⟨hNow, rfl⟩ | ⟨hOver, rfl⟩⟩
  · rcases effectiveOf_cases h' with ⟨-, rfl⟩ | ⟨hValid, -⟩
    · exact absurd rfl hState
    · exact absurd hRevoked hValid
  · rcases effectiveOf_cases h' with ⟨hRevoked, -⟩ |
      ⟨-, boundary', hBoundary', ⟨-, rfl⟩ | ⟨hOver, rfl⟩⟩
    · exact absurd hRevoked hValid
    · exact absurd rfl hState
    · cases hBoundary.symm.trans hBoundary'
      exact ⟨rfl, rfl, boundary, hBoundary, Nat.le_of_not_lt fun hLt => hOver ⟨hNow.1, hLt⟩⟩
  · rcases effectiveOf_cases h' with ⟨hRevoked, -⟩ | ⟨-, boundary', hBoundary', ⟨hNow, rfl⟩ | ⟨-, rfl⟩⟩
    · exact absurd hRevoked hValid
    · cases hBoundary.symm.trans hBoundary'
      exact absurd ⟨hNow.1, Nat.lt_of_le_of_lt hTime hNow.2⟩ hOver
    · exact absurd rfl hState

theorem effectiveOf_revoked {e : Effective} (hChecked : s.Checked) (h : effectiveOf s now = .ok e) :
    e.state = .revoked ↔ s.state = .revoked := by
  rcases effectiveOf_cases h with ⟨hRevoked, rfl⟩ |
    ⟨hValid, boundary, hBoundary, ⟨hNow, rfl⟩ | ⟨hOver, rfl⟩⟩
  · refine ⟨fun _ => ?_, fun _ => rfl⟩
    rcases hRevoked with hState | hAt
    · exact hState
    · exact hChecked.2.2.2.2.mpr hAt
  · exact Iff.rfl
  · exact ⟨nofun, fun hState => absurd (.inl hState) hValid⟩

structure Books.Inv (setting : Setting) (encoding : Encoding) (b : Books) : Prop where
  registry : b.registry.Inv
  formed : b.registry.Formed setting encoding
  paid : b.paid.Inv

structure Books.Later (b b' : Books) : Prop where
  registry : b.registry.Keeps b'.registry
  paid : b.paid.Keeps b'.paid
  now : b.now ≤ b'.now

theorem Books.Later.refl (b : Books) : b.Later b := ⟨.refl _, .refl _, le_rfl⟩

theorem Books.Later.trans {b'' : Books} (h : b.Later b') (h' : b'.Later b'') : b.Later b'' :=
  ⟨h.registry.trans h'.registry, h.paid.trans h'.paid, h.now.trans h'.now⟩

theorem Books.Inv.step (hFits : setting.Fits encoding) (h : b.Inv setting encoding)
    (hStep : Books.Step setting encoding b b') : b'.Inv setting encoding ∧ b.Later b' := by
  cases hStep with
  | wait now hTime => exact ⟨⟨h.registry, h.formed, h.paid⟩, ⟨.refl _, .refl _, hTime⟩⟩
  | access now call hDraws =>
    obtain ⟨hInv, hKeeps⟩ := h.registry.perform now call
    exact ⟨⟨hInv, h.formed.perform h.registry hFits hDraws now, h.paid⟩, ⟨hKeeps, .refl _, le_rfl⟩⟩
  | revokeInvite hash =>
    obtain ⟨hInv, hKeeps⟩ := h.registry.revokeInvite hash
    exact ⟨⟨hInv, ⟨h.formed.devices, h.formed.challenges⟩, h.paid⟩, ⟨hKeeps, .refl _, le_rfl⟩⟩
  | event e support call _ =>
    obtain ⟨hInv, hKeeps⟩ := h.paid.apply e b.now support call
    exact ⟨⟨h.registry, h.formed, hInv⟩, ⟨.refl _, hKeeps, le_rfl⟩⟩

def Paid.revision (p : Paid) (device : String) : Nat :=
  ((p.subscription device).map (·.version)).getD 0

theorem Paid.Keeps.revision (h : p.Keeps p') (hInv' : p'.Inv) (device : String) :
    p.revision device ≤ p'.revision device ∧ (p'.revision device = p.revision device →
      p'.subscription device = p.subscription device) := by
  unfold Paid.revision
  cases hS : p.subscription device with
  | none =>
    refine ⟨Nat.zero_le _, fun hSame => ?_⟩
    cases hS' : p'.subscription device with
    | none => rfl
    | some s' =>
      have hVersion := (hInv'.rows s' (Rows.mem_of_get hS')).1.2.2.1
      rw [hS'] at hSame
      exact absurd hSame (Nat.ne_of_gt hVersion)
  | some s =>
    obtain ⟨s', hS', hSame | hVersion⟩ := h.cohort device s hS
    · rw [hS', hSame]
      exact ⟨le_rfl, fun _ => rfl⟩
    · rw [hS']
      exact ⟨Nat.le_of_lt hVersion, fun hSame => absurd hSame (Nat.ne_of_gt hVersion)⟩

theorem decisionOf_table (h : decisionOf r p now record = .ok d) :
    d.revision = p.revision record.device ∧ d.cohort = (p.subscription record.device).isSome ∧
      d.paidUntil = (p.subscription record.device).map (·.paidUntil) ∧
      d.graceUntil = (p.subscription record.device).bind (·.graceUntil) := by
  rcases decisionOf_row h with ⟨hNone, hCohort, hRevision, -, -, hPaid, hGrace, -⟩ |
    ⟨s, e, hS, -, hCohort, hRevision, -, -, hPaid, hGrace, -⟩
  · rw [Paid.revision, hNone]
    exact ⟨hRevision, hCohort, hPaid, hGrace⟩
  · rw [Paid.revision, hS]
    exact ⟨hRevision, hCohort, hPaid, hGrace⟩

theorem decisionOf_congr (hDevice : record'.device = record.device) (hWg : record'.wg = record.wg)
    (hTcp : record'.tcp = record.tcp)
    (hRows : p'.subscription record.device = p.subscription record.device)
    (hIdentity : r'.identity record' = r.identity record) :
    decisionOf r' p' now record' = decisionOf r p now record := by
  have hEffective : effectiveSubscriptionState p' record.device now =
      effectiveSubscriptionState p record.device now := by
    unfold effectiveSubscriptionState
    rw [hRows]
  unfold decisionOf
  rw [hDevice, hWg, hTcp, hRows, hIdentity, hEffective]

theorem decisionOf_allowed (h : decisionOf r p now record = .ok d) (hAllowed : d.allowed = true) :
    d.identityAllowed = true := by
  obtain ⟨effective, -, rfl⟩ := decisionOf_ok h
  exact ((Bool.and_eq_true _ _).mp hAllowed).1

theorem decisionOf_state {d' : Decision} (hDevice : record'.device = record.device)
    (hRows : p'.subscription record.device = p.subscription record.device) (hTime : now ≤ now')
    (h : decisionOf r p now record = .ok d) (h' : decisionOf r' p' now' record' = .ok d')
    (hOther : d'.state ≠ d.state) :
    d'.state = .paid .expired ∧ (d.boundary.any fun boundary => decide (boundary ≤ now')) = true := by
  rw [← hDevice] at hRows
  rcases decisionOf_row h with ⟨hNone, -, -, hState, -⟩ |
    ⟨s, e, hS, hOf, -, -, hState, -, hPaid, hGrace, -⟩
  · rw [← hDevice] at hNone
    rcases decisionOf_row h' with ⟨-, -, -, hState', -⟩ | ⟨s', e', hS', -⟩
    · exact absurd (hState'.trans hState.symm) hOther
    · rw [hS', hNone] at hRows
      cases hRows
  · rw [← hDevice] at hS
    rcases decisionOf_row h' with ⟨hNone', -⟩ | ⟨s', e', hS', hOf', -, -, hState', -⟩
    · rw [hNone', hS] at hRows
      cases hRows
    · rw [hS', hS] at hRows
      cases hRows
      rw [hState, hState'] at hOther
      obtain ⟨hExpired, hSame, boundary, hBoundary, hOver⟩ :=
        effectiveOf_later hOf hOf' hTime fun hEq => hOther (congrArg _ hEq)
      rw [hState', hExpired, Decision.boundary_eq (hState.trans (congrArg _ hSame)) hPaid hGrace,
        hBoundary]
      exact ⟨rfl, decide_eq_true hOver⟩

/-- A decision read later follows one read before. -/
theorem decisionOf_follows (hInv : b.Inv setting encoding) (hInv' : b'.Inv setting encoding)
    (hLater : b.Later b') {d' : Decision} (hMem : record ∈ b.registry.devices)
    (hMem' : record' ∈ b'.registry.devices) (hSame : record'.device = record.device)
    (hRead : decisionOf b.registry b.paid b.now record = .ok d)
    (hRead' : decisionOf b'.registry b'.paid b'.now record' = .ok d') : d.Follows d' := by
  obtain ⟨⟨hOwner, hKey, hId⟩, hIdentity, hObserved⟩ := decisionOf_identity hRead
  obtain ⟨⟨hOwner', hKey', hId'⟩, hIdentity', hObserved'⟩ := decisionOf_identity hRead'
  obtain ⟨hRevision, hCohort, hPaid, hGrace⟩ := decisionOf_table hRead
  obtain ⟨hRevision', hCohort', hPaid', hGrace'⟩ := decisionOf_table hRead'
  rw [hSame] at hRevision' hCohort' hPaid' hGrace'
  obtain ⟨hMono, hRows⟩ := hLater.paid.revision hInv'.paid record.device
  have hCounts : d'.identityAllowed = true → d.identityAllowed = true := by
    rw [hIdentity, hIdentity']
    exact hLater.registry.identity hInv.registry hInv'.registry hMem hMem' hSame
  have hKeys : record'.wg = record.wg ∧ record'.tcp = record.tcp := by
    obtain ⟨row, hRow, -, hWg, hTcp, -⟩ := hLater.registry.devices _ _ (hInv.registry.devices.get hMem)
    have hGet := hInv'.registry.devices.get hMem'
    rw [hSame] at hGet
    cases hRow.symm.trans hGet
    exact ⟨hWg, hTcp⟩
  constructor
  case bound =>
    rw [hOwner, hOwner', hKey, hKey', hId, hId']
    exact ⟨hSame.symm, hKeys.1.symm, hKeys.2.symm⟩
  case terminal =>
    refine ⟨?_, ?_, hCounts⟩
    · rw [hCohort, hCohort', Option.isSome_iff_exists, Option.isSome_iff_exists]
      rintro ⟨s, hS⟩
      obtain ⟨s', hS', -⟩ := hLater.paid.cohort _ _ hS
      exact ⟨s', hS'⟩
    · intro hRevoked
      rcases decisionOf_row hRead with ⟨-, -, -, hState, -⟩ | ⟨s, e, hS, hOf, -, -, hState, -⟩
      · rw [hState] at hRevoked
        cases hRevoked
      · rw [hState] at hRevoked
        have hRow := (effectiveOf_revoked (hInv.paid.rows s (Rows.mem_of_get hS)).1 hOf).mp
          (DecisionState.paid.inj hRevoked)
        have hKept := hLater.paid.revoked _ _ hS hRow
        rw [← hSame] at hKept
        rcases decisionOf_row hRead' with ⟨hNone', -⟩ | ⟨s', e', hS', hOf', -, -, hState', -⟩
        · rw [hNone'] at hKept
          cases hKept
        · have hChecked := (hInv'.paid.rows s' (Rows.mem_of_get hS')).1
          cases hS'.symm.trans hKept
          rw [hState', (effectiveOf_revoked hChecked hOf').mpr hRow]
  case fresh =>
    rw [hRevision, hRevision', hObserved, hObserved', hPaid, hPaid', hGrace, hGrace', hCohort,
      hCohort']
    refine ⟨hMono, hLater.now, fun hEq => ?_⟩
    rw [hRows hEq]
    exact ⟨rfl, rfl, rfl⟩
  case sameClock =>
    intro hClock hOther hLe
    by_contra hDenied
    have hYes : d'.identityAllowed = true := decisionOf_allowed hRead'
      (Bool.not_eq_false _ |>.mp hDenied)
    have hBefore := hCounts hYes
    rw [hRevision, hRevision'] at hLe
    rw [hIdentity] at hBefore
    rw [hIdentity'] at hYes
    have hEq : decisionOf b'.registry b'.paid b.now record' =
        decisionOf b.registry b.paid b.now record :=
      decisionOf_congr hSame hKeys.1 hKeys.2 (hRows (le_antisymm hLe hMono)) (hYes.trans hBefore.symm)
    rw [hObserved, hObserved'] at hClock
    rw [hClock, hEq, hRead] at hRead'
    exact hOther (Except.ok.inj hRead').symm
  case sameRevision =>
    intro hEq hOther
    rw [hRevision, hRevision'] at hEq
    rw [hObserved']
    exact decisionOf_state hSame (hRows hEq) hLater.now hRead hRead' hOther

/-! ## Envelopes -/

variable {envelope : Envelope} {device : Option String} {node : Node} {column : Device → String}

section

variable (h : readSnapshot r p node now device = .ok envelope)
include h

theorem readSnapshot_ok :
    envelope.node = node ∧ envelope.observedAt = now ∧
      ∃ records : List Device, records.Subperm r.devices ∧
        records.mapM (decisionOf r p now) = .ok envelope.decisions := by
  obtain ⟨_, -, h⟩ := bind_ok h
  obtain ⟨decisions, hDecisions, h⟩ := bind_ok h
  cases h
  exact ⟨rfl, rfl, _, (List.perm_insertionSort _ _).subperm.trans List.filter_sublist.subperm,
    hDecisions⟩

theorem readSnapshot_mem
    (hD : d ∈ envelope.decisions) : ∃ record ∈ r.devices, decisionOf r p now record = .ok d := by
  obtain ⟨-, -, records, hRecords, hDecisions⟩ := readSnapshot_ok h
  obtain ⟨record, hRecord, hRead⟩ := mapM_mem hDecisions hD
  exact ⟨record, hRecords.subset hRecord, hRead⟩

omit h in
theorem readSnapshot_device {device : String}
    (h : readSnapshot r p node now (some device) = .ok envelope) (hD : d ∈ envelope.decisions) :
    d.device = device := by
  obtain ⟨_, -, h⟩ := bind_ok h
  obtain ⟨decisions, hDecisions, h⟩ := bind_ok h
  cases h
  obtain ⟨record, hRecord, hRead⟩ := mapM_mem hDecisions hD
  have hFiltered := List.of_mem_filter ((List.perm_insertionSort _ _).mem_iff.mp hRecord)
  rw [(decisionOf_identity hRead).1.1]
  simpa using hFiltered

theorem readSnapshot_length : envelope.decisions.length ≤ r.devices.length := by
  obtain ⟨-, -, records, hRecords, hDecisions⟩ := readSnapshot_ok h
  rw [← (mapM_ok hDecisions).length_eq]
  exact hRecords.length_le

theorem readSnapshot_nodup
    {field : Decision → String} (hField : ∀ record d, decisionOf r p now record = .ok d →
      field d = column record)
    (hColumn : (r.devices.map column).Nodup) : (envelope.decisions.map field).Nodup := by
  obtain ⟨-, -, records, hRecords, hDecisions⟩ := readSnapshot_ok h
  rw [mapM_map hDecisions hField]
  obtain ⟨part, hPerm, hPart⟩ := hRecords
  exact (hPerm.map column).nodup_iff.mp ((hPart.map column).nodup hColumn)

end

theorem Registry.Inv.nodup (h : r.Inv) (hColumn : ∀ d ∈ r.devices, ∀ e ∈ r.devices,
    column d = column e → d = e) : (r.devices.map column).Nodup :=
  List.Nodup.map_on hColumn (List.Nodup.of_map _ h.devices)

theorem readSnapshot_valid (hInv : b.Inv setting encoding)
    (hSize : envelope.decisions.length ≤ decisionLimit)
    (h : readSnapshot b.registry b.paid node b.now device = .ok envelope) :
    validate encoding envelope node b.now = .ok () := by
  obtain ⟨hNode, hObserved, -⟩ := readSnapshot_ok h
  rw [validate_ok_iff]
  refine ⟨⟨hNode, ?_, ?_, hSize⟩, fun d hD => ?_, ?_, ?_, ?_⟩
  · rw [hObserved]
    exact sub_lt_self _ (by norm_num [leaseSeconds])
  · rw [hObserved]
    exact le_add_of_nonneg_right (Nat.cast_nonneg _)
  · obtain ⟨record, hRecord, hRead⟩ := readSnapshot_mem h hD
    obtain ⟨hDevice, hWg, hTcp⟩ := hInv.formed.devices record hRecord
    rw [hObserved]
    exact decisionOf_valid hInv.paid hDevice hWg hTcp hRead
  · exact readSnapshot_nodup h (fun _ _ hRead => (decisionOf_identity hRead).1.1) hInv.registry.devices
  · refine readSnapshot_nodup h (fun _ _ hRead => (decisionOf_identity hRead).1.2.1)
      (hInv.registry.nodup fun d hD e hE hSame => ?_)
    exact hInv.registry.apart d hD e hE (.inr (.inl hSame))
  · refine readSnapshot_nodup h (fun _ _ hRead => (decisionOf_identity hRead).1.2.2)
      (hInv.registry.nodup fun d hD e hE hSame => ?_)
    exact hInv.registry.apart d hD e hE (.inr (.inr hSame))

end FamilyConnect.Friends
