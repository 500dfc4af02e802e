import FamilyConnect.Friends.Access
import FamilyConnect.Lib.Transition

/-!
# Devices, invitations and challenges over whole runs

Each piece of a call keeps the invariant of the tables, and rows only move on:
keys of a device stay, a bound invitation stays bound, a revocation stays.
-/

namespace FamilyConnect.Friends

open Lib Transaction

structure Registry.Inv (r : Registry) : Prop where
  invites : Rows.Keyed Invite.hash r.invites
  devices : Rows.Keyed Device.device r.devices
  challenges : Rows.Keyed Challenge.nonce r.challenges
  apart : ∀ d ∈ r.devices, ∀ e ∈ r.devices, d.publicKey = e.publicKey ∨ d.wg = e.wg ∨
    d.tcp = e.tcp → d = e
  bound : ∀ i ∈ r.invites, ∀ j ∈ r.invites, ∀ device, i.device = some device →
    j.device = some device → i = j
  created : ∀ d ∈ r.devices, ∃ i ∈ r.invites, i.device = some d.device
  window : ∀ device, (r.unused device).length ≤ 8

structure Registry.Keeps (r r' : Registry) : Prop where
  devices : ∀ device row, r.device device = some row → ∃ row', r'.device device = some row' ∧
    row'.publicKey = row.publicKey ∧ row'.wg = row.wg ∧ row'.tcp = row.tcp ∧
      (row.revoked = true → row'.revoked = true)
  invites : ∀ hash i, r.invite hash = some i → ∃ i', r'.invite hash = some i' ∧
    (∀ device, i.device = some device → i'.device = some device) ∧
      (i.revoked = true → i'.revoked = true)

structure Registry.Next (r r' : Registry) : Prop where
  inv : r'.Inv
  keeps : r.Keeps r'

variable {c : Challenge} {row : Device}

namespace Registry

variable {r r' : Registry} {r'' : Registry}

theorem Keeps.of_tables (hDevices : r'.devices = r.devices) (hInvites : r'.invites = r.invites) :
    r.Keeps r' := by
  constructor
  case devices =>
    intro device row hRow
    refine ⟨row, ?_, rfl, rfl, rfl, fun h => h⟩
    rw [Registry.device, hDevices]
    exact hRow
  case invites =>
    intro hash i hI
    refine ⟨i, ?_, fun _ h => h, fun h => h⟩
    rw [Registry.invite, hInvites]
    exact hI

theorem Keeps.refl (r : Registry) : r.Keeps r := .of_tables rfl rfl

theorem Keeps.trans (h : r.Keeps r') (h' : r'.Keeps r'') : r.Keeps r'' := by
  constructor
  case devices =>
    intro device row hRow
    obtain ⟨row', hRow', hPublic, hWg, hTcp, hRevoked⟩ := h.devices device row hRow
    obtain ⟨row'', hRow'', hPublic', hWg', hTcp', hRevoked'⟩ := h'.devices device row' hRow'
    exact ⟨row'', hRow'', hPublic'.trans hPublic, hWg'.trans hWg, hTcp'.trans hTcp,
      fun hR => hRevoked' (hRevoked hR)⟩
  case invites =>
    intro hash i hI
    obtain ⟨i', hI', hDevice, hRevoked⟩ := h.invites hash i hI
    obtain ⟨i'', hI'', hDevice', hRevoked'⟩ := h'.invites hash i' hI'
    exact ⟨i'', hI'', fun device hD => hDevice' device (hDevice device hD),
      fun hR => hRevoked' (hRevoked hR)⟩

section

variable (h : r.Inv)
include h

theorem Next.refl : r.Next r := ⟨h, .refl r⟩

omit h in
theorem Next.trans (h : r.Next r') (h' : r'.Next r'') : r.Next r'' := ⟨h'.inv, h.keeps.trans h'.keeps⟩

theorem Inv.challenges_next {challenges : List Challenge}
    (hKeyed : Rows.Keyed Challenge.nonce challenges)
    (hWindow : ∀ device, (({ r with challenges := challenges } : Registry).unused
      device).length ≤ 8) :
    r.Next { r with challenges := challenges } :=
  ⟨⟨h.invites, h.devices, hKeyed, h.apart, h.bound, h.created, hWindow⟩, .of_tables rfl rfl⟩

theorem Inv.support_next (support : List Support) : r.Next { r with support := support } :=
  ⟨⟨h.invites, h.devices, h.challenges, h.apart, h.bound, h.created, h.window⟩, .of_tables rfl rfl⟩

theorem Inv.purge (now : Nat) :
    r.Next { r with challenges := r.challenges.filter fun c => decide (now < c.expires) } := by
  refine h.challenges_next (h.challenges.filter _) fun device => ?_
  refine Nat.le_trans ?_ (h.window device)
  exact (List.filter_sublist.filter _).length_le

theorem Inv.issue (hNew : r.challenge c.nonce = none) (hRoom : (r.unused c.device).length < 8) :
    r.Next { r with challenges := r.challenges ++ [c] } := by
  refine h.challenges_next (h.challenges.append hNew) fun device => ?_
  have hWindow := h.window device
  rw [unused, List.filter_append, List.length_append]
  change (r.unused device).length + _ ≤ 8
  by_cases hDevice : c.device = device
  · have hOne :=
      List.length_filter_le (fun c : Challenge => decide (c.device = device ∧ c.used = false)) [c]
    rw [hDevice] at hRoom
    rw [List.length_singleton] at hOne
    omega
  · have hNone : List.filter (fun c : Challenge => decide (c.device = device ∧ c.used = false))
      [c] = [] := by simp [hDevice]
    rw [hNone]
    exact hWindow

theorem Inv.consume (c : Challenge) :
    r.Next { r with challenges := Rows.put Challenge.nonce { c with used := true } r.challenges } := by
  refine h.challenges_next (h.challenges.put _) fun device => ?_
  refine Nat.le_trans ?_ (h.window device)
  exact Rows.length_filter_put (by simp) r.challenges

theorem Inv.revoke {device : String} (hRow : r.device device = some row) :
    r.Next { r with devices := Rows.put Device.device { row with revoked := true } r.devices } := by
  have hMem : row ∈ r.devices := Rows.mem_of_get hRow
  -- The changed row has the keys of the old one.
  have hOld : ∀ d ∈ Rows.put Device.device { row with revoked := true } r.devices, ∃ old ∈ r.devices,
      d.device = old.device ∧ d.publicKey = old.publicKey ∧ d.wg = old.wg ∧ d.tcp = old.tcp := by
    intro d hD
    rcases Rows.mem_put hD with rfl | hD
    · exact ⟨row, hMem, rfl, rfl, rfl, rfl⟩
    · exact ⟨d, hD, rfl, rfl, rfl, rfl⟩
  have hKeyed := h.devices.put { row with revoked := true }
  refine ⟨⟨h.invites, hKeyed, h.challenges, ?_, h.bound, ?_, h.window⟩,
    ⟨fun other row' hRow' => ?_, fun hash i hI => ?_⟩⟩
  · intro d hD e hE hSame
    obtain ⟨d₀, hD₀, hDevice, hPublic, hWg, hTcp⟩ := hOld d hD
    obtain ⟨e₀, hE₀, hDevice', hPublic', hWg', hTcp'⟩ := hOld e hE
    rw [hPublic, hPublic', hWg, hWg', hTcp, hTcp'] at hSame
    have hEq := h.apart d₀ hD₀ e₀ hE₀ hSame
    rw [hEq, ← hDevice'] at hDevice
    exact List.inj_on_of_nodup_map hKeyed hD hE hDevice
  · intro d hD
    obtain ⟨d₀, hD₀, hDevice, -⟩ := hOld d hD
    obtain ⟨i, hI, hBound⟩ := h.created d₀ hD₀
    exact ⟨i, hI, by rw [hBound, hDevice]⟩
  · have hGet : ({ r with devices := Rows.put Device.device { row with revoked := true } r.devices } : Registry).device other =
        if row.device = other then some { row with revoked := true } else r.device other :=
          Rows.get_put Device.device other _ r.devices
    rw [hGet]
    split
    · rename_i hSame
      have hKey : row.device = device := Rows.key_of_get hRow
      rw [← hSame, hKey] at hRow'
      cases hRow.symm.trans hRow'
      exact ⟨_, rfl, rfl, rfl, rfl, fun _ => rfl⟩
    · exact ⟨row', hRow', rfl, rfl, rfl, fun hR => hR⟩
  · exact ⟨i, hI, fun _ hD => hD, fun hR => hR⟩

variable {hash : String}

theorem Inv.invited (hNew : r.invite hash = none) :
    r.Next { r with invites := r.invites ++ [({ hash := hash } : Invite)] } := by
  refine ⟨⟨h.invites.append hNew, h.devices, h.challenges, h.apart, ?_, fun d hD => ?_, h.window⟩,
    ⟨?_, fun other i hI => ?_⟩⟩
  · exact Rows.forall_append (fun i hI => Rows.forall_append (h.bound i hI) nofun) nofun
  · obtain ⟨i, hI, hBound⟩ := h.created d hD
    exact ⟨i, List.mem_append_left _ hI, hBound⟩
  · exact fun device row hRow => ⟨row, hRow, rfl, rfl, rfl, fun hR => hR⟩
  · exact ⟨i, Rows.get_append_of_some _ hI, fun _ hD => hD, fun hR => hR⟩

theorem Inv.enrol {grant : Invite} (row : Device) (hGrant : r.invite hash = some grant)
    (hFree : grant.device = none) (hDevices : ∀ d ∈ r.devices, d.device ≠ row.device ∧
      d.publicKey ≠ row.publicKey ∧ d.wg ≠ row.wg ∧ d.tcp ≠ row.tcp)
    (hInvites : ∀ i ∈ r.invites, i.device ≠ some row.device) :
    r.Next { r with devices := r.devices ++ [row], invites := Rows.put Invite.hash { grant with device := some row.device } r.invites } := by
  have hNew : Rows.get Device.device row.device r.devices = none :=
    Rows.get_none_iff.mpr fun d hD => (hDevices d hD).1
  have hKey : grant.hash = hash := Rows.key_of_get hGrant
  have hGet : ∀ other, Rows.get Invite.hash other
    (Rows.put Invite.hash { grant with device := some row.device } r.invites) =
      if grant.hash = other then some { grant with device := some row.device } else r.invite other :=
    fun other => Rows.get_put Invite.hash other _ r.invites
  have hOther : ∀ d ∈ r.devices, ¬(d.publicKey = row.publicKey ∨ d.wg = row.wg ∨ d.tcp = row.tcp) := by
    intro d hD
    simp [hDevices d hD]
  refine ⟨⟨h.invites.put _, h.devices.append hNew, h.challenges, ?_, ?_, ?_, h.window⟩,
    ⟨fun device old hOld => ?_, fun other i hI => ?_⟩⟩
  · refine Rows.forall_append (fun d hD => Rows.forall_append (h.apart d hD)
      fun hSame => absurd hSame (hOther d hD)) ?_
    refine Rows.forall_append (fun e hE hSame => absurd ?_ (hOther e hE)) fun _ => rfl
    exact hSame.imp Eq.symm (Or.imp Eq.symm Eq.symm)
  · refine Rows.forall_put (fun i hI => Rows.forall_put (h.bound i hI) ?_)
      (Rows.forall_put (fun j hJ => ?_) fun _ _ _ => rfl)
    · rintro device hDevice ⟨⟩
      exact absurd hDevice (hInvites i hI)
    · rintro device ⟨⟩ hDevice
      exact absurd hDevice (hInvites j hJ)
  · refine Rows.forall_append (fun d hD => ?_) ⟨_, Rows.mem_put_self _ _ _, rfl⟩
    obtain ⟨i, hI, hBound⟩ := h.created d hD
    refine ⟨i, Rows.mem_put_other hI fun hSame => ?_, hBound⟩
    have hI' := h.invites.get hI
    rw [hSame] at hI'
    change Rows.get Invite.hash grant.hash r.invites = some i at hI'
    rw [hKey] at hI'
    cases hGrant.symm.trans hI'
    rw [hFree] at hBound
    cases hBound
  · exact ⟨old, Rows.get_append_of_some row hOld, rfl, rfl, rfl, fun hR => hR⟩
  · change ∃ i', Rows.get Invite.hash other (Rows.put Invite.hash
      { grant with device := some row.device } r.invites) = some i' ∧ _
    rw [hGet]
    split
    · rename_i hSame
      rw [← hSame, hKey] at hI
      cases hGrant.symm.trans hI
      refine ⟨_, rfl, fun device hD => ?_, fun hR => hR⟩
      rw [hFree] at hD
      cases hD
    · exact ⟨i, hI, fun _ hD => hD, fun hR => hR⟩

end

end Registry

/-! ## What calls do -/

variable {setting : Setting} {r r' : Registry} {now : Nat} {device code uuid : String}
  {draws : List String} {proof : Proof} {purpose : Purpose}

theorem ensures_invite (h : r.Inv) : (invite setting code).Ensures (fun _ r' => r.Next r' ∧
    r'.challenges = r.challenges ∧ r'.devices = r.devices) r := by
  refine bind_found fun hash _ => ?_
  refine bind_get ?_
  refine bind_require fun hNew => ?_
  exact ensures_set ⟨h.invited hNew, rfl, rfl⟩

theorem ensures_revokeDevice (h : r.Inv) : (revokeDevice device).Ensures
    (fun _ r' => (r.Next r' ∧ r'.challenges = r.challenges) ∧
      (∃ row, r'.device device = some row ∧ row.revoked = true) ∧
      ∃ row, r.device device = some row ∧ r'.devices = Rows.put Device.device
        { row with revoked := true } r.devices) r := by
  refine bind_require fun _ => ?_
  refine bind_get ?_
  refine bind_found fun row hRow => ?_
  refine bind_set (ensures_pure ⟨⟨h.revoke hRow, rfl⟩, ⟨{ row with revoked := true }, ?_, rfl⟩, row,
    hRow, rfl⟩)
  have hKey : row.device = device := Rows.key_of_get hRow
  change Rows.get Device.device device (Rows.put Device.device
    { row with revoked := true } r.devices) = _
  rw [Rows.get_put]
  exact if_pos hKey

theorem ensures_claimed {publicKey wg invitation : String} :
    (claimed setting device publicKey wg purpose invitation).Ensures
    (fun _ r' => r' = r ∧ ∀ row, r.device device = some row → row.revoked = false) r := by
  refine bind_get ?_
  split
  · rename_i row hRow
    refine bind_require fun hValid => ensures_pure ⟨rfl, fun row' hRow' => ?_⟩
    cases hRow.symm.trans hRow'
    exact hValid.1
  · rename_i hNone
    have hNew : ∀ row, r.device device = some row → row.revoked = false := by
      intro row hRow
      cases hNone.symm.trans hRow
    refine bind_require fun _ => ?_
    split
    · refine bind_found fun hash _ => ?_
      refine bind_found fun grant _ => ?_
      exact bind_require fun _ => ensures_pure ⟨rfl, hNew⟩
    · exact ensures_pure ⟨rfl, hNew⟩

structure Challenged (setting : Setting) (now : Nat) (nonce publicKey wg : String)
    (purpose : Purpose) (r r' : Registry) (c : Challenge) : Prop where
  nonce : c.nonce = setting.sha256 nonce
  device : binding setting publicKey wg = some c.device
  keys : c.publicKey = publicKey ∧ c.wg = wg
  purpose : c.purpose = purpose
  unused : c.used = false
  challenges : r'.challenges = (r.challenges.filter fun c => decide (now < c.expires)) ++ [c]
  devices : r'.devices = r.devices
  valid : ∀ row, r.device c.device = some row → row.revoked = false

theorem ensures_challenge {nonce publicKey wg invitation : String} (h : r.Inv) :
    (challenge setting now nonce publicKey wg purpose invitation).Ensures
      (fun _ r' => r.Next r' ∧ ∃ c, Challenged setting now nonce publicKey wg purpose r r' c) r := by
  refine bind_found fun device hDevice => ?_
  refine ensures_bind (ensures_claimed.mono fun invite r₁ hClaimed => ?_)
  obtain ⟨rfl, hValid⟩ := hClaimed
  refine ensures_bind (ensures_modify ?_)
  refine bind_get ?_
  refine bind_require fun hRoom => ?_
  refine bind_require fun hNew => ?_
  refine bind_set (ensures_pure ?_)
  have hPurged := h.purge now
  let c : Challenge :=
    { nonce := setting.sha256 nonce, device := device, publicKey := publicKey, wg := wg
      purpose := purpose
      invite := invite, expires := now + challengeTtl }
  refine ⟨hPurged.trans (hPurged.inv.issue (c := c) hNew hRoom), c, ?_⟩
  constructor
  case nonce | purpose | unused | challenges | devices => rfl
  case device => exact hDevice
  case keys => exact ⟨rfl, rfl⟩
  case valid => exact hValid

theorem ensures_answered : (answered setting now proof purpose).Ensures
    (fun answer r' => r' = r ∧ setting.verify proof = some answer.1 ∧
      r.challenge (setting.sha256 proof.challenge) = some answer.2 ∧
      answer.2.Admits now purpose answer.1 proof) r := by
  refine bind_found fun device hDevice => ?_
  refine bind_get ?_
  refine bind_found fun c hChallenge => ?_
  exact bind_require fun hAdmits => ensures_pure ⟨rfl, hDevice, hChallenge, hAdmits⟩

theorem ensures_consume (h : r.Inv) (c : Challenge) : (consume c).Ensures
    (fun _ r' => r.Next r' ∧ r'.devices = r.devices ∧ r'.invites = r.invites ∧
      r'.challenges = Rows.put Challenge.nonce { c with used := true } r.challenges) r :=
  ensures_modify ⟨h.consume c, rfl, rfl, rfl⟩

theorem ensures_enrolled (h : r.Inv) : (enrolled uuid proof purpose device c).Ensures
    (fun row r' => r.Next r' ∧ r'.challenges = r.challenges ∧ r'.device device = some row ∧
      ((∃ old, r.device device = some old) ∧ r' = r ∨
        r.device device = none ∧ r'.devices = r.devices ++
          [⟨device, proof.publicIdentity, proof.wg, uuid, false⟩])) r := by
  refine bind_get ?_
  split
  · rename_i row hRow
    exact ensures_pure ⟨.refl h, rfl, hRow, .inl ⟨⟨row, hRow⟩, rfl⟩⟩
  · rename_i hNone
    refine bind_require fun _ => ?_
    refine bind_get ?_
    refine bind_found fun hash _ => ?_
    refine bind_found fun grant hGrant => ?_
    refine bind_require fun hOpen => ?_
    refine bind_require fun hDevices => ?_
    refine bind_require fun hInvites => ?_
    let row : Device :=
      { device := device, publicKey := proof.publicIdentity, wg := proof.wg, tcp := uuid }
    refine bind_set (ensures_pure ⟨h.enrol row hGrant hOpen.2 hDevices hInvites, rfl, ?_,
      .inr ⟨hNone, rfl⟩⟩)
    exact Rows.get_append_of_none hNone rfl

theorem ensures_registered (h : r.Inv) : (registered draws device).Ensures
    (fun _ r' => r.Next r' ∧ r'.challenges = r.challenges ∧ r'.devices = r.devices ∧
      r'.invites = r.invites) r := by
  refine bind_get ?_
  split
  · exact ensures_pure ⟨.refl h, rfl, rfl, rfl⟩
  · refine bind_require fun _ => ?_
    refine bind_found fun supportId _ => ?_
    exact ensures_set ⟨h.support_next _, rfl, rfl, rfl⟩

structure Consumed (setting : Setting) (now : Nat) (proof : Proof) (purpose : Purpose)
    (r r' : Registry) (c : Challenge) : Prop where
  device : setting.verify proof = some c.device
  row : r.challenge (setting.sha256 proof.challenge) = some c
  admits : c.Admits now purpose c.device proof
  challenges : r'.challenges = Rows.put Challenge.nonce { c with used := true } r.challenges

theorem ensures_complete (h : r.Inv) : (complete setting now uuid draws proof purpose).Ensures
    (fun result r' => r.Next r' ∧ ∃ c, Consumed setting now proof purpose r r' c ∧
      result.device = c.device ∧ ∃ row, r'.device c.device = some row ∧ row.revoked = false ∧
        row.publicKey = proof.publicIdentity ∧ row.wg = proof.wg ∧ result.publicKey = row.wg ∧
        result.tcpId = row.tcp ∧ ((∃ old, r.device c.device = some old) ∧ r'.devices = r.devices ∧
          r'.invites = r.invites ∨ r.device c.device = none ∧ r'.devices = r.devices ++
            [⟨c.device, proof.publicIdentity, proof.wg, uuid, false⟩])) r := by
  refine ensures_bind (ensures_answered.mono fun answer r₁ hAnswered => ?_)
  obtain ⟨device, c⟩ := answer
  obtain ⟨rfl, hVerify, hRow, hAdmits⟩ := hAnswered
  have hDevice : c.device = device := hAdmits.2.2.2.1
  refine ensures_bind ((ensures_enrolled h).mono fun row r₂ hEnrolled => ?_)
  obtain ⟨hNext, hSame, hRow₂, hOld⟩ := hEnrolled
  refine bind_require fun hValid => ?_
  refine ensures_bind ((ensures_consume hNext.inv c).mono fun _ r₃ hConsumed => ?_)
  obtain ⟨hNext₃, hDevices₃, hInvites₃, hPut⟩ := hConsumed
  rw [hSame] at hPut
  -- What is known before the support id is drawn stays true.
  have hEnd : ∀ r₄ : Registry, r₃.Next r₄ → r₄.challenges = r₃.challenges →
      r₄.devices = r₃.devices → r₄.invites = r₃.invites → r₁.Next r₄ ∧
        ∃ c, Consumed setting now proof purpose r₁ r₄ c ∧ device = c.device ∧
          ∃ row', r₄.device c.device = some row' ∧ row'.revoked = false ∧
          row'.publicKey = proof.publicIdentity ∧ row'.wg = proof.wg ∧ row.wg = row'.wg ∧
          row.tcp = row'.tcp ∧ ((∃ old, r₁.device c.device = some old) ∧ r₄.devices = r₁.devices ∧
            r₄.invites = r₁.invites ∨ r₁.device c.device = none ∧
              r₄.devices = r₁.devices ++ [⟨c.device, proof.publicIdentity, proof.wg, uuid,
              false⟩]) := by
    intro r₄ hNext₄ hChallenges hDevices hInvites
    refine ⟨hNext.trans (hNext₃.trans hNext₄), c, ⟨?_, hRow, ?_, ?_⟩, hDevice.symm, row, ?_,
      hValid.1, hValid.2.1, hValid.2.2, rfl, rfl, ?_⟩
    · rw [hDevice]
      exact hVerify
    · rw [hDevice]
      exact hAdmits
    · rw [hChallenges, hPut]
    · rw [hDevice, Registry.device, hDevices, hDevices₃]
      exact hRow₂
    · rw [hDevice, hDevices, hDevices₃, hInvites, hInvites₃]
      rcases hOld with ⟨hKnown, rfl⟩ | hNew
      · exact .inl ⟨hKnown, rfl, rfl⟩
      · exact .inr hNew
  refine ensures_bind ?_
  split
  · refine (ensures_registered hNext₃.inv).mono fun _ r₄ hRegistered => ensures_pure ?_
    obtain ⟨hNext₄, hChallenges, hDevices, hInvites⟩ := hRegistered
    exact hEnd r₄ hNext₄ hChallenges hDevices hInvites
  · exact ensures_pure (ensures_pure (hEnd r₃ (.refl hNext₃.inv) rfl rfl rfl))

theorem ensures_status (h : r.Inv) : (status setting now proof).Ensures
    (fun report r' => r.Next r' ∧ r'.devices = r.devices ∧ r'.invites = r.invites ∧
      ∃ c, Consumed setting now proof .status r r' c ∧ report = r'.report proof c.device) r := by
  refine ensures_bind (ensures_answered.mono fun answer r₁ hAnswered => ?_)
  obtain ⟨device, c⟩ := answer
  obtain ⟨rfl, hVerify, hRow, hAdmits⟩ := hAnswered
  have hDevice : c.device = device := hAdmits.2.2.2.1
  subst hDevice
  refine ensures_bind ((ensures_consume h c).mono fun _ r₂ hConsumed => ?_)
  exact bind_get (ensures_pure
    ⟨hConsumed.1, hConsumed.2.1, hConsumed.2.2.1, c, ⟨hVerify, hRow, hAdmits, hConsumed.2.2.2⟩, rfl⟩)

/-! ## Runs -/

inductive Call where
  | invite (code : String)
  | challenge (nonce publicKey wg : String) (purpose : Purpose) (invitation : String)
  | complete (uuid : String) (draws : List String) (proof : Proof) (purpose : Purpose)
  | status (proof : Proof)
  | revokeDevice (device : String)

def outcome {α : Type} (t : Tx α) (r : Registry) : Option Failure × Registry :=
  (match (t.commit r).1 with | .ok _ => none | .error failure => some failure, (t.commit r).2)

def Call.perform (setting : Setting) (now : Nat) (r : Registry) : Call → Option Failure × Registry
  | .invite code => outcome (Friends.invite setting code) r
  | .challenge nonce publicKey wg purpose invitation =>
      outcome (Friends.challenge setting now nonce publicKey wg purpose invitation) r
  | .complete uuid draws proof purpose => outcome
      (Friends.complete setting now uuid draws proof purpose) r
  | .status proof => outcome (Friends.status setting now proof) r
  | .revokeDevice device => outcome (Friends.revokeDevice device) r

structure Ticket where
  nonce : String
  device : String
  publicKey : String
  wg : String
  purpose : Purpose
  deriving DecidableEq

def Challenge.ticket (c : Challenge) : Ticket := ⟨c.nonce, c.device, c.publicKey, c.wg, c.purpose⟩

structure World where
  registry : Registry := {}
  issued : List Ticket := []
  used : List Ticket := []

def Call.tickets (setting : Setting) : Call → List Ticket × List Ticket
  | .challenge nonce publicKey wg purpose _ =>
    ([⟨setting.sha256 nonce, (binding setting publicKey wg).getD "", publicKey, wg, purpose⟩], [])
  | .complete _ _ proof purpose =>
    ([], [⟨setting.sha256 proof.challenge, (setting.verify proof).getD "", proof.publicIdentity,
      proof.wg, purpose⟩])
  | .status proof => ([], [⟨setting.sha256 proof.challenge, (setting.verify proof).getD "",
      proof.publicIdentity, proof.wg, .status⟩])
  | _ => ([], [])

def World.next (setting : Setting) (now : Nat) (w : World) (call : Call) : World :=
  match (call.perform setting now w.registry).1 with
  | none =>
    { registry := (call.perform setting now w.registry).2
      issued := (call.tickets setting).1 ++ w.issued
      used := (call.tickets setting).2 ++ w.used }
  | some _ => { w with registry := (call.perform setting now w.registry).2 }

def World.Fresh (setting : Setting) (w : World) (call : Call) : Prop :=
  ∀ ticket ∈ (call.tickets setting).1, ∀ old ∈ w.issued, old.nonce ≠ ticket.nonce

def enrolment (setting : Setting) : System World where
  initial w := w = {}
  step w w' := ∃ now call, w.Fresh setting call ∧ w' = w.next setting now call

variable {w w' : World} {call : Call}

theorem outcome_ok {α : Type} {t : Tx α} {post : α → Registry → Prop} (h : t.Ensures post r)
    (hOk : (outcome t r).1 = none) : ∃ a, post a (outcome t r).2 := by
  unfold outcome at hOk ⊢
  cases hResult : (t.commit r).1 with
  | ok a => exact ⟨a, h.committed hResult⟩
  | error failure =>
    rw [hResult] at hOk
    cases hOk

theorem outcome_raised {α : Type} {t : Tx α} (h : (outcome t r).1 ≠ none) : (outcome t r).2 = r := by
  cases hResult : (t.commit r).1 with
  | ok a => simp [outcome, hResult] at h
  | error failure => exact commit_raised hResult

theorem Call.perform_raised (h : (call.perform setting now r).1 ≠ none) :
    (call.perform setting now r).2 = r := by
  cases call with
  | invite | challenge | complete | status | revokeDevice => exact outcome_raised h

inductive Call.Writes (setting : Setting) (call : Call) (r r' : Registry) : Prop where
  | nothing : call.tickets setting = ([], []) → r'.challenges = r.challenges → Writes setting call r r'
  | issues (c : Challenge) (p : Challenge → Bool) : call.tickets setting = ([c.ticket], []) →
      c.used = false → r'.challenges = r.challenges.filter p ++ [c] → Writes setting call r r'
  | uses (c : Challenge) : call.tickets setting = ([], [c.ticket]) → c ∈ r.challenges →
      c.used = false → r'.challenges = Rows.put Challenge.nonce
        { c with used := true } r.challenges → Writes setting call r r'

theorem Consumed.tickets (h : Consumed setting now proof purpose r r' c) :
    (⟨setting.sha256 proof.challenge, (setting.verify proof).getD "", proof.publicIdentity,
      proof.wg, purpose⟩ : Ticket) = c.ticket := by
  obtain ⟨-, -, hPurpose, -, hPublic, hWg⟩ := h.admits
  have hNonce : c.nonce = setting.sha256 proof.challenge := Rows.key_of_get h.row
  rw [h.device, Challenge.ticket, hNonce, hPurpose, hPublic, hWg]
  rfl

theorem Call.perform_ok (h : r.Inv) (hOk : (call.perform setting now r).1 = none) :
    r.Next (call.perform setting now r).2 ∧ call.Writes setting r (call.perform setting now r).2 := by
  cases call with
  | invite code =>
    obtain ⟨_, hNext, hSame, -⟩ := outcome_ok (ensures_invite h) hOk
    exact ⟨hNext, .nothing rfl hSame⟩
  | revokeDevice device =>
    obtain ⟨_, ⟨hNext, hSame⟩, -⟩ := outcome_ok (ensures_revokeDevice h) hOk
    exact ⟨hNext, .nothing rfl hSame⟩
  | challenge nonce publicKey wg purpose invitation =>
    obtain ⟨_, hNext, c, hIssued⟩ := outcome_ok (ensures_challenge h) hOk
    refine ⟨hNext, .issues c _ ?_ hIssued.unused hIssued.challenges⟩
    rw [Call.tickets, hIssued.device, Challenge.ticket, hIssued.nonce, hIssued.keys.1,
      hIssued.keys.2, hIssued.purpose]
    rfl
  | complete uuid draws proof purpose =>
    obtain ⟨_, hNext, c, hConsumed, -⟩ := outcome_ok (ensures_complete h) hOk
    refine ⟨hNext, .uses c ?_ (Rows.mem_of_get hConsumed.row) hConsumed.admits.1 hConsumed.challenges⟩
    rw [Call.tickets, hConsumed.tickets]
  | status proof =>
    obtain ⟨_, hNext, -, -, c, hConsumed, -⟩ := outcome_ok (ensures_status h) hOk
    refine ⟨hNext, .uses c ?_ (Rows.mem_of_get hConsumed.row) hConsumed.admits.1 hConsumed.challenges⟩
    rw [Call.tickets, hConsumed.tickets]

theorem Registry.Inv.perform (h : r.Inv) (now : Nat) (call : Call) :
    r.Next (call.perform setting now r).2 := by
  cases hResult : (call.perform setting now r).1 with
  | none => exact (Call.perform_ok h hResult).1
  | some failure =>
    rw [Call.perform_raised (by rw [hResult]; exact Option.some_ne_none failure)]
    exact .refl h

structure World.Inv (w : World) : Prop where
  registry : w.registry.Inv
  open_ : ∀ c ∈ w.registry.challenges, c.ticket ∈ w.issued ∧
    (c.used = false → ∀ ticket ∈ w.used, ticket.nonce ≠ c.nonce)
  issued : (w.issued.map Ticket.nonce).Nodup
  used : ∀ ticket ∈ w.used, ticket ∈ w.issued
  once : (w.used.map Ticket.nonce).Nodup

theorem World.Inv.next (h : w.Inv) (now : Nat) (hFresh : w.Fresh setting call) :
    (w.next setting now call).Inv := by
  have hNext : w.registry.Next (call.perform setting now w.registry).2 := h.registry.perform now call
  unfold World.next
  split
  · rename_i hOk
    cases (Call.perform_ok h.registry hOk).2 with
    | nothing hTickets hSame =>
      rw [hTickets]
      refine ⟨hNext.inv, ?_, h.issued, h.used, h.once⟩
      intro c hMem
      rw [hSame] at hMem
      exact h.open_ c hMem
    | issues c p hTickets hUnused hChallenges =>
      rw [World.Fresh, hTickets] at hFresh
      have hNew : ∀ old ∈ w.issued, old.nonce ≠ c.nonce := hFresh c.ticket (List.mem_singleton_self _)
      rw [hTickets]
      refine ⟨hNext.inv, fun c' hMem => ?_, ?_, fun ticket hMem => List.mem_cons_of_mem _
        (h.used ticket hMem), h.once⟩
      · rw [hChallenges] at hMem
        rcases List.mem_append.mp hMem with hMem | hMem
        · obtain ⟨hIssued, hOpen⟩ := h.open_ c' (List.mem_of_mem_filter hMem)
          exact ⟨.tail _ hIssued, hOpen⟩
        · cases List.mem_singleton.mp hMem
          exact ⟨.head _, fun _ ticket hUsed => hNew ticket (h.used ticket hUsed)⟩
      · refine List.nodup_cons.mpr ⟨fun hMem => ?_, h.issued⟩
        obtain ⟨old, hOld, hNonce⟩ := List.mem_map.mp hMem
        exact hNew old hOld hNonce
    | uses c hTickets hMem hUnused hChallenges =>
      obtain ⟨hIssued, hOpen⟩ := h.open_ c hMem
      rw [hTickets]
      refine ⟨hNext.inv, fun c' hMem' => ?_, h.issued, fun ticket hTicket => ?_, ?_⟩
      · rw [hChallenges] at hMem'
        rcases h.registry.challenges.mem_put hMem' with rfl | ⟨hOld, hKey⟩
        · exact ⟨hIssued, nofun⟩
        · obtain ⟨hIssued', hOpen'⟩ := h.open_ c' hOld
          refine ⟨hIssued', fun hUnused' ticket hTicket => ?_⟩
          rcases List.mem_cons.mp hTicket with rfl | hTicket
          · exact fun hNonce => hKey hNonce.symm
          · exact hOpen' hUnused' ticket hTicket
      · rcases List.mem_cons.mp hTicket with rfl | hTicket
        · exact hIssued
        · exact h.used ticket hTicket
      · refine List.nodup_cons.mpr ⟨fun hUsed => ?_, h.once⟩
        obtain ⟨ticket, hTicket, hNonce⟩ := List.mem_map.mp hUsed
        exact hOpen hUnused ticket hTicket hNonce
  · rename_i failure hRaised
    have hSame : (call.perform setting now w.registry).2 = w.registry :=
      Call.perform_raised (by rw [hRaised]; exact Option.some_ne_none failure)
    rw [hSame]
    exact h

theorem Registry.Inv.empty : ({} : Registry).Inv := by
  have hEmpty : ∀ {α : Type} {a : α}, a ∉ ([] : List α) := List.not_mem_nil
  constructor
  case invites | devices | challenges => exact List.nodup_nil
  case apart | bound | created => exact fun _ hMem => absurd hMem hEmpty
  case window => exact fun _ => Nat.zero_le 8

theorem World.Inv.reachable (h : (enrolment setting).Reachable w) : w.Inv := by
  refine h.invariant (I := World.Inv) ?_ ?_
  · rintro w rfl
    refine ⟨.empty, ?_, List.nodup_nil, ?_, List.nodup_nil⟩
    · exact fun _ hMem => absurd hMem List.not_mem_nil
    · exact fun _ hMem => absurd hMem List.not_mem_nil
  · rintro w w' - hInv ⟨now, call, hFresh, rfl⟩
    exact hInv.next now hFresh

theorem World.next_registry : (w.next setting now call).registry =
    (call.perform setting now w.registry).2 := by
  unfold World.next
  split <;> rfl

theorem World.Inv.steps (h : w.Inv) (hSteps : Relation.ReflTransGen (enrolment setting).step w w') :
    w'.Inv ∧ w.registry.Keeps w'.registry := by
  induction hSteps with
  | refl => exact ⟨h, .refl _⟩
  | tail _ hStep ih =>
    obtain ⟨now, call, hFresh, rfl⟩ := hStep
    refine ⟨ih.1.next now hFresh, ih.2.trans ?_⟩
    rw [World.next_registry]
    exact (ih.1.registry.perform now call).keeps

/-! ## What holds of the tables -/

structure Registry.Lawful (r : Registry) : Prop where
  codes : ∀ i ∈ r.invites, ∀ j ∈ r.invites, i.hash = j.hash → i = j
  identities : ∀ d ∈ r.devices, ∀ e ∈ r.devices, d.device = e.device ∨ d.publicKey = e.publicKey ∨
    d.wg = e.wg ∨ d.tcp = e.tcp → d = e
  invitation : ∀ d ∈ r.devices, ∃! i, i ∈ r.invites ∧ i.device = some d.device
  challenges : ∀ device now, ((r.challenges.filter
    fun c => decide (c.device = device ∧ c.used = false ∧ now < c.expires))).length ≤ 8

theorem Registry.Inv.lawful (h : r.Inv) : r.Lawful := by
  constructor
  case codes => exact fun i hI j hJ hSame => List.inj_on_of_nodup_map h.invites hI hJ hSame
  case identities =>
    intro d hD e hE hSame
    rcases hSame with hSame | hSame
    · exact List.inj_on_of_nodup_map h.devices hD hE hSame
    · exact h.apart d hD e hE hSame
  case invitation =>
    intro d hD
    obtain ⟨i, hI, hBound⟩ := h.created d hD
    exact ⟨i, ⟨hI, hBound⟩, fun j hJ => h.bound j hJ.1 i hI d.device hJ.2 hBound⟩
  case challenges =>
    intro device now
    refine Nat.le_trans ?_ (h.window device)
    refine (List.monotone_filter_right r.challenges fun c hC => ?_).length_le
    simp only [decide_eq_true_eq] at hC ⊢
    exact ⟨hC.1, hC.2.1⟩

def Call.Needs (setting : Setting) (device : String) : Call → Prop
  | .challenge _ publicKey wg _ _ => binding setting publicKey wg = some device
  | .complete _ _ proof _ => setting.verify proof = some device
  | _ => False

theorem Call.Needs.refused (h : r.Inv) (hNeeds : call.Needs setting device)
    (hRow : r.device device = some row) (hRevoked : row.revoked = true) (now : Nat) :
    (call.perform setting now r).1 ≠ none := by
  intro hOk
  cases call with
  | challenge nonce publicKey wg purpose invitation =>
    obtain ⟨_, -, c, hIssued⟩ := outcome_ok (ensures_challenge h) hOk
    cases hIssued.device.symm.trans hNeeds
    rw [hIssued.valid row hRow] at hRevoked
    cases hRevoked
  | complete uuid draws proof purpose =>
    obtain ⟨_, -, c, hConsumed, -, row', hRow', hValid, -, -, -, -, hSame⟩ :=
      outcome_ok (ensures_complete h) hOk
    cases hConsumed.device.symm.trans hNeeds
    rcases hSame with ⟨-, hDevices, -⟩ | ⟨hNone, -⟩
    · rw [Registry.device, hDevices] at hRow'
      cases hRow.symm.trans hRow'
      rw [hValid] at hRevoked
      cases hRevoked
    · cases hNone.symm.trans hRow
  | invite | status | revokeDevice => exact hNeeds

instance : Decidable (w.Fresh setting call) := inferInstanceAs (Decidable (∀ ticket ∈ _, ∀ old ∈ _, _))

namespace Sample

def honest : Setting :=
  { sha256 := fun s => s, identify := some, validWg := fun _ => true,
    verify := fun proof => some proof.publicIdentity }

def alice : String := "0123456789abcdef0123456789abcdef"

def proofOf (challenge : String) : Proof := ⟨challenge, alice, "wg", "signature"⟩

def invitation : String := "FC-0000-1111-2222-3333-4444-5555-6666-7777"

def activated : World :=
  ((World.next honest 10 {} (.invite invitation)).next honest 10
    (.challenge "n1" alice "wg" .activate invitation)).next honest 10
    (.complete "uuid" ["FC-2222-3333"] (proofOf "n1") .activate)

def asking : World := activated.next honest 20 (.challenge "n2" alice "wg" .ru "")

theorem reachable_activated : (enrolment honest).Reachable activated := by
  have hInvited : (enrolment honest).Reachable (World.next honest 10 {} (.invite invitation)) :=
    .next (.start rfl) ⟨10, _, by decide, rfl⟩
  exact (hInvited.next ⟨10, _, by decide +kernel, rfl⟩).next ⟨10, _, by decide +kernel, rfl⟩

theorem reachable_asking : (enrolment honest).Reachable asking :=
  reachable_activated.next ⟨20, _, by decide +kernel, rfl⟩

end Sample

/-- A challenge is used at most once, every activation comes from an invitation, bindings are kept,
and a revoked device is refused by every later call that needs it. -/
theorem enrolment_registry (hReachable : (enrolment setting).Reachable w) :
    ((w.used.map Ticket.nonce).Nodup ∧ ∀ ticket ∈ w.used, ticket ∈ w.issued) ∧
      (w.issued.map Ticket.nonce).Nodup ∧ w.registry.Lawful ∧
      (∀ later, Relation.ReflTransGen (enrolment setting).step w later →
      w.registry.Keeps later.registry) ∧ ∀ now device,
        ((Call.revokeDevice device).perform setting now w.registry).1 = none →
        ∀ later, Relation.ReflTransGen (enrolment setting).step
          (w.next setting now (.revokeDevice device)) later → ∀ now' (call : Call),
          call.Needs setting device → (call.perform setting now' later.registry).1 ≠ none := by
  have hInv := World.Inv.reachable hReachable
  refine ⟨⟨hInv.once, hInv.used⟩, hInv.issued, hInv.registry.lawful,
    fun later hSteps => (hInv.steps hSteps).2, ?_⟩
  intro now device hOk later hSteps now' call hNeeds
  obtain ⟨_, -, ⟨row, hRow, hRevoked⟩, -⟩ := outcome_ok (ensures_revokeDevice hInv.registry) hOk
  have hAfter : (w.next setting now (.revokeDevice device)).Inv :=
    hInv.next now fun _ hMem => absurd hMem List.not_mem_nil
  obtain ⟨hLater, hKeeps⟩ := hAfter.steps hSteps
  have hRow' : (w.next setting now (.revokeDevice device)).registry.device device = some row := by
    rw [World.next_registry]
    exact hRow
  obtain ⟨row', hRow', -, -, -, hStill⟩ := hKeeps.devices device row hRow'
  exact hNeeds.refused hLater.registry hRow' (hStill hRevoked) now'

open Sample

/-- The device is revoked before it answers. -/
theorem enrolment_registry_revoked : asking.used.length = 1 ∧ asking.registry.devices.length = 1 ∧
    asking.registry.Lawful ∧ ((Call.complete "uuid" [] (proofOf "n2") .ru).perform honest 22
      (asking.next honest 21 (.revokeDevice alice)).registry).1 ≠ none := by
  obtain ⟨-, -, hLawful, -, hRevoked⟩ := enrolment_registry reachable_asking
  refine ⟨by decide +kernel, by decide +kernel, hLawful, ?_⟩
  exact hRevoked 21 alice (by decide +kernel) _ .refl 22 _ rfl

end FamilyConnect.Friends
