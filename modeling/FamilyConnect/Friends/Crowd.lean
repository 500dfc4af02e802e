import FamilyConnect.Friends.History

/-!
# A registry of any size

Nothing in `access.py` bounds the number of devices: fresh names can be activated
one after the other.
-/

namespace FamilyConnect.Friends

open Lib Transaction

/-! ## Names -/

def digits (n : Nat) : List Char := (List.range 32).map fun i => if n.testBit i then '1' else '0'

def nameOf (n : Nat) : String := String.ofList (digits n)

variable {n m : Nat} {k k' : String} {r : Registry}

theorem forall_digits {p : Char → Prop} (hZero : p '0') (hOne : p '1') : ∀ c ∈ digits n, p c := by
  intro c hC
  obtain ⟨i, -, rfl⟩ := List.mem_map.mp hC
  split
  · exact hOne
  · exact hZero

theorem length_digits (n : Nat) : (digits n).length = 32 := by
  rw [digits, List.length_map, List.length_range]

theorem nameOf_injective (hN : n < 2 ^ 32) (hM : m < 2 ^ 32) (h : nameOf n = nameOf m) : n = m := by
  have hDigits : digits n = digits m := String.ofList_injective h
  refine Nat.eq_of_testBit_eq fun i => ?_
  by_cases hI : i < 32
  · have hBit := List.map_inj_left.mp hDigits i (List.mem_range.mpr hI)
    cases hBitN : n.testBit i <;> cases hBitM : m.testBit i <;> simp_all
  · have hSmall : ∀ k, k < 2 ^ 32 → k.testBit i = false := fun k hK =>
      Nat.testBit_lt_two_pow (hK.trans_le (Nat.pow_le_pow_right (by decide) (Nat.le_of_not_lt hI)))
    rw [hSmall n hN, hSmall m hM]

theorem hex_nameOf (n : Nat) : hex 32 (nameOf n) = true := by
  have hAll : (digits n).all (fun c => c.isDigit || decide ('a' ≤ c ∧ c ≤ 'f')) = true :=
    List.all_eq_true.mpr (forall_digits (by decide) (by decide))
  simp only [hex, nameOf, String.length_ofList, String.toList_ofList, length_digits, decide_true,
    Bool.true_and]
  exact hAll

def plain : Setting :=
  { sha256 := fun s => s
    identify := fun publicKey => if hex 32 publicKey = true then some publicKey else none
    validWg := fun _ => true
    verify := fun proof => some proof.publicIdentity }

def anything : Encoding := ⟨fun _ => true, fun _ => true⟩

theorem plain_fits : plain.Fits anything := by
  constructor
  case wg => exact fun _ _ => rfl
  case identity =>
    intro publicKey device hIdentity
    change (if hex 32 publicKey = true then some publicKey else none) = some device at hIdentity
    split at hIdentity
    · cases hIdentity
      assumption
    · cases hIdentity

theorem codeHash_nameOf (n : Nat) : codeHash plain (nameOf n) = some (nameOf n) := by
  have hNormal : (Text.upper (Text.strip (digits n))).filter (· ≠ '-') = digits n := by
    rw [Text.strip_visible (forall_digits (by decide) (by decide)),
      Text.upper_capitals (forall_digits (by decide) (by decide)), List.filter_eq_self]
    exact forall_digits (by decide) (by decide)
  have hAll : (digits n).all (fun c => c.isDigit || decide ('A' ≤ c ∧ c ≤ 'F')) = true :=
    List.all_eq_true.mpr (forall_digits (by decide) (by decide))
  unfold codeHash
  rw [nameOf, String.toList_ofList]
  dsimp only
  rw [hNormal]
  split
  · rename_i hStart
    have hOther : ∀ c ∈ digits n, c ≠ 'F' := forall_digits (by decide) (by decide)
    exact absurd rfl (hOther 'F' (hStart ▸ .head _))
  · rw [if_pos ⟨length_digits n, hAll⟩]
    rfl

/-! ## Activation -/

structure Fresh (k : String) (r : Registry) : Prop where
  invites : ∀ i ∈ r.invites, i.hash ≠ k ∧ i.device ≠ some k
  devices : ∀ d ∈ r.devices, d.device ≠ k ∧ d.publicKey ≠ k ∧ d.wg ≠ k ∧ d.tcp ≠ k
  challenges : ∀ c ∈ r.challenges, c.nonce ≠ k ∧ c.device ≠ k
  support : ∀ s ∈ r.support, s.device ≠ k ∧ s.supportId ≠ k

def opening (k : String) : Challenge := ⟨k, k, k, k, .activate, some k, challengeTtl, false⟩

def invited (k : String) (r : Registry) : Registry :=
  { r with invites := r.invites ++ [({ hash := k } : Invite)] }

def challenged (k : String) (r : Registry) : Registry :=
  { r with challenges := r.challenges.filter (fun c => decide (0 < c.expires)) ++ [opening k] }

def joined (k : String) (r : Registry) : Registry :=
  { invites := Rows.put Invite.hash ⟨k, some k, false⟩ r.invites
    devices := r.devices ++ [⟨k, k, k, k, false⟩]
    challenges := Rows.put Challenge.nonce { opening k with used := true } r.challenges
    support := r.support ++ [({ device := k, supportId := k } : Support)] }

theorem Fresh.device (h : Fresh k r) : r.device k = none :=
  Rows.get_none_iff.mpr fun d hD => (h.devices d hD).1

theorem invite_runs (h : Fresh k r) (hCode : codeHash plain k = some k) :
    invite plain k r = .ok ((), invited k r) := by
  have hNew : r.invite k = none := Rows.get_none_iff.mpr fun i hI => (h.invites i hI).1
  rw [invite, run_bind (run_found _ hCode), run_bind run_get, run_bind (run_require _ hNew)]
  rfl

theorem claimed_runs (hDevice : r.device k = none) (hCode : codeHash plain k = some k)
    (hInvite : r.invite k = some { hash := k }) :
    claimed plain k k k .activate k r = .ok (some k, r) := by
  rw [claimed, run_bind run_get, hDevice]
  change (require _ _ >>= _ : Tx _) r = _
  rw [run_bind (run_require _ (.inl rfl)), if_pos rfl, run_bind (run_found _ hCode),
    run_bind (run_found _ hInvite), run_bind (run_require _ ⟨rfl, rfl⟩)]
  rfl

theorem challenge_runs (hHex : hex 32 k = true) (hCode : codeHash plain k = some k)
    (hDevice : r.device k = none) (hInvite : r.invite k = some { hash := k })
    (hChallenges : ∀ c ∈ r.challenges, c.nonce ≠ k ∧ c.device ≠ k) :
    challenge plain 0 k k k .activate k r = .ok (⟨k, challengeTtl⟩, challenged k r) := by
  have hBinding : binding plain k k = some k := by
    rw [binding]
    exact if_pos hHex
  have hRoom : (Registry.unused
      { r with challenges := r.challenges.filter fun c => decide (0 < c.expires) } k).length < 8 := by
    have hNone : Registry.unused
        { r with challenges := r.challenges.filter fun c => decide (0 < c.expires) } k = [] := by
      rw [Registry.unused, List.filter_eq_nil_iff]
      intro c hC hUnused
      exact (hChallenges c (List.mem_of_mem_filter hC)).2 (of_decide_eq_true hUnused).1
    rw [hNone]
    decide
  have hNew : Registry.challenge
      { r with challenges := r.challenges.filter fun c => decide (0 < c.expires) }
      (plain.sha256 k) = none :=
    Rows.get_none_iff.mpr fun c hC => (hChallenges c (List.mem_of_mem_filter hC)).1
  rw [challenge, run_bind (run_found _ hBinding), run_bind (claimed_runs hDevice hCode hInvite),
    run_bind run_modify, run_bind run_get, run_bind (run_require _ hRoom),
      run_bind (run_require _ hNew)]
  rfl

def opens (k : String) : Proof := ⟨k, k, k, ""⟩

theorem enrolled_runs (hDevices : ∀ d ∈ r.devices, d.device ≠ k ∧
      d.publicKey ≠ (opens k).publicIdentity ∧ d.wg ≠ (opens k).wg ∧ d.tcp ≠ k)
    (hInvites : ∀ i ∈ r.invites, i.device ≠ some k) (hInvite : r.invite k = some { hash := k }) :
    enrolled k (opens k) .activate k (opening k) r =
      .ok (⟨k, k, k, k, false⟩, { r with
        devices := r.devices ++ [⟨k, k, k, k, false⟩],
        invites := Rows.put Invite.hash ⟨k, some k, false⟩ r.invites }) := by
  have hNone : r.device k = none := Rows.get_none_iff.mpr fun d hD => (hDevices d hD).1
  have hHash : (opening k).invite = some k := rfl
  rw [enrolled, run_bind run_get, hNone]
  change register _ _ _ _ _ r = _
  rw [register, run_bind (run_require _ rfl), run_bind run_get, run_bind (run_found _ hHash),
    run_bind (run_found _ hInvite), run_bind (run_require _ ⟨rfl, rfl⟩),
      run_bind (run_require _ hDevices), run_bind (run_require _ hInvites)]
  rfl

theorem answered_runs (hChallenge : r.challenge (plain.sha256 (opens k).challenge) = some
    (opening k)) : answered plain 0 (opens k) .activate r = .ok ((k, opening k), r) := by
  have hVerify : plain.verify (opens k) = some k := rfl
  have hTime : 0 < challengeTtl := by decide
  have hAdmits : (opening k).Admits 0 .activate k (opens k) := ⟨rfl, hTime, rfl, rfl, rfl, rfl⟩
  rw [answered, run_bind (run_found _ hVerify), run_bind run_get, run_bind (run_found _ hChallenge),
    run_bind (run_require _ hAdmits)]
  rfl

theorem registered_runs (hDevice : r.device k ≠ none)
    (hSupport : ∀ s ∈ r.support, s.device ≠ k ∧ s.supportId ≠ k) :
    registered [k] k r = .ok ((),
      { r with support := r.support ++ [({ device := k, supportId := k } : Support)] }) := by
  have hNone : r.supportOf k = none := Rows.get_none_iff.mpr fun s hS => (hSupport s hS).1
  have hDraw : (([k].take 32).find? fun id => r.support.all
      fun row => decide (row.supportId ≠ id)) = some k := by
    have hAll : (r.support.all fun row => decide (row.supportId ≠ k)) = true :=
      List.all_eq_true.mpr fun s hS => decide_eq_true (hSupport s hS).2
    rw [List.take_of_length_le (by simp : [k].length ≤ 32), List.find?_cons, hAll]
  rw [registered, run_bind run_get, hNone]
  change (require _ _ >>= _ : Tx _) r = _
  rw [run_bind (run_require _ hDevice), run_bind (run_found _ hDraw)]
  rfl

theorem complete_runs
    (hDevices : ∀ d ∈ r.devices, d.device ≠ k ∧ d.publicKey ≠ k ∧ d.wg ≠ k ∧ d.tcp ≠ k)
    (hInvites : ∀ i ∈ r.invites, i.device ≠ some k) (hInvite : r.invite k = some { hash := k })
    (hChallenge : r.challenge k = some (opening k))
    (hSupport : ∀ s ∈ r.support, s.device ≠ k ∧ s.supportId ≠ k) :
    complete plain 0 k [k] (opens k) .activate r = .ok (⟨k, k, k⟩, joined k r) := by
  have hNew : Rows.get Device.device k (r.devices ++ [⟨k, k, k, k, false⟩]) ≠ none := by
    intro hNone
    exact Rows.get_none_iff.mp hNone _ (List.mem_append_right _ (List.mem_singleton_self _)) rfl
  rw [complete, run_bind (answered_runs hChallenge)]
  change (enrolled _ _ _ _ _ >>= _ : Tx _) r = _
  rw [run_bind (enrolled_runs hDevices hInvites hInvite), run_bind (run_require _ ⟨rfl, rfl, rfl⟩),
    consume, run_bind run_modify, if_pos nofun]
  refine Eq.trans (run_bind (registered_runs ?_ ?_)) rfl
  · exact hNew
  · exact hSupport

/-! ## The registry after any number of activations -/

def grown (k : String) (r : Registry) : Registry := joined k (challenged k (invited k r))

theorem outcome_of_run {α : Type} {t : Tx α} {a : α} {r r' : Registry} (h : t r = .ok (a, r')) :
    outcome t r = (none, r') := by
  rw [outcome, commit_of_run h]

abbrev Attained (r : Registry) : Prop := (history plain anything).Reachable ⟨r, {}, 0⟩

theorem Attained.call (h : Attained r) (call : Call) {r' : Registry} (hDraws : call.Draws anything)
    (hRun : call.perform plain 0 r = (none, r')) : Attained r' := by
  have hStep : Books.Step plain anything ⟨r, {}, 0⟩ ⟨(call.perform plain 0 r).2, {}, 0⟩ :=
    .access 0 call hDraws
  rw [hRun] at hStep
  exact h.next hStep

theorem Fresh.grows (h : Fresh k r) (hHex : hex 32 k = true) (hCode : codeHash plain k = some k)
    (hAttained : Attained r) : Attained (grown k r) := by
  have hInvite : (invited k r).invite k = some { hash := k } := by
    have hNew : Rows.get Invite.hash k r.invites = none :=
      Rows.get_none_iff.mpr fun i hI => (h.invites i hI).1
    exact Rows.get_append_of_none hNew rfl
  have hChallenge : (challenged k (invited k r)).challenge k = some (opening k) := by
    have hNew : Rows.get Challenge.nonce k (r.challenges.filter fun c => decide (0 < c.expires)) =
        none :=
      Rows.get_none_iff.mpr fun c hC => (h.challenges c (List.mem_of_mem_filter hC)).1
    exact Rows.get_append_of_none hNew rfl
  have hInvites : ∀ i ∈ (invited k r).invites, i.device ≠ some k :=
    Rows.forall_append (fun i hI => (h.invites i hI).2) nofun
  have hDevice : (invited k r).device k = none := h.device
  have hChallenges : ∀ c ∈ (invited k r).challenges, c.nonce ≠ k ∧ c.device ≠ k := h.challenges
  have hInvited : Attained (invited k r) :=
    hAttained.call (.invite k) trivial (outcome_of_run (invite_runs h hCode))
  have hChallenged : Attained (challenged k (invited k r)) :=
    hInvited.call (.challenge k k k .activate k) trivial
      (outcome_of_run (challenge_runs hHex hCode hDevice hInvite hChallenges))
  refine hChallenged.call (.complete k [k] (opens k) .activate) rfl
    (outcome_of_run (complete_runs ?_ ?_ ?_ hChallenge ?_))
  · exact h.devices
  · exact hInvites
  · exact hInvite
  · exact h.support

theorem Fresh.grown (h : Fresh k' r) (hOther : k ≠ k') : Fresh k' (grown k r) := by
  constructor
  case invites =>
    apply Rows.forall_put
    · exact Rows.forall_append h.invites ⟨hOther, nofun⟩
    · exact ⟨hOther, fun hSame => hOther (Option.some.inj hSame)⟩
  case devices => exact Rows.forall_append h.devices ⟨hOther, hOther, hOther, hOther⟩
  case challenges =>
    apply Rows.forall_put
    · exact Rows.forall_append (fun c hC => h.challenges c (List.mem_of_mem_filter hC))
        ⟨hOther, hOther⟩
    · exact ⟨hOther, hOther⟩
  case support => exact Rows.forall_append h.support ⟨hOther, hOther⟩

def crowd : Nat → Registry
  | 0 => {}
  | n + 1 => grown (nameOf n) (crowd n)

theorem length_crowd (n : Nat) : (crowd n).devices.length = n := by
  induction n with
  | zero => rfl
  | succ n ih =>
    change ((crowd n).devices ++ [_]).length = n + 1
    rw [List.length_append, ih, List.length_singleton]

theorem hex_crowd (n : Nat) : ∀ record ∈ (crowd n).devices, hex 32 record.device = true := by
  induction n with
  | zero => nofun
  | succ n ih => exact Rows.forall_append ih (hex_nameOf n)

theorem fresh_crowd (hLe : n ≤ m) (hM : m < 2 ^ 32) : Fresh (nameOf m) (crowd n) := by
  induction n with
  | zero => exact ⟨nofun, nofun, nofun, nofun⟩
  | succ n ih =>
    refine (ih (Nat.le_of_succ_le hLe)).grown fun hSame => ?_
    have hEq := nameOf_injective ((Nat.lt_of_succ_le hLe).trans hM) hM hSame
    exact absurd hLe (hEq ▸ Nat.not_succ_le_self n)

theorem reachable_crowd (hN : n ≤ 2 ^ 32) : Attained (crowd n) := by
  induction n with
  | zero => exact .start rfl
  | succ n ih =>
    have hLt : n < 2 ^ 32 := Nat.lt_of_succ_le hN
    exact (fresh_crowd (Nat.le_refl n) hLt).grows (hex_nameOf n) (codeHash_nameOf n) (ih hLt.le)

end FamilyConnect.Friends
