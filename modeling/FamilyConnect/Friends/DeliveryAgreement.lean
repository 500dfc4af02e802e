import FamilyConnect.Friends.Crowd
import FamilyConnect.Friends.DeliveryValidation

/-!
# What is delivered is accepted

The tables change in every way they can, services are built with any documents, and
challenges are answered. A delivery follows from what `fetch` has checked, and the
client makes the same checks with instants where the server has seconds.
-/

namespace FamilyConnect.Friends

open Lib Transaction

variable {setting : Setting} {fits : Delivery → Bool} {verifier : Verifier} {service : Service}
  {db db' : Restricted} {device : String} {row : Granted} {now time serial : Nat} {proof : Proof}
  {delivery : Delivery} {second limit : Nat} {rows : List CertificateRow} {found old : CertificateRow}

/-! ## Grants -/

theorem holder_ok {holder : Device} (h : db.holder device = .ok holder) :
    db.registry.device device = some holder := by
  obtain ⟨found, hFound, h⟩ := bind_ok h
  obtain ⟨_, -, h⟩ := bind_ok h
  obtain ⟨_, -, h⟩ := bind_ok h
  cases h
  exact given_ok hFound

abbrev Holds (db : Restricted) (device key : String) : Prop :=
  ∃ holder, db.registry.device device = some holder ∧ holder.publicKey = key

structure LegacyGranted (service : Service) (db : Restricted) (device : String) (now : Nat)
    (row : Granted) : Prop where
  holder : Holds db device row.publicKey
  ahead : ∀ expires, row.expires = some expires → now < expires
  stored : service.allActivated = false → ∀ grant, db.grant device = some grant →
    row.expires = grant.expires
  unpaid : row.paidUntil = none

theorem activatedGrant_ok (h : activatedGrant db service.trust device = .ok row) :
    Holds db device row.publicKey ∧ row.expires = none ∧ row.paidUntil = none := by
  obtain ⟨holder, hHolder, h⟩ := bind_ok h
  have hDevice := holder_ok hHolder
  split at h
  · cases h
    exact ⟨⟨holder, hDevice, rfl⟩, rfl, rfl⟩
  · obtain ⟨_, -, h⟩ := bind_ok h
    obtain ⟨_, -, h⟩ := bind_ok h
    cases h
    exact ⟨⟨holder, hDevice, rfl⟩, rfl, rfl⟩

theorem legacyGrant_ok (h : legacyGrant service db device now = .ok row) :
    LegacyGranted service db device now row := by
  unfold legacyGrant at h
  split at h
  · rename_i hActivated
    obtain ⟨hHolder, hExpires, hUnpaid⟩ := activatedGrant_ok h
    refine ⟨hHolder, fun expires hSome => ?_, fun hNot => ?_, hUnpaid⟩
    · rw [hExpires] at hSome
      cases hSome
    · rw [hActivated] at hNot
      cases hNot
  · obtain ⟨_, -, h⟩ := bind_ok h
    obtain ⟨holder, hHolder, h⟩ := bind_ok h
    obtain ⟨grant, hGrant, h⟩ := bind_ok h
    obtain ⟨_, hValid, h⟩ := bind_ok h
    cases h
    have hStored := given_ok hGrant
    refine ⟨⟨holder, holder_ok hHolder, rfl⟩, fun expires hSome => ?_, fun _ other hOther => ?_, rfl⟩
    · have hAhead := (demand_ok hValid).2
      change grant.expires = some expires at hSome
      rw [hSome] at hAhead
      exact of_decide_eq_true hAhead
    · cases hStored.symm.trans hOther
      rfl

structure GrantedWithin (service : Service) (db : Restricted) (device : String) (now : Nat)
    (row : Granted) : Prop where
  holder : Holds db device row.publicKey
  ahead : ∀ expires, row.expires = some expires → now < expires
  stored : service.allActivated = false → ∀ grant, db.grant device = some grant →
    ∀ limit, grant.expires = some limit → ∃ expires, row.expires = some expires ∧ expires ≤ limit
  paid : ∀ effective, effectiveSubscriptionState db.paid device now = .ok (some effective) →
    ∃ boundary expires, effective.expiresAt = some boundary ∧ row.expires = some expires ∧
      expires ≤ boundary

theorem earlier_le_right (first : Option Nat) (second : Nat) : earlier first second ≤ second := by
  cases first with
  | none => exact le_rfl
  | some time => exact min_le_right time second

theorem earlier_le_left (time second : Nat) : earlier (some time) second ≤ time :=
  min_le_left time second

theorem lt_earlier {first : Option Nat} (hFirst : ∀ time, first = some time → now < time)
    (hSecond : now < second) : now < earlier first second := by
  cases first with
  | none => exact hSecond
  | some time => exact lt_min (hFirst time rfl) hSecond

theorem grantOf_ok (h : grantOf service db device now = .ok row) :
    GrantedWithin service db device now row := by
  obtain ⟨legacy, hLegacy, h⟩ := bind_ok h
  obtain ⟨subscription, hSubscription, h⟩ := bind_ok h
  have hState := mapError_ok hSubscription
  have hLegacy := legacyGrant_ok hLegacy
  cases subscription with
  | none =>
    cases h
    refine ⟨hLegacy.holder, hLegacy.ahead, fun hNot grant hGrant limit hLimit => ?_,
      fun effective hEffective => ?_⟩
    · exact ⟨limit, (hLegacy.stored hNot grant hGrant).trans hLimit, le_rfl⟩
    · cases hState.symm.trans hEffective
  | some effective =>
    obtain ⟨_, hAllowed, h⟩ := bind_ok h
    obtain ⟨boundary, hBoundary, h⟩ := bind_ok h
    cases h
    have hBoundary := given_ok hBoundary
    obtain ⟨s, -, hOf⟩ := effective_some hState
    obtain ⟨-, -, -, limit, -, hLimit, hAhead⟩ := effectiveOf_allowed hOf (demand_ok hAllowed)
    cases hBoundary.symm.trans hLimit
    constructor
    case holder => exact hLegacy.holder
    case ahead =>
      rintro expires ⟨⟩
      exact lt_earlier hLegacy.ahead hAhead
    case stored =>
      intro hNot grant hGrant limit hLimit
      refine ⟨_, rfl, ?_⟩
      rw [hLegacy.stored hNot grant hGrant, hLimit]
      exact earlier_le_left limit boundary
    case paid =>
      intro other hOther
      cases hState.symm.trans hOther
      exact ⟨boundary, _, hBoundary, rfl, earlier_le_right _ _⟩

/-! ## Times of a delivery -/

theorem Service.issued_le (hOpen : service.Open now) : service.issued now ≤ now := by
  obtain ⟨⟨-, -, -, ⟨hIssued, -⟩, ⟨hBefore, -⟩, -⟩, -⟩ := hOpen
  exact max_le (Nat.sub_le now _) (max_le hIssued hBefore)

theorem Service.issue_le (hOpen : service.Open now) (device : String) (row : Granted)
    (expires serial : Nat) : (service.issue device row now expires serial).notBefore ≤ now := by
  obtain ⟨⟨-, -, -, -, ⟨hBefore, -⟩, -⟩, -⟩ := hOpen
  exact max_le (Nat.sub_le now _) hBefore

def Service.limits (service : Service) (row : Granted) (now : Nat) : List Nat :=
  [service.issued now + service.lifetime, row.expires.getD service.trust.expiresAt,
    service.trust.expiresAt, service.crl.nextUpdate, service.seeds.expiresAt / nano]

/-- A certificate ends with one of the limits. -/
theorem Service.exists_limit (h : service.expires row now ≤ limit) :
    ∃ other ∈ service.limits row now, other ≤ limit := by
  rw [Service.expires] at h
  simp only [Service.limits, List.exists_mem_cons_iff]
  split at h
  all_goals
    simp only [min_le_iff] at h
    tauto

/-- Every limit is still ahead if the directory lasts into another second. -/
theorem Service.lt_expires (hBuilt : service.Built) (hOpen : service.Open now)
    (hAhead : ∀ expires, row.expires = some expires → now < expires)
    (hDirectory : now < service.seeds.expiresAt / nano) : now < service.expires row now := by
  obtain ⟨⟨-, -, -, ⟨-, hTrust⟩, -, -⟩, ⟨-, ⟨-, hCrl⟩, -, -⟩⟩ := hOpen
  have hLifetime : now < service.issued now + service.lifetime := by
    have hSkew : now - receiptSkew ≤ service.issued now := le_max_left _ _
    have hSmall : receiptSkew = 5 := rfl
    rcases hBuilt.1 with hShort | hLong
    · omega
    · have hMax : maxTestLifetime = 14400 := rfl
      omega
  have hRow : now < row.expires.getD service.trust.expiresAt := by
    cases hExpires : row.expires with
    | none => exact hTrust
    | some expires => exact hAhead expires hExpires
  rw [Service.expires]
  split
  · exact lt_min (lt_min (lt_min hLifetime hRow) (lt_min hTrust hCrl)) hDirectory
  · exact lt_min (lt_min hLifetime hRow) (lt_min hTrust hCrl)

theorem nano_pos : 0 < nano := by decide

theorem mul_nano_le (h : second ≤ time / nano) : second * nano ≤ time :=
  (Nat.le_div_iff_mul_le nano_pos).mp h

theorem lt_mul_nano (h : time / nano < second) : time < second * nano :=
  (Nat.div_lt_iff_lt_mul nano_pos).mp h

/-! ## What `fetch` has checked -/

theorem mem_of_foldl {pick : Option CertificateRow → CertificateRow → Option CertificateRow}
    {best : Option CertificateRow}
    (hPick : ∀ best row found, pick best row = some found → found = row ∨ best = some found)
    (h : rows.foldl pick best = some found) : best = some found ∨ found ∈ rows := by
  induction rows generalizing best with
  | nil => exact .inl h
  | cons first rest ih =>
    rcases ih h with hBest | hMem
    · rcases hPick _ _ _ hBest with rfl | hOld
      · exact .inr (.head _)
      · exact .inl hOld
    · exact .inr (.tail _ hMem)

theorem latest_mem (h : latest rows = some found) : found ∈ rows := by
  unfold latest at h
  refine (mem_of_foldl ?_ h).resolve_left (by rintro ⟨⟩)
  intro best row found hFound
  cases best with
  | none =>
    cases hFound
    exact .inl rfl
  | some other =>
    dsimp only at hFound
    split at hFound
    · cases hFound
      exact .inl rfl
    · exact .inr hFound

def Service.record (service : Service) (device : String) (row : Granted) (now serial : Nat) :
    CertificateRow :=
  ⟨device, row.revision, serial, service.expires row now,
    service.issue device row now (service.expires row now) serial⟩

theorem retained_ok {expires : Nat} {previous found : Option CertificateRow}
    (h : service.retained row expires previous = .ok found) : found = none ∨ found = previous := by
  unfold Service.retained at h
  split at h
  · cases h
    exact .inl rfl
  · obtain ⟨_, -, h⟩ := bind_ok h
    split at h
    · cases h
      exact .inl rfl
    · obtain ⟨_, -, h⟩ := bind_ok h
      cases h
      split
      · exact .inl rfl
      · exact .inr rfl

/-- The newest certificate of the device and revision that lasts for another five minutes. -/
def Restricted.previous (db : Restricted) (device : String) (revision now : Nat) :
    Option CertificateRow :=
  latest (((db.certificates.filter fun other => decide (now < other.expires)).filter fun other =>
    decide (other.device = device ∧ other.revision = revision)).filter fun other =>
      decide (now + 300 < other.expires))

/-- The certificate that is used again, if one is. -/
def Service.reused (service : Service) (db : Restricted) (device : String) (row : Granted)
    (now : Nat) : Option CertificateRow :=
  match service.retained row (service.expires row now) (db.previous device row.revision now) with
  | .ok (some old) =>
    if service.lifetime = maxTestLifetime ∧ old.expires < service.expires row now then none
      else some old
  | _ => none

theorem reused_some (h : service.reused db device row now = some old) :
    old ∈ db.certificates ∧ (old.device = device ∧ old.revision = row.revision) ∧
      now < old.expires := by
  unfold Service.reused at h
  split at h
  · rename_i kept hRetained
    obtain ⟨-, ⟨⟩⟩ := Option.ite_none_left_eq_some.mp h
    have hMem := latest_mem ((retained_ok hRetained).resolve_left nofun).symm
    simp only [List.mem_filter, decide_eq_true_eq] at hMem
    exact ⟨hMem.1.1.1, hMem.1.2, hMem.1.1.2⟩
  · cases h

theorem ensures_renew : (service.renew device row now (service.expires row now) serial).Ensures
    (fun certificate db' => certificate = (service.record device row now serial).certificate ∧
      db' = { db with certificates := db.certificates ++ [service.record device row now serial] })
        db := by
  refine bind_require fun _ => ?_
  refine bind_get ?_
  refine bind_require fun _ => ?_
  exact bind_set (ensures_pure ⟨rfl, rfl⟩)

theorem ensures_certify {db₀ : Restricted} :
    (service.certify device row now (service.expires row now) serial
      (db₀.previous device row.revision now)).Ensures (fun certificate db' =>
      (∃ old, service.reused db₀ device row now = some old ∧ old.certificate = certificate ∧
        certificate.issuer = service.trust.authority.key ∧ db' = db) ∨
      service.reused db₀ device row now = none ∧ certificate =
        (service.record device row now serial).certificate ∧
        db' = { db with certificates := db.certificates ++ [service.record device row now serial] })
          db := by
  refine bind_lift fun retained hRetained => ?_
  rw [Service.reused, hRetained]
  cases retained with
  | none => exact ensures_renew.mono fun _ _ h => .inr ⟨rfl, h⟩
  | some old =>
    dsimp only
    split
    · exact ensures_renew.mono fun _ _ h => .inr ⟨rfl, h⟩
    · exact bind_require fun hIssuer => ensures_pure (.inl ⟨old, rfl, rfl, hIssuer, rfl⟩)

def Service.deliver (service : Service) (device challenge : String) (row : Granted) (now : Nat)
    (certificate : Certificate) : Delivery :=
  { device := device, challenge := challenge, issuedAt := service.issued now
    expiresAt := min (service.expires row now) (min certificate.notAfter
      (service.seeds.expiresAt / nano)), revision := row.revision
    issuer := service.trust, certificate := certificate, revocations := service.crl
    minimumCrl := service.crl.number
    directory := service.seeds }

structure Fetched (setting : Setting) (fits : Delivery → Bool) (service : Service)
    (time serial : Nat) (proof : Proof) (db db' : Restricted) (device : String) (row : Granted)
    (c : RestrictedChallenge) (certificate : Certificate) (delivery : Delivery) : Prop where
  made : delivery = service.deliver device proof.challenge row (time / nano) certificate
  proved : setting.verify proof = some device
  opened : service.Open (time / nano)
  serves : service.seeds.Serves service.trust.family service.trust.gateway time
  grant : grantOf service db device (time / nano) = .ok row
  challenge : db.challenge (setting.sha256 proof.challenge) = some c
  admits : c.Admits service device proof row (time / nano)
  origin : (∃ old, service.reused db device row (time / nano) = some old ∧
      old.certificate = certificate ∧ certificate.issuer = service.trust.authority.key) ∨
    service.reused db device row (time / nano) = none ∧
      certificate = (service.record device row (time / nano) serial).certificate
  clean : certificate.serial ∉ service.crl.revoked
  size : fits delivery = true
  registry : db'.registry = db.registry
  challenges : db'.challenges = Rows.put RestrictedChallenge.nonce
    { c with used := true } db.challenges
  certificates : ∀ other ∈ db'.certificates, other ∈ db.certificates ∨
    other = service.record device row (time / nano) serial

theorem ensures_fetch : (fetch setting fits service time serial proof).Ensures
    (fun delivery db' => ∃ device row c certificate,
      Fetched setting fits service time serial proof db db' device row c certificate delivery)
      db := by
  refine bind_found fun device hDevice => ?_
  refine bind_require fun hOpen => ?_
  refine bind_require fun _ => ?_
  refine bind_require fun hServes => ?_
  refine bind_get ?_
  refine bind_lift fun row hGrant => ?_
  refine bind_found fun c hChallenge => ?_
  refine bind_require fun hAdmits => ?_
  refine bind_set ?_
  refine bind_require fun _ => ?_
  refine ensures_bind (ensures_certify.mono fun certificate db₁ hCertified => ?_)
  refine bind_require fun hClean => ?_
  refine bind_require fun hSize => ?_
  refine ensures_bind (ensures_modify (ensures_pure ⟨device, row, c, certificate, ?_⟩))
  have hLive : ∀ other ∈ db.certificates.filter (fun other => decide (time / nano < other.expires)),
      other ∈ db.certificates :=
    fun other hOther => List.mem_of_mem_filter hOther
  rcases hCertified with ⟨old, hOld, hSame, hIssuer, rfl⟩ | ⟨hNone, hNew, rfl⟩
  · exact ⟨rfl, hDevice, hOpen, hServes, hGrant, hChallenge, hAdmits,
      .inl ⟨old, hOld, hSame, hIssuer⟩, hClean, hSize, rfl, rfl, fun other hOther =>
        .inl (hLive other hOther)⟩
  · refine ⟨rfl, hDevice, hOpen, hServes, hGrant, hChallenge, hAdmits, .inr ⟨hNone, hNew⟩, hClean,
      hSize, rfl, rfl, fun other hOther => ?_⟩
    rcases List.mem_append.mp hOther with hOther | hLast
    · exact .inl (hLive other hOther)
    · exact .inr (List.mem_singleton.mp hLast)

structure CertificateRow.Sound (r : Registry) (row : CertificateRow) : Prop where
  holder : ∃ holder, r.device row.device = some holder ∧ holder.publicKey = row.certificate.publicKey
  device : row.certificate.device = row.device
  revision : row.certificate.revision = row.revision
  ends : row.certificate.notAfter = row.expires

theorem CertificateRow.Sound.keeps {r r' : Registry} {row : CertificateRow} (h : row.Sound r)
    (hKeeps : r.Keeps r') : row.Sound r' := by
  obtain ⟨holder, hHolder, hKey⟩ := h.holder
  obtain ⟨holder', hHolder', hSame, -⟩ := hKeeps.devices row.device holder hHolder
  exact ⟨⟨holder', hHolder', hSame.trans hKey⟩, h.device, h.revision, h.ends⟩

theorem Service.record_sound (hGrant : GrantedWithin service db device now row) (serial : Nat) :
    (service.record device row now serial).Sound db.registry := ⟨hGrant.holder, rfl, rfl, rfl⟩

/-! ## The client's checks -/

structure Delivery.Within (delivery : Delivery) (db : Restricted) (now : Nat) : Prop where
  paid : ∀ effective, effectiveSubscriptionState db.paid delivery.device now = .ok (some effective) →
    ∃ boundary, effective.expiresAt = some boundary ∧ delivery.expiresAt ≤ boundary
  trust : delivery.expiresAt ≤ delivery.issuer.expiresAt
  crl : delivery.expiresAt ≤ delivery.revocations.nextUpdate
  certificate : delivery.expiresAt ≤ delivery.certificate.notAfter
  directory : delivery.expiresAt * nano ≤ delivery.directory.expiresAt

/-- A service for all activated devices does not read when a stored grant ends: one of the other
limits has to come first. -/
def Service.Honours (service : Service) (db : Restricted) (device : String) (row : Granted)
    (now : Nat) : Prop :=
  service.allActivated = true → ∀ grant, db.grant device = some grant →
    ∀ limit, grant.expires = some limit → (∃ other ∈ service.limits row now, other ≤ limit) ∨
      ∃ old, service.reused db device row now = some old ∧ old.certificate.notAfter ≤ limit

/-- What the client asks and `fetch` does not: the directory lasts into another second, and a
certificate that is used again has begun and was issued for the present family. -/
structure Service.Acceptable (service : Service) (db : Restricted) (device : String) (row : Granted)
    (time : Nat) : Prop where
  directory : time / nano < service.seeds.expiresAt / nano
  reused : ∀ old, service.reused db device row (time / nano) = some old →
    old.certificate.family = service.trust.family ∧ old.certificate.notBefore * nano ≤ time

theorem Service.deliver_le {challenge : String} {certificate : Certificate}
    (h : limit ∈ service.limits row now) :
    (service.deliver device challenge row now certificate).expiresAt ≤ limit := by
  have hFirst : (service.deliver device challenge row now certificate).expiresAt ≤
      min (min (service.issued now + service.lifetime) (row.expires.getD service.trust.expiresAt))
        (min service.trust.expiresAt service.crl.nextUpdate) := by
    refine (min_le_left _ _).trans ?_
    rw [Service.expires]
    split
    · exact min_le_left _ _
    · exact le_rfl
  simp only [le_min_iff] at hFirst
  obtain ⟨⟨hLifetime, hRow⟩, hTrust, hCrl⟩ := hFirst
  simp only [Service.limits, List.mem_cons, List.not_mem_nil, or_false] at h
  rcases h with rfl | rfl | rfl | rfl | rfl
  exacts [hLifetime, hRow, hTrust, hCrl, (min_le_right _ _).trans (min_le_right _ _)]

theorem Service.deliver_le_of_expires {challenge : String} {certificate : Certificate}
    (h : row.expires = some limit) :
    (service.deliver device challenge row now certificate).expiresAt ≤ limit := by
  apply Service.deliver_le
  simp [Service.limits, h]

namespace Fetched

variable {c : RestrictedChallenge} {certificate : Certificate}

section

variable (h : Fetched setting fits service time serial proof db db' device row c certificate delivery)
include h

theorem within : delivery.Within db (time / nano) := by
  obtain rfl := h.made
  constructor
  case paid =>
    intro effective hEffective
    obtain ⟨boundary, expires, hBoundary, hExpires, hLe⟩ :=
      (grantOf_ok h.grant).paid effective hEffective
    exact ⟨boundary, hBoundary, (service.deliver_le_of_expires hExpires).trans hLe⟩
  case trust => exact service.deliver_le (by simp [Service.limits, Service.deliver])
  case crl => exact service.deliver_le (by simp [Service.limits, Service.deliver])
  case certificate => exact (min_le_right _ _).trans (min_le_left _ _)
  case directory => exact mul_nano_le ((min_le_right _ _).trans (min_le_right _ _))

theorem honours_iff : (∀ grant, db.grant device = some grant → ∀ limit, grant.expires = some limit →
    delivery.expiresAt ≤ limit) ↔ service.Honours db device row (time / nano) := by
  obtain rfl := h.made
  constructor
  · intro hBound _ grant hGrant limit hLimit
    -- The delivery ends with the first of the limits, or with the certificate.
    rcases min_le_iff.mp (hBound grant hGrant limit hLimit) with hExpires | hRest
    · exact .inl (Service.exists_limit hExpires)
    · rcases min_le_iff.mp hRest with hCertificate | hDirectory
      · rcases h.origin with ⟨old, hOld, rfl, -⟩ | ⟨-, rfl⟩
        · exact .inr ⟨old, hOld, hCertificate⟩
        · exact .inl (Service.exists_limit hCertificate)
      · exact .inl ⟨_, by simp [Service.limits], hDirectory⟩
  · intro hHonours grant hGrant limit hLimit
    cases hActivated : service.allActivated with
    | false =>
      obtain ⟨expires, hExpires, hLe⟩ :=
        (grantOf_ok h.grant).stored hActivated grant hGrant limit hLimit
      exact (service.deliver_le_of_expires hExpires).trans hLe
    | true =>
      rcases hHonours hActivated grant hGrant limit hLimit with ⟨other, hOther, hLe⟩ | ⟨old, hOld, hLe⟩
      · exact (service.deliver_le hOther).trans hLe
      · rcases h.origin with ⟨used, hUsed, rfl, -⟩ | ⟨hNone, -⟩
        · cases hOld.symm.trans hUsed
          exact h.within.certificate.trans hLe
        · cases hOld.symm.trans hNone

theorem certified (hBuilt : service.Built) (hSound : ∀ other ∈ db.certificates,
    other.Sound db.registry) (hAcceptable : service.Acceptable db device row time) :
    (certificate.publicKey = proof.publicIdentity ∧ certificate.device = device ∧
      certificate.revision = row.revision) ∧ (certificate.issuer = service.trust.authority.key ∧
      certificate.family = service.trust.family) ∧ certificate.notBefore * nano ≤ time ∧
        time / nano < certificate.notAfter := by
  have hGrant := grantOf_ok h.grant
  obtain ⟨-, -, -, -, -, -, hRowKey, -, hRowFamily, -⟩ := h.admits
  obtain ⟨stored, rfl, hStored, ⟨rfl, hRevision⟩, hAlive, hIssuer, hFamily, hBegins⟩ :
      ∃ stored : CertificateRow, stored.certificate = certificate ∧ stored.Sound db.registry ∧
      (stored.device = device ∧ stored.revision = row.revision) ∧ time / nano < stored.expires ∧
      certificate.issuer = service.trust.authority.key ∧
      certificate.family = service.trust.family ∧ certificate.notBefore * nano ≤ time := by
    rcases h.origin with ⟨old, hOld, rfl, hIssuer⟩ | ⟨-, rfl⟩
    · obtain ⟨hMem, hMine, hAlive⟩ := reused_some hOld
      obtain ⟨hFamily, hBegins⟩ := hAcceptable.reused old hOld
      exact ⟨old, rfl, hSound old hMem, hMine, hAlive, hIssuer, hFamily, hBegins⟩
    · exact ⟨service.record device row (time / nano) serial, rfl,
        service.record_sound hGrant serial, ⟨rfl, rfl⟩,
          service.lt_expires hBuilt h.opened hGrant.ahead hAcceptable.directory, rfl, hRowFamily,
        mul_nano_le (service.issue_le h.opened device row _ serial)⟩
  -- The device has one key, which the proof names.
  have hKey : stored.certificate.publicKey = proof.publicIdentity := by
    obtain ⟨holder, hHolder, hHolderKey⟩ := hStored.holder
    obtain ⟨holder', hHolder', hHolderKey'⟩ := hGrant.holder
    cases hHolder.symm.trans hHolder'
    rw [← hHolderKey, hHolderKey', hRowKey]
  exact ⟨⟨hKey, hStored.device, hStored.revision.trans hRevision⟩, ⟨hIssuer, hFamily⟩, hBegins,
    hStored.ends ▸ hAlive⟩

omit h in
theorem lifetime_le (hBuilt : service.Built) : service.lifetime ≤ maxAge := by
  rcases hBuilt.1 with hShort | hLong
  · rw [hShort]
    decide
  · rw [hLong]
    decide

theorem accepts (hAgrees : verifier.Agrees setting fits) (hBuilt : service.Built)
    (hSound : ∀ other ∈ db.certificates, other.Sound db.registry)
    (hAcceptable : service.Acceptable db device row time) :
    validateDelivery verifier proof.publicIdentity time delivery = .ok
      (delivery, ⟨certificate, service.trust.authority, service.crl, service.trust.family,
        service.trust.gateway, service.trust.minimumRevision, service.crl.number⟩) := by
  obtain ⟨⟨hKey, hOwner, hRevision⟩, ⟨hIssuer, hFamily⟩, hBegins, hEnds⟩ :=
    h.certified hBuilt hSound hAcceptable
  have hWithin := h.within
  have hIssued := service.issued_le h.opened
  have hSize := hAgrees.size _ h.size
  obtain rfl := h.made
  have hLater : time / nano < (service.deliver device proof.challenge row
      (time / nano) certificate).expiresAt :=
    lt_min (service.lt_expires hBuilt h.opened (grantOf_ok h.grant).ahead hAcceptable.directory)
      (lt_min hEnds hAcceptable.directory)
  have hAge : (service.deliver device proof.challenge row
      (time / nano) certificate).expiresAt - service.issued (time / nano) ≤ maxAge :=
    Nat.sub_le_iff_le_add'.mpr ((service.deliver_le (.head _)).trans
      (Nat.add_le_add_left (lifetime_le hBuilt) _))
  have hUnits : unitsMatch ["protocol=family-connect-5n3-test-v1", "family=" ++
      service.trust.family, "role=device", "revision=" ++ toString row.revision] certificate.units =
        true := by
    rw [← hFamily, ← hRevision]
    exact unitsMatch_self certificate.units
  obtain ⟨-, -, -, -, -, -, -, -, -, hMinimum, -, -⟩ := h.admits
  obtain ⟨⟨⟨hSequence, -⟩, ⟨hPositive, -⟩, ⟨hHexFamily, hHexGateway⟩, -,
    ⟨hAuthorityBegins, hAuthorityEnds⟩, hAuthorityLast⟩,
      ⟨hCrlIssuer, ⟨hCrlBegins, hCrlEnds⟩, hCrlAge, hNumber, hNumberSmall⟩⟩ := h.opened
  -- One check after the other, in the order of the client.
  refine ok_bind (congrArg (given · _) (hAgrees.reference proof device h.proved)) ?_
  refine both_ok_iff.mpr ⟨demand_iff.mpr hSize, ?_⟩
  refine both_ok_iff.mpr ⟨demand_iff.mpr ⟨hAgrees.nonce proof device h.proved, rfl,
    hPositive.trans_le hMinimum, hNumber, hIssued, hLater, hIssued.trans_lt hLater, hAge⟩, ?_⟩
  refine both_ok_iff.mpr ⟨demand_iff.mpr ⟨hSequence, hPositive, hMinimum,
    (le_max_left _ _).trans (le_max_right _ _), hWithin.trust⟩, ?_⟩
  refine both_ok_iff.mpr ⟨demand_iff.mpr ⟨hIssuer, ⟨hBegins, (lt_mul_nano hEnds).le⟩,
    mul_nano_le hAuthorityBegins, (lt_mul_nano hAuthorityEnds).le⟩, ?_⟩
  refine both_ok_iff.mpr ⟨demand_iff.mpr ⟨hKey, hOwner⟩, ?_⟩
  refine both_ok_iff.mpr ⟨demand_iff.mpr ⟨rfl, hUnits⟩, ?_⟩
  refine both_ok_iff.mpr ⟨demand_iff.mpr ⟨hCrlIssuer, hNumberSmall.trans (by decide), rfl,
    mul_nano_le hCrlBegins, lt_mul_nano hCrlEnds, hCrlAge⟩, ?_⟩
  refine both_ok_iff.mpr ⟨demand_iff.mpr fun revoked hRevoked hSame => h.clean (hSame ▸ hRevoked), ?_⟩
  refine ok_bind (parseDirectory_of_serves hAgrees h.serves hHexFamily hHexGateway) ?_
  refine both_ok_iff.mpr ⟨demand_iff.mpr ?_, rfl⟩
  simp only [List.forall_mem_cons, List.not_mem_nil, false_imp_iff, implies_true, and_true]
  exact ⟨Nat.mul_le_mul_right nano hWithin.certificate,
    Nat.mul_le_mul_right nano (hWithin.trust.trans hAuthorityLast),
      Nat.mul_le_mul_right nano hWithin.crl, hWithin.directory,
      Nat.mul_le_mul_right nano hWithin.trust⟩

/-- The client refuses what ends in this second, what has not begun and what names another family. -/
theorem acceptable {accepted : Delivery × DeliveryCredentials}
    (hAccepts : validateDelivery verifier proof.publicIdentity time delivery = .ok accepted) :
    service.Acceptable db device row time := by
  obtain rfl := h.made
  obtain ⟨_, -, hAccepts⟩ := bind_ok hAccepts
  obtain ⟨-, hAccepts⟩ := both_ok_iff.mp hAccepts
  obtain ⟨hTimes, hAccepts⟩ := both_ok_iff.mp hAccepts
  obtain ⟨-, hAccepts⟩ := both_ok_iff.mp hAccepts
  obtain ⟨hVerifies, hAccepts⟩ := both_ok_iff.mp hAccepts
  obtain ⟨-, hAccepts⟩ := both_ok_iff.mp hAccepts
  obtain ⟨hUnits, -⟩ := both_ok_iff.mp hAccepts
  obtain ⟨-, -, -, -, -, hLater, -, -⟩ := demand_ok hTimes
  obtain ⟨-, ⟨hBegins, -⟩, -⟩ := demand_ok hVerifies
  refine ⟨hLater.trans_le ((min_le_right _ _).trans (min_le_right _ _)), fun old hOld => ?_⟩
  rcases h.origin with ⟨used, hUsed, rfl, -⟩ | ⟨hNone, -⟩
  · cases hOld.symm.trans hUsed
    exact ⟨family_of_unitsMatch (demand_ok hUnits).2, hBegins⟩
  · cases hOld.symm.trans hNone

end

end Fetched

/-! ## Runs -/

structure Issuance where
  db : Restricted := {}
  issued : List String := []
  delivered : List Delivery := []

def Issuance.challenge (setting : Setting) (service : Service) (time : Nat)
    (nonce publicKey wg : String) (w : Issuance) : Issuance :=
  { w with db := ((restrictedChallenge setting service time nonce publicKey wg).commit w.db).2,
           issued := w.issued ++ [setting.sha256 nonce] }

def Issuance.fetch (setting : Setting) (fits : Delivery → Bool) (service : Service)
    (time serial : Nat) (proof : Proof) (w : Issuance) : Issuance :=
  match (Friends.fetch setting fits service time serial proof).commit w.db with
  | (.ok delivery, db) => { w with db := db, delivered := w.delivered ++ [delivery] }
  | (.error _, db) => { w with db := db }

/-- The registry is used, invitations are revoked, the ledger and the operator write any
subscriptions and grants, expired challenges are deleted, and services with any documents are asked
at any time. Nonces are drawn once. -/
inductive Issuance.Step (setting : Setting) (fits : Delivery → Bool) : Issuance → Issuance → Prop where
  | access {w : Issuance} (now : Nat) (call : Call) :
      Step setting fits w { w with db := { w.db with registry := (call.perform setting now w.db.registry).2 } }
  | revokeInvite {w : Issuance} (hash : String) :
      Step setting fits w { w with db := { w.db with registry := w.db.registry.revokeInvite hash } }
  | tables {w : Issuance} (paid : Paid) (grants : List Grant) :
      Step setting fits w { w with db := { w.db with paid := paid, grants := grants } }
  | purge {w : Issuance} (now : Nat) : Step setting fits w { w with db := w.db.purge now }
  | challenge {w : Issuance} (service : Service) (time : Nat) (nonce publicKey wg : String) :
      service.Built → setting.sha256 nonce ∉ w.issued →
        Step setting fits w (w.challenge setting service time nonce publicKey wg)
  | fetch {w : Issuance} (service : Service) (time serial : Nat) (proof : Proof) : service.Built →
      Step setting fits w (w.fetch setting fits service time serial proof)

def issuance (setting : Setting) (fits : Delivery → Bool) : System Issuance where
  initial w := w = {}
  step := Issuance.Step setting fits

structure Issuance.Inv (setting : Setting) (w : Issuance) : Prop where
  registry : w.db.registry.Inv
  certificates : ∀ row ∈ w.db.certificates, row.Sound w.db.registry
  challenges : Rows.Keyed RestrictedChallenge.nonce w.db.challenges
  issued : ∀ c ∈ w.db.challenges, c.nonce ∈ w.issued
  delivered : ∀ delivery ∈ w.delivered, setting.sha256 delivery.challenge ∈ w.issued
  used : ∀ delivery ∈ w.delivered, ∀ c ∈ w.db.challenges,
    c.nonce = setting.sha256 delivery.challenge → c.used = true
  once : (w.delivered.map fun delivery => setting.sha256 delivery.challenge).Nodup

variable {w w' : Issuance} {nonce : String}

theorem Issuance.Inv.registry_step (h : w.Inv setting) {r : Registry} (hNext : w.db.registry.Next r)
    (paid : Paid) (grants : List Grant) :
    ({ w with db := { w.db with registry := r, paid := paid, grants := grants } } : Issuance).Inv
    setting :=
  ⟨hNext.inv, fun row hRow => (h.certificates row hRow).keeps hNext.keeps, h.challenges, h.issued,
    h.delivered, h.used, h.once⟩

theorem Issuance.Inv.purge (h : w.Inv setting) (now : Nat) :
    ({ w with db := w.db.purge now } : Issuance).Inv setting := by
  have hNext := h.registry.purge now
  constructor
  case registry => exact hNext.inv
  case certificates => exact fun row hRow => (h.certificates row hRow).keeps hNext.keeps
  case challenges => exact h.challenges.filter _
  case issued => exact fun c hC => h.issued c (List.mem_of_mem_filter hC)
  case delivered => exact h.delivered
  case used =>
    exact fun delivery hDelivery c hC => h.used delivery hDelivery c (List.mem_of_mem_filter hC)
  case once => exact h.once

theorem ensures_enroll {publicKey wg : String} : (enroll service device publicKey wg).Ensures
    (fun _ db' => ∃ grants, db' = { db with grants := grants }) db := by
  refine bind_get ?_
  split
  · exact ensures_pure ⟨db.grants, rfl⟩
  · refine bind_require fun _ => ?_
    refine bind_lift fun _ _ => ?_
    refine bind_require fun _ => ?_
    exact ensures_set ⟨_, rfl⟩

theorem ensures_restrictedChallenge {publicKey wg : String} :
    (restrictedChallenge setting service time nonce publicKey wg).Ensures
    (fun _ db' => ∃ grants c, c.nonce = setting.sha256 nonce ∧
      (db.purge (time / nano)).challenge c.nonce = none ∧
      db' = { db.purge (time / nano) with
        grants := grants, challenges := (db.purge (time / nano)).challenges ++ [c] }) db := by
  refine bind_found fun device _ => ?_
  refine bind_require fun _ => ?_
  refine ensures_bind (ensures_enroll.mono fun _ db₁ hEnrolled => ?_)
  obtain ⟨grants, rfl⟩ := hEnrolled
  refine bind_get ?_
  refine bind_lift fun row _ => ?_
  refine bind_require fun _ => ?_
  refine bind_require fun _ => ?_
  refine bind_require fun hNew => ?_
  refine bind_set (ensures_pure ⟨grants, _, rfl, ?_, rfl⟩)
  exact hNew.2

theorem Issuance.Inv.challenge (h : w.Inv setting) (hFresh : setting.sha256 nonce ∉ w.issued)
    (service : Service) (time : Nat) (publicKey wg : String) :
    (w.challenge setting service time nonce publicKey wg).Inv setting := by
  have hMore : ∀ {hash : String}, hash ∈ w.issued → hash ∈ w.issued ++ [setting.sha256 nonce] :=
    fun hMem => List.mem_append_left _ hMem
  refine Ensures.commit ensures_restrictedChallenge
    (fun db => ({ w with db := db, issued := w.issued ++ [setting.sha256 nonce] } : Issuance).Inv
      setting) ?_ ?_
  · exact ⟨h.registry, h.certificates, h.challenges, fun c hC => hMore (h.issued c hC),
      fun d hD => hMore (h.delivered d hD), h.used, h.once⟩
  · rintro - db' ⟨grants, c, hNonce, hNew, rfl⟩
    have hPurged := h.purge (time / nano)
    refine ⟨hPurged.registry, hPurged.certificates, hPurged.challenges.append hNew, ?_,
      fun d hD => hMore (h.delivered d hD), fun d hD => ?_, h.once⟩
    · exact Rows.forall_append (fun other hOld => hMore (hPurged.issued other hOld))
        (List.mem_append_right _ (List.mem_singleton.mpr hNonce))
    · exact Rows.forall_append (hPurged.used d hD) fun hSame =>
        absurd (h.delivered d hD) (hSame ▸ hNonce ▸ hFresh)

theorem Issuance.Inv.fetch (h : w.Inv setting) (service : Service) (time serial : Nat)
    (proof : Proof) : (w.fetch setting fits service time serial proof).Inv setting := by
  unfold Issuance.fetch
  split
  · rename_i delivery db' hCommit
    obtain ⟨device, row, c, certificate, hFetched⟩ := ensures_fetch _ _ (commit_ok hCommit)
    obtain rfl := hFetched.made
    have hKey : c.nonce = setting.sha256 proof.challenge := Rows.key_of_get hFetched.challenge
    have hMem : c ∈ w.db.challenges := Rows.mem_of_get hFetched.challenge
    have hUnused : c.used = false := hFetched.admits.1
    constructor
    case registry =>
      rw [hFetched.registry]
      exact h.registry
    case certificates =>
      intro other hOther
      rw [hFetched.registry]
      rcases hFetched.certificates other hOther with hOld | rfl
      · exact h.certificates other hOld
      · exact service.record_sound (grantOf_ok hFetched.grant) serial
    case challenges =>
      rw [hFetched.challenges]
      exact h.challenges.put _
    case issued =>
      rw [hFetched.challenges]
      exact Rows.forall_put h.issued (h.issued c hMem)
    case delivered =>
      exact Rows.forall_append h.delivered (hKey ▸ h.issued c hMem)
    case used =>
      intro d hD other hOther hSame
      rw [hFetched.challenges] at hOther
      rcases h.challenges.mem_put hOther with rfl | ⟨hOld, hDistinct⟩
      · rfl
      · rcases List.mem_append.mp hD with hBefore | hLast
        · exact h.used d hBefore other hOld hSame
        · cases List.mem_singleton.mp hLast
          exact absurd (hSame.trans hKey.symm) hDistinct
    case once =>
      rw [List.map_append, List.nodup_append]
      refine ⟨h.once, List.nodup_singleton _, ?_⟩
      rintro hash hOld other hLast rfl
      obtain ⟨d, hD, hHash⟩ := List.mem_map.mp hOld
      have hNonce := List.mem_singleton.mp hLast
      -- A delivery with this nonce would have left the challenge used.
      have hUsed := h.used d hD c hMem (hKey.trans (hNonce.symm.trans hHash.symm))
      rw [hUnused] at hUsed
      cases hUsed
  · rename_i failure db' hCommit
    have hSame : db' = w.db := by
      have hRaised := commit_raised (congrArg Prod.fst hCommit)
      rw [hCommit] at hRaised
      exact hRaised
    rw [hSame]
    exact h

theorem Issuance.Inv.reachable (h : (issuance setting fits).Reachable w) : w.Inv setting := by
  refine h.invariant ?_ ?_
  · rintro w rfl
    exact ⟨.empty, nofun, List.nodup_nil, nofun, nofun, nofun, List.nodup_nil⟩
  · intro w w' _ hInv hStep
    cases hStep with
    | access now call => exact hInv.registry_step (hInv.registry.perform now call) _ _
    | revokeInvite hash => exact hInv.registry_step (hInv.registry.revokeInvite hash) _ _
    | tables paid grants => exact hInv.registry_step (.refl hInv.registry) paid grants
    | purge now => exact hInv.purge now
    | challenge service time nonce publicKey wg hBuilt hFresh =>
      exact hInv.challenge hFresh service time publicKey wg
    | fetch service time serial proof hBuilt => exact hInv.fetch service time serial proof

theorem reachable_joined {encoding : Encoding} {b : Books}
    (h : (history setting encoding).Reachable b) :
    (issuance setting fits).Reachable { db := { registry := b.registry } } := by
  induction h with
  | start hInitial =>
    cases hInitial
    exact .start rfl
  | next _ hStep ih =>
    cases hStep with
    | wait | event => exact ih
    | access now call hDraws => exact ih.next (.access now call)
    | revokeInvite hash => exact ih.next (.revokeInvite hash)

namespace Sample

def unlimited : Delivery → Bool := fun _ => true

def plainClient : Verifier where
  reference := some
  nonce := fun _ => true
  parseUrl := fun url =>
    some { scheme := "https", host := "telemost.yandex.ru",
           path := String.ofList ("/j/".toList ++ url.toList.drop joinBase.length) }
  fits := unlimited

theorem plainClient_agrees : plainClient.Agrees plain unlimited := by
  constructor
  case reference => exact fun proof device hVerify => hVerify
  case nonce => exact fun _ _ _ => rfl
  case url =>
    intro url id hUrl _
    change some _ = some _
    rw [hUrl, List.drop_left]
  case size => exact fun _ _ => rfl

def issuerTrust (family : Nat) : Trust :=
  { sequence := 1, family := nameOf family, gateway := nameOf 7
    authority := ⟨"authority", 0, 100000⟩, minimumRevision := 1, issuedAt := 0
    expiresAt := 90000 }

def seedsUntil (family expiresAt : Nat) : SeedDirectory :=
  { family := nameOf family, issuedAt := 0, expiresAt := expiresAt
    seeds := [⟨"telemost-webrtc", "https://telemost.yandex.ru/j/room", nameOf 7⟩] }

def serviceUntil (family expiresAt : Nat) : Service :=
  { trust := issuerTrust family, crl := ⟨"authority", 1, 0, 14000, []⟩
    seeds := seedsUntil family expiresAt, allActivated := true }

def answerTo (nonce : String) : Proof := ⟨nonce, nameOf 0, nameOf 0, ""⟩

def challengedBy (family : Nat) (nonce : String) (w : Issuance) : Issuance :=
  w.challenge plain (serviceUntil family (14000 * nano)) (50 * nano) nonce (nameOf 0) (nameOf 0)

def oneDevice : Issuance := { db := { registry := crowd 1 } }

/-- The operator has stored a grant that ends. -/
def grantedUntil (expires : Nat) : Issuance :=
  { oneDevice with db := { oneDevice.db with grants := [⟨nameOf 0, nameOf 1, 1, some expires, false⟩] } }

/-- A first delivery under the manifest of family 1. -/
def fetchedOnce : Issuance :=
  (challengedBy 1 "n1" oneDevice).fetch plain unlimited (serviceUntil 1 (14000 * nano))
    (60 * nano) 9 (answerTo "n1")

/-- What is delivered, and whether the client accepts it. -/
def served (service : Service) (time : Nat) (nonce : String) (w : Issuance) :
    Except RestrictedFailure (Delivery × Bool) :=
  ((fetch plain unlimited service time 9 (answerTo nonce)).commit w.db).1.map fun delivery =>
    (delivery, (validateDelivery plainClient (nameOf 0) time delivery).toBool)

theorem serviceUntil_built (family expiresAt : Nat) : (serviceUntil family expiresAt).Built :=
  ⟨.inl rfl, fun _ => rfl⟩

theorem reachable_oneDevice : (issuance plain unlimited).Reachable oneDevice :=
  reachable_joined (reachable_crowd (by decide : 1 ≤ 2 ^ 32))

theorem reachable_challengedBy (h : (issuance plain unlimited).Reachable w) (family : Nat)
    (hFresh : nonce ∉ w.issued) :
    (issuance plain unlimited).Reachable (challengedBy family nonce w) :=
  h.next (.challenge _ _ nonce _ _ (serviceUntil_built family _) hFresh)

end Sample

/-- What any service delivers in any reachable state, and the client's check of it at the same
instant. -/
theorem restricted_deliveries (hAgrees : verifier.Agrees setting fits)
    (hReachable : (issuance setting fits).Reachable w) :
    (w.delivered.map Delivery.challenge).Nodup ∧
    ∀ service time serial proof delivery db', service.Built →
      (fetch setting fits service time serial proof).commit w.db = (.ok delivery, db') →
        delivery.Within w.db (time / nano) ∧
          delivery.certificate.serial ∉ delivery.revocations.revoked ∧
            (∃ c, w.db.challenge (setting.sha256 delivery.challenge) = some c ∧ c.used = false ∧
              db'.challenge (setting.sha256 delivery.challenge) = some { c with used := true }) ∧
          ∃ device row, setting.verify proof = some device ∧
            grantOf service w.db device (time / nano) = .ok row ∧
              ((∃ credentials, validateDelivery verifier proof.publicIdentity time delivery = .ok
              (delivery, credentials)) ↔
              service.Acceptable w.db device row time) ∧
            ((∀ grant, w.db.grant delivery.device = some grant →
              ∀ limit, grant.expires = some limit → delivery.expiresAt ≤ limit) ↔
              service.Honours w.db device row (time / nano)) := by
  have hInv := Issuance.Inv.reachable hReachable
  constructor
  · refine List.Nodup.of_map setting.sha256 ?_
    rw [List.map_map]
    exact hInv.once
  · intro service time serial proof delivery db' hBuilt hCommit
    obtain ⟨device, row, c, certificate, hFetched⟩ := ensures_fetch _ _ (commit_ok hCommit)
    obtain rfl := hFetched.made
    refine ⟨hFetched.within, hFetched.clean, ⟨c, hFetched.challenge, hFetched.admits.1, ?_⟩, device,
      row, hFetched.proved, hFetched.grant, ?_, hFetched.honours_iff⟩
    · rw [Restricted.challenge, hFetched.challenges, Rows.get_put]
      exact if_pos (Rows.key_of_get hFetched.challenge)
    · exact ⟨fun ⟨_, hAccepts⟩ => hFetched.acceptable hAccepts,
        fun hAcceptable => ⟨_, hFetched.accepts hAgrees hBuilt hInv.certificates hAcceptable⟩⟩

open Sample

/-- The first delivery to a device, well before the directory ends. -/
theorem restricted_deliveries_first :
    ∃ delivery credentials, ((fetch plain unlimited (serviceUntil 1 (14000 * nano)) (60 * nano) 9
      (answerTo "n1")).commit
        (challengedBy 1 "n1" oneDevice).db).1 = .ok delivery ∧ delivery.expiresAt = 3655 ∧
      validateDelivery plainClient (nameOf 0) (60 * nano) delivery = .ok (delivery, credentials) := by
  obtain ⟨delivery, hDelivery, hExpires⟩ : ∃ delivery,
      ((fetch plain unlimited (serviceUntil 1 (14000 * nano)) (60 * nano) 9 (answerTo "n1")).commit
        (challengedBy 1 "n1" oneDevice).db).1 = .ok delivery ∧ delivery.expiresAt = 3655 := by
    refine ⟨(serviceUntil 1 (14000 * nano)).deliver (nameOf 0) "n1"
      ⟨nameOf 0, nameOf 0, nameOf 1, 1, none, none⟩ 60
      ⟨9, nameOf 0, nameOf 1, 1, nameOf 0, "authority", 55, 3655⟩, ?_, ?_⟩
    all_goals decide +kernel
  obtain ⟨-, hServed⟩ := restricted_deliveries plainClient_agrees
    (reachable_challengedBy reachable_oneDevice 1 (by decide : "n1" ∉ oneDevice.issued))
  obtain ⟨-, -, -, device, row, -, -, hAccepted, -⟩ :=
    hServed _ _ _ _ delivery _ (serviceUntil_built 1 (14000 * nano)) (Prod.ext hDelivery rfl)
  obtain ⟨credentials, hValid⟩ := hAccepted.mpr
    ⟨by decide +kernel, fun old hOld => nomatch reused_some hOld⟩
  exact ⟨delivery, credentials, hDelivery, hExpires, hValid⟩

/-- In the last second of the directory the delivery has already ended for the client. A certificate
that was issued for one family is delivered, and refused, after the manifest has another one. A
stored grant that ends does not end a delivery to an activated device. -/
theorem restricted_deliveries_refused : (issuance plain unlimited).Reachable
    (challengedBy 1 "n1" oneDevice) ∧ (served (serviceUntil 1 (100 * nano + 700000000))
      (100 * nano + 200000000) "n1" (challengedBy 1 "n1" oneDevice)).map
      (fun d => (d.1.expiresAt, d.2)) = .ok (100, false) ∧
    (issuance plain unlimited).Reachable (challengedBy 2 "n2" fetchedOnce) ∧
    (served (serviceUntil 2 (14000 * nano)) (70 * nano) "n2" (challengedBy 2 "n2" fetchedOnce)).map
      (fun d => (d.1.certificate.family, d.1.issuer.family, d.2)) = .ok (nameOf 1, nameOf 2, false) ∧
    (issuance plain unlimited).Reachable (challengedBy 1 "n1" (grantedUntil 200)) ∧
    (challengedBy 1 "n1" (grantedUntil 200)).db.grant (nameOf 0) = some
    ⟨nameOf 0, nameOf 1, 1, some 200, false⟩ ∧ (served (serviceUntil 1 (14000 * nano))
      (60 * nano) "n1" (challengedBy 1 "n1" (grantedUntil 200))).map
      (fun d => (d.1.device, d.1.expiresAt)) = .ok (nameOf 0, 3655) := by
  have hChallenged : (issuance plain unlimited).Reachable (challengedBy 1 "n1" oneDevice) :=
    reachable_challengedBy reachable_oneDevice 1 (by decide)
  have hFetched : (issuance plain unlimited).Reachable fetchedOnce :=
    hChallenged.next (.fetch _ _ _ _ (serviceUntil_built 1 _))
  have hGranted : (issuance plain unlimited).Reachable (grantedUntil 200) :=
    reachable_oneDevice.next (.tables _ _)
  exact ⟨hChallenged, by decide +kernel, reachable_challengedBy hFetched 2 (by decide +kernel), by decide +kernel,
    reachable_challengedBy hGranted 1 (by decide), by decide +kernel, by decide +kernel⟩

end FamilyConnect.Friends
