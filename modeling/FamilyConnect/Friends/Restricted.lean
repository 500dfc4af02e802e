import FamilyConnect.Friends.Ledger

/-!
# Restricted deliveries

Source: `control/friends/restricted.py`. Signatures and encodings are taken as correct:
a trust document, a revocation list and a certificate are the values that they encode.
A call reads its clock once, in nanoseconds; receipts of readiness are left out.
-/

namespace FamilyConnect.Friends

open Lib Transaction

/-- Nanoseconds in a second. -/
def nano : Nat := 1000000000

def maxTestLifetime : Nat := 14400

/-- `CLOCK_SKEW_SECONDS` of `readiness_receipts` -/
def receiptSkew : Nat := 5

/-! ## Documents -/

structure Authority where
  key : String
  notBefore : Nat
  notAfter : Nat
  deriving DecidableEq

structure Trust where
  sequence : Nat
  family : String
  gateway : String
  authority : Authority
  minimumRevision : Nat
  issuedAt : Nat
  expiresAt : Nat
  deriving DecidableEq

/-- `delegation` -/
def Trust.Delegates (trust : Trust) (now : Nat) : Prop :=
  (0 < trust.sequence ∧ trust.sequence < 2 ^ 53) ∧
    (0 < trust.minimumRevision ∧ trust.minimumRevision < 2 ^ 31) ∧
    (hex 32 trust.family = true ∧ hex 32 trust.gateway = true) ∧
    (trust.issuedAt ≤ now ∧ now < trust.expiresAt) ∧
    (trust.authority.notBefore ≤ now ∧ now < trust.authority.notAfter) ∧
    trust.expiresAt ≤ trust.authority.notAfter

instance (trust : Trust) (now : Nat) : Decidable (trust.Delegates now) :=
  inferInstanceAs (Decidable (_ ∧ _ ∧ _ ∧ _ ∧ _ ∧ _))

structure RevocationList where
  issuer : String
  number : Nat
  lastUpdate : Nat
  nextUpdate : Nat
  revoked : List Nat
  deriving DecidableEq

/-- The checks of `_trust` on the revocation list. -/
def RevocationList.Current (crl : RevocationList) (authority : Authority) (now : Nat) : Prop :=
  crl.issuer = authority.key ∧ (crl.lastUpdate ≤ now ∧ now < crl.nextUpdate) ∧
    crl.nextUpdate - crl.lastUpdate ≤ maxTestLifetime ∧ (0 < crl.number ∧ crl.number < 2 ^ 53)

instance (crl : RevocationList) (authority : Authority) (now : Nat) :
    Decidable (crl.Current authority now) :=
  inferInstanceAs (Decidable (_ ∧ _ ∧ _ ∧ _))

structure Certificate where
  serial : Nat
  device : String
  family : String
  revision : Nat
  publicKey : String
  issuer : String
  notBefore : Nat
  notAfter : Nat
  deriving DecidableEq

structure BootstrapSeed where
  transport : String
  joinUrl : String
  gateway : String
  deriving DecidableEq

/-- A seed directory; its times are in nanoseconds. -/
structure SeedDirectory where
  family : String
  issuedAt : Nat
  expiresAt : Nat
  seeds : List BootstrapSeed
  deriving DecidableEq

/-- `[A-Za-z0-9_-]{1,128}` -/
def roomId (id : List Char) : Bool :=
  decide (1 ≤ id.length ∧ id.length ≤ 128) && id.all fun c => c.isAlphanum || c == '_' || c == '-'

def joinBase : List Char := "https://telemost.yandex.ru/j/".toList

/-- `https://telemost\.yandex\.ru/j/[A-Za-z0-9_-]{1,128}` -/
def joinUrl (url : String) : Bool := joinBase.isPrefixOf url.toList &&
    roomId (url.toList.drop joinBase.length)

/-- `directory` -/
def SeedDirectory.Serves (directory : SeedDirectory) (family gateway : String) (time : Nat) : Prop :=
  directory.family = family ∧ (directory.issuedAt ≤ time ∧ time < directory.expiresAt) ∧
    (0 < directory.expiresAt - directory.issuedAt ∧
      directory.expiresAt - directory.issuedAt ≤ maxTestLifetime * nano) ∧
    (1 ≤ directory.seeds.length ∧ directory.seeds.length ≤ 4) ∧
    (∀ seed ∈ directory.seeds, seed.transport = "telemost-webrtc" ∧ seed.gateway = gateway ∧
      joinUrl seed.joinUrl = true) ∧ (directory.seeds.map BootstrapSeed.joinUrl).Nodup

instance (directory : SeedDirectory) (family gateway : String) (time : Nat) :
    Decidable (directory.Serves family gateway time) :=
  inferInstanceAs (Decidable (_ ∧ _ ∧ _ ∧ _ ∧ _ ∧ _))

/-- `online-delivery.json` -/
structure Publication where
  crl : RevocationList
  gateways : String × String
  issuedAt : Nat
  deriving DecidableEq

/-- `online_generation` -/
def Publication.Ready (publication : Publication) (crl : RevocationList) (gateway : String)
    (now : Nat) : Prop :=
  (gateway = publication.gateways.1 ∨ gateway = publication.gateways.2) ∧
    publication.gateways.1 ≠ publication.gateways.2 ∧ publication.crl = crl ∧
    publication.issuedAt ≤ now

instance (publication : Publication) (crl : RevocationList) (gateway : String) (now : Nat) :
    Decidable (publication.Ready crl gateway now) :=
  inferInstanceAs (Decidable (_ ∧ _ ∧ _ ∧ _))

/-! ## Tables -/

structure Grant where
  device : String
  family : String
  revision : Nat
  expires : Option Nat
  revoked : Bool := false
  deriving DecidableEq

/-- A row of `challenges` joined with its row of `restricted_challenges`. -/
structure RestrictedChallenge where
  nonce : String
  device : String
  publicKey : String
  wg : String
  purpose : String
  expires : Nat
  used : Bool := false
  revision : Nat
  family : String
  deriving DecidableEq

structure CertificateRow where
  device : String
  revision : Nat
  serial : Nat
  expires : Nat
  certificate : Certificate
  deriving DecidableEq

structure Restricted where
  registry : Registry := {}
  paid : Paid := {}
  grants : List Grant := []
  challenges : List RestrictedChallenge := []
  certificates : List CertificateRow := []

variable (service : Service) (db : Restricted) (device : String)

def Restricted.grant : Option Grant := Rows.get Grant.device device db.grants

def Restricted.challenge (nonce : String) : Option RestrictedChallenge :=
  Rows.get RestrictedChallenge.nonce nonce db.challenges

inductive RestrictedFailure where
  | rejected
  | invalid
  | paid (failure : PaidFailure)
  | unavailable
  | integrity
  deriving DecidableEq

abbrev RestrictedTx := Transaction Restricted RestrictedFailure

/-- `RestrictedReadiness`: what a service is set up with, and what its sources give at the moment. -/
structure Service where
  trust : Trust
  crl : RevocationList
  seeds : SeedDirectory
  publication : Option Publication := none
  eligible : Option (List String) := none
  allActivated : Bool := false
  lifetime : Nat := 3600
  gatewayId : GatewayChoice := .amsterdam1

/-- `gateway_binding`: `PRIMARY_GATEWAY` has none. -/
def Service.binding : String :=
  match service.gatewayId with
  | .amsterdam1 => ""
  | .amsterdam2 => "nl-amsterdam-2:" ++ service.trust.gateway

/-- `challenge_purpose` -/
def Service.purpose : String := if service.binding = "" then "restricted"
    else "restricted:" ++ service.binding

def Service.Built : Prop :=
  (service.lifetime = 3600 ∨ service.lifetime = maxTestLifetime) ∧
    (service.allActivated = true → service.eligible = none)

/-- `_trust`, and the checks of `fetch` before its transaction. -/
def Service.Open (now : Nat) : Prop := service.trust.Delegates now ∧
    service.crl.Current service.trust.authority now

instance (service : Service) (now : Nat) : Decidable (service.Open now) :=
  inferInstanceAs (Decidable (_ ∧ _))

/-! ## Grants -/

structure Granted where
  publicKey : String
  wg : String
  family : String
  revision : Nat
  expires : Option Nat
  paidUntil : Option Nat := none
  deriving DecidableEq

/-- The device and its invitation, if none of the two is revoked. -/
def Restricted.holder : Except RestrictedFailure Device := do
  let row ← given (db.registry.device device) .rejected
  let invite ← given (db.registry.inviteOf device) .rejected
  demand (row.revoked = false ∧ invite.revoked = false) .rejected
  pure row

/-- `activated_grant` -/
def activatedGrant (trust : Trust) (device : String) : Except RestrictedFailure Granted := do
  let row ← db.holder device
  match db.grant device with
  | none => pure ⟨row.publicKey, row.wg, trust.family, trust.minimumRevision, none, none⟩
  | some grant => do
    demand (grant.revoked = false) .rejected
    demand (grant.family = trust.family ∧ trust.minimumRevision ≤ grant.revision) .rejected
    pure ⟨row.publicKey, row.wg, trust.family, grant.revision, none, none⟩

/-- `_legacy_grant` -/
def legacyGrant (now : Nat) : Except RestrictedFailure Granted :=
  if service.allActivated = true then activatedGrant db service.trust device
  else do
    demand (service.eligible.all (fun devices => devices.contains device ||
      devices.contains "*") = true) .rejected
    let row ← db.holder device
    let grant ← given (db.grant device) .rejected
    demand (grant.revoked = false ∧ grant.expires.all
      (fun expires => decide (now < expires)) = true) .rejected
    pure ⟨row.publicKey, row.wg, grant.family, grant.revision, grant.expires, none⟩

def earlier (first : Option Nat) (second : Nat) : Nat := (first.map (min · second)).getD second

/-- `_grant` -/
def grantOf (now : Nat) : Except RestrictedFailure Granted := do
  let row ← legacyGrant service db device now
  let subscription ← (effectiveSubscriptionState db.paid device now).mapError .paid
  match subscription with
  | none => pure row
  | some effective => do
    demand (effective.allowed = true) .rejected
    let boundary ← given effective.expiresAt .rejected
    pure { row with expires := some (earlier row.expires boundary), paidUntil := some boundary }

/-! ## Challenges -/

def enroll (device publicKey wg : String) : RestrictedTx Unit := do
  let db ← get
  if service.allActivated = true ∨ db.grant device ≠ none then pure ()
  else do
    require (service.eligible.any (fun devices => devices.contains device ||
      devices.contains "*") = true) .rejected
    let row ← db.holder device
    require (row.publicKey = publicKey ∧ row.wg = wg) .rejected
    set { db with grants := db.grants ++ [({ device, family := service.trust.family, revision := service.trust.minimumRevision, expires := none } : Grant)] }

/-- The challenges that have not expired, of the registry and of this table: both are rows of
`challenges`. -/
def Restricted.purge (now : Nat) : Restricted :=
  { db with
    registry := { db.registry with
      challenges := db.registry.challenges.filter fun c => decide (now < c.expires) }
    challenges := db.challenges.filter fun c => decide (now < c.expires) }

def Restricted.unused : Nat :=
  (db.registry.unused device).length + (db.challenges.filter
    fun c => decide (c.device = device ∧ c.used = false)).length

/-- `challenge` -/
def restrictedChallenge (setting : Setting) (service : Service) (time : Nat)
    (nonce publicKey wg : String) : RestrictedTx Nat := do
  let device ← found (binding setting publicKey wg) .invalid
  let now := time / nano
  require (service.Open now) .invalid
  enroll service device publicKey wg
  let db ← get
  let row ← grantOf service db device now
  require (row.family = service.trust.family ∧ service.trust.minimumRevision ≤ row.revision ∧
    row.publicKey = publicKey ∧ row.wg = wg) .rejected
  let kept := db.purge now
  require (kept.unused device < 8) .unavailable
  require (kept.registry.challenge (setting.sha256 nonce) = none ∧
    kept.challenge (setting.sha256 nonce) = none) .integrity
  let expiry := min (now + challengeTtl) (earlier row.expires service.trust.expiresAt)
  let c : RestrictedChallenge :=
    { nonce := setting.sha256 nonce, device := device, publicKey := publicKey, wg := wg
      purpose := service.purpose, expires := expiry
      revision := row.revision, family := row.family }
  set { kept with challenges := kept.challenges ++ [c] }
  pure expiry

/-! ## Deliveries -/

structure Delivery where
  device : String
  challenge : String
  issuedAt : Nat
  expiresAt : Nat
  revision : Nat
  issuer : Trust
  certificate : Certificate
  revocations : RevocationList
  minimumCrl : Nat
  directory : SeedDirectory
  deriving DecidableEq

def latest (rows : List CertificateRow) : Option CertificateRow :=
  rows.foldl
    (fun best row =>
      match best with
      | none => some row
      | some other => if other.expires < row.expires then some row else some other) none

def Service.issued (now : Nat) : Nat :=
  max (now - receiptSkew) (max service.trust.issuedAt service.trust.authority.notBefore)

def Service.expires (row : Granted) (now : Nat) : Nat :=
  let bound :=
    min (min (service.issued now + service.lifetime) (row.expires.getD service.trust.expiresAt))
    (min service.trust.expiresAt service.crl.nextUpdate)
  if service.lifetime = maxTestLifetime ∨ row.paidUntil ≠ none
    then min bound (service.seeds.expiresAt / nano) else bound

def Service.issue (row : Granted) (now expires serial : Nat) : Certificate :=
  { serial, device, family := row.family, revision := row.revision, publicKey := row.publicKey,
    issuer := service.trust.authority.key
    notBefore := max (now - receiptSkew) service.trust.authority.notBefore, notAfter := expires }

/-- A certificate that can be used again; its issuer is checked whenever it is looked at. -/
def Service.retained (row : Granted) (expires : Nat) (previous : Option CertificateRow) :
    Except RestrictedFailure (Option CertificateRow) :=
  match previous with
  | none => pure none
  | some old => do
    let long : Bool := service.publication.all fun publication =>
      decide (min expires (publication.issuedAt + service.lifetime - receiptSkew) ≤
        old.certificate.notAfter)
    demand (service.publication = none ∨ old.certificate.issuer = service.trust.authority.key) .invalid
    if long = false then pure none
    else do
      demand (row.paidUntil = none ∨ old.certificate.issuer = service.trust.authority.key) .invalid
      pure (if row.paidUntil ≠ none ∧ expires < old.certificate.notAfter then none else some old)

def Service.renew (row : Granted) (now expires serial : Nat) : RestrictedTx Certificate := do
  let certificate := service.issue device row now expires serial
  require (certificate.notBefore ≤ certificate.notAfter) .invalid
  let db ← get
  require (∀ other ∈ db.certificates, other.serial ≠ serial) .integrity
  set { db with certificates := db.certificates ++ [({ device, revision := row.revision, serial, expires, certificate } : CertificateRow)] }
  pure certificate

def Service.certify (row : Granted) (now expires serial : Nat) (previous : Option CertificateRow) :
    RestrictedTx Certificate := do
  let retained ← service.retained row expires previous
  match retained with
  | none => service.renew device row now expires serial
  | some old =>
    if service.lifetime = maxTestLifetime ∧ old.expires < expires
      then service.renew device row now expires serial
    else do
      require (old.certificate.issuer = service.trust.authority.key) .invalid
      pure old.certificate

def RestrictedChallenge.Admits (c : RestrictedChallenge) (service : Service) (device : String)
    (proof : Proof) (row : Granted) (now : Nat) : Prop :=
  c.used = false ∧ now < c.expires ∧ c.purpose = service.purpose ∧ c.device = device ∧
    c.publicKey = proof.publicIdentity ∧ c.wg = proof.wg ∧ row.publicKey = proof.publicIdentity ∧
    row.wg = proof.wg ∧ row.family = service.trust.family ∧
    service.trust.minimumRevision ≤ row.revision ∧ c.family = row.family ∧
    c.revision = row.revision

instance (c : RestrictedChallenge) (service : Service) (device : String) (proof : Proof)
    (row : Granted) (now : Nat) : Decidable (c.Admits service device proof row now) :=
  inferInstanceAs (Decidable (_ ∧ _ ∧ _ ∧ _ ∧ _ ∧ _ ∧ _ ∧ _ ∧ _ ∧ _ ∧ _ ∧ _))

/-- `fetch`: `fits` is the bound on the size of the response, and `serial` the number drawn for a
new certificate. -/
def fetch (setting : Setting) (fits : Delivery → Bool) (service : Service) (time serial : Nat)
    (proof : Proof) : RestrictedTx Delivery := do
  let device ← found (setting.verify proof) .invalid
  let now := time / nano
  require (service.Open now) .invalid
  require (service.publication.all (fun publication => decide
    (publication.Ready service.crl service.trust.gateway now)) = true) .unavailable
  require (service.seeds.Serves service.trust.family service.trust.gateway time) .invalid
  let db ← get
  let row ← grantOf service db device now
  let c ← found (db.challenge (setting.sha256 proof.challenge)) .rejected
  require (c.Admits service device proof row now) .rejected
  let expires := service.expires row now
  let live := db.certificates.filter fun other => decide (now < other.expires)
  let mine := live.filter fun other => decide (other.device = device ∧ other.revision = row.revision)
  set { db with certificates := live }
  require (∀ other ∈ mine, other.serial ∉ service.crl.revoked) .rejected
  let previous := latest (mine.filter fun other => decide (now + 300 < other.expires))
  let certificate ← service.certify device row now expires serial previous
  require (certificate.serial ∉ service.crl.revoked) .rejected
  let delivery : Delivery :=
    { device := device, challenge := proof.challenge, issuedAt := service.issued now
      expiresAt := min expires (min certificate.notAfter (service.seeds.expiresAt / nano))
      revision := row.revision
      issuer := service.trust, certificate := certificate, revocations := service.crl
      minimumCrl := service.crl.number
      directory := service.seeds }
  require (fits delivery = true) .invalid
  modify fun db => { db with challenges := Rows.put RestrictedChallenge.nonce { c with used := true } db.challenges }
  pure delivery

end FamilyConnect.Friends
