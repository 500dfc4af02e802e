import FamilyConnect.Friends.Restricted

/-!
# The client's check of a restricted delivery

Source: `carrier/wholedevice/provisioning.go`, `ParseDirectory` of `carrier/bootstrap/directory.go` and
`ValidJoinURL` of `carrier/roombroker/provider.go`. Instants are in nanoseconds, as Go has them; whole
seconds are those of the documents.
-/

namespace FamilyConnect.Friends

open Lib Transaction

/-- `bootstrap.MaxAge`, in seconds -/
def maxAge : Nat := 4 * 3600

structure ParsedUrl where
  scheme : String
  host : String
  path : String
  rawPath : String := ""
  rawQuery : String := ""
  forceQuery : Bool := false
  fragment : String := ""
  user : Bool := false
  deriving DecidableEq

/-- The libraries of the client: `reference` is the name of a well-formed identity, `nonce` says
whether a text is the encoding of 32 bytes, and `fits` is the bound on the size of a delivery. -/
structure Verifier where
  reference : String → Option String
  nonce : String → Bool
  parseUrl : String → Option ParsedUrl
  fits : Delivery → Bool

inductive ValidationFailure where
  | closed
  | bootstrap
  deriving DecidableEq

/-! ## The directory -/

/-- `^/j/[A-Za-z0-9_-]{1,128}$` -/
def roomPath (path : List Char) : Bool :=
  match path with
  | '/' :: 'j' :: '/' :: id => roomId id
  | _ => false

def validJoinUrl (verifier : Verifier) (value : String) : Bool :=
  match verifier.parseUrl value with
  | none => false
  | some parsed =>
    decide (value.length ≤ 2048 ∧ parsed.scheme = "https" ∧ parsed.host = "telemost.yandex.ru" ∧
      parsed.user = false ∧ parsed.rawQuery = "" ∧ parsed.forceQuery = false ∧
      parsed.fragment = "" ∧ parsed.rawPath = "") && roomPath parsed.path.toList

def seedsValid (verifier : Verifier) (gateway : String) (seen : List String) :
    List BootstrapSeed → Bool
  | [] => true
  | seed :: rest =>
    decide (seed.transport = "telemost-webrtc" ∧ validJoinUrl verifier seed.joinUrl = true ∧
      seed.gateway = gateway ∧ seed.joinUrl ∉ seen) &&
      seedsValid verifier gateway (seed.joinUrl :: seen) rest

def parseDirectory (verifier : Verifier) (directory : SeedDirectory) (family gateway : String)
    (time : Nat) : Except ValidationFailure SeedDirectory := do
  demand (hex 32 family = true ∧ directory.family = family ∧ hex 32 gateway = true ∧
    directory.issuedAt ≤ time ∧ time < directory.expiresAt ∧
    directory.issuedAt < directory.expiresAt ∧ directory.expiresAt - directory.issuedAt ≤
    maxAge * nano ∧ 1 ≤ directory.seeds.length ∧ directory.seeds.length ≤ 4) .bootstrap
  demand (seedsValid verifier gateway [] directory.seeds = true) .bootstrap
  pure directory

/-! ## The delivery -/

/-- The organizational units that `_issue` writes. -/
def Certificate.units (certificate : Certificate) : List String :=
  ["protocol=family-connect-5n3-test-v1", "family=" ++
    certificate.family, "role=device", "revision=" ++ toString certificate.revision]

/-- The loop over the organizational units: each of them is wanted, and is then struck off. -/
def unitsMatch (want : List String) : List String → Bool
  | [] => true
  | unit :: rest => want.contains unit && unitsMatch (want.erase unit) rest

/-- `certificate.Verify` with the authority as the only root -/
def Certificate.Verifies (certificate : Certificate) (authority : Authority) (time : Nat) : Prop :=
  certificate.issuer = authority.key ∧ (certificate.notBefore * nano ≤ time ∧
    time ≤ certificate.notAfter * nano) ∧ (authority.notBefore * nano ≤ time ∧
    time ≤ authority.notAfter * nano)

instance (certificate : Certificate) (authority : Authority) (time : Nat) :
    Decidable (certificate.Verifies authority time) :=
  inferInstanceAs (Decidable (_ ∧ _ ∧ _))

structure DeliveryCredentials where
  certificate : Certificate
  authority : Authority
  revocations : RevocationList
  family : String
  gateway : String
  minimumRevision : Nat
  minimumCrl : Nat
  deriving DecidableEq

def validateDelivery (verifier : Verifier) (publicKey : String) (time : Nat) (delivery : Delivery) :
    Except ValidationFailure (Delivery × DeliveryCredentials) := do
  let now := time / nano
  let trust := delivery.issuer
  let certificate := delivery.certificate
  let crl := delivery.revocations
  let reference ← given (verifier.reference publicKey) .closed
  demand (verifier.fits delivery = true) .closed
  demand (verifier.nonce delivery.challenge = true ∧ delivery.device = reference ∧
    1 ≤ delivery.revision ∧ 1 ≤ delivery.minimumCrl ∧ delivery.issuedAt ≤ now ∧
    now < delivery.expiresAt ∧ delivery.issuedAt < delivery.expiresAt ∧
    delivery.expiresAt - delivery.issuedAt ≤ maxAge) .closed
  demand (1 ≤ trust.sequence ∧ 1 ≤ trust.minimumRevision ∧
    trust.minimumRevision ≤ delivery.revision ∧ trust.issuedAt ≤ delivery.issuedAt ∧
    delivery.expiresAt ≤ trust.expiresAt) .closed
  demand (certificate.Verifies trust.authority time) .closed
  demand (certificate.publicKey = publicKey ∧ certificate.device = delivery.device) .closed
  demand (certificate.units.length = 4 ∧ unitsMatch
    ["protocol=family-connect-5n3-test-v1", "family=" ++ trust.family, "role=device", "revision=" ++
      toString delivery.revision] certificate.units = true) .closed
  demand (crl.issuer = trust.authority.key ∧ crl.number < 2 ^ 63 ∧
    crl.number = delivery.minimumCrl ∧ crl.lastUpdate * nano ≤ time ∧ time < crl.nextUpdate * nano ∧
    crl.nextUpdate - crl.lastUpdate ≤ maxAge) .closed
  demand (∀ revoked ∈ crl.revoked, revoked ≠ certificate.serial) .closed
  let directory ← parseDirectory verifier delivery.directory trust.family trust.gateway time
  demand (∀ limit ∈ [certificate.notAfter * nano, trust.authority.notAfter * nano,
    crl.nextUpdate * nano, directory.expiresAt, trust.expiresAt * nano],
      delivery.expiresAt * nano ≤ limit) .closed
  pure (delivery, ⟨certificate, trust.authority, crl, trust.family, trust.gateway,
    trust.minimumRevision, delivery.minimumCrl⟩)

/-! ## What is accepted -/

/-- The libraries of the two sides agree: a proof that the server verifies names its identity and
answers 32 bytes, a link to a room is parsed into its parts, and the bound on the size is the same. -/
structure Verifier.Agrees (verifier : Verifier) (setting : Setting) (fits : Delivery → Bool) :
    Prop where
  reference : ∀ proof device, setting.verify proof = some device →
    verifier.reference proof.publicIdentity = some device
  nonce : ∀ proof device, setting.verify proof = some device → verifier.nonce proof.challenge = true
  url : ∀ url id, url.toList = joinBase ++ id → roomId id = true →
    verifier.parseUrl url = some { scheme := "https", host := "telemost.yandex.ru", path := String.ofList ("/j/".toList ++ id) }
  size : ∀ delivery, fits delivery = true → verifier.fits delivery = true

variable {verifier : Verifier} {setting : Setting} {fits : Delivery → Bool} {time : Nat}

theorem unitsMatch_self (units : List String) : unitsMatch units units = true := by
  induction units with
  | nil => rfl
  | cons unit rest ih =>
    rw [unitsMatch, List.erase_cons_head, ih]
    simp

theorem mem_of_unitsMatch {want units : List String} {unit : String}
    (h : unitsMatch want units = true) (hUnit : unit ∈ units) : unit ∈ want := by
  induction units generalizing want with
  | nil => cases hUnit
  | cons first rest ih =>
    rw [unitsMatch, Bool.and_eq_true, List.contains_iff_mem] at h
    rcases List.mem_cons.mp hUnit with rfl | hRest
    · exact h.1
    · exact List.mem_of_mem_erase (ih h.2 hRest)

theorem family_of_unitsMatch {certificate : Certificate} {family : String} {revision : Nat}
    (h : unitsMatch ["protocol=family-connect-5n3-test-v1", "family=" ++
      family, "role=device", "revision=" ++ toString revision]
      certificate.units = true) : certificate.family = family := by
  have hUnit :=
    mem_of_unitsMatch h (by simp [Certificate.units] : "family=" ++ certificate.family ∈ certificate.units)
  simp only [List.mem_cons, List.not_mem_nil, or_false, ← String.toList_inj,
    String.toList_append] at hUnit
  simpa [← String.toList_inj] using hUnit

/-- The server's pattern for a link is at least as strict as the client's. -/
theorem validJoinUrl_of_joinUrl (hAgrees : verifier.Agrees setting fits) {url : String}
    (h : joinUrl url = true) : validJoinUrl verifier url = true := by
  rw [joinUrl, Bool.and_eq_true, List.isPrefixOf_iff_prefix] at h
  obtain ⟨⟨id, hUrl⟩, hRoom⟩ := h
  rw [← hUrl, List.drop_left] at hRoom
  have hLength : url.length ≤ 2048 := by
    rw [roomId, Bool.and_eq_true, decide_eq_true_eq] at hRoom
    have hBase : joinBase.length = 29 := by decide
    rw [← String.length_toList, ← hUrl, List.length_append, hBase]
    omega
  rw [validJoinUrl, hAgrees.url url id hUrl.symm hRoom]
  have hPath : roomPath ('/' :: 'j' :: '/' :: id) = true := hRoom
  simp [hLength, hPath]

theorem seedsValid_of_serves (hAgrees : verifier.Agrees setting fits) {gateway : String}
    {seen : List String} {seeds : List BootstrapSeed}
    (hSeeds : ∀ seed ∈ seeds, seed.transport = "telemost-webrtc" ∧ seed.gateway = gateway ∧
      joinUrl seed.joinUrl = true)
    (hDistinct : (seeds.map BootstrapSeed.joinUrl).Nodup)
    (hSeen : ∀ seed ∈ seeds, seed.joinUrl ∉ seen) :
    seedsValid verifier gateway seen seeds = true := by
  induction seeds generalizing seen with
  | nil => rfl
  | cons seed rest ih =>
    rw [List.map_cons, List.nodup_cons] at hDistinct
    obtain ⟨hTransport, hGateway, hUrl⟩ := hSeeds seed (.head _)
    rw [seedsValid, Bool.and_eq_true, decide_eq_true_eq]
    refine ⟨⟨hTransport, validJoinUrl_of_joinUrl hAgrees hUrl, hGateway,
      hSeen seed (.head _)⟩, ?_⟩
    apply ih (fun other hOther => hSeeds other (.tail _ hOther)) hDistinct.2
    intro other hOther hMem
    rcases List.mem_cons.mp hMem with hSame | hOld
    · exact hDistinct.1 (hSame ▸ List.mem_map_of_mem hOther)
    · exact hSeen other (.tail _ hOther) hOld

theorem parseDirectory_of_serves (hAgrees : verifier.Agrees setting fits)
    {directory : SeedDirectory} {family gateway : String}
    (hServes : directory.Serves family gateway time) (hFamily : hex 32 family = true)
    (hGateway : hex 32 gateway = true) :
    parseDirectory verifier directory family gateway time = .ok directory := by
  obtain ⟨hSame, ⟨hIssued, hExpires⟩, ⟨hPositive, hAge⟩, ⟨hSome, hFew⟩, hSeeds, hDistinct⟩ := hServes
  have hLoop : seedsValid verifier gateway [] directory.seeds = true :=
    seedsValid_of_serves hAgrees hSeeds hDistinct fun _ _ => List.not_mem_nil
  refine both_ok_iff.mpr ⟨demand_iff.mpr ?_, both_ok_iff.mpr ⟨demand_iff.mpr hLoop, rfl⟩⟩
  exact ⟨hFamily, hSame, hGateway, hIssued, hExpires, by omega, hAge, hSome, hFew⟩

end FamilyConnect.Friends
