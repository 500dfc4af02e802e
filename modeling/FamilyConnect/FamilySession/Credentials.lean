import FamilyConnect.Lib.Clock
import FamilyConnect.Lib.Table

/-!
# Credentials of a family session

Source: `carrier/familysession/session.go` and the checks of
`carrier/familysession/renewal.go` that compare credentials with one another.
What the packages for x509, ed25519, sha256 and JSON compute is a `Library`.
-/

namespace FamilyConnect.FamilySession

open Lib

abbrev Bytes := List UInt8

abbrev Key := Bytes

/-- Text that is taken apart, as its characters. -/
abbrev Text := List Char

def Text.byteSize (text : Text) : Nat := (text.map Char.utf8Size).sum

structure Uri where
  scheme : String
  opaquePart : Text
  text : String
  deriving DecidableEq

structure Certificate where
  raw : Bytes
  rawSubject : Bytes
  rawSubjectPublicKeyInfo : Bytes
  serialNumber : Int
  organizationalUnit : List Text
  subjectSerialNumber : Text
  uris : List Uri
  notBefore : Instant
  notAfter : Instant
  deriving DecidableEq

structure RevocationList where
  raw : Bytes
  number : Int
  thisUpdate : Instant
  nextUpdate : Instant
  revoked : List Int
  deriving DecidableEq

/-- The fields of a profile that are not certificates or lists of their own. -/
structure Credentials where
  family : Text
  gateway : Text
  minimumRevision : Int
  minimumCRL : Int
  deriving DecidableEq

structure Hello where
  version : Nat
  generation : Nat
  nonce : Bytes
  certificate : Bytes
  crl : Bytes
  minimumCRL : Int
  deriving DecidableEq

structure Transcript where
  client : Hello
  server : Hello
  binding : Bytes
  deriving DecidableEq

/-- The cryptographic packages and the encoder. `marshal` is `json.Marshal` for a transcript,
`publicKey` is the ed25519 key in a subject public key info, and `verifyChain authority certificate
server now` is `Certificate.Verify` with the usage and host name for that side of the connection. -/
structure Library where
  parseCertificate : Bytes → Option Certificate
  publicKey : Bytes → Option Key
  verifyChain : Certificate → Certificate → Bool → Instant → Bool
  sha256 : Bytes → Bytes
  marshal : Transcript → Bytes

def Library.digest (lib : Library) (t : Transcript) : Bytes := lib.sha256 (lib.marshal t)

def protocol : Text := "family-connect-5n3-test-v1".toList

/-- `strings.Cut` at an equals sign. -/
def cut (field : Text) : Option (Text × Text) :=
  if '=' ∈ field then some (field.takeWhile (· ≠ '='), (field.dropWhile (· ≠ '=')).drop 1) else none

def decimal (digits : Text) : Option Int :=
  if digits = [] ∨ digits.any (fun d => !d.isDigit) = true then none
  else some (digits.foldl (fun n d => 10 * n + (d.toNat - '0'.toNat : Nat)) 0)

/-- `strconv.Atoi` for 64-bit integers. -/
def atoi (text : Text) : Option Int :=
  let value :=
    match text with
    | '+' :: digits => decimal digits
    | '-' :: digits => (decimal digits).map (- ·)
    | digits => decimal digits
  value.filter fun n => -2 ^ 63 ≤ n && n < 2 ^ 63

def hexDigit (d : Char) : Option UInt8 :=
  if '0' ≤ d ∧ d ≤ '9' then some (UInt8.ofNat (d.toNat - '0'.toNat))
  else if 'a' ≤ d ∧ d ≤ 'f' then some (UInt8.ofNat (d.toNat - 'a'.toNat + 10))
  else if 'A' ≤ d ∧ d ≤ 'F' then some (UInt8.ofNat (d.toNat - 'A'.toNat + 10))
  else none

def hexDecode : Text → Option Bytes
  | [] => some []
  | [_] => none
  | high :: low :: rest => do
    let high ← hexDigit high
    let low ← hexDigit low
    let rest ← hexDecode rest
    return (16 * high + low) :: rest

def hexChar (n : Nat) : Char := Char.ofNat (if n < 10 then '0'.toNat + n else 'a'.toNat + (n - 10))

def hexEncode (bytes : Bytes) : Text := bytes.flatMap fun b => [hexChar (b.toNat / 16), hexChar (b.toNat % 16)]

def identityMark : Text := "family-connect:identity:".toList

/-- The claims in the organizational units of a certificate, or nothing if one is malformed or repeated. -/
def claimsOf (fields : List Text) : Option (Table Text Text) :=
  fields.foldl
    (fun claims field => do
      let claims ← claims
      let (key, value) ← cut field
      if (claims.lookup key).getD [] ≠ [] ∨ value = [] then none else some (claims.insert key value))
    (some ∅)

def authorize (lib : Library) (peer : Certificate) (credentials : Credentials) (revocations : RevocationList)
    (server : Bool) (now : Instant) : Bool :=
  if now < revocations.thisUpdate ∨ ¬ now < revocations.nextUpdate then false
  else if peer.serialNumber ∈ revocations.revoked then false
  else
    match claimsOf peer.organizationalUnit with
    | none => false
    | some claims =>
      let claim := fun key : String => (claims.lookup key.toList).getD []
      if peer.organizationalUnit.length ≠ 4 ∨ claim "protocol" ≠ protocol ∨ claim "family" ≠ credentials.family then
        false
      else
        match atoi (claim "revision"), peer.uris with
        | some revision, [uri] =>
          if revision < credentials.minimumRevision ∨ claim "role" ≠ (if server then "device" else "gateway").toList ∨
              uri.scheme ≠ "urn" ∨ ¬ identityMark <+: uri.opaquePart then false
          else
            match hexDecode (uri.opaquePart.drop identityMark.length) with
            | none => false
            | some identity =>
              let reference := hexEncode ((lib.sha256 identity).take 16)
              identity.length = 64 && lib.publicKey peer.rawSubjectPublicKeyInfo = some (identity.drop 32) &&
                peer.subjectSerialNumber = reference && (server || reference = credentials.gateway)
        | _, _ => false

def minTime (value : Instant) (values : List Instant) : Instant :=
  values.foldl (fun result value => if value < result then value else result) value

structure RenewalState where
  profile : Credentials
  localCert : Certificate
  peer : Certificate
  authority : Certificate
  crl : RevocationList
  generation : Nat := 0
  deriving DecidableEq

namespace RenewalState

def verify (lib : Library) (state : RenewalState) (certificate : Certificate) (server : Bool) (now : Instant) : Bool :=
  lib.verifyChain state.authority certificate server now &&
    authorize lib certificate state.profile state.crl server now

def expiry (state : RenewalState) : Instant :=
  minTime state.localCert.notAfter [state.peer.notAfter, state.crl.nextUpdate, state.authority.notAfter]

end RenewalState

def sameRenewalHolder (previous next : Certificate) : Bool :=
  previous.rawSubject = next.rawSubject && previous.rawSubjectPublicKeyInfo = next.rawSubjectPublicKeyInfo &&
    (match previous.uris, next.uris with
    | [uri], [uri'] => decide (uri.text = uri'.text)
    | _, _ => false)

def compatibleSuccessor (previous next : RenewalState) : Bool :=
  if next.authority.raw ≠ previous.authority.raw ∨ next.profile.family ≠ previous.profile.family ∨
      next.profile.gateway ≠ previous.profile.gateway ∨
      next.profile.minimumRevision ≠ previous.profile.minimumRevision ∨
      next.profile.minimumCRL < previous.profile.minimumCRL ∨
      sameRenewalHolder previous.localCert next.localCert = false ∨ next.crl.number < previous.crl.number ∨
      next.crl.thisUpdate < previous.crl.thisUpdate ∨ next.crl.nextUpdate < previous.crl.nextUpdate then false
  else if next.crl.number = previous.crl.number ∧ next.crl.raw ≠ previous.crl.raw then false
  else previous.crl.revoked.all fun entry => next.crl.revoked.any fun successor => successor = entry

/-- What a profile file holds once it has been parsed: `ParseCertificate` made the certificate from its
bytes, and the private key in the file fits it. -/
structure Material (lib : Library) where
  profile : Credentials
  localCert : Certificate
  authority : Certificate
  crl : RevocationList
  key : Key
  parsed : lib.parseCertificate localCert.raw = some localCert
  keyPair : lib.publicKey localCert.rawSubjectPublicKeyInfo = some key

namespace Material

variable {lib : Library}

/-- The checks of `configuration` on parsed material. -/
def configuration (m : Material lib) (now : Instant) : Bool :=
  m.profile.family.byteSize = 32 && m.profile.gateway.byteSize = 32 && 1 ≤ m.profile.minimumRevision &&
    1 ≤ m.profile.minimumCRL && m.crl.number < 2 ^ 63 && m.profile.minimumCRL ≤ m.crl.number &&
    !decide (now < m.crl.thisUpdate) && now < m.crl.nextUpdate && now < m.authority.notAfter &&
    !decide (now < m.authority.notBefore)

def initialRenewalState (m : Material lib) (peer : Certificate) : RenewalState :=
  { profile := m.profile, localCert := m.localCert, peer := peer, authority := m.authority, crl := m.crl }

end Material

structure Successor (previous next : RenewalState) : Prop where
  holder : sameRenewalHolder previous.localCert next.localCert = true
  minimumCRL : previous.profile.minimumCRL ≤ next.profile.minimumCRL
  number : previous.crl.number ≤ next.crl.number
  revoked : previous.crl.revoked ⊆ next.crl.revoked

theorem successor_of_compatible {previous next : RenewalState} (h : compatibleSuccessor previous next = true) :
    Successor previous next := by
  unfold compatibleSuccessor at h
  split at h
  · cases h
  rename_i hFields
  split at h
  · cases h
  simp only [not_or, Bool.not_eq_false, not_lt] at hFields
  obtain ⟨_, _, _, _, hMinimum, hHolder, hNumber, _, _⟩ := hFields
  refine ⟨hHolder, hMinimum, hNumber, ?_⟩
  intro serial hSerial
  obtain ⟨successor, hMem, hEq⟩ := List.any_eq_true.mp (List.all_eq_true.mp h serial hSerial)
  rw [decide_eq_true_eq] at hEq
  exact hEq ▸ hMem

theorem sameRenewalHolder_key {previous next : Certificate} (h : sameRenewalHolder previous next = true) :
    previous.rawSubjectPublicKeyInfo = next.rawSubjectPublicKeyInfo := by
  simp only [sameRenewalHolder, Bool.and_eq_true, decide_eq_true_eq] at h
  exact h.1.2

end FamilyConnect.FamilySession
