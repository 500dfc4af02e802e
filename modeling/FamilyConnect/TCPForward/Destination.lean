import FamilyConnect.TCPForward.Frame

/-!
# Requests to open a stream

Source: `validate` in `carrier/tcpforward/policy.go`, `canonicalHost` in
`destination.go`, and `leaseRequest` with `renewalHandler` in `admission.go`.
The address parser, Unicode lower case, JSON and DNS messages are `Packages`.
-/

namespace FamilyConnect.TCPForward

open Lib

abbrev Text := List Char

def Text.byteSize (text : Text) : Nat := (text.map Char.utf8Size).sum

structure Address where
  text : Text
  zone : Text
  deriving DecidableEq

structure OpenRequest where
  host : Text
  port : Int
  timeoutMS : Int := 0
  deriving DecidableEq

abbrev Code := String

/-- What other packages compute: `netip.ParseAddr`, `strings.ToLower`, `json.Marshal` for a request, `decodeJSON` for a
request and for an error, and the checks of `dnsmessage` behind `validDNS` and `matchesDNS`. -/
structure Packages where
  parseAddr : Text → Option Address
  toLower : Text → Text
  marshalRequest : OpenRequest → Bytes
  decodeRequest : Bytes → Option OpenRequest
  decodeError : Bytes → Option Code
  validDNS : Bytes → Bool → Bool
  matchesDNS : Bytes → Bytes → Bool

section

variable (pkg : Packages)

def canonicalHost (host : Text) : Text :=
  match pkg.parseAddr host with
  | some address => address.text
  | none => pkg.toLower (if host.getLast? = some '.' then host.dropLast else host)

def hostCharacter (c : Char) : Bool :=
  ('a' ≤ c && c ≤ 'z') || ('A' ≤ c && c ≤ 'Z') || ('0' ≤ c && c ≤ '9') || c = '-'

def hostLabel (label : Text) : Bool :=
  label ≠ [] && label.byteSize ≤ 63 && label.head? ≠ some '-' && label.getLast? ≠ some '-' && label.all hostCharacter

/-- `validate` returns no error. -/
def validate (request : OpenRequest) : Bool :=
  if request.host.byteSize > 254 then false
  else
    let host := canonicalHost pkg request.host
    if request.port < 1 ∨ request.port > 65535 ∨ request.timeoutMS < 0 ∨ request.timeoutMS > 30000 ∨
        host.byteSize = 0 ∨ host.byteSize > 253 then false
    else
      match pkg.parseAddr host with
      | some address => address.zone = []
      | none => (host.splitOn '.').all hostLabel

def leaseRenewalHost : Text := "lease-renewal.family-connect.invalid".toList

def credentialRenewalPort : Int := 2

def leaseRequest (request : OpenRequest) : Bool :=
  canonicalHost pkg request.host = leaseRenewalHost && (request.port = 1 || request.port = credentialRenewalPort)

end

def validError (code : Code) : Bool :=
  code ∈ ["malformed_request", "policy_rejected", "dns_failure", "connection_refused", "timeout", "unreachable",
    "cancelled", "connect_failed"]

def errorPayload (code : Code) : Bytes := ("\x7b\"code\":\"" ++ code ++ "\"\x7d").toByteArray.data.toList

/-! ## Packages that know one destination -/

namespace Sample

def request : OpenRequest := { host := ['a'], port := 80 }

def requestText : Bytes := "\x7b\"host\":\"a\",\"port\":80\x7d".toByteArray.data.toList

def answerCodes : List Code :=
  ["malformed_request", "policy_rejected", "dns_failure", "connection_refused", "timeout", "unreachable", "cancelled",
    "connect_failed", "stream_limit"]

/-- The request above is written as JSON; any other port or timeout of the host `a` as two numbers. -/
def packages : Packages where
  parseAddr host := if host = ['a'] then none else some ⟨host, ['z']⟩
  toLower := id
  marshalRequest r :=
    if r = request then requestText else BigEndian.put 4 r.port.toNat ++ BigEndian.put 4 r.timeoutMS.toNat
  decodeRequest payload :=
    if payload = requestText then some request
    else if payload.length = 8 then
      some ⟨['a'], BigEndian.get (payload.take 4), BigEndian.get (payload.drop 4)⟩
    else none
  decodeError payload := answerCodes.find? fun code => errorPayload code = payload
  validDNS _ _ := false
  matchesDNS _ _ := false

end Sample

end FamilyConnect.TCPForward
