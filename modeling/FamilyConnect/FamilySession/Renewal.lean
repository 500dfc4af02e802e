import FamilyConnect.FamilySession.Credentials
import FamilyConnect.Lib.Transition

/-!
# Credential renewal between two sessions

Source: `carrier/familysession/renewal.go`. Each side of a TLS connection runs
`RenewCredentialsGuarded` under its `renewMu`; the call is an `Exchange` with
the rest of its message script. The network decides what is read: any hello
at all, and any proof that the holder of the key has signed.
-/

namespace FamilyConnect.FamilySession

open Lib

namespace Transcript

def hello (t : Transcript) (server : Bool) : Hello := if server then t.server else t.client

def of (server : Bool) (own peer : Hello) (binding : Bytes) : Transcript :=
  if server then ⟨peer, own, binding⟩ else ⟨own, peer, binding⟩

theorem hello_of (server : Bool) (own peer : Hello) (binding : Bytes) :
    (of server own peer binding).hello server = own ∧ (of server own peer binding).hello (!server) = peer ∧
      (of server own peer binding).binding = binding := by
  cases server <;> exact ⟨rfl, rfl, rfl⟩

end Transcript

/-- The messages that carry a proof. -/
inductive Kind where
  | clientProof
  | serverProof
  | clientCommit
  | serverCommitted
  | clientDone
  deriving DecidableEq

def Kind.name : Kind → String
  | .clientProof => "client-proof"
  | .serverProof => "server-proof"
  | .clientCommit => "client-commit"
  | .serverCommitted => "server-committed"
  | .clientDone => "client-done"

def renewalDomain : String := "family-connect/credential-renewal/v1"

def proofHeader (kind : Kind) : Bytes :=
  (renewalDomain ++ "\x00" ++ kind.name ++ "\x00").toByteArray.data.toList

def renewalProof (kind : Kind) (transcript : Bytes) : Bytes := proofHeader kind ++ transcript

theorem proofHeader_prefixFree : ∀ kind kind' : Kind, proofHeader kind <+: proofHeader kind' → kind = kind' := by
  intro kind kind'
  cases kind <;> cases kind' <;> decide +kernel

theorem renewalProof_injective {kind kind' : Kind} {d d' : Bytes} (h : renewalProof kind d = renewalProof kind' d') :
    kind = kind' ∧ d = d' := by
  have hLeft : proofHeader kind <+: renewalProof kind' d' := h ▸ List.prefix_append _ _
  have hRight : proofHeader kind' <+: renewalProof kind' d' := List.prefix_append _ _
  have hKind : kind = kind' := by
    rcases List.prefix_or_prefix_of_prefix hLeft hRight with hPrefix | hPrefix
    · exact proofHeader_prefixFree kind kind' hPrefix
    · exact (proofHeader_prefixFree kind' kind hPrefix).symm
  subst hKind
  exact ⟨rfl, List.append_cancel_left h⟩

def message (lib : Library) (kind : Kind) (t : Transcript) : Bytes := renewalProof kind (lib.digest t)

/-! ## One session -/

structure Commit where
  transcript : Transcript
  previous : RenewalState
  next : RenewalState
  previousExpiry : Instant
  expiry : Instant
  deriving DecidableEq

/-- `done` says that the stream has been stopped; `commits` lists the commits, the newest first. -/
structure Session where
  server : Bool
  renewal : RenewalState
  expiry : Instant
  done : Bool := false
  commits : List Commit := []
  deriving DecidableEq

/-- What a guard does with the commit it is given; without a guard it is `commit`. -/
inductive GuardAnswer where
  | refuse
  | commit
  | commitThenFail
  deriving DecidableEq

namespace Session

variable (lib : Library)

def securityAlive (s : Session) (now : Instant) : Bool := now < s.expiry && !s.done

/-- The session `openReliable` returns after a handshake in which the peer showed its certificate. -/
def opened {lib : Library} (server : Bool) (m : Material lib) (peer : Certificate) : Session :=
  { server := server
    renewal := m.initialRenewalState peer
    expiry := minTime m.localCert.notAfter [m.crl.nextUpdate, m.authority.notAfter, peer.notAfter] }

def prepareRenewal (s : Session) (m : Material lib) (now : Instant) : Option RenewalState :=
  if m.configuration now = false ∨ s.renewal.generation = 2 ^ 64 - 1 ∨ s.securityAlive now = false then none
  else
    let next := m.initialRenewalState s.renewal.peer
    if compatibleSuccessor s.renewal next = false ∨ next.verify lib s.renewal.localCert (!s.server) now = false ∨
        next.verify lib s.renewal.peer s.server now = false ∨
        next.verify lib next.localCert (!s.server) now = false then none
    else some { next with generation := s.renewal.generation + 1 }

def greet (next : RenewalState) (nonce : Bytes) : Hello :=
  { version := 1
    generation := next.generation
    nonce := nonce
    certificate := next.localCert.raw
    crl := lib.sha256 next.crl.raw
    minimumCRL := next.profile.minimumCRL }

/-- The checks on the hello of the peer; the candidate then holds the certificate in it. -/
def acceptHello (s : Session) (next : RenewalState) (nonce : Bytes) (originalDeadline : Instant) (peer : Hello)
    (now : Instant) : Option RenewalState :=
  if peer.version ≠ 1 ∨ peer.generation ≠ next.generation ∨ peer.nonce.length ≠ 32 ∨ peer.nonce = nonce ∨
      peer.crl ≠ lib.sha256 next.crl.raw ∨ peer.minimumCRL ≠ next.profile.minimumCRL ∨
      peer.certificate.length > 4096 then none
  else
    match lib.parseCertificate peer.certificate with
    | none => none
    | some certificate =>
      if sameRenewalHolder next.peer certificate = false ∨ next.verify lib certificate s.server now = false then none
      else
        let next := { next with peer := certificate }
        if ¬ originalDeadline < next.expiry then none else some next

/-- `commitRenewal`, with the answer of the guard, whether the context ended before the checks or before
the commit, and whether the deadlines of the connection could be set. -/
def commitRenewal (s : Session) (next : RenewalState) (t : Transcript) (guard : GuardAnswer)
    (ended endedLater deadlinesSet : Bool) (now later : Instant) : Session × Bool :=
  if ended = true ∨ next.generation ≠ s.renewal.generation + 1 ∨ s.securityAlive now = false ∨
      next.verify lib s.renewal.localCert (!s.server) now = false ∨
      next.verify lib s.renewal.peer s.server now = false ∨
      next.verify lib next.localCert (!s.server) now = false ∨
      next.verify lib next.peer s.server now = false ∨ ¬ s.expiry < next.expiry then (s, false)
  else if guard = .refuse ∨ endedLater = true ∨ s.securityAlive later = false then (s, false)
  else if deadlinesSet = false then ({ s with done := true }, false)
  else
    ({ s with
        renewal := next
        expiry := next.expiry
        commits := ⟨t, s.renewal, next, s.expiry, next.expiry⟩ :: s.commits }, decide (guard = .commit))

end Session

/-! ## The two sides of a connection -/

inductive Action where
  | send (kind : Kind)
  | receive (kind : Kind)
  | commit
  | close
  deriving DecidableEq

/-- The end of `RenewCredentialsGuarded`, in order, on the server and on the client. -/
def script (server : Bool) : List Action :=
  if server then
    [.receive .clientProof, .send .serverProof, .receive .clientCommit, .commit, .send .serverCommitted,
      .receive .clientDone, .close]
  else
    [.send .clientProof, .receive .serverProof, .send .clientCommit, .receive .serverCommitted, .commit,
      .send .clientDone, .close]

structure Call where
  next : RenewalState
  key : Key
  originalDeadline : Instant
  nonce : Bytes
  deriving DecidableEq

inductive Exchange where
  | idle
  | hello (call : Call)
  | agreed (call : Call) (t : Transcript) (rest : List Action)
  | failing
  | stopping
  deriving DecidableEq

structure Side where
  session : Session
  exchange : Exchange := .idle
  failures : Nat := 0
  deriving DecidableEq

/-- A TLS connection between two parties. Both export the same `binding`. `elsewhere key message` says
that `message` was signed with `key` outside this connection, which for the keys of the two parties is never a
transcript with this binding. -/
structure Connection (lib : Library) where
  material : Bool → Material lib
  binding : Bytes
  elsewhere : Key → Bytes → Prop
  exclusive : ∀ (who : Bool) (kind : Kind) (t : Transcript), t.binding = binding →
    ¬ elsewhere (material who).key (message lib kind t)

structure Pair where
  side : Bool → Side
  signatures : List (Key × Bytes) := []
  transcripts : List Transcript := []

namespace Pair

def put (p : Pair) (who : Bool) (side : Side) : Pair := { p with side := Function.update p.side who side }

variable {lib : Library}

def Signed (c : Connection lib) (p : Pair) (key : Key) (message : Bytes) : Prop :=
  (key, message) ∈ p.signatures ∨ c.elsewhere key message

inductive Step (c : Connection lib) : Pair → Pair → Prop where
  | prepare {p : Pair} {next : RenewalState} (who : Bool) (m : Material lib) (nonce : Bytes) (now : Instant) :
      (p.side who).exchange = .idle → (p.side who).session.prepareRenewal lib m now = some next →
      Step c p (p.put who
        { p.side who with exchange := .hello ⟨next, m.key, (p.side who).session.expiry, nonce⟩ })
  | hello {p : Pair} {call : Call} {next : RenewalState} (who : Bool) (peer : Hello) (now : Instant) :
      (p.side who).exchange = .hello call →
      (p.side who).session.acceptHello lib call.next call.nonce call.originalDeadline peer now = some next →
      (lib.publicKey next.peer.rawSubjectPublicKeyInfo).isSome = true →
      Step c p
        { p.put who
            { p.side who with
              exchange := .agreed { call with next := next }
                (.of who (Session.greet lib call.next call.nonce) peer c.binding) (script who) } with
          transcripts := .of who (Session.greet lib call.next call.nonce) peer c.binding :: p.transcripts }
  | send {p : Pair} {call : Call} {t : Transcript} {kind : Kind} {rest : List Action} (who : Bool) :
      (p.side who).exchange = .agreed call t (.send kind :: rest) →
      Step c p
        { p.put who { p.side who with exchange := .agreed call t rest } with
          signatures := (call.key, message lib kind t) :: p.signatures }
  | receive {p : Pair} {call : Call} {t : Transcript} {kind : Kind} {rest : List Action} {key : Key} (who : Bool) :
      (p.side who).exchange = .agreed call t (.receive kind :: rest) →
      lib.publicKey call.next.peer.rawSubjectPublicKeyInfo = some key → Signed c p key (message lib kind t) →
      Step c p (p.put who { p.side who with exchange := .agreed call t rest })
  | commit {p : Pair} {call : Call} {t : Transcript} {rest : List Action} {session : Session} {ok : Bool} (who : Bool)
      (guard : GuardAnswer) (ended endedLater deadlinesSet : Bool) (now later : Instant) :
      (p.side who).exchange = .agreed call t (.commit :: rest) →
      (p.side who).session.commitRenewal lib call.next t guard ended endedLater deadlinesSet now later = (session, ok) →
      Step c p (p.put who
        { p.side who with session := session, exchange := if ok then .agreed call t rest else .failing })
  | close {p : Pair} {call : Call} {t : Transcript} {rest : List Action} (who : Bool) :
      (p.side who).exchange = .agreed call t (.close :: rest) →
      Step c p (p.put who { p.side who with exchange := .idle })
  | fail {p : Pair} (who : Bool) : (p.side who).exchange ≠ .idle → (p.side who).exchange ≠ .stopping →
      Step c p (p.put who { p.side who with exchange := .failing })
  | stop {p : Pair} (who : Bool) : (p.side who).exchange = .failing →
      Step c p (p.put who
        { p.side who with session := { (p.side who).session with done := true }, exchange := .stopping })
  | returned {p : Pair} (who : Bool) : (p.side who).exchange = .stopping →
      Step c p (p.put who
        { p.side who with exchange := .idle, failures := (p.side who).failures + 1 })
  | streamDone {p : Pair} (who : Bool) :
      Step c p (p.put who { p.side who with session := { (p.side who).session with done := true } })

def opened (c : Connection lib) : Pair where
  side who := { session := Session.opened who (c.material who) (c.material (!who)).localCert }

end Pair

def renewalSystem {lib : Library} (c : Connection lib) : System Pair where
  initial p := p = .opened c
  step := Pair.Step c

end FamilyConnect.FamilySession
