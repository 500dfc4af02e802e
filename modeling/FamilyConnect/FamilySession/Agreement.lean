import FamilyConnect.FamilySession.Renewal

/-!
# Agreement of the two sides of a renewal

The commits of a session are numbered by generation. A side says that it has
committed by one kind of message, its `confirmation`; the client waits for
the server's before it commits and the server for the client's before its
call ends. Hence the commits of the client are commits of the server, and the
server is at most one ahead.
-/

namespace FamilyConnect.FamilySession

open Lib

variable {lib : Library} {c : Connection lib} {p p' : Pair} {who : Bool}
  {now : Instant} {next : RenewalState} {peer : Hello} {session : Session} {ks : List Commit}

/-! ## What the functions of a session establish -/

structure Presented (lib : Library) (binding : Bytes) (who : Bool) (next : RenewalState) (t : Transcript) : Prop where
  binding : t.binding = binding
  parsed : lib.parseCertificate next.localCert.raw = some next.localCert
  own : (t.hello who).generation = next.generation ∧ (t.hello who).certificate = next.localCert.raw
  generation : (t.hello (!who)).generation = next.generation
  certificate : lib.parseCertificate (t.hello (!who)).certificate = some next.peer
  crl : ∀ side, (t.hello side).crl = lib.sha256 next.crl.raw
  minimumCRL : ∀ side, (t.hello side).minimumCRL = next.profile.minimumCRL

structure Agree (lib : Library) (client server : RenewalState) : Prop where
  generation : client.generation = server.generation
  crl : lib.sha256 client.crl.raw = lib.sha256 server.crl.raw
  minimumCRL : client.profile.minimumCRL = server.profile.minimumCRL
  clientCertificate : server.peer = client.localCert
  serverCertificate : client.peer = server.localCert

theorem Presented.agree {binding : Bytes} {client server : RenewalState} {t : Transcript}
    (hClient : Presented lib binding false client t)
    (hServer : Presented lib binding true server t) : Agree lib client server where
  generation := hClient.generation.symm.trans hServer.own.1
  crl := (hClient.crl true).symm.trans (hServer.crl true)
  minimumCRL := (hClient.minimumCRL true).symm.trans (hServer.minimumCRL true)
  clientCertificate := by
    have hParsed : lib.parseCertificate (t.hello false).certificate = some server.peer := hServer.certificate
    rw [hClient.own.2, hClient.parsed] at hParsed
    exact (Option.some.inj hParsed).symm
  serverCertificate := by
    have hParsed : lib.parseCertificate (t.hello true).certificate = some client.peer := hClient.certificate
    rw [hServer.own.2, hServer.parsed] at hParsed
    exact (Option.some.inj hParsed).symm

structure Candidate (s : Session) (next : RenewalState) : Prop where
  generation : next.generation = s.renewal.generation + 1
  successor : Successor s.renewal next

variable {m : Material lib}

theorem prepareRenewal_spec {s : Session}
    (h : s.prepareRenewal lib m now = some next) :
    Candidate s next ∧ next.localCert = m.localCert ∧ next.peer = s.renewal.peer ∧ s.done = false := by
  unfold Session.prepareRenewal at h
  split at h
  · cases h
  rename_i hReady
  dsimp only at h
  split at h
  · cases h
  rename_i hChecked
  cases h
  simp only [not_or, Bool.not_eq_false] at hReady hChecked
  have hSuccessor := successor_of_compatible hChecked.1
  have hAlive := hReady.2.2
  simp only [Session.securityAlive, Bool.and_eq_true, Bool.not_eq_true'] at hAlive
  exact ⟨⟨rfl, { hSuccessor with }⟩, rfl, rfl, hAlive.2⟩

theorem acceptHello_spec {s : Session} {accepted : RenewalState} {nonce : Bytes} {deadline : Instant}
    (h : s.acceptHello lib next nonce deadline peer now = some accepted) :
    ∃ certificate, accepted = { next with peer := certificate } ∧ peer.generation = next.generation ∧
      peer.crl = lib.sha256 next.crl.raw ∧ peer.minimumCRL = next.profile.minimumCRL ∧
      lib.parseCertificate peer.certificate = some certificate ∧
      next.peer.rawSubjectPublicKeyInfo = certificate.rawSubjectPublicKeyInfo := by
  unfold Session.acceptHello at h
  split at h
  · cases h
  rename_i hFields
  simp only [not_or, not_not] at hFields
  split at h
  · cases h
  rename_i certificate hParsed
  split at h
  · cases h
  rename_i hHolder
  dsimp only at h
  split at h
  · cases h
  cases h
  simp only [not_or, Bool.not_eq_false] at hHolder
  exact ⟨certificate, rfl, hFields.2.1, hFields.2.2.2.2.1, hFields.2.2.2.2.2.1, hParsed,
    sameRenewalHolder_key hHolder.1⟩

abbrev committed (s : Session) (next : RenewalState) (t : Transcript) : Session :=
  { s with
    renewal := next
    expiry := next.expiry
    commits := ⟨t, s.renewal, next, s.expiry, next.expiry⟩ :: s.commits }

inductive CommitResult (s : Session) (next : RenewalState) (t : Transcript) : Session → Bool → Prop where
  | rejected : CommitResult s next t s false
  | stopped : CommitResult s next t { s with done := true } false
  | committed (ok : Bool) : s.done = false → next.generation = s.renewal.generation + 1 → s.expiry < next.expiry →
      CommitResult s next t (committed s next t) ok

theorem commitRenewal_spec (s : Session) (next : RenewalState) (t : Transcript) (guard : GuardAnswer)
    (ended endedLater deadlinesSet : Bool) (now later : Instant) {ok : Bool}
    (h : s.commitRenewal lib next t guard ended endedLater deadlinesSet now later = (session, ok)) :
    CommitResult s next t session ok := by
  unfold Session.commitRenewal at h
  split at h
  · cases h
    exact .rejected
  rename_i hChecked
  split at h
  · cases h
    exact .rejected
  rename_i hGuard
  split at h
  · cases h
    exact .stopped
  cases h
  simp only [not_or, not_not, Bool.not_eq_false] at hChecked hGuard
  have hAlive := hGuard.2.2
  simp only [Session.securityAlive, Bool.and_eq_true, Bool.not_eq_true'] at hAlive
  exact .committed _ hAlive.2 hChecked.2.1 hChecked.2.2.2.2.2.2.2

/-! ## One side -/

def Numbered : List Commit → Prop
  | [] => True
  | k :: ks => k.next.generation = ks.length + 1 ∧ Numbered ks

theorem Numbered.le (h : Numbered ks) {k : Commit} (hk : k ∈ ks) : k.next.generation ≤ ks.length := by
  induction ks with
  | nil => cases hk
  | cons head rest ih =>
    rcases List.mem_cons.mp hk with rfl | hk
    · exact h.1.le
    · exact (ih h.2 hk).trans (Nat.le_succ _)

/-- The commit of the latest generation is the newest one. -/
theorem Numbered.newest (h : Numbered ks) {k : Commit} (hk : k ∈ ks)
    (hGeneration : ks.length ≤ k.next.generation) : ks.head? = some k := by
  cases ks with
  | nil => cases hk
  | cons head rest =>
    rcases List.mem_cons.mp hk with rfl | hk
    · rfl
    · have hOld := Numbered.le h.2 hk
      rw [List.length_cons] at hGeneration
      omega

structure Commit.Sound (c : Connection lib) (who : Bool) (k : Commit) : Prop where
  presented : Presented lib c.binding who k.next k.transcript
  expiry : k.previousExpiry < k.expiry
  successor : Successor k.previous k.next

def confirmation (server : Bool) : Kind := if server then .serverCommitted else .clientDone

def KnowsPeer (c : Connection lib) (who : Bool) (state : RenewalState) : Prop :=
  lib.publicKey state.peer.rawSubjectPublicKeyInfo = some (c.material (!who)).key

structure Agreed (c : Connection lib) (who : Bool) (s : Session) (call : Call) (t : Transcript) (rest : List Action) :
    Prop where
  script : rest ∈ (script who).tails
  presented : Presented lib c.binding who call.next t
  peer : KnowsPeer c who call.next
  before : Action.commit ∈ rest → Candidate s call.next
  after : Action.commit ∉ rest → ∃ k, s.commits.head? = some k ∧ k.transcript = t

structure SideInv (c : Connection lib) (who : Bool) (s : Side) : Prop where
  numbered : Numbered s.session.commits
  generation : s.session.renewal.generation = s.session.commits.length
  latest : ∀ k, s.session.commits.head? = some k → s.session.renewal = k.next ∧ s.session.expiry = k.expiry
  sound : ∀ k ∈ s.session.commits, k.Sound c who
  peer : KnowsPeer c who s.session.renewal
  failed : 0 < s.failures → s.session.done = true
  stopping : s.exchange = .stopping → s.session.done = true
  hello : ∀ call, s.exchange = .hello call → Candidate s.session call.next ∧ KnowsPeer c who call.next ∧
    lib.parseCertificate call.next.localCert.raw = some call.next.localCert
  agreed : ∀ call t rest, s.exchange = .agreed call t rest → Agreed c who s.session call t rest

variable {rest : List Action} {kind : Kind}

theorem tail_script {x : Action} (h : x :: rest ∈ (script who).tails) : rest ∈ (script who).tails :=
  (List.mem_tails _ _).mpr ((List.suffix_cons x rest).trans ((List.mem_tails _ _).mp h))

/-- A side confirms its commit only after it, and never confirms the commit of the other. -/
theorem script_send (h : Action.send kind :: rest ∈ (script who).tails) :
    (kind = confirmation who → Action.commit ∉ rest) ∧ kind ≠ confirmation (!who) := by
  have hAll : ∀ who, ∀ l ∈ (script who).tails, ∀ kind ∈ [Kind.clientProof, .serverProof, .clientCommit,
      .serverCommitted, .clientDone], l.head? = some (.send kind) →
      (kind = confirmation who → Action.commit ∉ l.tail) ∧ kind ≠ confirmation (!who) := by decide
  exact hAll who _ h kind (by cases kind <;> decide) rfl

/-- The client commits after the confirmation of the server, the server before that of the client. -/
theorem script_commit (h : Action.commit :: rest ∈ (script who).tails) :
    Action.commit ∉ rest ∧ (Action.receive (confirmation (!who)) ∈ rest ↔ who = true) := by
  have hAll : ∀ who, ∀ l ∈ (script who).tails, l.head? = some .commit →
      Action.commit ∉ l.tail ∧ (Action.receive (confirmation (!who)) ∈ l.tail ↔ who = true) := by decide
  exact hAll who _ h rfl

theorem script_close (h : Action.close :: rest ∈ (script who).tails) : rest = [] := by
  have hAll : ∀ who, ∀ l ∈ (script who).tails, l.head? = some .close → l.tail = [] := by decide
  exact hAll who _ h rfl

namespace SideInv

variable {s : Side} {call : Call} {t : Transcript} {rest : List Action}

section

variable (h : SideInv c who s)
include h

theorem withExchange (e : Exchange) (hStopping : e = .stopping → s.session.done = true := by rintro ⟨⟩)
    (hHello : ∀ call, e = .hello call → Candidate s.session call.next ∧ KnowsPeer c who call.next ∧
      lib.parseCertificate call.next.localCert.raw = some call.next.localCert := by rintro _ ⟨⟩)
    (hAgreed : ∀ call t rest, e = .agreed call t rest → Agreed c who s.session call t rest := by rintro _ _ _ ⟨⟩) :
    SideInv c who { s with exchange := e } :=
  { h with stopping := hStopping, hello := hHello, agreed := hAgreed }

theorem done : SideInv c who { s with session := { s.session with done := true } } :=
  { h with
    failed := fun _ => rfl
    stopping := fun _ => rfl
    hello := fun call hEq => ⟨{ (h.hello call hEq).1 with }, (h.hello call hEq).2⟩
    agreed := fun call t rest hEq =>
      { h.agreed call t rest hEq with before := fun hMem => { (h.agreed call t rest hEq).before hMem with } } }

theorem prepare (nonce : Bytes)
    (hNext : s.session.prepareRenewal lib m now = some next) :
    SideInv c who { s with exchange := .hello ⟨next, m.key, s.session.expiry, nonce⟩ } := by
  obtain ⟨hCandidate, hLocal, hPeer, _⟩ := prepareRenewal_spec hNext
  refine h.withExchange _ (by rintro ⟨⟩) ?_ (by rintro _ _ _ ⟨⟩)
  rintro call ⟨⟩
  refine ⟨hCandidate, ?_, ?_⟩
  · unfold KnowsPeer
    rw [hPeer]
    exact h.peer
  · rw [hLocal]
    exact m.parsed

theorem accept (hExchange : s.exchange = .hello call)
    (hNext : s.session.acceptHello lib call.next call.nonce call.originalDeadline peer now = some next) :
    SideInv c who
      { s with
        exchange := .agreed { call with next := next }
          (.of who (Session.greet lib call.next call.nonce) peer c.binding) (script who) } := by
  obtain ⟨hCandidate, hPeer, hParsed⟩ := h.hello call hExchange
  obtain ⟨certificate, rfl, hGeneration, hCrl, hMinimum, hCertificate, hHolder⟩ := acceptHello_spec hNext
  obtain ⟨hOwn, hOther, hBinding⟩ :=
    Transcript.hello_of who (Session.greet lib call.next call.nonce) peer c.binding
  have hBoth : ∀ P : Hello → Prop, P (Session.greet lib call.next call.nonce) → P peer → ∀ side,
      P ((Transcript.of who (Session.greet lib call.next call.nonce) peer c.binding).hello side) := by
    intro P hGreet hPeer side
    cases who <;> cases side <;> assumption
  refine h.withExchange _ (by rintro ⟨⟩) (by rintro _ ⟨⟩) ?_
  rintro _ _ _ ⟨⟩
  exact
    { script := (List.mem_tails _ _).mpr List.suffix_rfl
      presented :=
        { binding := hBinding
          parsed := hParsed
          own := by rw [hOwn]; exact ⟨rfl, rfl⟩
          generation := by rw [hOther]; exact hGeneration
          certificate := by rw [hOther]; exact hCertificate
          crl := hBoth (fun hello => hello.crl = lib.sha256 call.next.crl.raw) rfl hCrl
          minimumCRL := hBoth (fun hello => hello.minimumCRL = call.next.profile.minimumCRL) rfl hMinimum }
      peer := by
        unfold KnowsPeer
        rw [← hHolder]
        exact hPeer
      before := fun _ => ⟨hCandidate.generation, { hCandidate.successor with }⟩
      after := fun hNot => absurd (by cases who <;> decide) hNot }

theorem advance {x : Action} (hExchange : s.exchange = .agreed call t (x :: rest))
    (hx : x ≠ .commit) : SideInv c who { s with exchange := .agreed call t rest } := by
  have hAgreed := h.agreed call t _ hExchange
  refine h.withExchange _ (by rintro ⟨⟩) (by rintro _ ⟨⟩) ?_
  rintro _ _ _ ⟨⟩
  refine
    { hAgreed with
      script := tail_script hAgreed.script
      before := fun hMem => hAgreed.before (.tail _ hMem)
      after := fun hNot => hAgreed.after ?_ }
  rw [List.mem_cons, not_or]
  exact ⟨hx.symm, hNot⟩

theorem commit (ok : Bool) (hExchange : s.exchange = .agreed call t (.commit :: rest))
    (hExpiry : s.session.expiry < call.next.expiry) :
    SideInv c who
      { s with
        session := committed s.session call.next t
        exchange := if ok then .agreed call t rest else .failing } := by
  have hAgreed := h.agreed call t _ hExchange
  have hCandidate := hAgreed.before (.head _)
  have hGeneration : call.next.generation = s.session.commits.length + 1 := by
    rw [hCandidate.generation, h.generation]
  -- The calls of the old session say nothing about the new one, so the exchange is set last.
  have hIdle : SideInv c who { s with session := committed s.session call.next t, exchange := .idle } :=
    { numbered := ⟨hGeneration, h.numbered⟩
      generation := hGeneration
      latest := by
        intro k hk
        cases hk
        exact ⟨rfl, rfl⟩
      sound := by
        exact List.forall_mem_cons.mpr ⟨⟨hAgreed.presented, hExpiry, hCandidate.successor⟩, h.sound⟩
      peer := hAgreed.peer
      failed := h.failed
      stopping := fun hEq => by cases hEq
      hello := fun _ hEq => by cases hEq
      agreed := fun _ _ _ hEq => by cases hEq }
  cases ok with
  | false => exact hIdle.withExchange .failing
  | true =>
    refine hIdle.withExchange (.agreed call t rest) (by rintro ⟨⟩) (by rintro _ ⟨⟩) ?_
    rintro _ _ _ ⟨⟩
    exact
      { hAgreed with
        script := tail_script hAgreed.script
        before := fun hMem => absurd hMem (script_commit hAgreed.script).1
        after := fun _ => ⟨_, rfl, rfl⟩ }

end

end SideInv

/-! ## Both sides -/

namespace Pair

def Committed (p : Pair) (who : Bool) (t : Transcript) : Prop := ∃ k ∈ (p.side who).session.commits, k.transcript = t

/-- No two transcripts of the run have the same digest. -/
def CollisionFree (lib : Library) (p : Pair) : Prop :=
  ∀ t ∈ p.transcripts, ∀ t' ∈ p.transcripts, lib.digest t = lib.digest t' → t = t'

/-- The server has not committed more than the client, unless its session is about to end or its call
still waits for the client. -/
def Level (server : Side) (clientCommits : Nat) : Prop :=
  server.session.commits.length ≤ clientCommits ∨ server.session.done = true ∨ server.exchange = .failing ∨
    ∃ call t rest, server.exchange = .agreed call t rest ∧ Action.commit ∉ rest ∧ Action.receive .clientDone ∈ rest

structure Inv (c : Connection lib) (p : Pair) : Prop where
  side : ∀ who, SideInv c who (p.side who)
  formed : ∀ who call t rest, (p.side who).exchange = .agreed call t rest → t ∈ p.transcripts
  signed : ∀ key m, (key, m) ∈ p.signatures → ∃ kind, ∃ t ∈ p.transcripts, m = message lib kind t ∧
    ∀ who, kind = confirmation who → p.Committed who t
  confirmed : ∀ who call t rest, (p.side who).exchange = .agreed call t rest →
    Action.receive (confirmation (!who)) ∉ rest → p.Committed (!who) t
  follows : ∀ k ∈ (p.side false).session.commits, p.Committed true k.transcript
  level : Level (p.side true) (p.side false).session.commits.length
  lag : (p.side true).session.commits.length ≤ (p.side false).session.commits.length + 1

theorem put_same (p : Pair) (who : Bool) (s : Side) : (p.put who s).side who = s := by
  simp only [put, Function.update_self]

theorem put_other (p : Pair) (who : Bool) (s : Side) : (p.put who s).side (!who) = p.side (!who) := by
  simp only [put, Function.update_of_ne (Bool.not_ne_self who)]

theorem Level.mono {server : Side} {m n : Nat} (h : Level server m) (hLe : m ≤ n) : Level server n :=
  h.imp_left (·.trans hLe)

variable {s : Side} {signatures : List (Key × Bytes)} {transcripts : List Transcript}

structure Move (c : Connection lib) (p : Pair) (who : Bool) (s : Side) (signatures : List (Key × Bytes))
    (transcripts : List Transcript) : Prop where
  side : SideInv c who s
  commits : (p.side who).session.commits <:+ s.session.commits
  formedBefore : p.transcripts ⊆ transcripts
  formed : ∀ call t rest, s.exchange = .agreed call t rest → t ∈ transcripts
  signed : ∀ key m, (key, m) ∈ signatures → (key, m) ∈ p.signatures ∨ ∃ kind, ∃ t ∈ transcripts,
    m = message lib kind t ∧ kind ≠ confirmation (!who) ∧
      (kind = confirmation who → ∃ k ∈ s.session.commits, k.transcript = t)
  confirmed : ∀ call t rest, s.exchange = .agreed call t rest → Action.receive (confirmation (!who)) ∉ rest →
    p.Committed (!who) t
  follows : who = false → ∀ k ∈ s.session.commits, p.Committed true k.transcript
  level : who = true → Level s (p.side false).session.commits.length ∧
    s.session.commits.length ≤ (p.side false).session.commits.length + 1

section

variable (h : p.Inv c)
include h

theorem Inv.move (hMove : Move c p who s signatures transcripts) :
    Inv c { p.put who s with signatures := signatures, transcripts := transcripts } := by
  have hSame : (p.put who s).side who = s := put_same p who s
  have hOther : (p.put who s).side (!who) = p.side (!who) := put_other p who s
  have hSides : ∀ side, side = who ∨ side = !who := by cases who <;> decide
  have hKept : ∀ {side t}, p.Committed side t → (p.put who s).Committed side t := by
    rintro side t ⟨k, hk, rfl⟩
    rcases hSides side with rfl | rfl
    · exact ⟨k, by rw [hSame]; exact hMove.commits.subset hk, rfl⟩
    · exact ⟨k, by rw [hOther]; exact hk, rfl⟩
  constructor
  case side =>
    intro side
    change SideInv c side ((p.put who s).side side)
    rcases hSides side with rfl | rfl
    · rw [hSame]
      exact hMove.side
    · rw [hOther]
      exact h.side _
  case formed =>
    intro side call t rest hEq
    change ((p.put who s).side side).exchange = _ at hEq
    rcases hSides side with rfl | rfl
    · exact hMove.formed call t rest (hSame ▸ hEq)
    · exact hMove.formedBefore (h.formed _ call t rest (hOther ▸ hEq))
  case signed =>
    intro key m hMem
    rcases hMove.signed key m hMem with hOld | ⟨kind, t, ht, rfl, hNot, hOwn⟩
    · obtain ⟨kind, t, ht, hm, hCommitted⟩ := h.signed key m hOld
      exact ⟨kind, t, hMove.formedBefore ht, hm, fun side hKind => hKept (hCommitted side hKind)⟩
    · refine ⟨kind, t, ht, rfl, ?_⟩
      intro side hKind
      rcases hSides side with rfl | rfl
      · obtain ⟨k, hk, hEq⟩ := hOwn hKind
        exact ⟨k, (congrArg (·.session.commits) hSame).symm ▸ hk, hEq⟩
      · exact absurd hKind hNot
  case confirmed =>
    intro side call t rest hEq hNot
    change ((p.put who s).side side).exchange = _ at hEq
    rcases hSides side with rfl | rfl
    · exact hKept (hMove.confirmed call t rest (hSame ▸ hEq) hNot)
    · exact hKept (h.confirmed _ call t rest (hOther ▸ hEq) hNot)
  case follows =>
    intro k hk
    change k ∈ ((p.put who s).side false).session.commits at hk
    cases who with
    | false => exact hKept (hMove.follows rfl k (hSame ▸ hk))
    | true => exact hKept (h.follows k (hOther ▸ hk))
  case level =>
    change Level ((p.put who s).side true) ((p.put who s).side false).session.commits.length
    cases who with
    | false =>
      rw [hSame, show (p.put false s).side true = p.side true from hOther]
      exact h.level.mono hMove.commits.length_le
    | true =>
      rw [hSame, show (p.put true s).side false = p.side false from hOther]
      exact (hMove.level rfl).1
  case lag =>
    change ((p.put who s).side true).session.commits.length ≤ ((p.put who s).side false).session.commits.length + 1
    cases who with
    | false =>
      rw [hSame, show (p.put false s).side true = p.side true from hOther]
      exact h.lag.trans (Nat.succ_le_succ hMove.commits.length_le)
    | true =>
      rw [hSame, show (p.put true s).side false = p.side false from hOther]
      exact (hMove.level rfl).2

theorem Inv.quiet (hSide : SideInv c who s) (hCommits : s.session.commits = (p.side who).session.commits)
    (hAgreed : ∀ call t rest, s.exchange = .agreed call t rest →
      t ∈ p.transcripts ∧ (Action.receive (confirmation (!who)) ∉ rest → p.Committed (!who) t))
    (hLevel : who = true → Level s (p.side false).session.commits.length) : Inv c (p.put who s) :=
  have hMove : Move c p who s p.signatures p.transcripts :=
    { side := hSide
      commits := hCommits ▸ List.suffix_rfl
      formedBefore := List.Subset.refl _
      formed := fun call t rest hEq => (hAgreed call t rest hEq).1
      signed := fun _ _ hMem => .inl hMem
      confirmed := fun call t rest hEq => (hAgreed call t rest hEq).2
      follows := by
        rintro rfl k hk
        exact h.follows k (hCommits ▸ hk)
      level := by
        rintro rfl
        exact ⟨hLevel rfl, hCommits ▸ h.lag⟩ }
  h.move hMove

theorem Inv.settled (hFailing : (p.side true).exchange ≠ .failing)
    (hWaiting : ∀ call t rest, (p.side true).exchange = .agreed call t rest → Action.receive .clientDone ∉ rest) :
    (p.side true).session.commits.length ≤ (p.side false).session.commits.length ∨
      (p.side true).session.done = true := by
  rcases h.level with hLe | hDone | hEq | ⟨call, t, rest, hEq, _, hMem⟩
  · exact .inl hLe
  · exact .inr hDone
  · exact absurd hEq hFailing
  · exact absurd hMem (hWaiting call t rest hEq)

/-- A proof that was accepted was made for the same transcript, by a party that had committed if it
says so. -/
theorem Inv.proven (hFree : p.CollisionFree lib) {t : Transcript} {key : Key}
    (ht : t ∈ p.transcripts) (hBinding : t.binding = c.binding) (hKey : key = (c.material (!who)).key)
    (hSigned : Signed c p key (message lib kind t)) (hKind : kind = confirmation (!who)) : p.Committed (!who) t := by
  rcases hSigned with hMem | hElsewhere
  · obtain ⟨kind', t', ht', hEq, hCommitted⟩ := h.signed key _ hMem
    obtain ⟨rfl, hDigest⟩ := renewalProof_injective hEq
    rw [hFree t ht t' ht' hDigest]
    exact hCommitted _ hKind
  · rw [hKey] at hElsewhere
    exact absurd hElsewhere (c.exclusive (!who) kind t hBinding)

variable {call : Call} {t : Transcript} {rest : List Action}

theorem Inv.hello (hExchange : (p.side who).exchange = .hello call)
    (hNext : (p.side who).session.acceptHello lib call.next call.nonce call.originalDeadline peer now = some next)
    (ht : t = .of who (Session.greet lib call.next call.nonce) peer c.binding) :
    Inv c
      { p.put who { p.side who with exchange := .agreed { call with next := next } t (script who) } with
        transcripts := t :: p.transcripts } := by
  subst ht
  refine h.move
    { side := (h.side who).accept hExchange hNext
      commits := List.suffix_rfl
      formedBefore := List.subset_cons_self _ _
      formed := ?_
      signed := fun _ _ hMem => .inl hMem
      confirmed := ?_
      follows := ?_
      level := ?_ }
  · rintro _ _ _ ⟨⟩
    exact .head _
  · rintro _ _ _ ⟨⟩ hNot
    exact absurd (by cases who <;> decide) hNot
  · rintro rfl
    exact h.follows
  · rintro rfl
    refine ⟨(h.settled ?_ ?_).imp_right .inl, h.lag⟩
    · rw [hExchange]
      rintro ⟨⟩
    · rw [hExchange]
      rintro _ _ _ ⟨⟩

theorem Inv.send (hExchange : (p.side who).exchange = .agreed call t (.send kind :: rest)) :
    Inv c
      { p.put who { p.side who with exchange := .agreed call t rest } with
        signatures := (call.key, message lib kind t) :: p.signatures } := by
  have hAgreed := (h.side who).agreed call t _ hExchange
  obtain ⟨hAfter, hNotOther⟩ := script_send hAgreed.script
  refine h.move
    { side := (h.side who).advance hExchange (by rintro ⟨⟩)
      commits := List.suffix_rfl
      formedBefore := List.Subset.refl _
      formed := ?_
      signed := ?_
      confirmed := ?_
      follows := ?_
      level := ?_ }
  · rintro _ _ _ ⟨⟩
    exact h.formed who call t _ hExchange
  · intro key m hMem
    rcases List.mem_cons.mp hMem with hEq | hMem
    · cases hEq
      refine .inr ⟨kind, t, h.formed who call t _ hExchange, rfl, hNotOther, ?_⟩
      intro hOwn
      have hNot : Action.commit ∉ Action.send kind :: rest := by
        exact List.not_mem_cons_of_ne_of_not_mem (by rintro ⟨⟩) (hAfter hOwn)
      obtain ⟨k, hHead, hEq⟩ := hAgreed.after hNot
      exact ⟨k, List.mem_of_mem_head? hHead, hEq⟩
    · exact .inl hMem
  · rintro _ _ _ ⟨⟩ hNot
    refine h.confirmed who call t _ hExchange ?_
    exact List.not_mem_cons_of_ne_of_not_mem (by rintro ⟨⟩) hNot
  · rintro rfl
    exact h.follows
  · rintro rfl
    refine ⟨?_, h.lag⟩
    rcases h.level with hLe | hDone | hEq | ⟨_, _, _, hEq, hCommit, hMem⟩
    · exact .inl hLe
    · exact .inr (.inl hDone)
    · rw [hExchange] at hEq
      cases hEq
    · rw [hExchange] at hEq
      cases hEq
      rw [List.mem_cons, not_or] at hCommit
      refine .inr (.inr (.inr ⟨call, t, rest, rfl, hCommit.2, ?_⟩))
      exact (List.mem_cons.mp hMem).resolve_left (by rintro ⟨⟩)

theorem Inv.receive (hFree : p.CollisionFree lib) {key : Key}
    (hExchange : (p.side who).exchange = .agreed call t (.receive kind :: rest))
    (hKey : lib.publicKey call.next.peer.rawSubjectPublicKeyInfo = some key)
    (hSigned : Signed c p key (message lib kind t)) :
    Inv c (p.put who { p.side who with exchange := .agreed call t rest }) := by
  have hAgreed := (h.side who).agreed call t _ hExchange
  have hFormed := h.formed who call t _ hExchange
  have hPeer : key = (c.material (!who)).key := Option.some.inj (hKey.symm.trans hAgreed.peer)
  have hConfirmed : Action.receive (confirmation (!who)) ∉ rest → p.Committed (!who) t := by
    intro hNot
    by_cases hKind : kind = confirmation (!who)
    · exact h.proven hFree hFormed hAgreed.presented.binding hPeer hSigned hKind
    · refine h.confirmed who call t _ hExchange ?_
      rw [List.mem_cons, not_or]
      exact ⟨fun hEq => hKind (Action.receive.inj hEq).symm, hNot⟩
  refine h.quiet ((h.side who).advance hExchange (by rintro ⟨⟩)) rfl ?_ ?_
  · rintro _ _ _ ⟨⟩
    exact ⟨hFormed, hConfirmed⟩
  · rintro rfl
    rcases h.level with hLe | hDone | hEq | ⟨_, _, _, hEq, hCommit, hMem⟩
    · exact .inl hLe
    · exact .inr (.inl hDone)
    · rw [hExchange] at hEq
      cases hEq
    · rw [hExchange] at hEq
      cases hEq
      by_cases hWaits : Action.receive .clientDone ∈ rest
      · rw [List.mem_cons, not_or] at hCommit
        exact .inr (.inr (.inr ⟨call, t, rest, rfl, hCommit.2, hWaits⟩))
      · -- The client has confirmed the newest commit of the server, so it has caught up.
        obtain ⟨k, hk, hTranscript⟩ := hConfirmed hWaits
        obtain ⟨newest, hHead, hSame⟩ := hAgreed.after hCommit
        have hOwn := (h.side true).sound newest (List.mem_of_mem_head? hHead)
        have hTheirs := (h.side false).sound k hk
        have hGeneration : k.next.generation = newest.next.generation := by
          have hPresented := hTheirs.presented
          rw [hTranscript, ← hSame] at hPresented
          exact (hPresented.agree hOwn.presented).generation
        have hLatest := (h.side true).latest newest hHead
        have hCount := (h.side true).generation
        rw [hLatest.1, ← hGeneration] at hCount
        exact .inl (hCount ▸ (h.side false).numbered.le hk)

theorem Inv.fail (hSide : SideInv c who { s with exchange := .failing })
    (hCommits : s.session.commits = (p.side who).session.commits) : Inv c (p.put who { s with exchange := .failing }) :=
  h.quiet hSide hCommits (by rintro _ _ _ ⟨⟩) fun _ => .inr (.inr (.inl rfl))

theorem Inv.commit {ok : Bool} (hExchange : (p.side who).exchange = .agreed call t (.commit :: rest))
    (hResult : CommitResult (p.side who).session call.next t session ok) :
    Inv c (p.put who
      { p.side who with session := session, exchange := if ok then .agreed call t rest else .failing }) := by
  have hSide := h.side who
  have hFailing : ∀ {s : Side}, SideInv c who s → SideInv c who { s with exchange := .failing } := by
    intro s hs
    exact hs.withExchange _
  cases hResult with
  | rejected => exact h.fail (hFailing hSide) rfl
  | stopped => exact h.fail (hFailing hSide.done) rfl
  | committed _ hAlive _ hExpiry =>
    have hAgreed := hSide.agreed call t _ hExchange
    obtain ⟨hOnce, hConfirmation⟩ := script_commit hAgreed.script
    have hConfirmed : who = false → p.Committed true t := by
      rintro rfl
      refine h.confirmed false call t _ hExchange ?_
      exact List.not_mem_cons_of_ne_of_not_mem (by rintro ⟨⟩) (fun hMem => by cases hConfirmation.mp hMem)
    have hMove : Move c p who _ p.signatures p.transcripts :=
      { side := hSide.commit ok hExchange hExpiry
        commits := List.suffix_cons _ _
        formedBefore := List.Subset.refl _
        formed := by
          intro call' t' rest' hEq
          cases ok with
          | false => cases hEq
          | true =>
            cases hEq
            exact h.formed who call t _ hExchange
        signed := fun _ _ hMem => .inl hMem
        confirmed := by
          intro call' t' rest' hEq hNot
          cases ok with
          | false => cases hEq
          | true =>
            cases hEq
            cases who with
            | false => exact hConfirmed rfl
            | true => exact absurd (hConfirmation.mpr rfl) hNot
        follows := by
          rintro rfl k hk
          rcases List.mem_cons.mp hk with rfl | hk
          · exact hConfirmed rfl
          · exact h.follows k hk
        level := by
          rintro rfl
          have hLe : (p.side true).session.commits.length ≤ (p.side false).session.commits.length := by
            rcases h.level with hLe | hDone | hEq | ⟨_, _, _, hEq, hNot, _⟩
            · exact hLe
            · rw [hAlive] at hDone
              cases hDone
            · rw [hExchange] at hEq
              cases hEq
            · rw [hExchange] at hEq
              cases hEq
              exact absurd (.head _) hNot
          refine ⟨?_, Nat.succ_le_succ hLe⟩
          cases ok with
          | false => exact .inr (.inr (.inl rfl))
          | true => exact .inr (.inr (.inr ⟨call, t, rest, rfl, hOnce, hConfirmation.mpr rfl⟩)) }
    exact h.move hMove

theorem Inv.step (hFree : p.CollisionFree lib) (hStep : Step c p p') : p'.Inv c := by
  cases hStep with
  | prepare who m nonce now hIdle hNext =>
    refine h.quiet ((h.side who).prepare nonce hNext) rfl (by rintro _ _ _ ⟨⟩) ?_
    rintro rfl
    refine (h.settled ?_ ?_).imp_right .inl
    · rw [hIdle]
      rintro ⟨⟩
    · rw [hIdle]
      rintro _ _ _ ⟨⟩
  | hello who peer now hExchange hNext hKey => exact h.hello hExchange hNext rfl
  | send who hExchange => exact h.send hExchange
  | receive who hExchange hKey hSigned => exact h.receive hFree hExchange hKey hSigned
  | commit who guard ended endedLater deadlinesSet now later hExchange hResult =>
    exact h.commit hExchange (commitRenewal_spec _ _ _ _ _ _ _ _ _ hResult)
  | close who hExchange =>
    have hLast := script_close ((h.side who).agreed _ _ _ hExchange).script
    refine h.quiet ((h.side who).withExchange _) rfl
      (by rintro _ _ _ ⟨⟩) ?_
    rintro rfl
    refine (h.settled ?_ ?_).imp_right .inl
    · rw [hExchange]
      rintro ⟨⟩
    · rw [hExchange, hLast]
      rintro _ _ _ ⟨⟩
      decide
  | fail who hBusy hStopping =>
    exact h.fail ((h.side who).withExchange _) rfl
  | stop who hExchange =>
    refine h.quiet ((h.side who).done.withExchange _ fun _ => rfl) rfl
      (by rintro _ _ _ ⟨⟩) ?_
    exact fun _ => .inr (.inl rfl)
  | returned who hExchange =>
    have hDone := (h.side who).stopping hExchange
    have hIdle := (h.side who).withExchange .idle
    refine h.quiet { hIdle with failed := fun _ => hDone } rfl (by rintro _ _ _ ⟨⟩) ?_
    rintro rfl
    exact .inr (.inl hDone)
  | streamDone who =>
    refine h.quiet (h.side who).done rfl ?_ fun _ => .inr (.inl rfl)
    intro call t rest hEq
    exact ⟨h.formed who call t rest hEq, h.confirmed who call t rest hEq⟩

end

theorem inv_opened (c : Connection lib) : Inv c (opened c) where
  side who :=
    { numbered := trivial
      generation := rfl
      latest := fun _ hEq => by cases hEq
      sound := fun _ hk => by cases hk
      peer := (c.material (!who)).keyPair
      failed := fun hLt => absurd hLt (Nat.lt_irrefl 0)
      stopping := fun hEq => by cases hEq
      hello := fun _ hEq => by cases hEq
      agreed := fun _ _ _ hEq => by cases hEq }
  formed _ _ _ _ hEq := by cases hEq
  signed _ _ hMem := by cases hMem
  confirmed _ _ _ _ hEq := by cases hEq
  follows _ hk := by cases hk
  level := .inl le_rfl
  lag := Nat.le_succ 0

theorem Step.transcripts_subset (h : Step c p p') : p.transcripts ⊆ p'.transcripts := by
  cases h with
  | hello => exact List.subset_cons_self _ _
  | _ => exact List.Subset.refl _

end Pair

theorem renewal_inv (h : (renewalSystem c).Reachable p) (hFree : p.CollisionFree lib) : p.Inv c := by
  refine System.Reachable.invariant (I := fun p => p.CollisionFree lib → p.Inv c) ?_ ?_ h hFree
  · rintro p rfl _
    exact Pair.inv_opened c
  · intro p p' _ ih hStep hFree'
    have hSubset := Pair.Step.transcripts_subset hStep
    have hBefore : p.CollisionFree lib := fun t ht t' ht' => hFree' t (hSubset ht) t' (hSubset ht')
    exact (ih hBefore).step hBefore hStep

namespace Pair

/-- What a step does to a session: nothing, or a commit. A commit of the client comes after that of the
server for the same transcript, and the two then agree. -/
inductive Change (lib : Library) (p p' : Pair) (who : Bool) : Prop where
  | none : (p'.side who).session.renewal = (p.side who).session.renewal →
      (p'.side who).session.expiry = (p.side who).session.expiry → Change lib p p' who
  | commit (t : Transcript) :
      (p'.side who).session.renewal.generation = (p.side who).session.renewal.generation + 1 →
      (p.side who).session.expiry < (p'.side who).session.expiry →
      Successor (p.side who).session.renewal (p'.side who).session.renewal →
      p'.Committed who t →
      (who = false → p.Committed true t ∧ p'.side true = p.side true ∧
        Agree lib (p'.side false).session.renewal (p.side true).session.renewal) →
      Change lib p p' who

theorem Change.of_put {s : Side} (side who : Bool) (hPut : p'.side = (p.put who s).side)
    (hRenewal : s.session.renewal = (p.side who).session.renewal)
    (hExpiry : s.session.expiry = (p.side who).session.expiry) : Change lib p p' side := by
  have hSides : side = who ∨ side = !who := by cases side <;> cases who <;> decide
  rcases hSides with rfl | rfl
  · refine .none ?_ ?_
    · rw [hPut, put_same, hRenewal]
    · rw [hPut, put_same, hExpiry]
  · refine .none ?_ ?_
    · rw [hPut, put_other]
    · rw [hPut, put_other]

/-- When the server has committed for a transcript the client is about to commit for, it is there still. -/
theorem Inv.server_current (h : p.Inv c) {call : Call} {t : Transcript}
    (hAgreed : Agreed c false (p.side false).session call t rest) (hPending : Action.commit ∈ rest)
    (hCommitted : p.Committed true t) : Agree lib call.next (p.side true).session.renewal := by
  obtain ⟨k, hk, rfl⟩ := hCommitted
  have hAgree := hAgreed.presented.agree ((h.side true).sound k hk).presented
  have hNewest : (p.side true).session.commits.head? = some k := by
    refine (h.side true).numbered.newest hk (h.lag.trans ?_)
    rw [← hAgree.generation, (hAgreed.before hPending).generation, (h.side false).generation]
  rw [((h.side true).latest k hNewest).1]
  exact hAgree

theorem Inv.change (h : p.Inv c) (hStep : Step c p p') (side : Bool) : Change lib p p' side := by
  cases hStep with
  | commit who guard ended endedLater deadlinesSet now later hExchange hResult =>
    rename_i call t rest session ok
    cases commitRenewal_spec _ _ _ _ _ _ _ _ _ hResult with
    | rejected | stopped => exact .of_put side who rfl rfl rfl
    | committed _ _ _ hExpiry =>
      have hSides : side = who ∨ side = !who := by cases side <;> cases who <;> decide
      rcases hSides with rfl | rfl
      · have hAgreed := (h.side side).agreed _ _ _ hExchange
        have hCandidate := hAgreed.before (.head _)
        refine .commit t ?_ ?_ ?_ ?_ ?_
        · rw [put_same]
          exact hCandidate.generation
        · rw [put_same]
          exact hExpiry
        · rw [put_same]
          exact hCandidate.successor
        · unfold Committed
          rw [put_same]
          exact ⟨_, .head _, rfl⟩
        · rintro rfl
          have hCommitted : p.Committed true t := by
            refine h.confirmed false _ _ _ hExchange ?_
            exact List.not_mem_cons_of_ne_of_not_mem (by rintro ⟨⟩)
              (fun hMem => by cases (script_commit hAgreed.script).2.mp hMem)
          refine ⟨hCommitted, put_other p false _, ?_⟩
          rw [put_same]
          exact h.server_current hAgreed (.head _) hCommitted
      · refine .none ?_ ?_
        · rw [put_other]
        · rw [put_other]
  | _ => exact .of_put side _ rfl rfl rfl

end Pair

/-- In every reachable state, as long as no two of its transcripts collide under the hash: the server is
level with the client or one generation ahead; every commit of the client is one of the server for the same
transcript, and the two committed states agree, as do the current ones at equal generations; every step
of either side keeps its state or is a commit, which makes its deadline later and takes back nothing; and a call that
failed after its candidate was prepared has stopped its session. -/
theorem renewal_agreement (h : (renewalSystem c).Reachable p) (hFree : p.CollisionFree lib) :
    ((p.side false).session.renewal.generation ≤ (p.side true).session.renewal.generation ∧
      (p.side true).session.renewal.generation ≤ (p.side false).session.renewal.generation + 1) ∧
    (∀ k ∈ (p.side false).session.commits, ∃ k' ∈ (p.side true).session.commits,
      k'.transcript = k.transcript ∧ Agree lib k.next k'.next) ∧
    ((p.side false).session.renewal.generation = (p.side true).session.renewal.generation →
      0 < (p.side false).session.renewal.generation →
      Agree lib (p.side false).session.renewal (p.side true).session.renewal) ∧
    (∀ p' who, Pair.Step c p p' → Pair.Change lib p p' who) ∧
    (∀ who, ∀ k ∈ (p.side who).session.commits, k.previousExpiry < k.expiry ∧ Successor k.previous k.next) ∧
    ∀ who, 0 < (p.side who).failures → (p.side who).session.done = true := by
  have hInv := renewal_inv h hFree
  have hShared : ∀ k ∈ (p.side false).session.commits, ∃ k' ∈ (p.side true).session.commits,
      k'.transcript = k.transcript ∧ Agree lib k.next k'.next := by
    intro k hk
    obtain ⟨k', hk', hEq⟩ := hInv.follows k hk
    have hServer := ((hInv.side true).sound k' hk').presented
    rw [hEq] at hServer
    exact ⟨k', hk', hEq, ((hInv.side false).sound k hk).presented.agree hServer⟩
  -- The newest commit of the client is a commit of the server.
  have hNewest : ∀ k, (p.side false).session.commits.head? = some k → ∃ k' ∈ (p.side true).session.commits,
      Agree lib (p.side false).session.renewal k'.next := by
    intro k hHead
    obtain ⟨k', hk', _, hAgree⟩ := hShared k (List.mem_of_mem_head? hHead)
    exact ⟨k', hk', ((hInv.side false).latest k hHead).1 ▸ hAgree⟩
  have hHead : 0 < (p.side false).session.renewal.generation →
      ∃ k, (p.side false).session.commits.head? = some k := by
    intro hPos
    rw [(hInv.side false).generation] at hPos
    exact ⟨_, List.head?_eq_some_head (List.ne_nil_of_length_pos hPos)⟩
  refine ⟨⟨?_, ?_⟩, hShared, ?_, fun p' who hStep => hInv.change hStep who, ?_, fun who => (hInv.side who).failed⟩
  · rcases Nat.eq_zero_or_pos (p.side false).session.renewal.generation with hZero | hPos
    · exact hZero ▸ Nat.zero_le _
    obtain ⟨k, hk⟩ := hHead hPos
    obtain ⟨k', hk', hAgree⟩ := hNewest k hk
    rw [hAgree.generation, (hInv.side true).generation]
    exact (hInv.side true).numbered.le hk'
  · rw [(hInv.side false).generation, (hInv.side true).generation]
    exact hInv.lag
  · intro hEq hPos
    obtain ⟨k, hk⟩ := hHead hPos
    obtain ⟨k', hk', hAgree⟩ := hNewest k hk
    have hCurrent : (p.side true).session.commits.head? = some k' := by
      refine (hInv.side true).numbered.newest hk' ?_
      rw [← hAgree.generation, hEq, (hInv.side true).generation]
    rw [((hInv.side true).latest k' hCurrent).1]
    exact hAgree
  · intro who k hk
    have hSound := (hInv.side who).sound k hk
    exact ⟨hSound.expiry, hSound.successor⟩

/-! ## An exchange that completes -/

namespace Sample

def certificate (server : Bool) (issue : UInt8) : Certificate :=
  let role : UInt8 := if server then 1 else 0
  { raw := [role, issue]
    rawSubject := [role]
    rawSubjectPublicKeyInfo := List.replicate 32 role
    serialNumber := issue.toNat
    organizationalUnit :=
      ["protocol=".toList ++ protocol, "family=".toList ++ List.replicate 32 'f', "revision=1".toList,
        (if server then "role=gateway" else "role=device").toList]
    subjectSerialNumber := hexEncode (List.replicate 16 role)
    uris := [⟨"urn", identityMark ++ hexEncode (List.replicate 64 role), "urn"⟩]
    notBefore := 0
    notAfter := 100 * (issue.toNat + 1) }

def unary (n : Nat) : Bytes := List.replicate n 1 ++ [0]

/-- Every field says where it ends, so that no two greetings have the same bytes. -/
def helloBytes (h : Hello) : Bytes :=
  unary h.version ++ unary h.generation ++ unary (Encodable.encode h.minimumCRL) ++
    [h.nonce, h.certificate, h.crl].flatMap fun bytes => unary bytes.length ++ bytes

/-- Packages that know the certificates of one client and one server. -/
def packages : Library where
  parseCertificate raw :=
    match raw with
    | [role, issue] => some (certificate (role == 1) issue)
    | _ => none
  publicKey info := some info
  verifyChain _ _ _ _ := true
  sha256 bytes := bytes
  marshal t := helloBytes t.client ++ helloBytes t.server ++ t.binding

def profile (server : Bool) (issue : UInt8) : Material packages where
  profile :=
    { family := List.replicate 32 'f'
      gateway := hexEncode (List.replicate 16 1)
      minimumRevision := 1
      minimumCRL := 1 }
  localCert := certificate server issue
  authority := { certificate true 0 with notAfter := 1000 }
  crl := { raw := [issue], number := 1 + issue.toNat, thisUpdate := 0, nextUpdate := 500, revoked := [] }
  key := List.replicate 32 (if server then 1 else 0)
  parsed := by cases server <;> rfl
  keyPair := by cases server <;> rfl

def connection : Connection packages where
  material server := profile server 0
  binding := [7]
  elsewhere _ _ := False
  exclusive _ _ _ _ := not_false

end Sample

open Sample

/-- Both sides renew their certificates and the list; they then hold generation one and agree. -/
theorem renewal_agreement_exchange :
    ∃ p, (renewalSystem connection).Reachable p ∧ (p.side false).session.renewal.generation = 1 ∧
      Agree packages (p.side false).session.renewal (p.side true).session.renewal := by
  let nonce (server : Bool) : Bytes := List.replicate 32 (if server then 1 else 0)
  let issued (server : Bool) : RenewalState :=
    { (profile server 1).initialRenewalState (certificate (!server) 0) with generation := 1 }
  let accepted (server : Bool) : RenewalState := { issued server with peer := certificate (!server) 1 }
  let greeting (server : Bool) : Hello := Session.greet packages (issued server) (nonce server)
  let t : Transcript := ⟨greeting false, greeting true, [7]⟩
  let before (server : Bool) : Session := .opened server (profile server 0) (certificate (!server) 0)
  let after (server : Bool) : Session :=
    { before server with
      renewal := accepted server
      expiry := 200
      commits := [⟨t, (before server).renewal, accepted server, 100, 200⟩] }
  have hOpened : (renewalSystem connection).Reachable (.opened connection) := .start rfl
  have hPrepared := (hOpened.next (.prepare false (profile false 1) (nonce false) 5 rfl
    (by decide +kernel : _ = some (issued false)))).next (.prepare true (profile true 1) (nonce true) 5 rfl
    (by decide +kernel : _ = some (issued true)))
  have hAgreed := (hPrepared.next (.hello true (greeting false) 5 rfl
    (by decide +kernel : _ = some (accepted true)) rfl)).next (.hello false (greeting true) 5 rfl
    (by decide +kernel : _ = some (accepted false)) rfl)
  have hClientProof := (hAgreed.next (.send false rfl)).next (.receive true rfl rfl (.inl (.head _)))
  have hServerProof := (hClientProof.next (.send true rfl)).next (.receive false rfl rfl (.inl (.head _)))
  have hClientCommit := (hServerProof.next (.send false rfl)).next (.receive true rfl rfl (.inl (.head _)))
  have hServer := hClientCommit.next (.commit true .commit false false true 6 6 rfl
    (by decide +kernel : _ = (after true, true)))
  have hCommitted := (hServer.next (.send true rfl)).next (.receive false rfl rfl (.inl (.head _)))
  have hClient := hCommitted.next (.commit false .commit false false true 7 7 rfl
    (by decide +kernel : _ = (after false, true)))
  refine ⟨_, hClient, rfl, (renewal_agreement hClient ?_).2.2.1 rfl Nat.one_pos⟩
  -- Both sides put together the same transcript.
  intro t₁ h₁ t₂ h₂ _
  have hOne : ∀ t' ∈ [t, t], t' = t := by simp
  exact (hOne t₁ h₁).trans (hOne t₂ h₂).symm

end FamilyConnect.FamilySession
