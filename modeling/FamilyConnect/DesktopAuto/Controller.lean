import FamilyConnect.Lib.Clock
import FamilyConnect.Lib.Transition

/-!
# The automatic controller of the desktop client

Source: `carrier/desktopauto/controller.go`. `operation` is held by the one
operation in progress, whose place in the code is `point`: the next call of the
host, or the next section under `mu`. `Interrupt` takes only `mu` and can come
between any two of them. The elapsed time in an event is left out; it is only
reported.
-/

namespace FamilyConnect.DesktopAuto

open Lib

inductive State where
  | disconnected
  | connecting
  | connected
  | restoring
  | failed
  | disconnecting
  deriving DecidableEq

inductive Failure where
  | cancelled
  | auth
  | configuration
  | network
  | transportUnavailable
  | bootstrapUnavailable
  | internal
  deriving DecidableEq

inductive Candidate where
  | wg
  | awg
  | tcp
  | restricted
  | other (name : String)
  deriving DecidableEq

def normalTimeout : Duration := 20 * Duration.second
def restrictedTimeout : Duration := 200 * Duration.second
def connectTimeout : Duration := 300 * Duration.second
def configureTimeout : Duration := 30 * Duration.second
def recoveryBackoff : Duration := 30 * Duration.second
def maxRecoveryBackoff : Duration := 120 * Duration.second
def recoveryCooldown : Duration := 300 * Duration.second
def stableTraffic : Duration := 120 * Duration.second
def maxEvents : Nat := 128

structure Event where
  name : String
  candidate : Option Candidate
  category : Option Failure
  state : State
  deriving DecidableEq

structure Snapshot where
  generation : Nat := 0
  state : State
  selected : Option Candidate := none
  desiredConnected : Bool := false
  firstReason : Option Failure := none
  retryAtMS : Int := 0
  events : List Event := []
  eventsDropped : Nat := 0
  deriving DecidableEq

/-- An error, as far as `classify` looks at it. The category of a `Rejected` is `none` if it is not one of the
known ones. -/
structure HostError where
  rejected : Option (Option Failure × Bool) := none
  canceled : Bool := false
  certificate : Bool := false
  recordHeader : Bool := false
  network : Bool := false
  deriving DecidableEq

def HostError.reject (category : Failure) : HostError := { rejected := some (some category, false) }

def classify (failure : HostError) : Failure × Bool :=
  match failure.rejected with
  | some (some category, temporary) => (category, category = .bootstrapUnavailable && temporary)
  | _ =>
    if failure.canceled then (.cancelled, false)
    else if failure.certificate then (.auth, false)
    else if failure.recordHeader then (.configuration, false)
    else if failure.network then (.network, false)
    else (.internal, false)

def retryable (reason : Failure) : Bool := reason = .network || reason = .transportUnavailable

def pickAllowed : List Candidate → List Candidate → List Candidate
  | _, [] => []
  | allowed, candidate :: rest =>
    if candidate ∈ allowed then candidate :: pickAllowed (allowed.erase candidate) rest else pickAllowed allowed rest

/-- `Order`; the map `allowed` is the list of its keys. -/
def order (configured : List Candidate) (preferred lastGood : Candidate) : Except HostError (List Candidate) :=
  if configured.length > 32 then .error (.reject .configuration)
  else if configured.any (fun candidate => candidate ≠ .wg && candidate ≠ .awg && candidate ≠ .tcp) then
    .error (.reject .configuration)
  else
    let allowed := [Candidate.wg, .awg, .tcp].filter (· ∈ configured)
    .ok (pickAllowed allowed (lastGood :: preferred :: configured) ++ [.restricted])

/-- The variables of `run`: `rest` are the candidates after the current one. -/
structure Loop where
  restoring : Bool
  deadline : Duration
  index : Nat
  candidate : Candidate
  rest : List Candidate
  last : Failure
  temporary : Bool
  deriving DecidableEq

/-- Where `run` is with its current candidate. -/
inductive Stage where
  | enter
  | close
  | closed
  | network
  | fallback
  | wait (limit : Duration)
  | waitCheck (limit : Duration)
  | pause (limit : Duration)
  | ready
  | attempt
  | open (candidateDeadline : Duration)
  | opened (candidateDeadline : Duration)
  | remember (candidateDeadline : Duration)
  | remembered (candidateDeadline : Duration)
  | commit
  | failed (failure : HostError)
  | report
  | closeFailed
  deriving DecidableEq

/-- Where the operation in progress is; `idle` means that `operation` is free. -/
inductive Point where
  | idle
  | connectStart (preferred lastGood : Candidate)
  | configureCheck (preferred lastGood : Candidate) (deadline : Duration)
  | configure (preferred lastGood : Candidate) (deadline : Duration)
  | configured (preferred lastGood : Candidate) (deadline : Duration) (configured : List Candidate)
  | connectFailed (failure : HostError)
  | lost (reason : Option Failure)
  | lostReport (reason : Failure)
  | lostRestore (reason : Failure)
  | retryCheck
  | retryFailed (failure : HostError)
  | retryDue
  | retryStart
  | loop (l : Loop) (stage : Stage)
  | finish (reason : Failure) (restoring temporary : Bool)
  | settle (reason : Failure) (restoring temporary : Bool)
  | disconnect
  | disconnectClose
  | disconnectRelease
  | cleanupFailed
  | disconnected
  deriving DecidableEq

/-- The calls of the host that matter, and where a `run` begins. -/
inductive Call where
  | run
  | opened (candidate : Candidate)
  | closed (ok : Bool)
  | released (ok : Bool)
  deriving DecidableEq

structure Schedule where
  failedAt : Duration
  retryAt : Duration
  cooldown : Bool
  deriving DecidableEq

/-- What happened to the connection, besides the calls of the host. -/
inductive Mark where
  | accepted (generation : Nat)
  | connected
  | restore
  | retry (schedule : Option Schedule) (startedAt : Duration)
  | healthy (now : Duration)
  | unhealthy
  | stable (since now : Duration)
  deriving DecidableEq

/-- The controller. The fields from `clock` on are a record of the run: the last reading of the clock, the calls and
marks so far (newest first), the generations whose `Interrupt` returned nil, and the `Disconnect` calls that wait for
`operation`. -/
structure Controller where
  view : Snapshot := { state := .disconnected }
  interrupted : Option Failure := none
  ctxEnded : Bool := false
  state : State := .disconnected
  selected : Option Candidate := none
  generation : Nat := 0
  requested : Bool := false
  started : Duration := 0
  candidates : List Candidate := []
  restorations : Nat := 0
  failedSeries : Nat := 0
  bootstrapRecoveries : Nat := 0
  retryAt : Duration := 0
  retryReason : Option Failure := none
  healthySince : Duration := -1
  events : List Event := []
  dropped : Nat := 0
  firstReason : Option Failure := none
  point : Point := .idle
  clock : Duration := Duration.least
  calls : List Call := []
  marks : List Mark := []
  schedule : Option Schedule := none
  interrupts : List Nat := []
  disconnects : List Nat := []

def new (cleanupTimeout : Duration) : Option Controller :=
  if cleanupTimeout ≤ 0 ∨ cleanupTimeout > Duration.minute then none else some {}

/-- What the host answers to a call: a reading of the clock, the error of the call, the error of its bounded context
afterwards, and its other results. -/
structure Answer where
  now : Duration
  error : Option HostError := none
  bounded : Option HostError := none
  available : Bool := true
  configured : List Candidate := []
  jitter : Duration := 0
  deriving DecidableEq

def Answer.cleaned (a : Answer) : Bool := a.error.isNone && a.bounded.isNone

namespace Controller

variable (c : Controller)

def check (deadline now : Duration) : Option HostError :=
  match c.interrupted with
  | some reason => some (.reject reason)
  | none =>
    if c.ctxEnded then some (.reject .cancelled)
    else if deadline ≤ now then some (.reject .network)
    else none

def reason (failure : HostError) : Failure × Bool :=
  match c.interrupted with
  | some reason => (reason, false)
  | none => classify failure

@[simps]
def emit (name : String) (candidate : Option Candidate) (reason : Option Failure) : Controller :=
  let firstReason := c.firstReason.or reason
  let full := c.events.length = maxEvents
  let events := (if full then c.events.drop 1 else c.events) ++ [⟨name, candidate, reason, c.state⟩]
  let dropped := if full ∧ c.dropped < 2 ^ 64 - 1 then c.dropped + 1 else c.dropped
  { c with
    firstReason := firstReason
    events := events
    dropped := dropped
    view :=
      { generation := c.generation
        state := c.state
        selected := c.selected
        desiredConnected := c.requested && c.interrupted.isNone && !c.ctxEnded
        firstReason := firstReason
        retryAtMS := c.retryAt.tdiv Duration.millisecond
        events := events
        eventsDropped := dropped } }

/-- The next round of the loop of `run`, or what follows it. -/
def round (restoring : Bool) (deadline : Duration) (index : Nat) (candidates : List Candidate) (last : Failure)
    (temporary : Bool) : Point :=
  match candidates with
  | [] => .finish last restoring temporary
  | candidate :: rest => .loop ⟨restoring, deadline, index, candidate, rest, last, temporary⟩ .enter

@[simps]
def run (restoring : Bool) : Controller :=
  { c with
    calls := .run :: c.calls
    point := round restoring (Duration.add c.started connectTimeout) 0 c.candidates .transportUnavailable false }

@[simps]
def checked (deadline now : Duration) (failed : HostError → Point) (next : Point) : Controller :=
  { c with
    point :=
      match c.check deadline now with
      | some failure => failed failure
      | none => next }

/-- `CloseCandidate`, and where it leads. -/
@[simps]
def cleanup (a : Answer) (next failed : Point) : Controller :=
  { c with calls := .closed a.cleaned :: c.calls, point := if a.cleaned then next else failed }

/-- One step of `run` with its current candidate. -/
def proceedLoop (l : Loop) (a : Answer) : Stage → Controller
  | .enter => c.checked l.deadline a.now (fun failure => .loop l (.failed failure)) (.loop l .close)
  | .close => c.cleanup a (.loop l .closed) (.finish .internal l.restoring false)
  | .closed => c.checked l.deadline a.now (fun failure => .loop l (.failed failure)) (.loop l .network)
  | .network =>
    if a.available then { c with point := .loop l (if 0 < l.index ∨ l.restoring = true then .fallback else .ready) }
    else { c with point := .loop l (.failed (.reject .transportUnavailable)) }
  | .fallback =>
    let pause := min (4 * Duration.second) (Duration.second * 2 ^ l.index)
    { c.emit "fallback" l.candidate l.last with point := .loop l (.wait (min l.deadline (Duration.add a.now pause))) }
  | .wait limit => { c with point := .loop l (if a.now < limit then .waitCheck limit else .ready) }
  | .waitCheck limit => c.checked l.deadline a.now (fun failure => .loop l (.failed failure)) (.loop l (.pause limit))
  | .pause limit =>
    match a.error with
    | some failure => { c with point := .loop l (.failed failure) }
    | none => { c with point := .loop l (.wait limit) }
  | .ready => c.checked l.deadline a.now (fun failure => .loop l (.failed failure)) (.loop l .attempt)
  | .attempt =>
    let timeout := if l.candidate = .restricted then restrictedTimeout else normalTimeout
    { c.emit "candidate_attempted" l.candidate none with
      point := .loop l (.open (min l.deadline (Duration.add a.now timeout))) }
  | .open candidateDeadline =>
    { c with
      calls := .opened l.candidate :: c.calls
      point :=
        .loop l
          (match a.error with
          | some failure => .failed failure
          | none => .opened candidateDeadline) }
  | .opened candidateDeadline =>
    c.checked candidateDeadline a.now (fun failure => .loop l (.failed failure))
      (.loop l
        (match a.bounded with
        | some failure => .failed failure
        | none => if l.candidate ≠ .restricted then .remember candidateDeadline else .remembered candidateDeadline))
  | .remember candidateDeadline =>
    match a.error with
    | some failure => { c with point := .loop l (.failed failure) }
    | none => { c with point := .loop l (.remembered candidateDeadline) }
  | .remembered candidateDeadline =>
    c.checked candidateDeadline a.now (fun failure => .loop l (.failed failure)) (.loop l .commit)
  | .commit =>
    match c.interrupted with
    | some reason => { c with point := .loop l (.failed (.reject reason)) }
    | none =>
      if c.ctxEnded then { c with point := .loop l (.failed (.reject .cancelled)) }
      else
        let c :=
          { c with
            selected := some l.candidate
            state := .connected
            retryAt := 0
            healthySince := -1
            marks := .connected :: c.marks
            point := .idle }
        let c := (c.emit "candidate_succeeded" l.candidate none).emit "time_to_connected" l.candidate none
        if l.restoring then c.emit "restoration_succeeded" l.candidate none else c
  | .failed failure =>
    { c with point := .loop { l with last := (c.reason failure).1, temporary := (c.reason failure).2 } .report }
  | .report => { c.emit "candidate_failed" l.candidate l.last with point := .loop l .closeFailed }
  | .closeFailed =>
    c.cleanup a
      (if l.last = .cancelled ∨ l.last = .auth ∨ l.last = .configuration ∨ l.last = .internal ∨ l.deadline ≤ a.now then
        .finish l.last l.restoring l.temporary
      else round l.restoring l.deadline (l.index + 1) l.rest l.last l.temporary)
      (.finish .internal l.restoring false)

/-- The second half of `finish`: a retry is scheduled, or the controller gives up. -/
def settle (a : Answer) (reason : Failure) (restoring temporary : Bool) : Controller :=
  let bootstrapRetry := reason = .bootstrapUnavailable && temporary
  if c.requested = true ∧ (retryable reason = true ∨ bootstrapRetry = true) ∧ 0 < c.candidates.length then
    let recoveries := if bootstrapRetry then c.bootstrapRecoveries + 1 else c.bootstrapRecoveries
    let cooldown := bootstrapRetry && decide (2 < recoveries)
    let backoff := min maxRecoveryBackoff (recoveryBackoff * 2 ^ min c.failedSeries 2)
    let delay := (if cooldown then recoveryCooldown else backoff) + max 0 (min (5 * Duration.second) a.jitter)
    let retryAt := Duration.add a.now delay
    let c :=
      { c with
        bootstrapRecoveries := if cooldown then 0 else recoveries
        failedSeries := min 2 (c.failedSeries + 1)
        retryAt := retryAt
        retryReason := some reason
        healthySince := -1
        state := .restoring
        schedule := some ⟨a.now, retryAt, cooldown⟩
        point := .idle }
    (c.emit "restoration_failed" none reason).emit "recovery_wait" none reason
  else
    let c := { c with requested := false, retryAt := 0, state := .failed, point := .idle }
    c.emit (if restoring then "restoration_failed" else "connect_failed") none reason

/-- One step of the operation in progress. -/
def proceed (a : Answer) : Controller :=
  match c.point with
  | .idle => c
  | .connectStart preferred lastGood =>
    let c :=
      { c with
        started := a.now
        restorations := 0
        failedSeries := 0
        bootstrapRecoveries := 0
        retryAt := 0
        healthySince := -1
        candidates := []
        events := []
        dropped := 0
        firstReason := none
        requested := true
        state := .connecting
        point := .configureCheck preferred lastGood (Duration.add a.now configureTimeout) }
    c.emit "connect_requested" none none
  | .configureCheck preferred lastGood deadline =>
    c.checked deadline a.now .connectFailed (.configure preferred lastGood deadline)
  | .configure preferred lastGood deadline =>
    match a.error with
    | some failure => { c with point := .connectFailed failure }
    | none => { c with point := .configured preferred lastGood deadline a.configured }
  | .configured preferred lastGood deadline configured =>
    match c.check deadline a.now, a.bounded, order configured preferred lastGood with
    | some failure, _, _ => { c with point := .connectFailed failure }
    | none, some failure, _ => { c with point := .connectFailed failure }
    | none, none, .error failure => { c with candidates := [], point := .connectFailed failure }
    | none, none, .ok candidates => run { c with candidates := candidates } false
  | .connectFailed failure => { c with point := .finish (c.reason failure).1 false (c.reason failure).2 }
  | .lost reason => { c with point := .lostReport (c.reason { rejected := some (reason, false) }).1 }
  | .lostReport reason =>
    let c := { c.emit "transport_lost" c.selected reason with state := .restoring, started := a.now }
    if retryable reason = false ∨ c.restorations ≥ 1 then { c with point := .finish reason true false }
    else { c with restorations := c.restorations + 1, marks := .restore :: c.marks, point := .lostRestore reason }
  | .lostRestore reason =>
    let c := c.emit "restoration_attempted" c.selected reason
    let selected := c.selected.getD (.other "")
    run { c with candidates := (order c.candidates.dropLast selected selected).toOption.getD [] } true
  | .retryCheck => c.checked Duration.greatest a.now .retryFailed .retryDue
  | .retryFailed failure => { c with point := .finish (c.reason failure).1 true false }
  | .retryDue =>
    if c.requested = false ∨ c.retryAt = 0 ∨ a.now < c.retryAt then { c with point := .idle }
    else { c with point := .retryStart }
  | .retryStart =>
    let c := { c with retryAt := 0, restorations := 1, started := a.now, marks := .retry c.schedule a.now :: c.marks }
    run (c.emit "restoration_attempted" c.selected c.retryReason) true
  | .loop l stage => c.proceedLoop l a stage
  | .finish reason restoring temporary =>
    let reason := if a.cleaned then reason else .internal
    { c with
      calls := .closed a.cleaned :: c.calls
      selected := none
      point := if reason = .cancelled then .disconnect else .settle reason restoring temporary }
  | .settle reason restoring temporary => c.settle a reason restoring temporary
  | .disconnect =>
    let c := { c with requested := false, retryAt := 0 }
    if c.state = .disconnected then { c with point := .idle }
    else
      let c := { c with state := .disconnecting, point := .disconnectClose }
      c.emit "disconnect_requested" c.selected (some .cancelled)
  | .disconnectClose => c.cleanup a .disconnectRelease .cleanupFailed
  | .disconnectRelease =>
    { c with calls := .released a.cleaned :: c.calls, point := if a.cleaned then .disconnected else .cleanupFailed }
  | .cleanupFailed => { c with state := .failed, point := .idle }.emit "cleanup_failed" c.selected (some .internal)
  | .disconnected =>
    { c with selected := none, state := .disconnected, ctxEnded := true, interrupted := none, point := .idle }.emit
      "disconnected" none (some .cancelled)

/-! ## The exported calls -/

inductive CallError where
  | busy
  | stale
  | invalid
  deriving DecidableEq

variable (generation : Nat)

/-- The section of `Interrupt` under `mu`. -/
def stop (reason : Failure) : Controller :=
  { c with
    interrupted := some reason
    view := { c.view with desiredConnected := false }
    interrupts := generation :: c.interrupts }

def interrupt (reason : Failure) : Controller × Except CallError Unit :=
  if reason ≠ .cancelled ∧ reason ≠ .auth then (c, .error .invalid)
  else if generation = 0 ∨ generation ≠ c.view.generation then (c, .error .stale)
  else (c.stop generation reason, .ok ())

theorem interrupt_cases (reason : Failure) :
    (∃ failure, c.interrupt generation reason = (c, .error failure)) ∨
      generation = c.view.generation ∧ c.interrupt generation reason = (c.stop generation reason, .ok ()) := by
  unfold interrupt
  split
  · exact .inl ⟨_, rfl⟩
  split
  · exact .inl ⟨_, rfl⟩
  · rename_i hKnown
    exact .inr ⟨not_not.mp (not_or.mp hKnown).2, rfl⟩

/-- `Connect` up to the end of its first section under `mu`; `nilContext` says that its context is nil. -/
def connect (nilContext : Bool) (generation : Nat) (preferred lastGood : Candidate) :
    Controller × Except CallError Unit :=
  if c.point ≠ .idle then (c, .error .busy)
  else if generation = 0 ∨ generation ≤ c.generation then (c, .error .stale)
  else if c.state ≠ .disconnected then (c, .error .busy)
  else if nilContext then (c, .error .invalid)
  else
    ({ c with
        generation := generation
        ctxEnded := false
        interrupted := none
        view := { generation := generation, state := .connecting, desiredConnected := true }
        marks := .accepted generation :: c.marks
        point := .connectStart preferred lastGood }, .ok ())

def lost (reason : Option Failure) : Controller × Except CallError Unit :=
  if c.point ≠ .idle then (c, .error .busy)
  else if generation = 0 ∨ generation ≠ c.generation then (c, .error .stale)
  else if c.state ≠ .connected then (c, .ok ())
  else ({ c with point := .lost reason }, .ok ())

def retry : Controller × Except CallError Unit :=
  if c.point ≠ .idle then (c, .error .busy)
  else if generation = 0 ∨ generation ≠ c.generation then (c, .error .stale)
  else if c.state ≠ .restoring then (c, .ok ())
  else ({ c with point := .retryCheck }, .ok ())

/-- `Healthy`, which reads the clock at most twice. -/
def healthy (good : Bool) (first second : Duration) :
    Controller × Except CallError Unit :=
  if c.point ≠ .idle then (c, .error .busy)
  else if generation = 0 ∨ generation ≠ c.generation then (c, .error .stale)
  else if c.state ≠ .connected ∨ good = false then
    ({ c with healthySince := -1, marks := .unhealthy :: c.marks }, .ok ())
  else
    let since := if c.healthySince < 0 then first else c.healthySince
    let c :=
      { c with healthySince := since,
               marks := .healthy (if c.healthySince < 0 then first else second) :: c.marks }
    if stableTraffic ≤ Duration.add second (-since) then
      ({ c with
          restorations := 0
          failedSeries := 0
          bootstrapRecoveries := 0
          marks := .stable since second :: c.marks }, .ok ())
    else (c, .ok ())

/-- The first half of `Disconnect`. -/
def disconnect : Controller × Except CallError Unit :=
  match c.interrupt generation .cancelled with
  | (c, .error failure) => (c, .error failure)
  | (c, .ok ()) => ({ c with disconnects := generation :: c.disconnects }, .ok ())

theorem disconnect_cases :
    (c.disconnect generation).1 = c ∨ generation = c.view.generation ∧
      (c.disconnect generation).1 = { c.stop generation .cancelled with
        disconnects := generation :: c.disconnects } := by
  unfold disconnect
  rcases c.interrupt_cases generation .cancelled with ⟨failure, hFailed⟩ | ⟨hKnown, hDone⟩
  · rw [hFailed]
    exact .inl rfl
  · rw [hDone]
    exact .inr ⟨hKnown, rfl⟩

/-- The second half of `Disconnect`, once it holds `operation`. -/
def disconnectLocked : Controller × Except CallError Unit :=
  let c := { c with disconnects := c.disconnects.erase generation }
  if generation ≠ c.generation then (c, .error .stale) else ({ c with point := .disconnect }, .ok ())

/-- Everything that can happen to a controller. The clock never goes back, and the context that was given to
`Connect` can end at any time. -/
inductive Step : Controller → Controller → Prop where
  | interrupt {c : Controller} (generation : Nat) (reason : Failure) : Step c (c.interrupt generation reason).1
  | cancel {c : Controller} : Step c { c with ctxEnded := true }
  | connect {c : Controller} (nilContext : Bool) (generation : Nat) (preferred lastGood : Candidate) :
      Step c (c.connect nilContext generation preferred lastGood).1
  | lost {c : Controller} (generation : Nat) (reason : Option Failure) : Step c (c.lost generation reason).1
  | retry {c : Controller} (generation : Nat) : Step c (c.retry generation).1
  | healthy {c : Controller} {first second : Duration} (generation : Nat) (good : Bool) : c.clock ≤ first →
      first ≤ second → second ≤ Duration.greatest →
      Step c { (c.healthy generation good first second).1 with clock := second }
  | disconnect {c : Controller} (generation : Nat) : Step c (c.disconnect generation).1
  | disconnectLocked {c : Controller} {generation : Nat} : c.point = .idle → generation ∈ c.disconnects →
      Step c (c.disconnectLocked generation).1
  | proceed {c : Controller} (a : Answer) : c.clock ≤ a.now → a.now ≤ Duration.greatest →
      Step c { c.proceed a with clock := a.now }

end Controller

def controllerSystem (cleanupTimeout : Duration) : System Controller where
  initial c := new cleanupTimeout = some c
  step := Controller.Step

end FamilyConnect.DesktopAuto
