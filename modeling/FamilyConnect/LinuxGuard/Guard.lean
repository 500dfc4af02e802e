import FamilyConnect.Lib.Program
import FamilyConnect.Lib.Transition
import FamilyConnect.LinuxGuard.Ruleset

/-!
# The Linux Auto guard and its host

Source: `Guard` of `clients/linux/auto_guard.py` and `GuardedHost` of
`clients/linux/auto_policy.py`. The methods are programs over the calls that
leave the process: the commands, the journal, the platform. Any of them can
fail, before or after it has had its effect, and the process can be killed at
any of them. The journal holds only what a guard wrote.
-/

namespace FamilyConnect.LinuxGuard

open Lib

inductive LinkKind where
  | tun
  | wireguard
  | other
  deriving DecidableEq

structure Link where
  ifname : String
  ifindex : Nat
  up : Bool
  kind : LinkKind
  deriving DecidableEq

inductive Pending where
  | apply (state : State)
  | release
  deriving DecidableEq

def Pending.state : Pending → Option State
  | .apply state => some state
  | .release => none

structure Journal where
  uid : Nat
  generation : Generation
  current : Option State
  pending : Option Pending
  deriving DecidableEq

/-- The states that the installed table may belong to, in the order in which `_read_owned` tries them. -/
def Journal.choices (j : Journal) : List State := j.current.toList ++ (j.pending.bind Pending.state).toList

structure Owner where
  uid : Nat
  generation : Generation
  valid : 1 ≤ uid ∧ uid ≤ 2 ^ 31 - 1

structure Host where
  released : Bool := false
  configured : Bool := false
  deriving DecidableEq

inductive Route where
  | wg
  | awg
  | tcp
  | restricted
  deriving DecidableEq

def Route.kind : Route → Kind
  | .wg => .wg
  | .awg => .awg
  | .tcp => .tcp
  | .restricted => .mesh

inductive Command where
  | delete
  | add (object : Object)
  deriving DecidableEq

/-! ## Calls -/

/-- `installs` tells for which state a transaction is, and the last two calls only leave a note.
`read` fails when the links change while the table is listed. -/
inductive Call where
  | locked
  | record
  | setRecord (value : Option Journal)
  | host
  | setHost (value : Host)
  | read
  | apply (commands : List Command) (installs : Option State)
  | links
  | privateRead
  | privateWrite (value : Journal)
  | unlink
  | syncDirectory
  | check
  | platformConfigure
  | platformPrepare (candidate : Route)
  | platformOpen (candidate : Route)
  | platformApplied (candidate : Route)
  | platformCancelHealth
  | platformClose
  | platformRelease
  | platformRemember (candidate : Route)
  | noteLive (link : Link)
  | noteAcquired

abbrev guardInterface : Interface where
  Call := Call
  Answer
    | .locked => Bool
    | .record => Option Journal
    | .host => Host
    | .read => Option (List Object)
    | .links => List Link
    | .privateRead => Journal
    | .platformConfigure => List Route
    | .platformPrepare _ => Candidate
    | .platformOpen _ => Nat × Bool
    | _ => Unit

abbrev GuardM := Program guardInterface Failure

def perform (c : Call) : GuardM (guardInterface.Answer c) := Program.perform (I := guardInterface) c

def locked : GuardM Bool := perform .locked
def record : GuardM (Option Journal) := perform .record
def setRecord (value : Option Journal) : GuardM Unit := perform (.setRecord value)
def host : GuardM Host := perform .host
def setHost (value : Host) : GuardM Unit := perform (.setHost value)
def read : GuardM (Option (List Object)) := perform .read
def apply (commands : List Command) (installs : Option State) : GuardM Unit := perform (.apply commands installs)
def links : GuardM (List Link) := perform .links
def privateRead : GuardM Journal := perform .privateRead
def privateWrite (value : Journal) : GuardM Unit := perform (.privateWrite value)
def unlink : GuardM Unit := perform .unlink
def syncDirectory : GuardM Unit := perform .syncDirectory
def check : GuardM Unit := perform .check

def require (condition : Bool) : GuardM Unit := if condition then pure () else throw .protocol

/-! ## Guard -/

def owned : GuardM Unit := do
  let held ← locked
  let old ← record
  match held, old with
  | true, some value =>
    let stored ← privateRead
    if stored = value then pure () else throw .journalChanged
  | _, _ => throw .notAcquired

/-- `self.record[...]` -/
def theRecord : GuardM Journal := do
  match ← record with
  | some value => pure value
  | none => throw .noneType

variable (o : Owner)

def save (current : Option State) (pending : Option Pending) : GuardM Unit := do
  let value : Journal := ⟨o.uid, o.generation, current, pending⟩
  privateWrite value
  setRecord (some value)

def readOwned (allowMissing : Bool) : GuardM (Option (List Object)) := do
  let actual ← read
  let value ← theRecord
  if actual = none ∧ value.current ≠ none ∧ allowMissing = false then throw .disappeared
  else if actual ≠ none ∧ value.choices.all (fun s => actual ≠ some (objects o.generation s)) = true then
    throw .ownershipMismatch
  else pure actual

def applyState (s : State) : GuardM Unit := do
  owned
  let actual ← readOwned o (s.mode = .blocked)
  let value ← theRecord
  save o value.current (some (.apply s))
  apply ((if actual = none then [] else [.delete]) ++ (objects o.generation s).map .add) (some s)
  let installed ← read
  if installed ≠ some (objects o.generation s) then throw .verificationFailed
  else save o (some s) none

def loadRecord : GuardM Unit := do
  let stored : Except Failure Journal ← Program.attempt (I := guardInterface) Call.privateRead
  match stored with
  | .error .missingFile =>
    let installed ← read
    if installed ≠ none then throw .namespaceOccupied else save o none none
  | .error failure => throw failure
  | .ok value =>
    if value.uid ≠ o.uid ∨ value.generation ≠ o.generation then throw .ownerMismatch else setRecord (some value)

def acquire : GuardM Unit := do
  let held ← locked
  let old ← record
  if held = false ∨ old ≠ none then throw .alreadyAcquired
  else
    loadRecord o
    let _ ← readOwned o true
    let value ← theRecord
    let previous := (value.pending.bind Pending.state).or value.current
    let s ← Program.ofExcept (policy .blocked (previous.bind (·.selected)) 0 false)
    applyState o s
    perform .noteAcquired

def settled (pendingError : Failure) : GuardM State := do
  owned
  let value ← theRecord
  if value.pending ≠ none then throw pendingError
  else
    match value.current with
    | some current => pure current
    | none => throw .noneType

def block : GuardM Unit := do
  let current ← settled .pendingOperation
  let s ← Program.ofExcept (policy .blocked current.selected 0 false)
  applyState o s

def absent (selected : Option Candidate) : GuardM Unit :=
  match selected with
  | none => pure ()
  | some c => do
    let found ← links
    if found.any (·.ifname = c.interface) then throw .cleanupIncomplete else pure ()

def prepare (selected : Candidate) : GuardM Unit := do
  let next ← Program.ofExcept (policy .probe (some selected) 0 false)
  let current ← settled .blockFirst
  if current.mode ≠ .blocked then throw .blockFirst
  else
    absent current.selected
    absent (some selected)
    applyState o next

/-- The kinds of link that `_verify_tun` takes. -/
def liveKinds (kind : Kind) : List LinkKind := if kind = .awg then [.tun, .wireguard] else [.tun]

/-- `_verify_tun` finds the link as it must be. -/
def State.live (s : State) (link : Link) : Bool :=
  match s.selected with
  | some c => link.ifname == c.interface && link.ifindex == s.index && link.up && (liveKinds c.kind).contains link.kind
  | none => false

def verifyTun (s : State) : GuardM Unit := do
  let found ← links
  match found.filter (fun link => s.selected.map (·.interface) = some link.ifname) with
  | [link] => if s.live link then perform (.noteLive link) else throw .notLive
  | _ => throw .notLive

def ready (index : Nat) (ipv6 : Bool) : GuardM Unit := do
  let current ← settled .notPreparing
  if current.mode ≠ .probe then throw .notPreparing
  else
    let next ← Program.ofExcept (policy .ready current.selected index ipv6)
    verifyTun next
    applyState o next

def release : GuardM Unit := do
  let current ← settled .blockFirst
  if current.mode ≠ .blocked then throw .blockFirst
  else
    absent current.selected
    let actual ← readOwned o true
    save o (some current) (some .release)
    (if actual ≠ none then apply [.delete] none else pure ())
    let installed ← read
    if installed ≠ none then throw .releaseUnverified
    else
      unlink
      syncDirectory
      setRecord none

def snapshot : GuardM Journal := do
  let current ← settled .pendingOperation
  let _ ← readOwned o false
  (if current.mode = .ready then verifyTun current else pure ())
  theRecord

/-! ## GuardedHost -/

inductive Action where
  | configure
  | open (candidate : Route)
  | close
  | release
  | remember (candidate : Route)
  deriving DecidableEq

/-- The part of `call` for `open`, without its `except`. -/
def openCandidate (selected : Route) : GuardM (List Route) := do
  let plan : Candidate ← perform (.platformPrepare selected)
  check
  require (plan.kind = selected.kind)
  prepare o plan
  let opened : Nat × Bool ← perform (.platformOpen selected)
  check
  ready o opened.1 opened.2
  check
  perform (.platformApplied selected)
  check
  pure []

def closeCandidate : GuardM Unit := do
  let old ← record
  if old ≠ none then
    block o
    perform .platformClose
  else pure ()

def releaseGuard : GuardM Unit := do
  let old ← record
  if old ≠ none then
    perform .platformRelease
    check
    release o
  else pure ()

/-- `call`; `known` says that the request names the generation of the host. -/
def call (guardPrepared known : Bool) (action : Action) : GuardM (List Route) := do
  let h ← host
  require (known && !h.released)
  check
  match action with
  | .configure =>
    require (!h.configured)
    setHost { h with configured := true }
    (if guardPrepared then block o else acquire o)
    let result : List Route ← perform .platformConfigure
    require (result.length ≤ 3 && decide result.Nodup && result.all (· ≠ .restricted))
    check
    pure result
  | .open selected =>
    tryCatch (openCandidate o selected) fun failure => do
      perform .platformCancelHealth
      throw failure
  | .close =>
    closeCandidate o
    check
    pure []
  | .release =>
    releaseGuard o
    setHost { h with released := true }
    check
    pure []
  | .remember candidate =>
    perform (.platformRemember candidate)
    check
    pure []

def abort : GuardM Unit := do
  let h ← host
  let old ← record
  if h.released = false ∧ old ≠ none then
    block o
    perform .platformClose
  else pure ()

/-! ## The surroundings -/

inductive Note where
  | installed (s : State)
  | removed
  | links (found : List Link)
  | live (link : Link)
  deriving DecidableEq

/-- The last fields are a record of the run: whether an `acquire` has returned since the table was last removed, and the
notes so far, newest first. -/
structure World where
  table : Option (List Object)
  journal : Option Journal := none
  owner : Option Owner := none
  held : Bool := false
  record : Option Journal := none
  host : Host := {}
  contained : Bool := false
  trace : List Note := []

inductive Fault where
  | none
  | before
  | after
  deriving DecidableEq

structure Choice where
  fault : Fault := .none
  found : List Link := []
  routes : List Route := []
  plan : Candidate := ⟨.wg, "", none, none⟩
  index : Nat := 0
  ipv6 : Bool := false

namespace World

def observe (w : World) (choice : Choice) : World := { w with trace := .links choice.found :: w.trace }

def install (w : World) (table : Option (List Object)) (installs : Option State) : World :=
  { w with
    table := table
    contained := w.contained && table.isSome
    trace := (match installs with | some s => .installed s | none => .removed) :: w.trace }

end World

/-- A transaction is done as a whole or not at all. -/
def transaction : List Command → Option (List Object) → Option (Option (List Object))
  | [], table => some table
  | .delete :: rest, some _ => transaction rest none
  | .delete :: _, none => none
  | .add object :: rest, table => transaction rest (some (table.getD [] ++ [object]))

def faulty {α : Type} (fault : Fault) (w w' : World) (answer : α) : Except Failure α × World :=
  match fault with
  | .none => (.ok answer, w')
  | .before => (.error .system, w)
  | .after => (.error .system, w')

def exec : (c : Call) → Choice → World → Except Failure (guardInterface.Answer c) × World
  | .locked, choice, w => (.ok w.held, w.observe choice)
  | .record, choice, w => (.ok w.record, w.observe choice)
  | .setRecord value, choice, w => (.ok (), { w.observe choice with record := value })
  | .host, choice, w => (.ok w.host, w.observe choice)
  | .setHost value, choice, w => (.ok (), { w.observe choice with host := value })
  | .read, choice, w => faulty choice.fault (w.observe choice) (w.observe choice) w.table
  | .apply commands installs, choice, w =>
    match transaction commands w.table with
    | some table => faulty choice.fault (w.observe choice) ((w.observe choice).install table installs) ()
    | none => (.error .system, w.observe choice)
  | .links, choice, w => faulty choice.fault (w.observe choice) (w.observe choice) choice.found
  | .privateRead, choice, w =>
    match w.journal with
    | some value => faulty choice.fault (w.observe choice) (w.observe choice) value
    | none => (.error (if choice.fault = .none then .missingFile else .system), w.observe choice)
  | .privateWrite value, choice, w =>
    faulty choice.fault (w.observe choice) { w.observe choice with journal := some value } ()
  | .unlink, choice, w => faulty choice.fault (w.observe choice) { w.observe choice with journal := none } ()
  | .check, choice, w => (if choice.fault = .none then .ok () else .error .cancelled, w.observe choice)
  | .platformConfigure, choice, w => faulty choice.fault (w.observe choice) (w.observe choice) choice.routes
  | .platformPrepare _, choice, w => faulty choice.fault (w.observe choice) (w.observe choice) choice.plan
  | .platformOpen _, choice, w => faulty choice.fault (w.observe choice) (w.observe choice) (choice.index, choice.ipv6)
  | .syncDirectory, choice, w | .platformApplied _, choice, w | .platformCancelHealth, choice, w
  | .platformClose, choice, w | .platformRelease, choice, w | .platformRemember _, choice, w =>
    faulty choice.fault (w.observe choice) (w.observe choice) ()
  | .noteLive link, choice, w => (.ok (), { w.observe choice with trace := .live link :: (w.observe choice).trace })
  | .noteAcquired, choice, w => (.ok (), { w.observe choice with contained := true })

def guardMachine : Machine guardInterface Failure where
  World := World
  Choice := Choice
  exec := exec

/-! ## Runs -/

inductive Operation where
  | acquire
  | block
  | prepare (selected : Candidate)
  | ready (index : Nat) (ipv6 : Bool)
  | release
  | snapshot
  | call (guardPrepared known : Bool) (action : Action)
  | abort

def Operation.program : Operation → GuardM Unit
  | .acquire => LinuxGuard.acquire o
  | .block => LinuxGuard.block o
  | .prepare selected => LinuxGuard.prepare o selected
  | .ready index ipv6 => LinuxGuard.ready o index ipv6
  | .release => LinuxGuard.release o
  | .snapshot => do let _ ← LinuxGuard.snapshot o
  | .call guardPrepared known action => do let _ ← LinuxGuard.call o guardPrepared known action
  | .abort => LinuxGuard.abort o

namespace World

/-- The process is gone, and with it its lock and its memory. -/
def crashed (w : World) : World := { w with owner := none, held := false, record := none, host := {} }

def started (w : World) (o : Owner) : World := { w with owner := some o, held := true, record := none, host := {} }

def after {α : Type} (outcome : Option (Except Failure α) × World) : World :=
  match outcome.1 with
  | none => outcome.2.crashed
  | some _ => outcome.2

/-- At most one process holds the lock. `allowed` limits what the surroundings may choose. -/
inductive Step (allowed : Choice → Prop) : World → World → Prop where
  | start {w : World} (o : Owner) : w.owner = none → Step allowed w (w.started o)
  | perform {w : World} {o : Owner} (operation : Operation) (choices : List Choice) : w.owner = some o →
      (∀ choice ∈ choices, allowed choice) →
      Step allowed w (after ((operation.program o).run guardMachine choices w))
  | crash {w : World} : Step allowed w w.crashed

end World

/-- Every run from an unowned table, or from none. -/
def guardSystem (allowed : Choice → Prop) (table : Option (List Object)) : System World where
  initial w := w = { table := table }
  step := World.Step allowed

/-- A step, as one may ask for it. -/
inductive Move where
  | start (o : Owner)
  | perform (operation : Operation) (choices : List Choice)
  | crash

/-- A move that is not possible now is left out. -/
def World.move (w : World) : Move → World
  | .start o => if w.owner.isNone then w.started o else w
  | .perform operation choices =>
    match w.owner with
    | some o => World.after ((operation.program o).run guardMachine choices w)
    | none => w
  | .crash => w.crashed

def Move.choices : Move → List Choice
  | .perform _ choices => choices
  | _ => []

variable {allowed : Choice → Prop}

theorem World.step_move (w : World) {move : Move} (hAllowed : ∀ choice ∈ move.choices, allowed choice) :
    w.move move = w ∨ World.Step allowed w (w.move move) := by
  cases move with
  | crash => exact .inr .crash
  | start o =>
    rw [World.move]
    split
    · rename_i hFree
      exact .inr (.start o (Option.isNone_iff_eq_none.mp hFree))
    · exact .inl rfl
  | perform operation choices =>
    rw [World.move]
    split
    · rename_i o hOwner
      exact .inr (.perform operation choices hOwner hAllowed)
    · exact .inl rfl

theorem reachable_moves {table : Option (List Object)} {w : World} {moves : List Move}
    (hReachable : (guardSystem allowed table).Reachable w)
    (hAllowed : ∀ move ∈ moves, ∀ choice ∈ move.choices, allowed choice) :
    (guardSystem allowed table).Reachable (moves.foldl World.move w) := by
  induction moves generalizing w with
  | nil => exact hReachable
  | cons move moves ih =>
    refine ih ?_ fun later hMem => hAllowed later (.tail _ hMem)
    rcases w.step_move (hAllowed move (.head _)) with hSame | hStep
    · rw [hSame]
      exact hReachable
    · exact hReachable.next hStep

/-! ## A sample -/

def sampleOwner : Owner := ⟨1000, ⟨"0123456789abcdef0123456789abcdef", by decide⟩, by decide⟩

def sampleMesh : Candidate := ⟨.mesh, "fcmesh0", none, none⟩

def seeing (calls : Nat) (found : List Link) : List Choice := List.replicate calls { found := found }

end FamilyConnect.LinuxGuard
