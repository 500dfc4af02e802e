import FamilyConnect.Discovery.Catalog
import FamilyConnect.Lib.Program
import FamilyConnect.Lib.Transition

/-!
# The cache of the catalogue

Source: `Discovery::accept` and the reading of the cache in `Discovery::start` of
`core/src/discovery.rs`. The process can be killed at any file operation, any of them can
fail, and an outage of the machine takes what was not synchronised; renaming is atomic. The
bootstrap servers answer anything, so a call of `accept` is given any bytes.
-/

namespace FamilyConnect.Discovery

open Lib Transaction Program

/-! ## Files -/

inductive FileCall where
  | createDirs (folder : String)
  | createTemp
  | writeTemp (bytes : Bytes)
  | syncTemp
  | rename
  | openFolder (folder : String)
  | syncFolder
  deriving DecidableEq

def files : Interface where
  Call := FileCall
  Answer := fun _ => Unit

/-- The two files as a process sees them and as an outage leaves them: bytes are stored when their
file is synchronised, and the new name of a file when the folder is. -/
structure Disk where
  cache : Option Bytes := none
  temp : Option Bytes := none
  storedCache : Option Bytes := none
  storedTemp : Option Bytes := none
  installed : List Bytes := []
  deriving DecidableEq

/-- What the system does with an operation: it fails, after some bytes if it was a write; `folderFails` is for the
operations on the folder after the renaming. -/
structure Fault where
  fails : Bool := false
  folderFails : Bool := false
  written : Nat := 0

namespace FileCall

/-- The empty path is no folder: nothing is created for it, and it cannot be opened. -/
def fails (call : FileCall) (fault : Fault) (disk : Disk) : Bool :=
  match call with
  | .createDirs folder => folder != "" && fault.fails
  | .createTemp | .writeTemp _ | .syncTemp => fault.fails
  | .rename => disk.temp.isNone || fault.fails
  | .openFolder folder => folder == "" || fault.folderFails
  | .syncFolder => fault.folderFails

def effect (call : FileCall) (disk : Disk) : Disk :=
  match call with
  | .createDirs _ | .openFolder _ => disk
  | .createTemp => { disk with temp := some [] }
  | .writeTemp bytes => { disk with temp := some bytes }
  | .syncTemp => { disk with storedTemp := disk.temp }
  | .rename => { disk with cache := disk.temp, temp := none, installed := disk.installed ++ disk.temp.toList }
  | .syncFolder => { disk with storedCache := disk.storedTemp, storedTemp := none }

def remains (call : FileCall) (fault : Fault) (disk : Disk) : Disk :=
  match call with
  | .writeTemp bytes => { disk with temp := some (bytes.take fault.written) }
  | _ => disk

def exec (call : FileCall) (fault : Fault) (disk : Disk) : Except Failure Unit × Disk :=
  if call.fails fault disk = true then (.error .io, call.remains fault disk) else (.ok (), call.effect disk)

end FileCall

def machine : Machine files Failure where
  World := Disk
  Choice := Fault
  exec := FileCall.exec

/-! ## The process -/

/-- The state without a cache: no document is older. -/
def floor : NetworkState := { version := 2, epoch := 0, issuedAt := 0, expiresAt := 0, nodes := [], devices := [] }

/-- How `start` reads the cache: a document is verified at the time of its own issue. -/
def load (format : Format) (root : Bytes) : Option Bytes → Except Failure NetworkState
  | none => .ok floor
  | some bytes => do
    let envelope ← given (format.envelope bytes) .malformed
    let raw ← given (format.base64 envelope.payload) .malformed
    let payload ← given (format.state raw) .malformed
    let (_, state) ← verify format bytes root payload.issuedAt
    pure state

/-- `folder` is the parent of the path of the cache, which is empty for a bare name. -/
def accept (format : Format) (root : Bytes) (folder : Option String) (now : Nat)
    (old : NetworkState) (bytes : Bytes) : Program files Failure NetworkState := do
  let (_, new) ← Program.ofExcept (verify format bytes root now)
  Program.ofExcept (nonrollback old new)
  let parent ← Program.ofExcept (given folder .parentMissing)
  perform (I := files) (.createDirs parent)
  perform (I := files) .createTemp
  perform (I := files) (.writeTemp bytes)
  perform (I := files) .syncTemp
  perform (I := files) .rename
  perform (I := files) (.openFolder parent)
  perform (I := files) .syncFolder
  pure new

/-- The disk, and what is in memory while the process runs. -/
structure Core where
  disk : Disk := {}
  memory : Option NetworkState := none

/-- `accept` under the write lock: a process that is cut is gone, one that fails keeps what it had. -/
def Core.accept (format : Format) (root : Bytes) (folder : Option String) (now : Nat)
    (bytes : Bytes) (faults : List Fault) (old : NetworkState) (core : Core) : Core :=
  match (Discovery.accept format root folder now old bytes).run machine faults core.disk with
  | (none, disk) => { disk := disk, memory := none }
  | (some (.ok new), disk) => { disk := disk, memory := some new }
  | (some (.error _), disk) => { disk := disk, memory := some old }

def Core.outage (core : Core) : Core :=
  { disk := { core.disk with cache := core.disk.storedCache, temp := core.disk.storedTemp }, memory := none }

def Disk.Settled (disk : Disk) : Prop := disk.storedCache = disk.cache

def Fault.SparesFolder (fault : Fault) : Prop := fault.folderFails = false

/-- If `calm`, the folder is synchronised without an error, and there is no outage between a renaming and that. -/
inductive Core.Step (format : Format) (root : Bytes) (folder : Option String) (calm : Prop) :
    Core → Core → Prop where
  | crash {core : Core} : Step format root folder calm core { core with memory := none }
  | outage {core : Core} : (calm → core.disk.Settled) → Step format root folder calm core core.outage
  | start {core : Core} {state : NetworkState} : core.memory = none →
      load format root core.disk.cache = .ok state →
        Step format root folder calm core { core with memory := some state }
  | accept {core : Core} {old : NetworkState} (now : Nat) (bytes : Bytes) (faults : List Fault) :
      core.memory = some old → (calm → ∀ fault ∈ faults, fault.SparesFolder) →
        Step format root folder calm core (core.accept format root folder now bytes faults old)

def discovery (format : Format) (root : Bytes) (folder : Option String) (calm : Prop) : System Core where
  initial core := core = {}
  step := Core.Step format root folder calm

/-! ## One call -/

variable {format : Format} {root bytes : Bytes} {folder : Option String} {now : Nat}
  {old new state : NetworkState} {disk disk' : Disk} {envelope : Envelope}

theorem Verified.load (h : Verified format root bytes envelope state) :
    load format root (some bytes) = .ok state := by
  obtain ⟨raw, signature, hRaw, -, -, hState⟩ := h.signed
  refine ok_bind (congrArg (given · _) h.parsed)
    (ok_bind (congrArg (given · _) hRaw) (ok_bind (congrArg (given · _) hState) ?_))
  exact ok_bind (verify_iff.mpr ⟨h, le_rfl, h.lasting.2.2.1⟩) rfl

def Disk.Same (disk disk' : Disk) : Prop := disk'.cache = disk.cache ∧ disk'.installed = disk.installed

def Disk.Installs (bytes : Bytes) (disk disk' : Disk) : Prop :=
  disk'.cache = some bytes ∧ disk'.installed = disk.installed ++ [bytes]

def Acceptable (format : Format) (root bytes : Bytes) (old new : NetworkState) : Prop :=
  (∃ envelope, Verified format root bytes envelope new) ∧ new.Follows old

def Disk.Between (format : Format) (root bytes : Bytes) (old : NetworkState) (disk disk' : Disk) : Prop :=
  disk.Same disk' ∨ disk.Installs bytes disk' ∧ ∃ new, Acceptable format root bytes old new

def Disk.After (format : Format) (root bytes : Bytes) (old : NetworkState) (disk : Disk)
    (result : Except Failure NetworkState) (disk' : Disk) : Prop :=
  match result with
  | .ok new => disk.Installs bytes disk' ∧ Acceptable format root bytes old new ∧ disk'.Settled
  | .error _ => disk.Same disk'

theorem remains_same (call : FileCall) (fault : Fault) (disk : Disk) : disk.Same (call.remains fault disk) := by
  cases call <;> exact ⟨rfl, rfl⟩

theorem ensures_call {call : FileCall} {f : Unit → Program files Failure NetworkState} {keep : Disk → Prop}
    {post : Except Failure NetworkState → Disk → Prop} (hNow : keep disk)
    (hOk : (f ()).Ensures machine Fault.SparesFolder keep post (call.effect disk))
    (hFail : ∀ fault : Fault, fault.SparesFolder → call.fails fault disk = true →
      keep (call.remains fault disk) ∧ post (.error .io) (call.remains fault disk)) :
    (perform (I := files) call >>= f).Ensures machine Fault.SparesFolder keep post disk := by
  refine ensures_bind (ensures_perform hNow fun fault hSpares => ?_)
  cases hFails : call.fails fault disk with
  | true =>
    rw [show machine.exec call fault disk = _ from if_pos hFails]
    exact hFail fault hSpares hFails
  | false =>
    rw [show machine.exec call fault disk = _ from if_neg (Bool.eq_false_iff.mp hFails)]
    exact ⟨hOk.now, hOk⟩

theorem ensures_accept (format : Format) (root : Bytes) (hFolder : folder ≠ some "") (now : Nat)
    (old : NetworkState) (bytes : Bytes) (disk : Disk) :
    (accept format root folder now old bytes).Ensures machine Fault.SparesFolder
    (disk.Between format root bytes old)
      (disk.After format root bytes old) disk := by
  have hNow : disk.Same disk := ⟨rfl, rfl⟩
  have hFailed : ∀ (call : FileCall) (fault : Fault) {disk' : Disk}, disk.Same disk' →
      disk.Between format root bytes old (call.remains fault disk') ∧ disk.Same (call.remains fault disk') := by
    intro call fault disk' hSame
    obtain ⟨hCache, hInstalled⟩ := remains_same call fault disk'
    have hRemains : disk.Same (call.remains fault disk') := ⟨hCache.trans hSame.1, hInstalled.trans hSame.2⟩
    exact ⟨.inl hRemains, hRemains⟩
  refine ensures_bind (ensures_ofExcept (.inl hNow) ?_)
  cases hVerify : verify format bytes root now with
  | error e => exact hNow
  | ok pair =>
    obtain ⟨envelope, new⟩ := pair
    refine ensures_bind (ensures_ofExcept (.inl hNow) ?_)
    cases hRollback : nonrollback old new with
    | error e => exact hNow
    | ok u =>
      have hNew : Acceptable format root bytes old new :=
        ⟨⟨envelope, (verify_iff.mp hVerify).1⟩, nonrollback_iff.mp hRollback⟩
      refine ensures_bind (ensures_ofExcept (.inl hNow) ?_)
      cases folder with
      | none => exact hNow
      | some parent =>
        have hParent : parent ≠ "" := fun h => hFolder (congrArg some h)
        -- Until the renaming, the cache is as it was.
        iterate 5
          refine ensures_call (.inl ⟨rfl, rfl⟩) ?_ fun fault _ _ => hFailed _ fault ⟨rfl, rfl⟩
        -- The folder is synchronised, or the process ends here.
        refine ensures_call (.inr ⟨⟨rfl, rfl⟩, new, hNew⟩) ?_ fun fault hSpares hFails => ?_
        · refine ensures_call (.inr ⟨⟨rfl, rfl⟩, new, hNew⟩) ?_ fun fault hSpares hFails => ?_
          · exact ensures_pure (.inr ⟨⟨rfl, rfl⟩, new, hNew⟩) ⟨⟨rfl, rfl⟩, hNew, rfl⟩
          · cases hSpares.symm.trans hFails
        · simp only [FileCall.fails, beq_eq_false_iff_ne.mpr hParent, Bool.false_or] at hFails
          cases hSpares.symm.trans hFails

/-! ## Runs -/

variable {core core' : Core}

/-- What is stored: every file that was installed can be read again, the cache is one of them and
follows all, and those of one epoch have the same members. -/
structure Disk.Inv (format : Format) (root : Bytes) (disk : Disk) : Prop where
  cache : ∀ bytes, disk.cache = some bytes → bytes ∈ disk.installed
  loads : ∀ bytes ∈ disk.installed, ∃ state, load format root (some bytes) = .ok state
  followed : ∀ bytes ∈ disk.installed, ∀ state, load format root (some bytes) = .ok state →
    ∃ last, load format root disk.cache = .ok last ∧ last.Follows state
  members : ∀ bytes ∈ disk.installed, ∀ bytes' ∈ disk.installed, ∀ state state',
    load format root (some bytes) = .ok state → load format root (some bytes') = .ok state' →
      state.epoch = state'.epoch → state.nodes = state'.nodes ∧ state.devices = state'.devices

structure Core.Inv (format : Format) (root : Bytes) (core : Core) : Prop where
  disk : core.disk.Inv format root
  memory : ∀ state, core.memory = some state → load format root core.disk.cache = .ok state

theorem NetworkState.Follows.refl (s : NetworkState) : s.Follows s := ⟨le_rfl, fun _ => ⟨rfl, rfl⟩⟩

def Disk.Next (format : Format) (root : Bytes) (disk disk' : Disk) : Prop :=
  disk'.Inv format root ∧ ∀ state, load format root disk.cache = .ok state →
    ∃ state', load format root disk'.cache = .ok state' ∧ state'.Follows state

theorem Disk.Inv.same (h : disk.Inv format root) (hSame : disk.Same disk') : disk.Next format root disk' := by
  obtain ⟨cache, temp, installed⟩ := disk
  obtain ⟨cache', temp', installed'⟩ := disk'
  obtain ⟨rfl, rfl⟩ := hSame
  exact ⟨⟨h.cache, h.loads, h.followed, h.members⟩, fun state hLoad => ⟨state, hLoad, .refl state⟩⟩

theorem Disk.Inv.installs (h : disk.Inv format root) (hOld : load format root disk.cache = .ok old)
    (hInstalls : disk.Installs bytes disk') (hNew : Acceptable format root bytes old new) :
    disk.Next format root disk' := by
  obtain ⟨hCache, hInstalled⟩ := hInstalls
  obtain ⟨⟨envelope, hVerified⟩, hFollows⟩ := hNew
  have hLoad := hVerified.load
  have hBefore : ∀ other ∈ disk.installed, ∀ state, load format root (some other) = .ok state →
      new.Follows state := by
    intro other hOther state hState
    obtain ⟨last, hLast, hFollowed⟩ := h.followed other hOther state hState
    cases hOld.symm.trans hLast
    exact hFollowed.trans hFollows
  have hMem : ∀ {other : Bytes}, other ∈ disk'.installed → other ∈ disk.installed ∨ other = bytes :=
    fun hOther => by
    rw [hInstalled] at hOther
    exact (List.mem_append.mp hOther).imp_right List.mem_singleton.mp
  constructor
  · constructor
    case cache =>
      intro other hOther
      cases hCache.symm.trans hOther
      rw [hInstalled]
      exact List.mem_append_right _ (List.mem_singleton_self bytes)
    case loads =>
      intro other hOther
      rcases hMem hOther with hEarlier | rfl
      · exact h.loads other hEarlier
      · exact ⟨new, hLoad⟩
    case followed =>
      intro other hOther state hState
      refine ⟨new, hCache ▸ hLoad, ?_⟩
      rcases hMem hOther with hEarlier | rfl
      · exact hBefore other hEarlier state hState
      · cases hLoad.symm.trans hState
        exact .refl new
    case members =>
      intro first hFirst second hSecond state state' hState hState' hEpoch
      rcases hMem hFirst with hEarlier | rfl <;> rcases hMem hSecond with hEarlier' | rfl
      · exact h.members first hEarlier second hEarlier' state state' hState hState' hEpoch
      · cases hLoad.symm.trans hState'
        obtain ⟨hNodes, hDevices⟩ := (hBefore first hEarlier state hState).members hEpoch.symm
        exact ⟨hNodes.symm, hDevices.symm⟩
      · cases hLoad.symm.trans hState
        exact (hBefore second hEarlier' state' hState').members hEpoch
      · cases hState.symm.trans hState'
        exact ⟨rfl, rfl⟩
  · intro state hState
    cases hOld.symm.trans hState
    exact ⟨new, hCache ▸ hLoad, hFollows⟩

/-- Every run of `accept` moves the persisted document forward, and leaves in memory what is persisted. -/
theorem Core.Inv.accept (h : core.Inv format root) (hFolder : folder ≠ some "")
    (hMemory : core.memory = some old) (now : Nat) (bytes : Bytes) {faults : List Fault}
    (hSpares : ∀ fault ∈ faults, fault.SparesFolder) :
    core.disk.Next format root (core.accept format root folder now bytes faults old).disk ∧
      (core.accept format root folder now bytes faults old).Inv format root := by
  have hOld := h.memory old hMemory
  obtain ⟨hBetween, hAfter⟩ := (ensures_accept format root hFolder now old bytes core.disk).run hSpares
  rw [Core.accept]
  revert hBetween hAfter
  rcases (Discovery.accept format root folder now old bytes).run machine faults core.disk with ⟨result, disk'⟩
  intro hBetween hAfter
  cases result with
  | none =>
    have hNext : core.disk.Next format root disk' := by
      rcases hBetween with hSame | ⟨hInstalls, new, hNew⟩
      · exact h.disk.same hSame
      · exact h.disk.installs hOld hInstalls hNew
    exact ⟨hNext, hNext.1, nofun⟩
  | some result =>
    have hEnd := hAfter result rfl
    cases result with
    | error e =>
      have hNext := h.disk.same hEnd
      refine ⟨hNext, hNext.1, ?_⟩
      rintro state ⟨⟩
      exact hEnd.1 ▸ hOld
    | ok new =>
      obtain ⟨hInstalls, hNew, -⟩ := hEnd
      have hNext := h.disk.installs hOld hInstalls hNew
      refine ⟨hNext, hNext.1, ?_⟩
      rintro state ⟨⟩
      obtain ⟨⟨envelope, hVerified⟩, -⟩ := hNew
      exact hInstalls.1 ▸ hVerified.load

theorem Core.Inv.step (h : core.Inv format root) (hFolder : folder ≠ some "")
    (hStep : Core.Step format root folder True core core') :
    core.disk.Next format root core'.disk ∧ core'.Inv format root := by
  have hStay := h.disk.same ⟨rfl, rfl⟩
  cases hStep with
  | crash => exact ⟨hStay, h.disk, nofun⟩
  | outage hSettled =>
    have hNext : core.disk.Next format root core.outage.disk := h.disk.same ⟨hSettled trivial, rfl⟩
    exact ⟨hNext, hNext.1, nofun⟩
  | start hStopped hLoad =>
    refine ⟨hStay, h.disk, ?_⟩
    rintro state ⟨⟩
    exact hLoad
  | accept now bytes faults hMemory hSpares => exact h.accept hFolder hMemory now bytes (hSpares trivial)

theorem Core.Inv.reachable (hFolder : folder ≠ some "")
    (h : (discovery format root folder True).Reachable core) : core.Inv format root := by
  refine h.invariant ?_ fun core core' _ hInv hStep => (hInv.step hFolder hStep).2
  rintro core rfl
  exact ⟨⟨nofun, nofun, nofun, nofun⟩, nofun⟩

theorem Core.Inv.steps (h : core.Inv format root) (hFolder : folder ≠ some "")
    (hSteps : Relation.ReflTransGen (discovery format root folder True).step core core') :
    core.disk.Next format root core'.disk ∧ core'.Inv format root := by
  induction hSteps with
  | refl => exact ⟨h.disk.same ⟨rfl, rfl⟩, h⟩
  | tail _ hStep ih =>
    obtain ⟨⟨-, hMoved⟩, hInv⟩ := ih
    obtain ⟨⟨hDisk, hMoved'⟩, hInv'⟩ := hInv.step hFolder hStep
    refine ⟨⟨hDisk, fun state hState => ?_⟩, hInv'⟩
    obtain ⟨middle, hMiddle, hFollows⟩ := hMoved state hState
    obtain ⟨last, hLast, hFollows'⟩ := hMoved' middle hMiddle
    exact ⟨last, hLast, hFollows.trans hFollows'⟩

def Disk.mark (format : Format) (root : Bytes) (disk : Disk) : ℕ ×ₗ ℕ :=
  match load format root disk.cache with
  | .ok state => state.mark
  | .error _ => floor.mark

theorem Disk.mark_of_load (h : load format root disk.cache = .ok state) : disk.mark format root = state.mark := by
  rw [Disk.mark, h]

theorem Disk.Inv.load (h : disk.Inv format root) : ∃ state, Discovery.load format root disk.cache = .ok state := by
  cases hCache : disk.cache with
  | none => exact ⟨floor, rfl⟩
  | some bytes => exact h.loads bytes (h.cache bytes hCache)

namespace Sample

def stateAt (epoch : Nat) : NetworkState :=
  { version := 2, epoch := epoch, issuedAt := 100, expiresAt := 200, nodes := [], devices := [] }

/-- A format in which the epoch is the only byte. -/
def oneByte : Format where
  envelope := fun bytes => some ⟨String.ofList (bytes.map fun b => Char.ofNat b.toNat), ""⟩
  base64 := fun text => some (text.toList.map fun c => UInt8.ofNat c.toNat)
  signed := fun _ _ _ => true
  state := fun raw => raw.head?.map fun b => stateAt b.toNat

def quiet (operations : Nat) : List Fault := List.replicate operations {}

theorem quiet_spares (operations : Nat) : ∀ fault ∈ quiet operations, fault.SparesFolder :=
  fun _ hFault => List.eq_of_mem_replicate hFault ▸ rfl

def accepted (folder : String) (epoch : UInt8) (operations : Nat) (old : NetworkState) (core : Core) : Core :=
  core.accept oneByte [] (some folder) 150 [epoch] (quiet operations) old

def startedAt (state : NetworkState) (core : Core) : Core := { core with memory := some state }

variable {folder : String} {calm : Prop} {core : Core} {old state : NetworkState}

theorem reachable_accepted (h : (discovery oneByte [] (some folder) calm).Reachable core)
    (epoch : UInt8) (operations : Nat) (hMemory : core.memory = some old) :
    (discovery oneByte [] (some folder) calm).Reachable (accepted folder epoch operations old core) :=
  h.next (.accept 150 [epoch] (quiet operations) hMemory fun _ => quiet_spares operations)

theorem reachable_startedAt (h : (discovery oneByte [] (some folder) calm).Reachable core)
    (hLoad : load oneByte [] core.disk.cache = .ok state) :
    (discovery oneByte [] (some folder) calm).Reachable (startedAt state core) :=
  (h.next .crash).next (.start rfl hLoad)

/-- Epoch 1 is installed, the process is killed after the renaming of epoch 3, and it is started again. -/
def restarted : Core := startedAt (stateAt 3)
    (accepted "/var" 3 6 (stateAt 1) (accepted "/var" 1 7 floor (startedAt floor {})))

theorem reachable_restarted : (discovery oneByte [] (some "/var") calm).Reachable restarted := by
  have hFirst : (discovery oneByte [] (some "/var") calm).Reachable
      (accepted "/var" 1 7 floor (startedAt floor {})) :=
    reachable_accepted (reachable_startedAt (.start rfl) rfl) 1 7 rfl
  exact reachable_startedAt (reachable_accepted hFirst 3 6 (by decide +kernel)) (by decide +kernel)

/-- The cache has a bare name. The first start fails after the renaming of epoch 1; the second one
finds no server, and then epoch 3 is fetched. -/
def bare : Core := accepted "" 3 7 (stateAt 1) (startedAt (stateAt 1) (accepted "" 1 7 floor (startedAt floor {})))

theorem reachable_bare : (discovery oneByte [] (some "") calm).Reachable bare := by
  have hFirst : (discovery oneByte [] (some "") calm).Reachable (accepted "" 1 7 floor (startedAt floor {})) :=
    reachable_accepted (reachable_startedAt (.start rfl) rfl) 1 7 rfl
  exact reachable_accepted (reachable_startedAt hFirst (by decide +kernel)) 3 7 rfl

end Sample

open Sample

end FamilyConnect.Discovery
