import FamilyConnect.Lib.Rows
import FamilyConnect.Lib.Text
import FamilyConnect.Lib.Transaction

/-!
# The registry of invitations and devices

Source: `control/friends/access.py` and `registered` of `control/friends/support_ids.py`.
Every call is one transaction; the clock is read before it begins. Drawn values
(invitation codes, nonces, tcp ids and support ids) are arguments.
-/

namespace FamilyConnect.Friends

open Lib Transaction

/-- The nodes that a client can choose. -/
inductive GatewayChoice where
  | amsterdam1
  | amsterdam2
  deriving DecidableEq

inductive Purpose where
  | activate
  | status
  | subscription
  | support
  | ru
  | nl
  | gateway (choice : GatewayChoice)
  | refer
  | noticesRole
  | noticesPublish
  | noticesList
  | noticesEdit
  | diagnostics (digest : String)
  deriving DecidableEq

structure Invite where
  hash : String
  device : Option String := none
  revoked : Bool := false
  deriving DecidableEq

structure Device where
  device : String
  publicKey : String
  wg : String
  tcp : String
  revoked : Bool := false
  deriving DecidableEq

structure Challenge where
  nonce : String
  device : String
  publicKey : String
  wg : String
  purpose : Purpose
  invite : Option String
  expires : Nat
  used : Bool := false
  deriving DecidableEq

inductive Platform where
  | android
  | windows
  | linux
  deriving DecidableEq

structure Support where
  device : String
  supportId : String
  platform : Option Platform := none
  appVersion : Option String := none
  versionCode : Option Nat := none
  lastSeen : Option Nat := none
  deriving DecidableEq

structure Registry where
  invites : List Invite := []
  devices : List Device := []
  challenges : List Challenge := []
  support : List Support := []

inductive Failure where
  | invalid
  | rejected
  | integrity
  | allocation
  deriving DecidableEq

abbrev Tx := Transaction Registry Failure

structure Proof where
  challenge : String
  publicIdentity : String
  wg : String
  signature : String
  deriving DecidableEq

/-- Hashes and signatures: `identify` is the reference of a well-formed identity, and `verify` the
result of `verify_transport_key_proof`. -/
structure Setting where
  sha256 : String → String
  identify : String → Option String
  validWg : String → Bool
  verify : Proof → Option String

def challengeTtl : Nat := 100

/-! ## Reading -/

namespace Registry

variable (r : Registry)

def invite (hash : String) : Option Invite := Rows.get Invite.hash hash r.invites

def device (device : String) : Option Device := Rows.get Device.device device r.devices

def challenge (nonce : String) : Option Challenge := Rows.get Challenge.nonce nonce r.challenges

/-- `SELECT ... FROM invites WHERE device=?` -/
def inviteOf (device : String) : Option Invite :=
  r.invites.find? fun i => decide (i.device = some device)

def supportOf (device : String) : Option Support := Rows.get Support.device device r.support

def unused (device : String) : List Challenge :=
  r.challenges.filter fun c => decide (c.device = device ∧ c.used = false)

end Registry

/-- `[0-9a-f]{n}` -/
def hex (n : Nat) (value : String) : Bool :=
  decide (value.length = n) && value.toList.all fun c => c.isDigit || decide ('a' ≤ c ∧ c ≤ 'f')

variable (setting : Setting)

def codeHash (code : String) : Option String :=
  let normalized := match (Text.upper (Text.strip code.toList)).filter (· ≠ '-') with
    | 'F' :: 'C' :: rest => rest
    | other => other
  if normalized.length = 32 ∧ normalized.all (fun c => c.isDigit || decide ('A' ≤ c ∧ c ≤ 'F')) then
    some (setting.sha256 (String.ofList normalized))
  else none

def binding (publicKey wg : String) : Option String :=
  if setting.validWg wg then setting.identify publicKey else none

/-! ## Calls -/

def invite (code : String) : Tx Unit := do
  let hash ← found (codeHash setting code) .rejected
  let r ← get
  require (r.invite hash = none) .integrity
  set { r with invites := r.invites ++ [({ hash := hash } : Invite)] }

def revokeDevice (device : String) : Tx Bool := do
  require (hex 32 device = true) .rejected
  let r ← get
  let row ← found (r.device device) .rejected
  set { r with devices := Rows.put Device.device { row with revoked := true } r.devices }
  pure (!row.revoked)

def claimed (device publicKey wg : String) (purpose : Purpose) (invitation : String) :
    Tx (Option String) := do
  let r ← get
  match r.device device with
  | some row => do
    require (row.revoked = false ∧ row.publicKey = publicKey ∧ row.wg = wg) .rejected
    pure none
  | none => do
    require (purpose = .activate ∨ purpose = .status) .rejected
    if purpose = .activate then do
      let hash ← found (codeHash setting invitation) .rejected
      let grant ← found (r.invite hash) .rejected
      require (grant.revoked = false ∧ grant.device = none) .rejected
      pure (some hash)
    else pure none

structure Issued where
  challenge : String
  expiresAt : Nat

def challenge (now : Nat) (nonce publicKey wg : String) (purpose : Purpose) (invitation : String) :
    Tx Issued := do
  let device ← found (binding setting publicKey wg) .invalid
  let invite ← claimed setting device publicKey wg purpose invitation
  modify fun r => { r with challenges := r.challenges.filter fun c => decide (now < c.expires) }
  let r ← get
  require ((r.unused device).length < 8) .rejected
  require (r.challenge (setting.sha256 nonce) = none) .integrity
  let c : Challenge :=
    { nonce := setting.sha256 nonce, device := device, publicKey := publicKey, wg := wg
      purpose := purpose
      invite := invite, expires := now + challengeTtl }
  set { r with challenges := r.challenges ++ [c] }
  pure ⟨nonce, now + challengeTtl⟩

def Challenge.Admits (c : Challenge) (now : Nat) (purpose : Purpose) (device : String)
    (proof : Proof) : Prop :=
  c.used = false ∧ now < c.expires ∧ c.purpose = purpose ∧ c.device = device ∧
    c.publicKey = proof.publicIdentity ∧ c.wg = proof.wg

instance (c : Challenge) (now : Nat) (purpose : Purpose) (device : String) (proof : Proof) :
    Decidable (c.Admits now purpose device proof) :=
  inferInstanceAs (Decidable (_ ∧ _ ∧ _ ∧ _ ∧ _ ∧ _))

def answered (now : Nat) (proof : Proof) (purpose : Purpose) : Tx (String × Challenge) := do
  let device ← found (setting.verify proof) .invalid
  let r ← get
  let c ← found (r.challenge (setting.sha256 proof.challenge)) .rejected
  require (c.Admits now purpose device proof) .rejected
  pure (device, c)

def consume (c : Challenge) : Tx Unit :=
  modify fun r => { r with challenges := Rows.put Challenge.nonce { c with used := true } r.challenges }

def register (uuid : String) (proof : Proof) (purpose : Purpose) (device : String) (c : Challenge) :
    Tx Device := do
  require (purpose = .activate) .rejected
  let r ← get
  let hash ← found c.invite .rejected
  let grant ← found (r.invite hash) .rejected
  require (grant.revoked = false ∧ grant.device = none) .rejected
  require (∀ d ∈ r.devices, d.device ≠ device ∧ d.publicKey ≠ proof.publicIdentity ∧
    d.wg ≠ proof.wg ∧ d.tcp ≠ uuid) .integrity
  require (∀ i ∈ r.invites, i.device ≠ some device) .integrity
  let row : Device :=
    { device := device, publicKey := proof.publicIdentity, wg := proof.wg, tcp := uuid }
  set { r with devices := r.devices ++ [row],
               invites := Rows.put Invite.hash { grant with device := some device } r.invites }
  pure row

def enrolled (uuid : String) (proof : Proof) (purpose : Purpose) (device : String) (c : Challenge) :
    Tx Device := do
  let r ← get
  match r.device device with
  | some row => pure row
  | none => register uuid proof purpose device c

/-- `registered` of `support_ids` -/
def registered (draws : List String) (device : String) : Tx Unit := do
  let r ← get
  match r.supportOf device with
  | some _ => pure ()
  | none => do
    require (r.device device ≠ none) .rejected
    let supportId ← found ((draws.take 32).find? fun id => r.support.all
      fun row => decide (row.supportId ≠ id)) .allocation
    set { r with support := r.support ++ [({ device := device, supportId := supportId } : Support)] }

structure Configured where
  device : String
  publicKey : String
  tcpId : String
  deriving DecidableEq

def complete (now : Nat) (uuid : String) (draws : List String) (proof : Proof) (purpose : Purpose) :
    Tx Configured := do
  let (device, c) ← answered setting now proof purpose
  let row ← enrolled uuid proof purpose device c
  require (row.revoked = false ∧ row.publicKey = proof.publicIdentity ∧ row.wg = proof.wg) .rejected
  consume c
  (if purpose ≠ .support then registered draws device else pure ())
  pure ⟨device, row.wg, row.tcp⟩

structure Report where
  device : String
  registered : Bool
  revoked : Bool
  active : Bool
  deriving DecidableEq

def Registry.report (r : Registry) (proof : Proof) (device : String) : Report :=
  match r.device device with
  | none => ⟨device, false, false, false⟩
  | some row =>
    let revoked := row.revoked || (r.inviteOf device).any (·.revoked)
    ⟨device, true, revoked, !revoked && decide (row.publicKey = proof.publicIdentity ∧
      row.wg = proof.wg)⟩

def status (now : Nat) (proof : Proof) : Tx Report := do
  let (device, c) ← answered setting now proof .status
  consume c
  let r ← get
  pure (r.report proof device)

end FamilyConnect.Friends
