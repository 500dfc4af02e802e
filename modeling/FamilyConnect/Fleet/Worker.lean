import FamilyConnect.Fleet.Gateway
import FamilyConnect.Fleet.Lawful
import FamilyConnect.Lib.Crew

/-!
# Workers between the store and the gateways

Source: `control/fleet_worker.py` and `recover` of `control/fleet_gateway.py`.
Any number of workers run over one store and the gateways. A command can be lost
on its way, or its answer, and whatever was sent can arrive again at any time.
-/

namespace FamilyConnect.Fleet

open Lib

inductive Call where
  | expire
  | pending (limit : Nat)
  | workItem (id generation : Nat)
  | execute (command : PeerCommand)
  | markReady (id generation : Nat)
  | confirmRemoved (id generation : Nat)
  | unfinished (gatewayId : String)
  | restore (command : PeerCommand)

abbrev Call.Answer : Call → Type
  | .expire | .pending _ => List Lease
  | .workItem _ _ => LeaseWork
  | .execute _ | .restore _ => PeerCommand
  | .markReady _ _ | .confirmRemoved _ _ => Lease
  | .unfinished _ => List PeerCommand

/-- A receipt tells the command that it is for. -/
abbrev calls : Interface := ⟨Call, Call.Answer⟩

inductive Trouble where
  | rejected (failure : Failure)
  | fence (fence : Fence)
  | other
  deriving DecidableEq

abbrev Action := Program calls Trouble

def call (c : Call) : Action c.Answer := Program.perform (I := calls) c

inductive Result where
  | ready
  | released
  | stateChanged
  | retry
  deriving DecidableEq

/-- The arguments of `PeerCommand` in `process`, if they are valid. -/
def commandOf (lease : Lease) (wg : String) : Option PeerCommand :=
  let operation := if lease.state = .reserved then .present else .absent
  if h : lease.transport ≠ .vlessReality ∧ lease.transport.speaks lease.version = true ∧
      lease.generation = if operation = .present then 1 else 2 then
    some { leaseId := lease.id, gatewayId := lease.gatewayId, device := lease.device, wg := wg,
           address := lease.address, transport := lease.transport, version := lease.version
           expiresAt := lease.expiresAt, operation := operation, peer := h.1, spoken := h.2.1 }
  else none

/-- The `try` block of `process`. -/
def reconcile (lease : Lease) : Action Result := do
  let work ← call (.workItem lease.id lease.generation)
  match commandOf lease work.wg with
  | none => throw .other
  | some command => do
    let answer ← call (.execute command)
    if answer ≠ command then throw .other
    else if command.operation = .present then do
      let _ ← call (.markReady lease.id lease.generation)
      pure .ready
    else do
      let _ ← call (.confirmRemoved lease.id lease.generation)
      pure .released

def process (lease : Lease) : Action Result :=
  tryCatch (reconcile lease) fun trouble =>
    match trouble with
    | .rejected .stopIteration => pure .retry
    | .rejected _ => pure .stateChanged
    | _ => pure .retry

def processAll : List Lease → Action (List (Nat × Result))
  | [] => pure []
  | lease :: rest => do
    let result ← process lease
    let results ← processAll rest
    pure ((lease.id, result) :: results)

def once (limit : Nat := 100) : Action (List (Nat × Result)) := do
  let _ ← call .expire
  let leases ← call (.pending limit)
  processAll leases

def restoreAll : List PeerCommand → Action (List PeerCommand)
  | [] => pure []
  | command :: rest => do
    let receipt ← call (.restore command)
    let receipts ← restoreAll rest
    pure (receipt :: receipts)

def recover (gatewayId : String) : Action (List PeerCommand) := do
  let commands ← call (.unfinished gatewayId)
  restoreAll commands

/-! ## The fleet -/

structure World where
  store : Db
  gateways : String → FencedGateway
  sent : List PeerCommand := []
  receipts : List PeerCommand := []

structure Choice where
  now : Nat := 0
  turn : Turn := {}
  lost : Bool := false
  answerLost : Bool := false

namespace World

def ask {α : Type} (w : World) (t : Tx α) : Except Trouble α × World :=
  ((t.commit w.store).1.mapError .rejected, { w with store := (t.commit w.store).2 })

def deliver (w : World) (turn : Turn) (restore : Bool) (command : PeerCommand) :
    Except Trouble PeerCommand × World :=
  let outcome := (w.gateways command.gatewayId).execute turn restore command
  (outcome.1.mapError .fence,
    { w with
      gateways := Function.update w.gateways command.gatewayId outcome.2
      receipts := match outcome.1 with
        | .ok receipt => receipt :: w.receipts | .error _ => w.receipts })

def exec (_ : Nat) (c : Call) (choice : Choice) (w : World) : Except Trouble c.Answer × World :=
  match c with
  | .expire => w.ask (Fleet.expire choice.now)
  | .pending limit => w.ask (Fleet.pending choice.now limit)
  | .workItem id generation => w.ask (Fleet.workItem choice.now id generation)
  | .markReady id generation => w.ask (Fleet.markReady choice.now id generation)
  | .confirmRemoved id generation => w.ask (Fleet.confirmRemoved choice.now id generation)
  | .execute command =>
    if choice.lost then (.error .other, { w with sent := command :: w.sent })
    else
      let outcome := World.deliver { w with sent := command :: w.sent } choice.turn false command
      (if choice.answerLost then .error .other else outcome.1, outcome.2)
  | .unfinished gatewayId => (.ok (w.gateways gatewayId).unfinished, w)
  | .restore command => w.deliver choice.turn true command

def external : Operation → Bool
  | .markReady _ _ | .confirmRemoved _ _ => false
  | _ => true

inductive Other (setting : Setting) : World → World → Prop where
  | operate {w : World} (now : Nat) (operation : Operation) : external operation = true →
      Other setting w { w with store := (operation.perform setting now w.store).2 }
  | replay {w : World} (turn : Turn) (command : PeerCommand) : command ∈ w.sent →
      Other setting w (w.deliver turn false command).2

end World

abbrev site : Site calls Trouble := ⟨Nat, World, Choice, World.exec⟩

inductive May : Nat → Action Unit → Prop where
  | once (n limit : Nat) : May n (do let _ ← once limit)
  | recover (n : Nat) (gatewayId : String) : May n (do let _ ← recover gatewayId)

def World.Blank (setting : Setting) (w : World) : Prop :=
  (fleetSystem setting).initial w.store ∧ (∀ id, (w.gateways id).rows = [] ∧
    (w.gateways id).peers = []) ∧ w.sent = [] ∧ w.receipts = []

def fleet (setting : Setting) : System site.State :=
  site.crew May (fun _ w => w) (World.Other setting) (World.Blank setting)

end FamilyConnect.Fleet
