import FamilyConnect.Fleet.Store

/-!
# The fence of a gateway

Source: `control/fleet_gateway.py`. One execution holds the lock of the gateway
from its first read to its last write, so it is one step; `cut` says where the
process died. The canonical form of a command and of its binding are the values
themselves, and the generation of a command is that of its operation.
-/

namespace FamilyConnect.Fleet

open Lib

inductive PeerOperation where
  | present
  | absent
  deriving DecidableEq

/-- `binding()`: a command without generation and operation. -/
structure Binding where
  leaseId : Nat
  gatewayId : String
  device : String
  wg : String
  address : Nat
  transport : Transport
  version : Version
  expiresAt : Nat
  deriving DecidableEq

structure PeerCommand extends Binding where
  operation : PeerOperation
  peer : transport ≠ .vlessReality := by decide
  spoken : transport.speaks version = true := by decide
  deriving DecidableEq

def PeerCommand.generation (command : PeerCommand) : Nat :=
  if command.operation = .present then 1 else 2

theorem PeerCommand.generation_le {command other : PeerCommand}
    (h : command.generation ≤ other.generation) (hAbsent : command.operation = .absent) :
    other.operation = .absent := by
  unfold PeerCommand.generation at h
  cases hOp : other.operation with
  | absent => rfl
  | present =>
    rw [hAbsent, hOp] at h
    exact absurd h (by decide)

theorem PeerCommand.generation_absent {command : PeerCommand} (h : command.operation = .absent) :
    command.generation = 2 := by
  rw [PeerCommand.generation, h]
  rfl

structure CommandRow where
  command : PeerCommand
  held : Bool
  done : Bool
  deriving DecidableEq

def CommandRow.leaseId (row : CommandRow) : Nat := row.command.leaseId

structure Peer where
  wg : String
  address : Nat
  leaseId : Nat
  deriving DecidableEq

structure FencedGateway where
  gateway : Gateway
  lastNow : Nat := 0
  rows : List CommandRow := []
  peers : List Peer := []

inductive Fence where
  | gatewayBinding
  | gatewayState
  | staleOrConflicting
  | expired
  | commandConflict
  | resourceOwned
  | backend
  | crashed
  deriving DecidableEq

inductive Cut where
  | afterJournal
  | afterEffect
  deriving DecidableEq

structure Turn where
  now : Nat := 0
  preflight : Bool := true
  cut : Option Cut := none

namespace FencedGateway

def row (g : FencedGateway) (leaseId : Nat) : Option CommandRow :=
  Rows.get CommandRow.leaseId leaseId g.rows

def ensure (command : PeerCommand) (peers : List Peer) : List Peer :=
  match command.operation with
  | .present => ⟨command.wg, command.address, command.leaseId⟩ :: peers.filter (·.wg ≠ command.wg)
  | .absent => peers.filter (·.wg ≠ command.wg)

def apply (g : FencedGateway) (turn : Turn) (command : PeerCommand) (old : Option CommandRow) :
    Except Fence PeerCommand × FencedGateway :=
  let neverInstalled := old.isNone && decide (command.operation = .absent)
  let held := decide (command.operation = .present) || old.any (·.held)
  -- The unique indexes `held_ip` and `held_key`.
  if held = true ∧ ∃ row ∈ g.rows, row.leaseId ≠ command.leaseId ∧ row.held = true ∧
      (row.command.address = command.address ∨ row.command.wg = command.wg)
        then (.error .resourceOwned, g)
  else
    let journaled :=
      { g with lastNow := turn.now,
               rows := Rows.put CommandRow.leaseId ⟨command, held, neverInstalled⟩ g.rows }
    if neverInstalled then (.ok command, journaled)
    else
      match turn.cut with
      | some .afterJournal => (.error .crashed, journaled)
      | some .afterEffect => (.error .crashed, { journaled with peers := ensure command g.peers })
      | none =>
        (.ok command, { journaled with
          peers := ensure command g.peers
          rows := Rows.put CommandRow.leaseId ⟨command, decide (command.operation = .present),
            true⟩ journaled.rows })

def execute (g : FencedGateway) (turn : Turn) (restore : Bool) (command : PeerCommand) :
    Except Fence PeerCommand × FencedGateway :=
  let old := g.row command.leaseId
  if command.gatewayId ≠ g.gateway.id ∨ ¬g.gateway.pool.Hosts command.address ∨
      ¬∃ e ∈ g.gateway.endpoints, e.transport = command.transport ∧
        e.version = command.version then (.error .gatewayBinding, g)
  else if turn.now < g.lastNow then (.error .gatewayState, g)
  else if (old.any fun row => decide (row.command.toBinding ≠ command.toBinding ∨
    command.generation < row.command.generation)) = true then
    (.error .staleOrConflicting, g)
  else if command.operation = .present ∧ command.expiresAt ≤ turn.now then (.error .expired, g)
  else if (old.any fun row => decide (row.command.generation = command.generation ∧
    row.command ≠ command)) = true then
    (.error .commandConflict, g)
  else if (old.any fun row => decide (row.command.generation = command.generation) && row.done &&
      !(restore && decide (command.operation = .present))) = true then (.ok command, g)
  else if old = none ∧ command.operation = .present ∧ turn.preflight = false then (.error .backend, g)
  else g.apply turn command old

/-- `ORDER BY generation DESC,lease_id` -/
def restoresBefore (row other : CommandRow) : Prop :=
  other.command.generation < row.command.generation ∨
    row.command.generation = other.command.generation ∧ row.leaseId ≤ other.leaseId

instance : DecidableRel restoresBefore := fun _ _ => inferInstanceAs (Decidable (_ ∨ _ ∧ _))

def unfinished (g : FencedGateway) : List PeerCommand :=
  ((g.rows.filter fun row => row.held || !row.done).insertionSort restoresBefore).map (·.command)

/-! ## The fence -/

def Fenced (g : FencedGateway) (leaseId : Nat) : Prop :=
  ∃ row, g.row leaseId = some row ∧ row.command.operation = .absent ∧ row.done = true

structure Inv (g : FencedGateway) : Prop where
  keyed : Rows.Keyed CommandRow.leaseId g.rows
  held : ∀ row ∈ g.rows, row.held = true ↔ ¬(row.command.operation = .absent ∧ row.done = true)
  apart : ∀ row ∈ g.rows, ∀ other ∈ g.rows, row.held = true → other.held = true →
    row.command.address = other.command.address ∨ row.command.wg = other.command.wg →
      row.leaseId = other.leaseId
  peers : ∀ p ∈ g.peers, ∃ row ∈ g.rows, row.held = true ∧ row.leaseId = p.leaseId ∧
    row.command.wg = p.wg ∧ row.command.address = p.address

structure Grows (g g' : FencedGateway) : Prop where
  gateway : g'.gateway = g.gateway
  rows : ∀ leaseId row, g.row leaseId = some row → ∃ row', g'.row leaseId = some row' ∧
    row'.command.toBinding = row.command.toBinding ∧
      (row.command.operation = .absent → row'.command.operation = .absent)
  fenced : ∀ leaseId, g.Fenced leaseId → g'.Fenced leaseId

variable {g g' : FencedGateway} {turn : Turn} {restore : Bool} {command : PeerCommand}
  {old : Option CommandRow} {leaseId : Nat}

theorem Grows.refl (g : FencedGateway) : g.Grows g :=
  ⟨rfl, fun _ row hRow => ⟨row, hRow, rfl, fun h => h⟩, fun _ h => h⟩

theorem Grows.trans {g'' : FencedGateway} (h : g.Grows g') (h' : g'.Grows g'') : g.Grows g'' := by
  refine ⟨h'.gateway.trans h.gateway, fun leaseId row hRow => ?_,
    fun leaseId hFenced => h'.fenced leaseId (h.fenced leaseId hFenced)⟩
  obtain ⟨row', hRow', hBinding, hAbsent⟩ := h.rows leaseId row hRow
  obtain ⟨row'', hRow'', hBinding', hAbsent'⟩ := h'.rows leaseId row' hRow'
  exact ⟨row'', hRow'', hBinding'.trans hBinding, fun hOld => hAbsent' (hAbsent hOld)⟩

theorem Inv.no_peer (h : g.Inv) (hFenced : g.Fenced leaseId) : ∀ p ∈ g.peers, p.leaseId ≠ leaseId := by
  rintro p hMem rfl
  obtain ⟨row, hRow, hAbsent, hDone⟩ := hFenced
  obtain ⟨row', hMem', hHeld, hLease, -, -⟩ := h.peers p hMem
  have hSame := h.keyed.get hMem'
  rw [hLease] at hSame
  cases hRow.symm.trans hSame
  exact (h.held row hMem').mp hHeld ⟨hAbsent, hDone⟩

theorem execute_fenced (hFenced : g.Fenced command.leaseId) (turn : Turn) (restore : Bool) :
    (g.execute turn restore command).2 = g := by
  obtain ⟨row, hRow, hAbsent, hDone⟩ := hFenced
  unfold execute
  dsimp only
  rw [hRow]
  split
  · rfl
  · split
    · rfl
    · split
      · rfl
      · rename_i hNotStale
        split
        · rfl
        · split
          · rfl
          · split
            · rfl
            · -- A later generation than the removal does not exist.
              rename_i hNotDone
              simp only [Option.any_some, decide_eq_true_eq, not_or, not_not, not_lt] at hNotStale
              have hOp := PeerCommand.generation_le hNotStale.2 hAbsent
              have hGeneration : row.command.generation = command.generation := by
                rw [PeerCommand.generation_absent hAbsent, PeerCommand.generation_absent hOp]
              simp [hGeneration, hDone, hOp] at hNotDone

/-! ## Executions keep the fence -/

variable {peers : List Peer} {new : CommandRow}

abbrev wrote (g : FencedGateway) (now : Nat) (new : CommandRow) (peers : List Peer) : FencedGateway :=
  { g with lastNow := now, rows := Rows.put CommandRow.leaseId new g.rows, peers := peers }

theorem row_wrote (g : FencedGateway) (now : Nat) (new : CommandRow) (peers : List Peer)
    (leaseId : Nat) :
    (g.wrote now new peers).row leaseId = if new.leaseId = leaseId then some new else g.row leaseId :=
  Rows.get_put _ leaseId new g.rows

/-- Other rows that are held have another address and another key. -/
def Apart (g : FencedGateway) (command : PeerCommand) : Prop :=
  ∀ row ∈ g.rows, row.leaseId ≠ command.leaseId → row.held = true →
    ¬(row.command.address = command.address ∨ row.command.wg = command.wg)

/-- A peer is the one of the command, if its row is held, or an old one of another lease. -/
def Owned (g : FencedGateway) (command : PeerCommand) (held : Bool) (p : Peer) : Prop :=
  p.leaseId = command.leaseId ∧ held = true ∧ command.wg = p.wg ∧ command.address = p.address ∨
    p.leaseId ≠ command.leaseId ∧ p ∈ g.peers

theorem Inv.put (h : g.Inv) (now : Nat) (hHeld : new.held = true ↔
    ¬(new.command.operation = .absent ∧ new.done = true)) (hApart : new.held = true →
      g.Apart new.command) (hPeers : ∀ p ∈ peers, g.Owned new.command new.held p) :
    (g.wrote now new peers).Inv := by
  constructor
  case keyed => exact h.keyed.put new
  case held =>
    exact Rows.forall_put h.held hHeld
  case apart =>
    intro row hMem other hMem' hRow hOther hSame
    rcases h.keyed.mem_put hMem with rfl | ⟨hOld, hKey⟩
    · rcases h.keyed.mem_put hMem' with rfl | ⟨hOld', hKey'⟩
      · rfl
      · exact absurd (hSame.imp Eq.symm Eq.symm) (hApart hRow other hOld' hKey' hOther)
    · rcases h.keyed.mem_put hMem' with rfl | ⟨hOld', -⟩
      · exact absurd hSame (hApart hOther row hOld hKey hRow)
      · exact h.apart row hOld other hOld' hRow hOther hSame
  case peers =>
    intro p hMem
    rcases hPeers p hMem with ⟨hLease, hNew, hWg, hAddress⟩ | ⟨hLease, hOld⟩
    · exact ⟨new, Rows.mem_put_self _ new g.rows, hNew, hLease.symm, hWg, hAddress⟩
    · obtain ⟨row, hRow, hRowHeld, hRowLease, hRest⟩ := h.peers p hOld
      exact ⟨row, Rows.mem_put_other hRow (by rw [hRowLease]; exact hLease), hRowHeld, hRowLease,
        hRest⟩

structure Fits (g : FencedGateway) (command : PeerCommand) : Prop where
  binding : ∀ row, g.row command.leaseId = some row → row.command.toBinding = command.toBinding
  forward : ∀ row, g.row command.leaseId = some row → row.command.operation = .absent →
    command.operation = .absent ∧ row.done = false

structure Executed (g : FencedGateway) (command : PeerCommand)
    (outcome : Except Fence PeerCommand × FencedGateway) : Prop where
  inv : outcome.2.Inv
  grows : g.Grows outcome.2
  rows : ∀ leaseId row, outcome.2.row leaseId = some row → g.row leaseId = some row ∨
    row.command = command
  receipt : ∀ answer, outcome.1 = .ok answer → answer = command ∧
    (command.operation = .absent → outcome.2.Fenced command.leaseId)

theorem Inv.held_of (h : g.Inv) {row : CommandRow} (hRow : g.row leaseId = some row)
    (hOpen : row.command.operation = .absent → row.done = false) : row.held = true := by
  refine (h.held row (Rows.mem_of_get hRow)).mpr fun hDone => ?_
  rw [hOpen hDone.1] at hDone
  cases hDone.2

theorem Inv.peer_of (h : g.Inv) (hFits : g.Fits command) {p : Peer} (hMem : p ∈ g.peers)
    (hLease : p.leaseId = command.leaseId) :
    g.row command.leaseId ≠ none ∧ command.wg = p.wg ∧ command.address = p.address := by
  obtain ⟨row, hRow, -, hRowLease, hWg, hAddress⟩ := h.peers p hMem
  have hSame := h.keyed.get hRow
  rw [hRowLease, hLease] at hSame
  have hBinding := hFits.binding row hSame
  refine ⟨fun hNone => ?_, ?_, ?_⟩
  · cases hSame.symm.trans hNone
  · rw [← hWg, ← hBinding]
  · rw [← hAddress, ← hBinding]

theorem grows_put (hFits : g.Fits command) {now : Nat} (hNew : new.command = command) :
    g.Grows (g.wrote now new peers) := by
  have hLeaseId : new.leaseId = command.leaseId := by rw [CommandRow.leaseId, hNew]
  refine ⟨rfl, fun leaseId row hRow => ?_, fun leaseId hFenced => ?_⟩
  · rw [row_wrote]
    split
    · rename_i hSame
      rw [← hSame, hLeaseId] at hRow
      refine ⟨new, rfl, ?_, fun hAbsent => ?_⟩
      · rw [hNew, hFits.binding row hRow]
      · rw [hNew]
        exact (hFits.forward row hRow hAbsent).1
    · exact ⟨row, hRow, rfl, fun h => h⟩
  · obtain ⟨row, hRow, hAbsent, hDone⟩ := hFenced
    refine ⟨row, ?_, hAbsent, hDone⟩
    rw [row_wrote, if_neg, hRow]
    intro hSame
    rw [← hSame, hLeaseId] at hRow
    rw [(hFits.forward row hRow hAbsent).2] at hDone
    cases hDone

theorem executed_put (h : g.Inv) (hFits : g.Fits command) {now : Nat}
    {result : Except Fence PeerCommand} (hNew : new.command = command)
    (hHeld : new.held = true ↔ ¬(new.command.operation = .absent ∧ new.done = true))
    (hApart : new.held = true → g.Apart command) (hPeers : ∀ p ∈ peers, g.Owned command new.held p)
    (hResult : ∀ answer, result = .ok answer → answer = command ∧ new.done = true) :
    Executed g command (result, g.wrote now new peers) := by
  subst hNew
  refine ⟨h.put now hHeld hApart hPeers, grows_put hFits rfl, fun leaseId row hRow => ?_,
    fun answer hOk => ?_⟩
  · rw [row_wrote] at hRow
    split at hRow
    · cases hRow
      exact .inr rfl
    · exact .inl hRow
  · obtain ⟨hAnswer, hDone⟩ := hResult answer hOk
    exact ⟨hAnswer, fun hAbsent => ⟨new, by rw [row_wrote]; exact if_pos rfl, hAbsent, hDone⟩⟩

theorem executed_apply (h : g.Inv) (hFits : g.Fits command) (turn : Turn) :
    Executed g command (g.apply turn command (g.row command.leaseId)) := by
  unfold apply
  dsimp only
  split
  · exact ⟨h, .refl g, fun _ _ hRow => .inl hRow, by rintro _ ⟨⟩⟩
  · rename_i hFree
    have hApart : (decide (command.operation = .present) || (g.row command.leaseId).any (·.held)) =
        true → g.Apart command :=
      fun hHeld row hMem hLease hRowHeld hSame => hFree ⟨hHeld, row, hMem, hLease, hRowHeld, hSame⟩
    have hKept : ∀ held : Bool, (g.row command.leaseId ≠ none → held = true) →
        ∀ p ∈ g.peers, g.Owned command held p := by
      intro held hHeld p hMem
      by_cases hLease : p.leaseId = command.leaseId
      · obtain ⟨hSome, hWg, hAddress⟩ := h.peer_of hFits hMem hLease
        exact .inl ⟨hLease, hHeld hSome, hWg, hAddress⟩
      · exact .inr ⟨hLease, hMem⟩
    split
    · rename_i hNever
      obtain ⟨hNone, hAbsent⟩ := (Bool.and_eq_true _ _).mp hNever
      rw [Option.isNone_iff_eq_none] at hNone
      have hOp := of_decide_eq_true hAbsent
      refine executed_put h hFits rfl ?_ ?_ ?_ ?_
      · simp [hNone, hOp]
      · simp [hNone, hOp]
      · exact hKept _ fun hSome => absurd hNone hSome
      · rintro answer ⟨⟩
        exact ⟨rfl, hNever⟩
    · rename_i hNotNever
      have hNotNever' : ((g.row command.leaseId).isNone && decide (command.operation = .absent)) =
        false := Bool.eq_false_iff.mpr hNotNever
      have hHeld : (decide (command.operation = .present) || (g.row command.leaseId).any (·.held)) =
          true := by
        cases hOp : command.operation with
        | present => rfl
        | absent =>
          cases hRow : g.row command.leaseId with
          | none => simp [hRow, hOp] at hNotNever'
          | some row => simp [h.held_of hRow fun hAbsent => (hFits.forward row hRow hAbsent).2]
      -- The peers after the effect.
      have hEffect : ∀ held : Bool, (command.operation = .present → held = true) →
          ∀ p ∈ ensure command g.peers, g.Owned command held p := by
        intro held hPresent p hMem
        have hOthers : p ∈ g.peers.filter (·.wg ≠ command.wg) → p.leaseId ≠ command.leaseId ∧
            p ∈ g.peers := by
          intro hOld
          obtain ⟨hOld, hWg⟩ := List.mem_filter.mp hOld
          refine ⟨fun hLease => ?_, hOld⟩
          exact of_decide_eq_true hWg (h.peer_of hFits hOld hLease).2.1.symm
        unfold ensure at hMem
        split at hMem
        · rename_i hOp
          rcases List.mem_cons.mp hMem with rfl | hOld
          · exact .inl ⟨rfl, hPresent hOp, rfl, rfl⟩
          · exact .inr (hOthers hOld)
        · exact .inr (hOthers hMem)
      rw [hNotNever', hHeld]
      split
      · exact executed_put h hFits rfl (by simp) (fun _ => hApart hHeld) (hKept true fun _ => rfl)
          (by rintro _ ⟨⟩)
      · exact executed_put h hFits rfl (by simp) (fun _ => hApart hHeld) (hEffect true fun _ => rfl)
          (by rintro _ ⟨⟩)
      · have hPut : ∀ done : CommandRow, done.command = command → Rows.put CommandRow.leaseId done
            (Rows.put CommandRow.leaseId ⟨command, true, false⟩ g.rows) =
              Rows.put CommandRow.leaseId done g.rows := by
          intro done hDone
          refine Rows.put_put ?_
          rw [CommandRow.leaseId, CommandRow.leaseId, hDone]
        rw [hPut _ rfl]
        refine executed_put h hFits rfl ?_ (fun _ => hApart hHeld)
          (hEffect _ fun hOp => decide_eq_true hOp) ?_
        · cases hOp : command.operation <;> simp
        · rintro answer ⟨⟩
          exact ⟨rfl, rfl⟩

theorem executed_execute (h : g.Inv) (turn : Turn) (restore : Bool) (command : PeerCommand) :
    Executed g command (g.execute turn restore command) := by
  have hSame : ∀ result : Except Fence PeerCommand, (∀ answer, result ≠ .ok answer) →
      Executed g command (result, g) :=
    fun result hError => ⟨h, .refl g, fun _ _ hRow => .inl hRow,
      fun answer hOk => absurd hOk (hError answer)⟩
  unfold execute
  dsimp only
  split
  · exact hSame _ nofun
  · split
    · exact hSame _ nofun
    · split
      · exact hSame _ nofun
      · rename_i hNotStale
        split
        · exact hSame _ nofun
        · split
          · exact hSame _ nofun
          · have hMatches : ∀ row, g.row command.leaseId = some row →
                row.command.toBinding = command.toBinding ∧ row.command.generation ≤
                  command.generation := by
              intro row hRow
              simpa [hRow, not_or] using hNotStale
            split
            · rename_i hDone
              refine ⟨h, .refl g, fun _ _ hRow => .inl hRow, ?_⟩
              rintro answer ⟨⟩
              refine ⟨rfl, fun hAbsent => ?_⟩
              cases hRow : g.row command.leaseId with
              | none => simp [hRow] at hDone
              | some row =>
                simp only [hRow, Option.any_some, Bool.and_eq_true, decide_eq_true_eq] at hDone
                exact ⟨row, hRow, PeerCommand.generation_le hDone.1.1.ge hAbsent, hDone.1.2⟩
            · rename_i hNotDone
              split
              · exact hSame _ nofun
              · refine executed_apply h ⟨fun row hRow => (hMatches row hRow).1,
                  fun row hRow hAbsent => ?_⟩ turn
                have hOp := PeerCommand.generation_le (hMatches row hRow).2 hAbsent
                refine ⟨hOp, ?_⟩
                have hGeneration : row.command.generation = command.generation := by
                  rw [PeerCommand.generation_absent hAbsent, PeerCommand.generation_absent hOp]
                simpa [hRow, hGeneration, hOp] using hNotDone

end FencedGateway

end FamilyConnect.Fleet
