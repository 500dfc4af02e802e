import FamilyConnect.Fleet.Worker

/-!
# Removed peers stay removed

The store gives an address away again only after a gateway has answered that the
peer of the old lease is absent, and after that answer nothing that is still under
way for the old lease can change the gateway.
-/

namespace FamilyConnect.Fleet

open Lib Transaction

variable {w w' : World} {l l' : Lease} {command : PeerCommand} {id now n : Nat} {gatewayId : String}
  {setting : Setting} {generation : Nat}

def World.Removed (w : World) (gatewayId : String) (id : Nat) : Prop :=
  ∃ receipt ∈ w.receipts, receipt.gatewayId = gatewayId ∧ receipt.leaseId = id ∧
    receipt.operation = .absent

structure World.Inv (w : World) : Prop where
  store : w.store.Inv
  gateways : ∀ gatewayId, (w.gateways gatewayId).Inv
  receipts : ∀ gatewayId id, w.Removed gatewayId id → (w.gateways gatewayId).Fenced id
  released : ∀ id l, w.store.lease id = some l → l.state = .released → w.Removed l.gatewayId id

structure World.Grows (w w' : World) : Prop where
  leases : ∀ id l, w.store.lease id = some l → ∃ l', w'.store.lease id = some l' ∧ l.Moves l'
  gateways : ∀ gatewayId, (w.gateways gatewayId).Grows (w'.gateways gatewayId)
  receipts : ∀ receipt ∈ w.receipts, receipt ∈ w'.receipts
  new : ∀ id l', w'.store.lease id = some l' → (∃ l, w.store.lease id = some l) ∨
    ∀ i m, w.store.lease i = some m → m.gatewayId = l'.gatewayId → m.address = l'.address →
      w'.Removed m.gatewayId i

theorem World.Grows.refl (w : World) : w.Grows w :=
  ⟨fun _ l h => ⟨l, h, .refl l⟩, fun _ => .refl _, fun _ h => h, fun _ l' h => .inl ⟨l', h⟩⟩

theorem World.Removed.mono (h : w.Removed gatewayId id)
    (hReceipts : ∀ receipt ∈ w.receipts, receipt ∈ w'.receipts) : w'.Removed gatewayId id := by
  obtain ⟨receipt, hMem, hReceipt⟩ := h
  exact ⟨receipt, hReceipts receipt hMem, hReceipt⟩

theorem World.Grows.trans {w'' : World} (h : w.Grows w') (h' : w'.Grows w'') : w.Grows w'' := by
  constructor
  case leases =>
    intro id l hL
    obtain ⟨l', hL', hMoves⟩ := h.leases id l hL
    obtain ⟨l'', hL'', hMoves'⟩ := h'.leases id l' hL'
    exact ⟨l'', hL'', hMoves.trans hMoves'⟩
  case gateways => exact fun gatewayId => (h.gateways gatewayId).trans (h'.gateways gatewayId)
  case receipts => exact fun receipt hMem => h'.receipts receipt (h.receipts receipt hMem)
  case new =>
    intro id l'' hL''
    rcases h'.new id l'' hL'' with ⟨l', hL'⟩ | hFree
    · obtain ⟨same, hSame, hMoves⟩ := h'.leases id l' hL'
      cases hL''.symm.trans hSame
      refine (h.new id l' hL').imp_right fun hFree i m hM hGateway hAddress => ?_
      rw [hMoves.same] at hGateway hAddress
      exact (hFree i m hM hGateway hAddress).mono h'.receipts
    · -- The other lease was there already, and is where it was.
      refine .inr fun i m hM hGateway hAddress => ?_
      obtain ⟨m', hM', hMoves⟩ := h.leases i m hM
      have hSame : m'.gatewayId = m.gatewayId ∧ m'.address = m.address := by
        rw [hMoves.same]
        exact ⟨rfl, rfl⟩
      rw [← hSame.1] at hGateway ⊢
      rw [← hSame.2] at hAddress
      exact hFree i m' hM' hGateway hAddress

def fleetTerms : site.Terms where
  inv := World.Inv
  grows := World.Grows
  refl := World.Grows.refl
  trans := World.Grows.trans

theorem World.Removed.grows (h : w.Removed gatewayId id) (hGrows : w.Grows w') :
    w'.Removed gatewayId id := h.mono hGrows.receipts

def World.Knows (w : World) (l : Lease) : Prop := ∃ l', w.store.lease l.id = some l' ∧ l.Moves l'

theorem World.Knows.grows (h : w.Knows l) (hGrows : w.Grows w') : w'.Knows l := by
  obtain ⟨l', hL', hMoves⟩ := h
  obtain ⟨l'', hL'', hMoves'⟩ := hGrows.leases l.id l' hL'
  exact ⟨l'', hL'', hMoves.trans hMoves'⟩

/-! ## What calls do -/

structure World.Step (w w' : World) : Prop where
  inv : w'.Inv
  grows : w.Grows w'

theorem World.Inv.store_next (h : w.Inv) {removed : Option Nat} {after : Db}
    (hNext : w.store.Next removed after) (hRemoved : ∀ id l, removed = some id →
      after.lease id = some l → w.Removed l.gatewayId id) : w.Step { w with store := after } := by
  refine ⟨⟨hNext.inv, h.gateways, h.receipts, fun id l hL hState => ?_⟩,
    ⟨hNext.forth, fun _ => .refl _, fun _ hMem => hMem, fun id l' hL' => ?_⟩⟩
  · rcases hNext.released id l hL hState with ⟨old, hOld, hOldState⟩ | hNew
    · obtain ⟨l', hL', hMoves⟩ := hNext.forth id old hOld
      cases hL.symm.trans hL'
      have hGateway : l.gatewayId = old.gatewayId := by rw [hMoves.same]
      rw [hGateway]
      exact h.released id old hOld hOldState
    · exact hRemoved id l hNew hL
  · -- A lease at the same address is not live any more.
    refine (hNext.new id l' hL').imp_right fun hFree i m hM hGateway hAddress => ?_
    have hReleased : m.state = .released := by
      by_contra hLive
      exact hFree m (Rows.mem_of_get hM) hLive (.inl ⟨hGateway, hAddress⟩)
    exact h.released i m hM hReleased

theorem World.Inv.ask {α : Type} {t : Tx α} (h : w.Inv)
    (hNext : t.Ensures (fun _ db' => w.store.Next none db') w.store) :
    w.Step (w.ask t).2 := h.store_next (hNext.commit (w.store.Next none)
      (h.store.moves (.refl w.store)) fun _ _ hStep => hStep) nofun

theorem World.Inv.confirmRemoved (h : w.Inv) (now generation : Nat) (hKnows : w.Knows l)
    (hRemoved : w.Removed l.gatewayId l.id) :
    w.Step (w.ask (Fleet.confirmRemoved now l.id generation)).2 := by
  have hNext : w.store.Next (some l.id) ((Fleet.confirmRemoved now l.id generation).commit
      w.store).2 :=
    (ensures_confirmRemoved h.store).commit _ (h.store.moves (.refl w.store)) fun _ _ hStep => hStep
  refine h.store_next hNext fun id after hId hAfter => ?_
  cases hId
  obtain ⟨l', hL', hMoves⟩ := hKnows
  obtain ⟨l'', hL'', hMoves'⟩ := hNext.forth l.id l' hL'
  cases hAfter.symm.trans hL''
  have hGateway : after.gatewayId = l.gatewayId := by rw [(hMoves.trans hMoves').same]
  rw [hGateway]
  exact hRemoved

theorem World.deliver_gateways {P : String → FencedGateway → Prop} {turn : Turn} {restore : Bool}
    (hOld : ∀ gatewayId, P gatewayId (w.gateways gatewayId))
    (hNew : P command.gatewayId ((w.gateways command.gatewayId).execute turn restore command).2)
    (gatewayId : String) : P gatewayId ((w.deliver turn restore command).2.gateways gatewayId) := by
  change P gatewayId (Function.update w.gateways command.gatewayId _ gatewayId)
  by_cases hSame : gatewayId = command.gatewayId
  · subst hSame
    rw [Function.update_self]
    exact hNew
  · rw [Function.update_of_ne hSame]
    exact hOld gatewayId

theorem World.Inv.deliver (h : w.Inv) (turn : Turn) (restore : Bool) (command : PeerCommand) :
    w.Step (w.deliver turn restore command).2 ∧ ∀ answer,
      (w.deliver turn restore command).1 = .ok answer → answer = command ∧
      command ∈ (w.deliver turn restore command).2.receipts := by
  have hExecuted := FencedGateway.executed_execute (h.gateways command.gatewayId) turn restore command
  have hReceipts : (w.deliver turn restore command).2.receipts = w.receipts ∧
      (∀ answer, (w.deliver turn restore command).1 ≠ .ok answer) ∨
        (w.deliver turn restore command).2.receipts = command :: w.receipts ∧
        (w.deliver turn restore command).1 = .ok command ∧
        ((w.gateways command.gatewayId).execute turn restore command).1 = .ok command := by
    unfold World.deliver
    dsimp only
    cases hResult : ((w.gateways command.gatewayId).execute turn restore command).1 with
    | error fence => exact .inl ⟨rfl, nofun⟩
    | ok receipt =>
      obtain ⟨rfl, -⟩ := hExecuted.receipt receipt hResult
      exact .inr ⟨rfl, rfl, rfl⟩
  have hGrows : w.Grows (w.deliver turn restore command).2 := by
    refine ⟨fun _ l hL => ⟨l, hL, .refl l⟩, ?_, fun receipt hMem => ?_, fun _ l hL => .inl ⟨l, hL⟩⟩
    · exact World.deliver_gateways (P := fun gatewayId g => (w.gateways gatewayId).Grows g)
        (fun _ => .refl _) hExecuted.grows
    · rcases hReceipts with ⟨hSame, -⟩ | ⟨hNew, -⟩
      · rw [hSame]
        exact hMem
      · rw [hNew]
        exact .tail _ hMem
  refine ⟨⟨⟨h.store, ?_, ?_, fun id l hL hState => (h.released id l hL hState).grows hGrows⟩,
    hGrows⟩, fun answer hOk => ?_⟩
  · exact World.deliver_gateways (P := fun _ g => g.Inv) h.gateways hExecuted.inv
  · rintro gatewayId id ⟨receipt, hMem, rfl, rfl, hAbsent⟩
    have hOld : receipt ∈ w.receipts →
        ((w.deliver turn restore command).2.gateways receipt.gatewayId).Fenced receipt.leaseId :=
      fun hMem => (hGrows.gateways receipt.gatewayId).fenced receipt.leaseId
        (h.receipts _ _ ⟨receipt, hMem, rfl, rfl, hAbsent⟩)
    rcases hReceipts with ⟨hSame, -⟩ | ⟨hNew, -, hResult⟩
    · rw [hSame] at hMem
      exact hOld hMem
    · rw [hNew] at hMem
      rcases List.mem_cons.mp hMem with rfl | hMem
      · change (Function.update w.gateways receipt.gatewayId _ receipt.gatewayId).Fenced
          receipt.leaseId
        rw [Function.update_self]
        exact (hExecuted.receipt receipt hResult).2 hAbsent
      · exact hOld hMem
  · rcases hReceipts with ⟨-, hError⟩ | ⟨hNew, hAnswer, -⟩
    · exact absurd hOk (hError answer)
    · cases hAnswer.symm.trans hOk
      rw [hNew]
      exact ⟨rfl, .head _⟩

/-! ## What the programs do -/

theorem ensures_pending {limit : Nat} {db : Db} (h : db.Inv) : (pending now limit).Ensures
    (fun leases db' => db.Next none db' ∧ ∀ l ∈ leases, db'.lease l.id = some l) db := by
  refine bind_positive ?_
  refine bind_opened fun _ => ?_
  refine bind_get (ensures_pure ⟨h.moves (.clock db now), fun l hMem => ?_⟩)
  have hSorted := List.mem_of_mem_take hMem
  rw [List.mem_insertionSort] at hSorted
  exact h.keyed.get (List.mem_of_mem_filter hSorted)

theorem ensures_workItem {db : Db} (h : db.Inv) :
    (workItem now id generation).Ensures (fun _ db' => db.Next none db') db := by
  have hClock : db.Next none { db with lastNow := now } := h.moves (.clock db now)
  refine bind_positive ?_
  refine bind_opened fun _ => ?_
  refine bind_readLease fun l _ => ?_
  refine bind_require fun _ => ?_
  refine ensures_bind ?_
  have hRest : (do
      let db ← get
      let access ← found (db.accessOf l.device) .stopIteration
      let registry ← found (db.registries.find? (·.revision = l.registryRevision)) .stopIteration
      let gateway ← found (registry.gateway l.gatewayId) .stopIteration
      pure ⟨l, gateway, access.publicKey, access.wg⟩ : Tx LeaseWork).Ensures
        (fun _ db' => db.Next none db') { db with lastNow := now } := by
    refine bind_get ?_
    refine bind_found fun access _ => ?_
    refine bind_found fun registry _ => ?_
    exact bind_found fun gateway _ => ensures_pure hClock
  split
  · exact bind_authorized fun a _ _ _ => ensures_require fun _ => hRest
  · exact ensures_pure (hRest)

open Program

variable {u : Nat} {s : site.State} {g : FencedGateway}

abbrev Behaves {α : Type} (u : Nat) (p : Action α) (w : World) : Prop :=
  p.Follows fleetTerms u (Returns (S := site) fun _ _ => True) w

theorem follows_ask {c : Call} {Q : c.Answer → World → Prop} (t : Choice → Tx c.Answer)
    (hExec : ∀ choice w, World.exec u c choice w = w.ask (t choice))
    (hNext : ∀ choice w', w.Grows w' → w'.Inv → (t choice).Ensures
      (fun a db' => w'.store.Next none db' ∧ Q a { w' with store := db' }) w'.store) :
    (call c).Follows fleetTerms u (Returns (S := site) Q) w := by
  refine follows_perform fun w' hGrows hInv choice => ?_
  change World.Inv (World.exec u c choice w').2 ∧ World.Grows w' (World.exec u c choice w').2 ∧
    Returns (S := site) Q (World.exec u c choice w').1 (World.exec u c choice w').2
  rw [hExec]
  have hEnsures := hNext choice w' hGrows hInv
  have hStep := hInv.ask (hEnsures.mono fun _ _ h => h.1)
  refine ⟨hStep.inv, hStep.grows, ?_⟩
  unfold World.ask
  cases hResult : ((t choice).commit w'.store).1 with
  | error failure => trivial
  | ok a => exact (hEnsures.committed hResult).2

theorem follows_execute : (call (.execute command)).Follows fleetTerms u
    (Returns (S := site) fun answer w' => answer = command → command ∈ World.receipts w') w := by
  refine follows_perform fun w' _ hInv choice => ?_
  have hSent : World.Inv { w' with sent := command :: w'.sent } :=
    ⟨hInv.store, hInv.gateways, hInv.receipts, hInv.released⟩
  have hSame : World.Grows w' { w' with sent := command :: w'.sent } :=
    ⟨fun _ l h => ⟨l, h, .refl l⟩, fun _ => .refl _, fun _ h => h, fun _ l h => .inl ⟨l, h⟩⟩
  obtain ⟨hStep, hAnswer⟩ := hSent.deliver choice.turn false command
  change World.Inv (World.exec u (.execute command) choice w').2 ∧
    World.Grows w' (World.exec u (.execute command) choice w').2 ∧
    Returns (S := site) _ (World.exec u (.execute command) choice w').1
      (World.exec u (.execute command) choice w').2
  unfold World.exec
  split
  · exact ⟨hSent, hSame, trivial⟩
  · refine ⟨hStep.inv, hSame.trans hStep.grows, ?_⟩
    split
    · trivial
    · cases hResult : (World.deliver { w' with sent := command :: w'.sent } choice.turn false
        command).1 with
      | error trouble => trivial
      | ok answer => exact fun _ => (hAnswer answer hResult).2

theorem commandOf_some {wg : String} (h : commandOf l wg = some command) :
    command.leaseId = l.id ∧ command.gatewayId = l.gatewayId := by
  obtain ⟨_, hSome⟩ := Option.dite_none_right_eq_some.mp h
  cases hSome
  exact ⟨rfl, rfl⟩

theorem follows_confirmRemoved (hKnows : w.Knows l) (hRemoved : w.Removed l.gatewayId l.id) :
    Behaves u (call (.confirmRemoved l.id generation)) w := by
  refine follows_step fun w' hGrows hInv choice => ?_
  have hStep := World.Inv.confirmRemoved hInv choice.now generation (hKnows.grows hGrows)
    (hRemoved.grows hGrows)
  exact ⟨hStep.inv, hStep.grows⟩

theorem follows_reconcile (hKnows : w.Knows l) : Behaves u (reconcile l) w := by
  refine follows_next (follows_ask (fun choice => Fleet.workItem choice.now l.id l.generation)
    (Q := fun _ _ => True) (fun _ _ => rfl)
    fun choice w' _ hInv => (ensures_workItem hInv.store).mono fun _ _ hNext => ⟨hNext, trivial⟩)
      fun work w₁ hGrows _ => ?_
  have hKnows₁ := hKnows.grows hGrows
  split
  · exact follows_raise
  · rename_i command hCommand
    obtain ⟨hId, hGateway⟩ := commandOf_some hCommand
    refine follows_next follows_execute fun answer w₂ hGrows₂ hReceipt => ?_
    split
    · exact follows_raise
    · rename_i hAnswer
      split
      · exact follows_done (follows_ask (fun choice => Fleet.markReady choice.now l.id l.generation)
          (Q := fun _ _ => True) (fun _ _ => rfl)
          fun choice w' _ hInv => (ensures_markReady hInv.store).mono fun _ _ hNext =>
            ⟨hNext, trivial⟩)
      · rename_i hAbsent
        have hRemoved : World.Removed w₂ l.gatewayId l.id := by
          refine ⟨command, hReceipt (not_not.mp hAnswer), hGateway, hId, ?_⟩
          cases hOp : command.operation with
          | present => exact absurd hOp hAbsent
          | absent => rfl
        exact follows_done (follows_confirmRemoved (hKnows₁.grows hGrows₂) hRemoved)

theorem follows_process (hKnows : w.Knows l) : Behaves u (process l) w := by
  refine follows_else (follows_reconcile hKnows) fun trouble w' _ => ?_
  split <;> exact follows_pure trivial

theorem follows_processAll {leases : List Lease} (hKnows : ∀ l ∈ leases, w.Knows l) :
    Behaves u (processAll leases) w := by
  induction leases generalizing w with
  | nil => exact follows_pure trivial
  | cons lease rest ih =>
    refine follows_next (follows_process (hKnows lease (.head _)))
      fun result w' hGrows _ => ?_
    exact follows_done (ih fun l hMem => (hKnows l (.tail _ hMem)).grows hGrows)

theorem follows_once {limit : Nat} : Behaves u (once limit) w := by
  refine follows_next (follows_ask (fun choice => Fleet.expire choice.now) (Q := fun _ _ => True)
    (fun _ _ => rfl)
    fun choice w' _ hInv => (ensures_expire hInv.store).mono fun _ _ hNext => ⟨hNext, trivial⟩)
      fun _ w₁ _ _ => ?_
  refine follows_next (follows_ask (fun choice => Fleet.pending choice.now limit)
    (Q := fun leases w' => ∀ l ∈ leases, w'.Knows l) (fun _ _ => rfl)
    fun choice w' _ hInv => (ensures_pending hInv.store).mono fun leases db' hPending => ?_)
      fun leases w₂ _ hKnows => ?_
  · exact ⟨hPending.1, fun l hMem => ⟨l, hPending.2 l hMem, .refl l⟩⟩
  · exact follows_processAll hKnows

theorem follows_restoreAll {commands : List PeerCommand} :
    Behaves u (restoreAll commands) w := by
  induction commands generalizing w with
  | nil => exact follows_pure trivial
  | cons command rest ih =>
    have hRestore : Behaves u (call (.restore command)) w := by
      refine follows_step fun w' _ hInv choice => ?_
      have hStep := (World.Inv.deliver hInv choice.turn true command).1
      exact ⟨hStep.inv, hStep.grows⟩
    refine follows_next hRestore fun receipt w₁ _ _ => ?_
    exact follows_done ih

theorem follows_recover : Behaves u (recover gatewayId) w := by
  have hRead : Behaves u (call (.unfinished gatewayId)) w :=
    follows_perform fun w' _ hInv _ => ⟨hInv, .refl w', trivial⟩
  exact follows_next hRead fun _ _ _ _ => follows_restoreAll

/-! ## Every run -/

theorem external_removes {operation : Operation} (h : World.external operation = true) :
    operation.removes = none := by
  cases operation with
  | confirmRemoved id generation => cases h
  | installRegistry | setAccess | reserve | markReady | retire | expire => rfl

theorem fleetTerms_kept : fleetTerms.Kept May (fun _ w => w) (World.Other setting) := by
  constructor
  case start =>
    intro u p w hMay _
    cases hMay with
    | once => exact Follows.mono (follows_done follows_once) fun _ _ _ _ => trivial
    | recover => exact Follows.mono (follows_done follows_recover) fun _ _ _ _ => trivial
  case leave => exact fun _ w hInv => ⟨hInv, .refl w⟩
  case other =>
    intro w w' hInv hOther
    cases hOther with
    | operate now operation hExternal =>
      have hNext : w.store.Next operation.removes (operation.perform setting now w.store).2 :=
        (World.Inv.store hInv).perform now operation
      rw [external_removes hExternal] at hNext
      have hStep := World.Inv.store_next hInv hNext nofun
      exact ⟨hStep.inv, hStep.grows⟩
    | replay turn command hSent =>
      have hStep := (World.Inv.deliver hInv turn false command).1
      exact ⟨hStep.inv, hStep.grows⟩

theorem World.Blank.inv (h : w.Blank setting) : w.Inv := by
  obtain ⟨hStore, hGateways, -, hReceipts⟩ := h
  have hNone : ∀ {id l}, w.store.lease id ≠ some l := by
    intro id l hL
    rw [Db.lease, hStore.1] at hL
    cases hL
  refine ⟨.reachable (.start hStore), fun gatewayId => ?_, ?_, fun _ _ hL => absurd hL hNone⟩
  · obtain ⟨hRows, hPeers⟩ := hGateways gatewayId
    constructor
    case keyed =>
      rw [hRows]
      exact List.nodup_nil
    case held | apart =>
      rw [hRows]
      exact fun _ hMem => absurd hMem List.not_mem_nil
    case peers =>
      rw [hPeers]
      exact fun _ hMem => absurd hMem List.not_mem_nil
  · rintro gatewayId id ⟨receipt, hMem, -⟩
    rw [hReceipts] at hMem
    exact absurd hMem List.not_mem_nil

theorem orderly_fleet (h : (fleet setting).Reachable s) : s.Orderly fleetTerms :=
  fleetTerms_kept.reachable (fun _ => World.Blank.inv) h

/-- No step both writes to the store and gets a receipt. -/
theorem World.exec_apart (c : Call) (choice : Choice) (w : World) :
    (World.exec u c choice w).2.store = w.store ∨
    (World.exec u c choice w).2.receipts = w.receipts := by
  cases c with
  | expire | pending | workItem | markReady | confirmRemoved => exact .inr rfl
  | unfinished | restore => exact .inl rfl
  | execute command =>
    unfold World.exec
    split <;> exact .inl rfl

theorem step_apart {s' : site.State} (h : (fleet setting).step s s') :
    s'.world.store = s.world.store ∨ s'.world.receipts = s.world.receipts := by
  cases h with
  | start | leave => exact .inl rfl
  | advance u c next choice => exact World.exec_apart c choice _
  | other world hOther =>
    cases hOther with
    | operate => exact .inr rfl
    | replay => exact .inl rfl

theorem orderly_steps {s' : site.State} (h : s.Orderly fleetTerms)
    (hSteps : Relation.ReflTransGen (fleet setting).step s s') :
    s'.Orderly fleetTerms ∧ World.Grows s.world s'.world := by
  induction hSteps with
  | refl => exact ⟨h, .refl _⟩
  | tail _ hStep ih =>
    obtain ⟨hOrderly, hGrows⟩ := fleetTerms_kept.step ih.1 hStep
    exact ⟨hOrderly, ih.2.trans hGrows⟩

structure FencedGateway.Exclusive (g : FencedGateway) : Prop where
  held : ∀ row ∈ g.rows, ∀ other ∈ g.rows, row.held = true → other.held = true →
    row.command.address = other.command.address ∨ row.command.wg = other.command.wg →
      row.leaseId = other.leaseId
  peers : ∀ p ∈ g.peers, ∀ q ∈ g.peers, p.address = q.address ∨ p.wg = q.wg → p.leaseId = q.leaseId

theorem FencedGateway.Inv.exclusive (h : g.Inv) : g.Exclusive := by
  refine ⟨h.apart, fun p hP q hQ hSame => ?_⟩
  obtain ⟨row, hRow, hHeld, hLease, hWg, hAddress⟩ := h.peers p hP
  obtain ⟨row', hRow', hHeld', hLease', hWg', hAddress'⟩ := h.peers q hQ
  rw [← hLease, ← hLease']
  rw [← hWg, ← hWg', ← hAddress, ← hAddress'] at hSame
  exact h.apart row hRow row' hRow' hHeld hHeld' hSame

def FencedGateway.Closed (g : FencedGateway) (leaseId : Nat) : Prop :=
  (∀ p ∈ g.peers, p.leaseId ≠ leaseId) ∧
    ∀ command : PeerCommand, command.leaseId = leaseId →
      ∀ turn restore, (g.execute turn restore command).2 = g

theorem FencedGateway.Inv.closed (h : g.Inv) (hFenced : g.Fenced id) : g.Closed id := by
  refine ⟨h.no_peer hFenced, ?_⟩
  rintro command rfl turn restore
  exact FencedGateway.execute_fenced hFenced turn restore

/-! ## An address that is given twice -/

namespace Sample

def blank : site.State := ⟨{ store := empty, gateways := fun _ => { gateway := gateway } }, []⟩

def operate (now : Nat) (operation : Operation) (s : site.State) : site.State :=
  { s with world := { s.world with store := (operation.perform trusting now s.world.store).2 } }

def reconciled (now calls : Nat) (s : site.State) : site.State :=
  (List.replicate calls { now := now, turn := { now := now } : Choice }).foldl Site.State.turn
    { s with jobs := (0, do let _ ← once 100) :: s.jobs }

def emptied : site.State :=
  reconciled 8 5 (operate 7 (.retire 7) (reconciled 6 5
    (operate 5 (.reserve 7 request) (operate 1 (.setAccess (access 1 false)) blank))))

def renewed : site.State :=
  operate 9 (.reserve 8
    { request with requestId := "s", observations := [⟨"gw", 1, 9, [.wireguard], 0, 0, 0, 0⟩] })
    emptied

theorem reachable_operate (h : (fleet trusting).Reachable s) (now : Nat) (operation : Operation)
    (hExternal : World.external operation = true) :
    (fleet trusting).Reachable (operate now operation s) :=
  h.next (.other _ (.operate now operation hExternal))

theorem reachable_reconciled (h : (fleet trusting).Reachable s) (now calls : Nat) :
    (fleet trusting).Reachable (reconciled now calls s) := by
  refine Site.reachable_turns (h.next ?_) _
  exact Site.Step.start (S := site) (0 : Nat) _ (May.once 0 100)

theorem reachable_emptied : (fleet trusting).Reachable emptied := by
  have hBlank : (fleet trusting).Reachable blank :=
    .start ⟨⟨⟨rfl, rfl, rfl, registry, rfl⟩, fun _ => ⟨rfl, rfl⟩, rfl, rfl⟩, rfl⟩
  refine reachable_reconciled (reachable_operate (reachable_reconciled ?_ 6 5) 7 _ rfl) 8 5
  exact reachable_operate (reachable_operate hBlank 1 _ rfl) 5 _ rfl

end Sample

/-- Two leases never share an address at a gateway, a removed lease stays closed, and an address is
given again only after the gateway has confirmed the removal of its last lease. -/
theorem fleet_fencing {s : site.State} (hReachable : (fleet setting).Reachable s) :
    (∀ gatewayId, (s.world.gateways gatewayId).Exclusive) ∧
      (∀ gatewayId id, s.world.Removed gatewayId id →
        ∀ later, Relation.ReflTransGen (fleet setting).step s later →
          (later.world.gateways gatewayId).Closed id) ∧
      ∀ next, (fleet setting).step s next → ∀ id new, s.world.store.lease id = none →
        next.world.store.lease id = some new → ∀ old ∈ s.world.store.leases,
          old.gatewayId = new.gatewayId → old.address = new.address →
            s.world.Removed old.gatewayId old.id := by
  have hOrderly := orderly_fleet hReachable
  have hInv : World.Inv s.world := hOrderly.inv
  refine ⟨fun gatewayId => (hInv.gateways gatewayId).exclusive, ?_, ?_⟩
  · intro gatewayId id hRemoved later hSteps
    obtain ⟨hLater, hGrows⟩ := orderly_steps hOrderly hSteps
    have hInv' : World.Inv later.world := hLater.inv
    exact (hInv'.gateways gatewayId).closed (hInv'.receipts gatewayId id (hRemoved.grows hGrows))
  · intro next hStep id new hNone hNew old hOld hGateway hAddress
    rcases step_apart hStep with hSame | hReceipts
    · rw [hSame, hNone] at hNew
      cases hNew
    · obtain ⟨-, hGrows⟩ := fleetTerms_kept.step hOrderly hStep
      rcases World.Grows.new hGrows id new hNew with ⟨l, hL⟩ | hFree
      · cases hNone.symm.trans hL
      · refine (hFree old.id old (hInv.store.keyed.get hOld) hGateway hAddress).mono
          fun receipt hMem => ?_
        rw [← hReceipts]
        exact hMem

open Sample

/-- The second lease has the address of the first. -/
theorem fleet_fencing_renewed : (renewed.world.store.leases.map fun l => (l.id, l.address)) =
    [(7, 10 * 2 ^ 24 + 2), (8, 10 * 2 ^ 24 + 2)] ∧ (emptied.world.gateways "gw").Exclusive ∧
    emptied.world.Removed "gw" 7 := by
  obtain ⟨hExclusive, -, hNew⟩ := fleet_fencing reachable_emptied
  have hStep : (fleet trusting).step emptied renewed := .other _ (.operate 9 _ rfl)
  have hOld : Rows.get Lease.id 7 emptied.world.store.leases =
      some { lease with state := .released, generation := 2 } := by decide +kernel
  refine ⟨by decide +kernel, hExclusive "gw", ?_⟩
  refine hNew renewed hStep 8 { lease with id := 8, createdAt := 9, expiresAt := 109 }
    (by decide +kernel) (by decide +kernel)
    _ (Rows.mem_of_get hOld) rfl rfl

end FamilyConnect.Fleet
