import FamilyConnect.Fleet.Store
import FamilyConnect.Lib.Transition

/-!
# The life of a lease

Every call moves leases forward, adds one, or changes what leases depend on and
retires those that no longer fit. `Db.Moves` is the first of these; the
invariant follows from it for all the calls but three.
-/

namespace FamilyConnect.Fleet

open Lib Transaction

variable {db db' : Db} {id now : Nat} {l l' : Lease} {setting : Setting} {request : Request}
  {removed : Option Nat} {node : Gateway} {address : Nat}

/-! ## Leases move forward -/

def LeaseState.rank : LeaseState → Nat
  | .reserved => 0
  | .ready => 1
  | .retiring => 2
  | .released => 3

def LeaseState.generation : LeaseState → Nat
  | .reserved | .ready => 1
  | .retiring | .released => 2

def Lease.Numbered (l : Lease) : Prop := l.generation = l.state.generation

structure Lease.Moves (l l' : Lease) : Prop where
  same : l' = { l with state := l'.state, generation := l'.generation }
  rank : l.state.rank ≤ l'.state.rank
  numbered : l.Numbered → l'.Numbered

theorem Lease.Moves.refl (l : Lease) : l.Moves l := ⟨rfl, le_rfl, fun h => h⟩

theorem Lease.Moves.trans {l'' : Lease} (h : l.Moves l') (h' : l'.Moves l'') : l.Moves l'' := by
  refine ⟨?_, h.rank.trans h'.rank, fun hNumbered => h'.numbered (h.numbered hNumbered)⟩
  rw [h'.same, h.same]

theorem Lease.active_iff (l : Lease) : l.Active ↔ l.state.rank ≤ 1 := by
  unfold Lease.Active
  cases l.state <;> simp [LeaseState.rank]

theorem Lease.live_iff (l : Lease) : l.Live ↔ l.state.rank ≤ 2 := by
  unfold Lease.Live
  cases l.state <;> simp [LeaseState.rank]

theorem Lease.Moves.active (h : l.Moves l') (hActive : l'.Active) : l.Active := by
  rw [Lease.active_iff] at hActive ⊢
  exact h.rank.trans hActive

theorem Lease.Moves.live (h : l.Moves l') (hLive : l'.Live) : l.Live := by
  rw [Lease.live_iff] at hLive ⊢
  exact h.rank.trans hLive

theorem Lease.moves_ready (hState : l.state = .reserved) : l.Moves { l with state := .ready } := by
  refine ⟨rfl, by simp [hState, LeaseState.rank], fun hNumbered => ?_⟩
  rw [Lease.Numbered, hState] at hNumbered
  exact hNumbered

theorem Lease.moves_retiring (hActive : l.Active) :
    l.Moves { l with state := .retiring, generation := l.generation + 1 } := by
  refine ⟨rfl, ?_, fun hNumbered => ?_⟩
  · exact ((l.active_iff).mp hActive).trans (Nat.le_succ 1)
  · have hOne : l.generation = 1 := by
      rw [hNumbered]
      rcases hActive with hState | hState
      · rw [hState]
        rfl
      · rw [hState]
        rfl
    rw [Lease.Numbered, hOne]
    rfl

theorem Lease.moves_released (hState : l.state = .retiring) :
    l.Moves { l with state := .released } := by
  refine ⟨rfl, by simp [hState, LeaseState.rank], fun hNumbered => ?_⟩
  rw [Lease.Numbered, hState] at hNumbered
  exact hNumbered

structure Db.Moves (removed : Option Nat) (db db' : Db) : Prop where
  registries : db'.registries = db.registries
  access : db'.access = db.access
  requests : db'.requests = db.requests
  keyed : Rows.Keyed Lease.id db.leases → Rows.Keyed Lease.id db'.leases
  forth : ∀ id l, db.lease id = some l → ∃ l', db'.lease id = some l' ∧ l.Moves l'
  back : ∀ id l', db'.lease id = some l' → ∃ l, db.lease id = some l ∧ l.Moves l'
  released : ∀ id l', db'.lease id = some l' → l'.state = .released →
    (∃ l, db.lease id = some l ∧ l.state = .released) ∨ removed = some id

namespace Db.Moves

theorem of_leases (hRegistries : db'.registries = db.registries) (hAccess : db'.access = db.access)
    (hRequests : db'.requests = db.requests) (hLeases : db'.leases = db.leases) :
    db.Moves removed db' := by
  have hLease : ∀ id, db'.lease id = db.lease id := by
    intro id
    rw [Db.lease, hLeases]
    rfl
  constructor
  case registries => exact hRegistries
  case access => exact hAccess
  case requests => exact hRequests
  case keyed =>
    rw [hLeases]
    exact fun h => h
  case forth =>
    intro id l hL
    exact ⟨l, (hLease id).trans hL, .refl l⟩
  case back =>
    intro id l hL
    exact ⟨l, (hLease id).symm.trans hL, .refl l⟩
  case released =>
    intro id l hL hState
    exact .inl ⟨l, (hLease id).symm.trans hL, hState⟩

theorem refl (db : Db) : db.Moves removed db := of_leases rfl rfl rfl rfl

theorem trans {db'' : Db} (h : db.Moves removed db') (h' : db'.Moves removed db'') :
    db.Moves removed db'' := by
  constructor
  case registries => exact h'.registries.trans h.registries
  case access => exact h'.access.trans h.access
  case requests => exact h'.requests.trans h.requests
  case keyed => exact fun hKeyed => h'.keyed (h.keyed hKeyed)
  case forth =>
    intro id l hL
    obtain ⟨l', hL', hMoves⟩ := h.forth id l hL
    obtain ⟨l'', hL'', hMoves'⟩ := h'.forth id l' hL'
    exact ⟨l'', hL'', hMoves.trans hMoves'⟩
  case back =>
    intro id l'' hL''
    obtain ⟨l', hL', hMoves'⟩ := h'.back id l'' hL''
    obtain ⟨l, hL, hMoves⟩ := h.back id l' hL'
    exact ⟨l, hL, hMoves.trans hMoves'⟩
  case released =>
    intro id l'' hL'' hState
    rcases h'.released id l'' hL'' hState with ⟨l', hL', hState'⟩ | hRemoved
    · exact h.released id l' hL' hState'
    · exact .inr hRemoved

theorem clock (db : Db) (now : Nat) : db.Moves removed { db with lastNow := now } :=
  of_leases rfl rfl rfl rfl

theorem put (hOld : db.lease l'.id = some l) (hMoves : l.Moves l')
    (hReleased : l'.state = .released → removed = some l'.id) :
    db.Moves removed { db with leases := Rows.put Lease.id l' db.leases } := by
  have hGet : ∀ id, ({ db with leases := Rows.put Lease.id l' db.leases } : Db).lease id =
      if l'.id = id then some l' else db.lease id :=
    fun id => Rows.get_put Lease.id id l' db.leases
  refine ⟨rfl, rfl, rfl, fun hKeyed => hKeyed.put l', fun id l₁ hL₁ => ?_, fun id l₁ hL₁ => ?_,
    fun id l₁ hL₁ hState => ?_⟩
  · rw [hGet]
    split
    · rename_i hId
      rw [← hId, hOld] at hL₁
      cases hL₁
      exact ⟨l', rfl, hMoves⟩
    · exact ⟨l₁, hL₁, .refl l₁⟩
  · rw [hGet] at hL₁
    split at hL₁
    · rename_i hId
      cases hL₁
      rw [← hId]
      exact ⟨l, hOld, hMoves⟩
    · exact ⟨l₁, hL₁, .refl l₁⟩
  · rw [hGet] at hL₁
    split at hL₁
    · rename_i hId
      cases hL₁
      rw [← hId]
      exact .inr (hReleased hState)
    · exact .inl ⟨l₁, hL₁, hState⟩

end Db.Moves

theorem Db.id_of_lease (h : db.lease id = some l) : l.id = id := Rows.key_of_get h

/-! ## The parts of calls -/

section

variable {α : Type} {post : α → Db → Prop}

variable {f : Unit → Tx α}

theorem bind_opened (h : db.lastNow ≤ now → (f ()).Ensures post { db with lastNow := now }) :
    (opened now >>= f).Ensures post db := by
  refine ensures_bind (bind_require fun _ => ?_)
  refine bind_get ?_
  refine bind_require fun hClock => ?_
  exact ensures_set (h hClock)

theorem bind_positive {value maximum : Nat} (h : (f ()).Ensures post db) :
    (positive value maximum >>= f).Ensures post db :=
  bind_require fun _ => h

theorem ensures_readLease {post : Lease → Db → Prop} (h : ∀ l, db.lease id = some l → post l db) :
    (readLease id).Ensures post db :=
  bind_get (ensures_found h)

theorem bind_readLease {f : Lease → Tx α} (h : ∀ l, db.lease id = some l → (f l).Ensures post db) :
    (readLease id >>= f).Ensures post db :=
  ensures_bind (ensures_readLease h)

theorem bind_readRegistry {f : Registry → Tx α}
    (h : ∀ registry, db.registry = some registry → (f registry).Ensures post db) :
    (readRegistry >>= f).Ensures post db := ensures_bind (bind_get (ensures_found h))

theorem bind_authorized {device : String} {f : Access → Tx α}
    (h : ∀ a, db.accessOf device = some a → a.revoked = false → now < a.expiresAt →
      (f a).Ensures post db) :
    (authorized device now >>= f).Ensures post db := by
  refine ensures_bind (bind_get ?_)
  refine bind_found fun a hAccess => ?_
  refine bind_require fun hValid => ?_
  exact ensures_pure (h a hAccess hValid.1 hValid.2)

end

theorem ensures_rewrite {p : Prop} [Decidable p] (hOld : db.lease id = some l)
    (hSame : l'.id = l.id) (hMoves : p → l.Moves l')
    (hReleased : l'.state = .released → removed = some id) :
    (do (if p then putLease l' else pure ()); readLease id : Tx Lease).Ensures
      (fun after db' => db.Moves removed db' ∧ db'.lease id = some after ∧
        after = if p then l' else l) db := by
  refine ensures_bind ?_
  have hId := Db.id_of_lease hOld
  split
  · rename_i hP
    refine ensures_modify ?_
    refine ensures_readLease fun after hAfter => ?_
    refine ⟨.put (by rw [hSame, hId]; exact hOld) (hMoves hP) (by rw [hSame, hId]; exact hReleased),
      hAfter, ?_⟩
    have hGet : Rows.get Lease.id id (Rows.put Lease.id l' db.leases) = some l' := by
      rw [Rows.get_put, if_pos (hSame.trans hId)]
    exact Option.some.inj (hAfter.symm.trans hGet)
  · refine ensures_pure ?_
    refine ensures_readLease fun after hAfter => ?_
    exact ⟨.refl _, hAfter, Option.some.inj (hAfter.symm.trans hOld)⟩

theorem ensures_retireLease :
    (retireLease id).Ensures (fun after db' => db.Moves none db' ∧ db'.lease id = some after ∧
      ¬after.Active) db := by
  refine bind_readLease fun l hL => ?_
  refine (ensures_rewrite hL ?_ Lease.moves_retiring nofun).mono fun after db' hAfter =>
    ⟨hAfter.1, hAfter.2.1, ?_⟩
  · rfl
  · rw [hAfter.2.2]
    split
    · simp [Lease.Active]
    · rename_i hNot
      exact hNot

theorem ensures_retireAll {ids : List Nat} : (collect retireLease ids).Ensures
    (fun _ db' => db.Moves none db' ∧ ∀ id ∈ ids, ∀ l', db'.lease id = some l' → ¬l'.Active) db := by
  induction ids generalizing db with
  | nil => exact ensures_pure ⟨.refl db, fun _ hMem => absurd hMem List.not_mem_nil⟩
  | cons id rest ih =>
    refine ensures_bind (ensures_retireLease.mono fun after db₁ hFirst => ?_)
    obtain ⟨hMoves, hAfter, hRetired⟩ := hFirst
    refine ensures_bind (ih.mono fun more db₂ hRest => ?_)
    obtain ⟨hMoves', hRestRetired⟩ := hRest
    refine ensures_pure ⟨hMoves.trans hMoves', fun other hMem l' hL' => ?_⟩
    rcases List.mem_cons.mp hMem with rfl | hLater
    · obtain ⟨l, hL, hStep⟩ := hMoves'.back _ l' hL'
      cases hAfter.symm.trans hL
      exact fun hActive => hRetired (hStep.active hActive)
    · exact hRestRetired other hLater l' hL'

/-! ## The invariant -/

def Lease.Clashes (l m : Lease) : Prop :=
  l.gatewayId = m.gatewayId ∧ l.address = m.address ∨ l.device = m.device ∧
    l.gatewayId = m.gatewayId ∨ l.device = m.device ∧ l.scope = m.scope

structure Db.Inv (db : Db) : Prop where
  keyed : Rows.Keyed Lease.id db.leases
  numbered : ∀ id l, db.lease id = some l → l.Numbered
  apart : ∀ i j l m, db.lease i = some l → db.lease j = some m → l.Live → m.Live → l.Clashes m → i = j
  hosted : ∀ id l, db.lease id = some l → ∃ registry, db.registry = some registry ∧
    ∃ gateway ∈ registry.gateways, gateway.id = l.gatewayId ∧ gateway.pool.Hosts l.address
  access : ∀ id l, db.lease id = some l → l.Active → ∃ a, db.accessOf l.device = some a ∧
    a.revoked = false ∧ l.expiresAt ≤ a.expiresAt
  requests : ∀ row ∈ db.requests, ∃ l, db.lease row.leaseId = some l

structure Db.Next (removed : Option Nat) (db db' : Db) : Prop where
  inv : db'.Inv
  forth : ∀ id l, db.lease id = some l → ∃ l', db'.lease id = some l' ∧ l.Moves l'
  requests : ∀ device requestId row, db.request device requestId = some row →
    db'.request device requestId = some row
  keys : ∀ device a, db.accessOf device = some a → ∃ a', db'.accessOf device = some a' ∧ a'.wg = a.wg
  new : ∀ id l', db'.lease id = some l' → (∃ l, db.lease id = some l) ∨ ∀ m ∈ db.leases, m.Live →
    ¬m.Clashes l'
  released : ∀ id l', db'.lease id = some l' → l'.state = .released →
    (∃ l, db.lease id = some l ∧ l.state = .released) ∨ removed = some id

theorem Db.Moves.of_same (h : db.Moves removed db') (hBack : db'.lease id = some l') :
    ∃ l, db.lease id = some l ∧ l.Moves l' ∧ l'.device = l.device ∧ l'.gatewayId = l.gatewayId ∧
      l'.address = l.address ∧ l'.scope = l.scope ∧ l'.expiresAt = l.expiresAt := by
  obtain ⟨l, hL, hMoves⟩ := h.back id l' hBack
  refine ⟨l, hL, hMoves, ?_⟩
  rw [hMoves.same]
  exact ⟨rfl, rfl, rfl, rfl, rfl⟩

theorem Lease.Clashes.moves {m m' : Lease} (h : l'.Clashes m') (hL : l.Moves l') (hM : m.Moves m') :
    l.Clashes m := by
  rw [hL.same, hM.same] at h
  exact h

section

variable (h : db.Inv)
include h

theorem Db.Inv.apart_moves (hMoves : db.Moves removed db') :
    ∀ i j l m, db'.lease i = some l → db'.lease j = some m → l.Live → m.Live → l.Clashes m →
      i = j := by
  intro i j l' m' hL' hM' hLive hLive' hClash
  obtain ⟨l, hL, hStep⟩ := hMoves.back i l' hL'
  obtain ⟨m, hM, hStep'⟩ := hMoves.back j m' hM'
  exact h.apart i j l m hL hM (hStep.live hLive) (hStep'.live hLive') (hClash.moves hStep hStep')

theorem Db.Inv.numbered_moves (hMoves : db.Moves removed db') :
    ∀ id l, db'.lease id = some l → l.Numbered := by
  intro id l' hL'
  obtain ⟨l, hL, hStep⟩ := hMoves.back id l' hL'
  exact hStep.numbered (h.numbered id l hL)

theorem Db.Inv.requests_moves (hMoves : db.Moves removed db') :
    ∀ row ∈ db'.requests, ∃ l, db'.lease row.leaseId = some l := by
  intro row hMem
  rw [hMoves.requests] at hMem
  obtain ⟨l, hL⟩ := h.requests row hMem
  obtain ⟨l', hL', -⟩ := hMoves.forth row.leaseId l hL
  exact ⟨l', hL'⟩

omit h in
theorem Db.Moves.same_request (h : db.Moves removed db') (device requestId : String) :
    db'.request device requestId = db.request device requestId := by
  rw [Db.request, h.requests]
  rfl

theorem Db.Inv.moves (hMoves : db.Moves removed db') : db.Next removed db' := by
  refine ⟨?_, hMoves.forth, fun device requestId row hRow =>
    (hMoves.same_request device requestId).trans hRow, fun device a hA => ⟨a, ?_, rfl⟩,
      fun id l' hL' => ?_, hMoves.released⟩
  rotate_left
  · rw [Db.accessOf, hMoves.access]
    exact hA
  · obtain ⟨l, hL, -⟩ := hMoves.back id l' hL'
    exact .inl ⟨l, hL⟩
  constructor
  case keyed => exact hMoves.keyed h.keyed
  case numbered => exact h.numbered_moves hMoves
  case apart => exact h.apart_moves hMoves
  case hosted =>
    intro id l' hL'
    obtain ⟨l, hL, -, -, hGateway, hAddress, -, -⟩ := hMoves.of_same hL'
    rw [hGateway, hAddress, Db.registry, hMoves.registries]
    exact h.hosted id l hL
  case access =>
    intro id l' hL' hActive
    obtain ⟨l, hL, hStep, hDevice, -, -, -, hExpires⟩ := hMoves.of_same hL'
    rw [hDevice, hExpires, Db.accessOf, hMoves.access]
    exact h.access id l hL (hStep.active hActive)
  case requests => exact h.requests_moves hMoves

/-! ## Calls -/

theorem ensures_retire : (retire now id).Ensures (fun _ db' => db.Next none db') db := by
  refine bind_opened fun _ => ?_
  exact ensures_retireLease.mono fun _ db₂ hRetired =>
    h.moves ((Db.Moves.clock db now).trans hRetired.1)

theorem ensures_expire {limit : Nat} : (expire now limit).Ensures
    (fun _ db' => db.Next none db') db := by
  refine bind_positive ?_
  refine bind_opened fun _ => ?_
  refine bind_get ?_
  exact ensures_retireAll.mono fun _ db₂ hRetired => h.moves ((Db.Moves.clock db now).trans hRetired.1)

variable {generation : Nat}

theorem ensures_markReady : (markReady now id generation).Ensures
    (fun _ db' => db.Next none db') db := by
  refine bind_positive ?_
  refine bind_opened fun _ => ?_
  refine bind_readLease fun l hL => ?_
  refine bind_authorized fun a _ _ _ => ?_
  refine bind_require fun hReady => ?_
  refine (ensures_rewrite hL ?_ (fun hState => ?_) ?_).mono fun _ db₄ hDone =>
    h.moves ((Db.Moves.clock db now).trans hDone.1)
  · rfl
  · exact Lease.moves_ready (hReady.2.1.resolve_right hState)
  · nofun

theorem ensures_confirmRemoved : (confirmRemoved now id generation).Ensures
    (fun _ db' => db.Next (some id) db') db := by
  refine bind_positive ?_
  refine bind_opened fun _ => ?_
  refine bind_readLease fun l hL => ?_
  refine bind_require fun _ => ?_
  refine (ensures_rewrite hL ?_ Lease.moves_released fun _ => rfl).mono fun _ db₃ hDone =>
    h.moves ((Db.Moves.clock db now).trans hDone.1)
  rfl

omit h in
theorem newest_cons {previous candidate : Registry} {rest : List Registry}
    (hPrevious : newest rest = some previous) (hLater : previous.revision < candidate.revision) :
    newest (candidate :: rest) = some candidate := by
  rw [newest, hPrevious]
  exact if_neg (not_lt.mpr hLater.le)

omit h in
theorem ensures_migrate {previous : Registry} :
    (migrate previous node).Ensures (fun _ db' => db.Moves none db') db := by
  unfold migrate
  split
  · exact ensures_pure (.refl db)
  · refine bind_get ?_
    refine bind_require fun _ => ?_
    exact ensures_bind (ensures_retireAll.mono fun _ db₁ hRetired => ensures_pure hRetired.1)

theorem ensures_installRegistry {candidate : Registry} :
    (installRegistry now candidate).Ensures (fun _ db' => db.Next none db') db := by
  refine bind_opened fun _ => ?_
  refine bind_readRegistry fun previous hPrevious => ?_
  split
  · exact ensures_pure (h.moves (.clock db now))
  · cases hUpdate : validateUpdate previous candidate with
    | error failure => exact ensures_bind ensures_throw
    | ok done =>
      obtain ⟨hRevision, hRetained⟩ := validateUpdate_ok hUpdate
      refine ensures_bind (ensures_pure ?_)
      refine ensures_bind ((ensures_collect (fun db' => Db.Moves none
        { db with lastNow := now } db') (.refl _) ?_).mono ?_)
      · exact fun node _ s hMoves => ensures_migrate.mono fun _ s' hStep => hMoves.trans hStep
      · intro _ db₃ hMigrated
        have hMoves := (Db.Moves.clock db now).trans hMigrated
        have hNext := h.moves hMoves
        have hInv := hNext.inv
        have hNewest : newest (candidate :: db₃.registries) = some candidate :=
          newest_cons (by rw [hMoves.registries]; exact hPrevious) hRevision
        refine ensures_modify ⟨⟨hInv.keyed, hInv.numbered, hInv.apart, fun id l hL => ?_,
          hInv.access, hInv.requests⟩, hNext.forth, hNext.requests, hNext.keys, hNext.new,
            hNext.released⟩
        -- The gateway of the lease is in the new registry, too.
        obtain ⟨registry, hRegistry, gateway, hMem, hId, hHosts⟩ := hInv.hosted id l hL
        rw [Db.registry, hMoves.registries] at hRegistry
        cases hPrevious.symm.trans hRegistry
        obtain ⟨new, hNew, hSameId, hPool⟩ := hRetained gateway hMem
        exact ⟨candidate, hNewest, new, hNew, hSameId.trans hId, by rw [hPool]; exact hHosts⟩

theorem ensures_setAccess {row : Access} : (setAccess setting now row).Ensures
    (fun _ db' => db.Next none db') db := by
  refine bind_positive ?_
  refine bind_positive ?_
  refine bind_positive ?_
  refine bind_require fun _ => ?_
  refine bind_opened fun _ => ?_
  refine bind_get ?_
  split
  · exact ensures_pure (h.moves (.clock db now))
  · refine bind_require fun hBinding => ?_
    refine bind_require fun _ => ?_
    refine ensures_bind (bind_get (bind_require fun _ => ensures_set ?_))
    refine ensures_bind (ensures_retireAll.mono fun _ db₂ hRetired => ensures_pure ?_)
    obtain ⟨hMoves, hGone⟩ := hRetired
    have hLeases : ∀ id, ({ db with
        lastNow := now, access := Rows.put Access.device row db.access } : Db).lease id =
        db.lease id :=
      fun _ => rfl
    have hAccess : ∀ device, db₂.accessOf device = if row.device = device then some row
        else db.accessOf device := by
      intro device
      rw [Db.accessOf, hMoves.access]
      exact Rows.get_put Access.device device row db.access
    -- The leases moved; what the device may have was replaced.
    have hStep : db.Moves none { db₂ with access := db.access } :=
      ⟨hMoves.registries, rfl, hMoves.requests, hMoves.keyed, hMoves.forth, hMoves.back,
        hMoves.released⟩
    have hNext := h.moves hStep
    have hInv := hNext.inv
    refine ⟨⟨hInv.keyed, hInv.numbered, hInv.apart, hInv.hosted, fun id l' hL' hActive => ?_,
      hInv.requests⟩, hNext.forth, hNext.requests, fun device a hA => ?_, hNext.new, hNext.released⟩
    rotate_left
    · rw [hAccess]
      split
      · rename_i hDevice
        rw [← hDevice] at hA
        exact ⟨row, rfl, (hBinding a hA).2.1.symm⟩
      · exact ⟨a, hA, rfl⟩
    rw [hAccess]
    split
    · rename_i hDevice
      obtain ⟨l, hL, hMove, hSame, -, -, -, hExpires⟩ := hStep.of_same hL'
      have hKept : ¬(row.revoked = true ∨ row.expiresAt < l.expiresAt) := by
        intro hBad
        refine hGone id (List.mem_map.mpr ⟨l, List.mem_filter.mpr ⟨Rows.mem_of_get hL, ?_⟩,
          Db.id_of_lease hL⟩) l' hL' hActive
        exact decide_eq_true ⟨hSame.symm.trans hDevice.symm, hMove.active hActive, hBad⟩
      rw [not_or, Bool.not_eq_true, not_lt] at hKept
      exact ⟨row, rfl, hKept.1, by rw [hExpires]; exact hKept.2⟩
    · exact hInv.access id l' hL' hActive

end

/-! ## Reserving -/

theorem freeAddress_some {pool : Pool} {used : List Nat} (h : freeAddress pool used = some address) :
    pool.Hosts address ∧ address ∉ used := by
  have hMem := List.mem_of_find?_eq_some h
  obtain ⟨offset, hOffset, rfl⟩ := List.mem_map.mp hMem
  have hBound := List.mem_range.mp hOffset
  have hFree := List.find?_some h
  refine ⟨⟨by omega, by omega⟩, ?_⟩
  simpa using hFree

theorem place_some {registry : Registry} {used candidates : List String}
    (h : place db registry used candidates = some (node, address)) :
    node ∈ registry.gateways ∧ (db.ofGateway node.id).length < node.maxDevices ∧
      node.pool.Hosts address := by
  induction candidates with
  | nil => cases h
  | cons id rest ih =>
    rw [place] at h
    split at h
    · cases h
    · rename_i found hFound
      have hId : found.id = id := by simpa using List.find?_some hFound
      split at h
      · exact ih h
      · rename_i hRoom
        split at h
        · exact ih h
        · rename_i address' hFree
          cases h
          rw [not_or, not_le, ← hId] at hRoom
          exact ⟨List.mem_of_find?_eq_some hFound, hRoom.2, (freeAddress_some hFree).1⟩

structure Assigned (now uuid : Nat) (request : Request) (access : Access) (db : Db) (lease : Lease)
    (db' : Db) : Prop where
  id : lease.id = uuid
  fresh : db.lease uuid = none
  device : lease.device = request.device
  state : lease.state = .reserved
  generation : lease.generation = 1
  expires : lease.expiresAt ≤ access.expiresAt
  apart : ∀ l ∈ db.leases, l.Live → ¬l.Clashes lease
  limit : (db.ofDevice request.device).length < access.maxLeases
  node : ∃ registry, db.registry = some registry ∧
    ∃ gateway ∈ registry.gateways, gateway.id = lease.gatewayId ∧ gateway.pool.Hosts lease.address ∧
      (db.ofGateway gateway.id).length < gateway.maxDevices
  after : db' = { db with
    leases := db.leases ++ [lease]
    requests := ⟨request.device, request.requestId, request.fingerprint, uuid⟩ :: db.requests }

variable {uuid : Nat} {access : Access}

theorem ensures_assign :
    (assign setting now uuid request access).Ensures
    (fun lease db' => Assigned now uuid request access db lease db') db := by
  refine bind_readRegistry fun registry hRegistry => ?_
  refine bind_require fun _ => ?_
  refine bind_get ?_
  refine bind_require fun _ => ?_
  refine bind_require fun hLimit => ?_
  dsimp only
  split
  · exact ensures_throw
  · refine bind_found fun choice hPlace => ?_
    obtain ⟨node, address⟩ := choice
    obtain ⟨hNode, hRoom, hHosts⟩ := place_some hPlace
    refine ensures_bind (bind_get (bind_require fun hUnique => ensures_set ?_))
    refine ensures_bind (bind_get (bind_require fun _ => ensures_set ?_))
    obtain ⟨hFresh, hApart⟩ := hUnique
    refine ensures_readLease fun lease hLease => ?_
    rw [Db.lease, Rows.get_put] at hLease
    rw [if_pos rfl] at hLease
    cases hLease
    constructor
    case id | device | state | generation => rfl
    case fresh => exact hFresh
    case expires => exact min_le_right _ _
    case apart =>
      intro l hMem hLive hClash
      obtain ⟨hAddress, hGateway, hScope⟩ := hApart l hMem hLive
      rcases hClash with hSame | hSame | hSame
      · exact hAddress hSame
      · exact hGateway hSame
      · exact hScope hSame
    case limit => exact hLimit
    case node => exact ⟨registry, hRegistry, node, hNode, rfl, hHosts, hRoom⟩
    case after => rw [Rows.put_new hFresh]

/-- The two ways in which `reserve` returns. -/
theorem ensures_reserve : (reserve setting now uuid request).Ensures
    (fun lease db' => ∃ access, db.accessOf request.device = some access ∧ access.revoked = false ∧
      ((∃ prior, db.request request.device request.requestId = some prior ∧
          prior.fingerprint = request.fingerprint ∧ db.lease prior.leaseId = some lease ∧
            db' = { db with lastNow := now }) ∨
        db.request request.device request.requestId = none ∧
          Assigned now uuid request access { db with lastNow := now } lease db')) db := by
  refine bind_opened fun _ => ?_
  refine bind_positive ?_
  refine bind_positive ?_
  refine bind_require fun _ => ?_
  refine bind_authorized fun access hAccess hValid _ => ?_
  refine bind_get ?_
  split
  · rename_i prior hPrior
    refine bind_require fun hSame => ?_
    refine ensures_readLease fun lease hLease => ?_
    exact ⟨access, hAccess, hValid, .inl ⟨prior, hPrior, hSame, hLease, rfl⟩⟩
  · rename_i hNone
    exact ensures_assign.mono fun lease db₃ hAssigned =>
      ⟨access, hAccess, hValid, .inr ⟨hNone, hAssigned⟩⟩

theorem Assigned.lease (h : Assigned now uuid request access db l db') (other : Nat) :
    db'.lease other = if uuid = other then some l else db.lease other := by
  have hNew : Rows.get Lease.id l.id db.leases = none := by
    rw [h.id]
    exact h.fresh
  have hGet := Rows.get_put Lease.id other l db.leases
  rw [Rows.put_new hNew, h.id] at hGet
  rw [h.after]
  exact hGet

theorem Assigned.next (h : Assigned now uuid request access db l db') (hInv : db.Inv)
    (hAccess : db.accessOf request.device = some access) (hValid : access.revoked = false)
    (hUnknown : db.request request.device request.requestId = none) : db.Next none db' := by
  have hLease := h.lease
  have hSame : ∀ {id : Nat} {m : Lease}, db.lease id = some m → db'.lease id = some m := by
    intro id m hM
    rw [hLease, if_neg, hM]
    intro hId
    rw [← hId, h.fresh] at hM
    cases hM
  have hCases : ∀ {id : Nat} {m : Lease}, db'.lease id = some m → uuid = id ∧ l = m ∨
      db.lease id = some m := by
    intro id m hM
    rw [hLease] at hM
    split at hM
    · exact .inl ⟨‹_›, Option.some.inj hM⟩
    · exact .inr hM
  have hAccessOf : ∀ device, db'.accessOf device = db.accessOf device := by
    intro device
    rw [h.after]
    rfl
  have hRegistry : db'.registry = db.registry := by
    rw [h.after]
    rfl
  constructor
  case forth => exact fun id m hM => ⟨m, hSame hM, .refl m⟩
  case requests =>
    intro device requestId row hRow
    rw [h.after, Db.request, List.find?_cons_of_neg]
    · exact hRow
    · intro hSameRequest
      obtain ⟨rfl, rfl⟩ := of_decide_eq_true hSameRequest
      rw [hUnknown] at hRow
      cases hRow
  case keys =>
    intro device a hA
    exact ⟨a, (hAccessOf device).trans hA, rfl⟩
  case new =>
    intro id m hM
    rcases hCases hM with ⟨-, rfl⟩ | hM
    · exact .inr h.apart
    · exact .inl ⟨m, hM⟩
  case released =>
    intro id m hM hState
    rcases hCases hM with ⟨-, rfl⟩ | hM
    · rw [h.state] at hState
      cases hState
    · exact .inl ⟨m, hM, hState⟩
  case inv =>
    constructor
    case keyed =>
      rw [h.after]
      have hNew : Rows.get Lease.id l.id db.leases = none := by
        rw [h.id]
        exact h.fresh
      have hKeyed := hInv.keyed.put l
      rw [Rows.put_new hNew] at hKeyed
      exact hKeyed
    case numbered =>
      intro id m hM
      rcases hCases hM with ⟨-, rfl⟩ | hM
      · rw [Lease.Numbered, h.state, h.generation]
        rfl
      · exact hInv.numbered id m hM
    case apart =>
      intro i j m n hM hN hLiveM hLiveN hClash
      rcases hCases hM with ⟨hI, rfl⟩ | hM
      · rcases hCases hN with ⟨hJ, -⟩ | hN
        · exact hI.symm.trans hJ
        · refine absurd ?_ (h.apart n (Rows.mem_of_get hN) hLiveN)
          rcases hClash with ⟨h₁, h₂⟩ | ⟨h₁, h₂⟩ | ⟨h₁, h₂⟩
          · exact .inl ⟨h₁.symm, h₂.symm⟩
          · exact .inr (.inl ⟨h₁.symm, h₂.symm⟩)
          · exact .inr (.inr ⟨h₁.symm, h₂.symm⟩)
      · rcases hCases hN with ⟨-, rfl⟩ | hN
        · exact absurd hClash (h.apart m (Rows.mem_of_get hM) hLiveM)
        · exact hInv.apart i j m n hM hN hLiveM hLiveN hClash
    case hosted =>
      intro id m hM
      rw [hRegistry]
      rcases hCases hM with ⟨-, rfl⟩ | hM
      · obtain ⟨registry, hFound, gateway, hMem, hId, hHosts, -⟩ := h.node
        exact ⟨registry, hFound, gateway, hMem, hId, hHosts⟩
      · exact hInv.hosted id m hM
    case access =>
      intro id m hM hActive
      rw [hAccessOf]
      rcases hCases hM with ⟨-, rfl⟩ | hM
      · rw [h.device]
        exact ⟨access, hAccess, hValid, h.expires⟩
      · exact hInv.access id m hM hActive
    case requests =>
      intro row hMem
      rw [h.after] at hMem
      rcases List.mem_cons.mp hMem with rfl | hOld
      · exact ⟨l, by rw [hLease, if_pos rfl]⟩
      · obtain ⟨m, hM⟩ := hInv.requests row hOld
        exact ⟨m, hSame hM⟩

theorem ensures_reserve_next (h : db.Inv) : (reserve setting now uuid request).Ensures
    (fun _ db' => db.Next none db') db := by
  refine ensures_reserve.mono fun lease db' hReserved => ?_
  obtain ⟨access, hAccess, hValid, ⟨prior, -, -, -, rfl⟩ | ⟨hUnknown, hAssigned⟩⟩ := hReserved
  · exact h.moves (.clock db now)
  · have hClock : db.Next none { db with lastNow := now } := h.moves (.clock db now)
    have hNext := hAssigned.next hClock.inv hAccess hValid hUnknown
    exact ⟨hNext.inv, hNext.forth, hNext.requests, hNext.keys, hNext.new, hNext.released⟩

end FamilyConnect.Fleet
