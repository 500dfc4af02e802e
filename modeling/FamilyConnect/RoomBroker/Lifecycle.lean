import FamilyConnect.Lib.Heap
import FamilyConnect.RoomBroker.SetupInvariant

/-!
# The lifecycle of setups under every interleaving

`Broker.Inv` adds to the invariant of every setup what the map, the limits and
the wait group have to do with one another. Each step of the broker changes
one setup, so each case of the step lemma is an instance of `Inv.change`.
-/

namespace FamilyConnect.RoomBroker

open Lib

namespace Broker

def present (b : Broker) (r : Nat) (o : Setup) : Bool := decide (b.setups.lookup o.id = some r)

structure Inv (b : Broker) : Prop where
  setup : ∀ (r : Nat) (o : Setup), b.heap[r]? = some o → o.Inv (b.present r o)
  mapped : ∀ id r, b.setups.lookup id = some r → ∃ o : Setup, b.heap[r]? = some o ∧ o.id = id
  distinct : ∀ (r r' : Nat) (o o' : Setup), b.heap[r]? = some o → b.heap[r']? = some o' → o.id = o'.id → r = r'
  single : ∀ (r r' : Nat) (o o' : Setup), b.heap[r]? = some o → b.heap[r']? = some o' → b.present r o = true →
    b.present r' o' = true → o.identity = o'.identity → r = r'
  outstanding : (b.setups.keys.length : Int) ≤ b.limits.outstanding
  workers : b.workers = ((b.heap.map Setup.workers).sum : Nat)
  waits : 0 < b.waiting → b.closed = true
  shut : 0 < b.returned → b.closed = true ∧ b.workers = 0

def Forward (b b' : Broker) : Prop :=
  ∀ (r : Nat) (o : Setup), b.heap[r]? = some o → ∃ o' : Setup, b'.heap[r]? = some o' ∧ o.Forward o'

theorem Forward.refl (b : Broker) : Forward b b := fun _ o ho => ⟨o, ho, .refl o⟩

abbrev Next (b b' : Broker) : Prop := b'.Inv ∧ Forward b b'

theorem Inv.same {b : Broker} (h : b.Inv) : b.Next b := ⟨h, .refl b⟩

theorem Forward.trans {b b' b'' : Broker} (h : Forward b b') (h' : Forward b' b'') : Forward b b'' := by
  intro r o ho
  obtain ⟨o', ho', hForward⟩ := h r o ho
  obtain ⟨o'', ho'', hForward'⟩ := h' r o' ho'
  exact ⟨o'', ho'', hForward.trans hForward'⟩

variable {b b' : Broker} {r : Nat} {o o' : Setup}

theorem present_iff : b.present r o = true ↔ b.setups.lookup o.id = some r := decide_eq_true_iff

section

variable (h : b.Inv)
include h

theorem Inv.lookup_of_idle (hIdle : b.workers = 0) (id : SetupId) : b.setups.lookup id = none := by
  cases hMap : b.setups.lookup id with
  | none => rfl
  | some r =>
    obtain ⟨o, ho, rfl⟩ := h.mapped id r hMap
    have hSetup := h.setup r o ho
    have hPresent := present_iff.mpr hMap
    have hNone : o.workers = 0 := by
      have hShare := Heap.le_sum_map Setup.workers ho
      have hTotal := h.workers
      omega
    obtain ⟨hMonitor, hCreator⟩ := Setup.workers_eq_zero.mp hNone
    rcases hCreator with hc | hc
    · exact absurd hMonitor ((hSetup.watched hc).mp hPresent).2
    · have hHolds := (hSetup.owned (by rw [hc]; nofun)).mp hPresent
      rw [hc] at hHolds
      cases hHolds

structure Change (b b' : Broker) (r : Nat) (o o' : Setup) : Prop where
  heap : b'.heap = b.heap.set r o'
  setups : b'.setups = b.setups ∧ o'.Inv (b.present r o) ∨ b'.setups = b.setups.erase o.id ∧ o'.Inv false
  limits : b'.limits = b.limits
  closed : b'.closed = b.closed
  waiting : b'.waiting = b.waiting
  returned : b'.returned = b.returned
  workers : b'.workers = b.workers + o'.workers - o.workers
  calm : o'.workers ≤ o.workers ∨ b.returned = 0

variable {id : SetupId}

omit h in
theorem Change.lookup (hChange : Change b b' r o o') {i : Nat} (h : b'.setups.lookup id = some i) :
    b.setups.lookup id = some i := by
  rcases hChange.setups with ⟨hSame, _⟩ | ⟨hErase, _⟩
  · exact hSame ▸ h
  · rw [hErase] at h
    exact (Table.lookup_erase_some h).2

section

variable (ho : b.heap[r]? = some o)
include ho

theorem Inv.change (hForward : o.Forward o') (hChange : Change b b' r o o') : b.Next b' := by
  have hGet : ∀ (i : Nat) (x : Setup), b'.heap[i]? = some x → i = r ∧ x = o' ∨ i ≠ r ∧ b.heap[i]? = some x := by
    intro i x hx
    rw [hChange.heap] at hx
    exact Heap.get_set_cases hx
  -- Every setup after the change stands for the one at the same pointer before it.
  have hOld : ∀ (i : Nat) (x : Setup), b'.heap[i]? = some x →
      ∃ y : Setup, b.heap[i]? = some y ∧ y.id = x.id ∧ y.identity = x.identity := by
    intro i x hx
    rcases hGet i x hx with ⟨rfl, rfl⟩ | ⟨_, hx⟩
    · exact ⟨o, ho, hForward.id.symm, hForward.identity.symm⟩
    · exact ⟨x, hx, rfl, rfl⟩
  have hPresent : ∀ (i : Nat) (x y : Setup), y.id = x.id → b'.present i x = true → b.present i y = true := by
    intro i x y hId hx
    rw [present_iff] at hx ⊢
    rw [hId]
    exact hChange.lookup hx
  constructor
  · constructor
    case setup =>
      intro i x hx
      rcases hGet i x hx with ⟨rfl, rfl⟩ | ⟨hNe, hx⟩
      · rcases hChange.setups with ⟨hSame, hInv⟩ | ⟨hErase, hInv⟩
        · unfold present at hInv ⊢
          rw [hSame, hForward.id]
          exact hInv
        · unfold present
          rw [hErase, hForward.id, AList.lookup_erase]
          exact hInv
      · have hInv := h.setup i x hx
        unfold present at hInv ⊢
        rcases hChange.setups with ⟨hSame, _⟩ | ⟨hErase, _⟩
        · rw [hSame]
          exact hInv
        · have hId : x.id ≠ o.id := fun hEq => hNe (h.distinct i r x o hx ho hEq)
          rw [hErase, AList.lookup_erase_ne hId]
          exact hInv
    case mapped =>
      intro id i hMap
      obtain ⟨x, hx, hId⟩ := h.mapped id i (hChange.lookup hMap)
      by_cases hi : i = r
      · subst hi
        cases ho.symm.trans hx
        refine ⟨o', ?_, hForward.id.trans hId⟩
        rw [hChange.heap]
        exact Heap.get_set ho
      · refine ⟨x, ?_, hId⟩
        rw [hChange.heap, List.getElem?_set_ne (Ne.symm hi)]
        exact hx
    case distinct =>
      intro i i' x x' hx hx' hId
      obtain ⟨y, hy, hyId, _⟩ := hOld i x hx
      obtain ⟨y', hy', hyId', _⟩ := hOld i' x' hx'
      exact h.distinct i i' y y' hy hy' (hyId.trans (hId.trans hyId'.symm))
    case single =>
      intro i i' x x' hx hx' hp hp' hSame
      obtain ⟨y, hy, hyId, hyIdentity⟩ := hOld i x hx
      obtain ⟨y', hy', hyId', hyIdentity'⟩ := hOld i' x' hx'
      exact h.single i i' y y' hy hy' (hPresent i x y hyId hp) (hPresent i' x' y' hyId' hp')
        (hyIdentity.trans (hSame.trans hyIdentity'.symm))
    case outstanding =>
      rw [hChange.limits]
      refine le_trans ?_ h.outstanding
      rcases hChange.setups with ⟨hSame, _⟩ | ⟨hErase, _⟩
      · rw [hSame]
      · rw [hErase, AList.keys_erase]
        exact_mod_cast List.length_erase_le
    case workers =>
      have hTotal := h.workers
      have hSum := Heap.sum_map_set Setup.workers ho (y := o')
      rw [hChange.workers, hChange.heap]
      omega
    case waits =>
      rw [hChange.waiting, hChange.closed]
      exact h.waits
    case shut =>
      rw [hChange.returned, hChange.closed, hChange.workers]
      intro hReturned
      obtain ⟨hClosed, hIdle⟩ := h.shut hReturned
      have hShare := Heap.le_sum_map Setup.workers ho
      have hTotal := h.workers
      have hCalm := hChange.calm.resolve_right (by omega)
      exact ⟨hClosed, by omega⟩
  · intro i x hx
    rw [hChange.heap]
    by_cases hi : i = r
    · subst hi
      cases ho.symm.trans hx
      exact ⟨o', Heap.get_set ho, hForward⟩
    · exact ⟨x, by rw [List.getElem?_set_ne (Ne.symm hi)]; exact hx, .refl x⟩

variable {f : Setup → Setup}

theorem Inv.modify_kept
    (hKept : Setup.Kept (b.present r o) o (f o)) : b.Next (b.modify r f) :=
  h.change ho hKept.forward
    { heap := Heap.modify_eq_set f ho
      setups := .inl ⟨rfl, hKept.inv⟩
      limits := rfl
      closed := rfl
      waiting := rfl
      returned := rfl
      workers := by rw [hKept.workers]; exact (Int.add_sub_cancel _ _).symm
      calm := .inl hKept.workers.le }

/-! ## Calls from outside -/

variable {identity : Identity}

omit ho in
omit h in
theorem lookup_ok {ctxEnded : Bool} {now : Instant} (h : b.lookup ctxEnded id identity now = .ok (r, o)) :
    b.setups.lookup id = some r ∧ b.heap[r]? = some o ∧ terminal o.state = false := by
  unfold lookup at h
  split at h
  · cases h
  rename_i hMap
  split at h
  · cases h
  rename_i hHeap
  split at h
  · cases h
  rename_i hAllowed
  cases h
  simp only [not_or, Bool.not_eq_true] at hAllowed
  exact ⟨hMap, hHeap, hAllowed.2.2.2.1⟩

omit ho in
omit h in
theorem not_busy (h : b.busy identity = false)
    (hMap : b.setups.lookup id = some r) (ho : b.heap[r]? = some o) : o.identity ≠ identity := by
  intro hSame
  have hEntry : (⟨id, r⟩ : Σ _ : SetupId, Nat) ∈ b.setups.entries := AList.mem_lookup_iff.mp hMap
  unfold busy at h
  rw [List.any_eq_false] at h
  refine h _ hEntry ?_
  rw [ho]
  exact decide_eq_true hSame

omit ho in
theorem Inv.challenge (who : Option Identity) (now : Instant)
    (hFresh : ∀ o ∈ b.heap, o.id ≠ id) : b.Next (b.challenge who id now).1 := by
  unfold Broker.challenge
  split
  · exact h.same
  rename_i identity
  split
  · exact h.same
  rename_i hOpen
  split
  · exact h.same
  rename_i hRoom
  split
  · exact h.same
  rename_i hIdle
  rw [Bool.not_eq_true] at hIdle
  have hNew : b.setups.lookup id = none := by
    cases hMap : b.setups.lookup id with
    | none => rfl
    | some r =>
      obtain ⟨o, ho, hId⟩ := h.mapped id r hMap
      exact absurd hId (hFresh o (List.mem_of_getElem? ho))
  have hOld : ∀ {r : Nat} {o : Setup}, b.heap[r]? = some o → o.id ≠ id :=
    fun ho => hFresh _ (List.mem_of_getElem? ho)
  set current : Setup :=
    { id := id, identity := identity, deadline := now + b.limits.unused, leaseUntil := now + b.limits.lifetime }
    with hCurrent
  -- Pointers and ids of older setups are untouched by the insertion.
  have hPresent : ∀ {r : Nat} {o : Setup}, b.heap[r]? = some o →
      (b.setups.insert id b.heap.length).lookup o.id = b.setups.lookup o.id :=
    fun ho => AList.lookup_insert_ne (hOld ho)
  constructor
  · constructor
    case setup =>
      intro r o ho
      unfold present
      rcases Heap.get_append_cases ho with ⟨rfl, rfl⟩ | ho
      · rw [show current.id = id from rfl, AList.lookup_insert, decide_eq_true rfl]
        exact ⟨rfl, ⟨fun _ => rfl, fun _ => rfl⟩, fun hBegun => absurd rfl hBegun,
          fun _ => ⟨fun _ => ⟨nofun, nofun⟩, fun _ => rfl⟩, fun hBegun => absurd rfl hBegun, nofun, rfl,
          fun _ => rfl, Nat.zero_le _, rfl, nofun, .inr le_rfl⟩
      · rw [hPresent ho]
        exact h.setup r o ho
    case mapped =>
      intro id' r hMap
      rcases Table.lookup_insert_some hMap with ⟨rfl, rfl⟩ | ⟨_, hMap⟩
      · exact ⟨current, List.getElem?_concat_length, rfl⟩
      · obtain ⟨o, ho, hId⟩ := h.mapped id' r hMap
        exact ⟨o, by rw [List.getElem?_append_left (Heap.lt_length ho)]; exact ho, hId⟩
    case distinct =>
      intro r r' o o' ho ho' hId
      rcases Heap.get_append_cases ho with ⟨rfl, rfl⟩ | ho <;>
        rcases Heap.get_append_cases ho' with ⟨rfl, rfl⟩ | ho'
      · rfl
      · exact absurd hId.symm (hOld ho')
      · exact absurd hId (hOld ho)
      · exact h.distinct r r' o o' ho ho' hId
    case single =>
      intro r r' o o' ho ho' hp hp' hSame
      rw [present_iff] at hp hp'
      rcases Heap.get_append_cases ho with ⟨rfl, rfl⟩ | ho <;>
        rcases Heap.get_append_cases ho' with ⟨rfl, rfl⟩ | ho'
      · rfl
      · exact absurd hSame.symm (not_busy hIdle ((hPresent ho').symm.trans hp') ho')
      · exact absurd hSame (not_busy hIdle ((hPresent ho).symm.trans hp) ho)
      · exact h.single r r' o o' ho ho' (present_iff.mpr ((hPresent ho).symm.trans hp))
          (present_iff.mpr ((hPresent ho').symm.trans hp')) hSame
    case outstanding =>
      dsimp only
      rw [AList.keys_insert, List.length_cons, List.erase_of_not_mem]
      · omega
      · rw [← AList.mem_keys]
        exact AList.lookup_eq_none.mp hNew
    case workers =>
      rw [List.map_append, List.sum_append, h.workers]
      rfl
    case waits => exact h.waits
    case shut =>
      intro hReturned
      exact absurd (h.shut hReturned).1 hOpen
  · intro r o ho
    exact ⟨o, by rw [List.getElem?_append_left (Heap.lt_length ho)]; exact ho, .refl o⟩

omit ho in
theorem Inv.create (ctxEnded : Bool) (id : SetupId) (who : Option Identity) (now : Instant) :
    b.Next (b.create ctxEnded id who now).1 := by
  unfold Broker.create
  split
  · exact h.same
  split
  · exact h.same
  rename_i r current hLookup
  obtain ⟨hMap, ho, hOpen⟩ := lookup_ok hLookup
  split
  · exact h.same
  rename_i hState
  rw [not_not] at hState
  have hSetup := h.setup r current ho
  obtain ⟨x, hx, hId⟩ := h.mapped id r hMap
  cases ho.symm.trans hx
  have hPresent : b.present r current = true := present_iff.mpr (hId ▸ hMap)
  have hIdle : current.creator = .idle := by
    by_contra hBegun
    have hRank := hSetup.begun hBegun
    rw [hState] at hRank
    cases hRank
  have hWorkers : current.workers = current.monitor.worker := by
    unfold Setup.workers
    rw [hIdle]
    rfl
  refine h.change ho ?_ ⟨Heap.modify_eq_set _ ho, .inl ⟨rfl, ?_⟩, rfl, rfl, rfl, rfl, ?_, ?_⟩
  · exact
      { Setup.Forward.refl current with
        state := by rw [hState]; exact Nat.zero_le _
        terminal := fun hEnd => absurd (hOpen.symm.trans hEnd) nofun
        started := fun _ => rfl }
  · have hBalance := hSetup.balance
    rw [hIdle] at hBalance
    exact
      { hSetup with
        idle := ⟨nofun, nofun⟩
        begun := fun _ => le_rfl
        watched := nofun
        owned := fun _ => ⟨fun _ => rfl, fun _ => hPresent⟩
        balance := hBalance
        unopened := fun _ => hSetup.unopened (by rw [hIdle]; rfl)
        active := nofun
        bound := .inr le_rfl }
  · rw [hWorkers]
    change b.workers + 1 = b.workers + (current.monitor.worker + 1 : Nat) - _
    omega
  · refine .inr ?_
    by_contra hReturned
    have hNone := h.lookup_of_idle (h.shut (Nat.pos_of_ne_zero hReturned)).2 id
    rw [hNone] at hMap
    cases hMap

omit ho in
theorem Inv.claim (ctxEnded : Bool) (id : SetupId) (who : Option Identity) (now : Instant) :
    b.Next (b.claim ctxEnded id who now).1 := by
  unfold Broker.claim
  split
  · exact h.same
  split
  · exact h.same
  rename_i r current hLookup
  obtain ⟨_, ho, _⟩ := lookup_ok hLookup
  split
  · exact h.same
  rename_i hAllowed
  simp only [not_or, not_not, Bool.not_eq_true] at hAllowed
  have hSetup := h.setup r current ho
  refine h.modify_kept ho ⟨?_, ?_, rfl⟩
  · refine { hSetup with claims := ?_, active := fun _ => rfl }
    have hClaims := hSetup.claims
    rw [hAllowed.2] at hClaims
    rw [hClaims]
    rfl
  · exact { Setup.Forward.refl current with claims := Nat.le_succ _ }

omit ho in
theorem Inv.renew (r : Nat) (ctxEnded : Bool) (request : LeaseReceipt) (who : Option Identity)
    (securityDeadline guard bound extended : Instant) :
    b.Next (b.renew r ctxEnded request who securityDeadline guard bound extended).1 := by
  unfold Broker.renew
  split
  · exact h.same
  · exact h.same
  rename_i current ho
  split
  · exact h.same
  split
  · exact h.same
  split
  · exact h.same
  dsimp only
  split
  · exact h.same
  split
  · exact h.same
  exact h.modify_kept ho ⟨{ h.setup r current ho with }, { Setup.Forward.refl current with }, rfl⟩

/-! ## Goroutines -/

omit h in
theorem modify_remove (f : Setup → Setup) (id : SetupId) :
    ((b.modify r f).remove r id).heap = b.heap.set r { f o with doneClosed := (f o).doneClosed + 1 } := by
  change (b.heap.modify r f).modify r _ = _
  rw [Heap.modify_eq_set f ho, Heap.modify_eq_set _ (Heap.get_set ho), List.set_set]

theorem Inv.monitorDone (hm : o.monitor = .watching) : b.Next (b.monitorDone r o) := by
  have hSetup := h.setup r o ho
  have hEnd := o.contextDone_ended.kept hSetup
  obtain ⟨⟨state, events, ctx, hEq⟩, _⟩ := o.contextDone_ended
  have hMonitor : o.contextDone.monitor = .watching := by rw [hEq]; exact hm
  have hWorkers : Setup.workers { o.contextDone with monitor := .leaving } = o.workers := by
    rw [← hEnd.workers]
    unfold Setup.workers
    rw [hMonitor]
    rfl
  unfold Broker.monitorDone
  split
  · rename_i hStarted
    have hBegun : o.contextDone.creator ≠ .idle := by
      intro hIdle
      have hNot := hEnd.inv.idle.mpr hIdle
      rw [hEnd.forward.started hStarted] at hNot
      cases hNot
    refine h.modify_kept ho ⟨?_, hEnd.forward.trans { Setup.Forward.refl _ with }, hWorkers⟩
    exact { hEnd.inv with watched := fun hIdle => absurd hIdle hBegun, pending := nofun }
  · rename_i hStarted
    rw [Bool.not_eq_true] at hStarted
    have hIdle : o.contextDone.creator = .idle := by
      rw [hEq]
      exact hSetup.idle.mp hStarted
    have hPresent : b.present r o = true := (hEnd.inv.watched hIdle).mpr (by rw [hMonitor]; exact ⟨nofun, nofun⟩)
    have hOpen := hEnd.inv.done
    rw [hPresent, if_pos rfl] at hOpen
    refine h.change ho ?_ ⟨modify_remove ho _ _, .inr ⟨rfl, ?_⟩, rfl, rfl, rfl, rfl, ?_, .inl hWorkers.le⟩
    · exact hEnd.forward.trans { Setup.Forward.refl _ with doneClosed := Nat.le_succ _ }
    · exact
        { hEnd.inv with
          done := by
            change o.contextDone.doneClosed + 1 = _
            rw [hOpen]
            rfl
          watched := fun _ => ⟨nofun, fun hHere => absurd rfl hHere.1⟩
          owned := fun hBegun => absurd hIdle hBegun
          pending := nofun }
    · change b.workers = b.workers + (Setup.workers { o.contextDone with monitor := .leaving } : Nat) - _
      rw [hWorkers]
      omega

theorem Inv.finish (hc : o.creator = .removing) : b.Next (b.finish r o) := by
  have hSetup := h.setup r o ho
  have hPresent : b.present r o = true := (hSetup.owned (by rw [hc]; nofun)).mpr (by rw [hc]; rfl)
  have hOpen := hSetup.done
  have hBalance := hSetup.balance
  have hBound := hSetup.bound
  rw [hPresent, if_pos rfl] at hOpen
  rw [hc] at hBalance hBound
  have hWorkers : Setup.workers { o with creator := .leaving } = o.workers := by
    unfold Setup.workers
    rw [hc]
    rfl
  unfold Broker.finish
  dsimp only
  split
  case isFalse hGone => exact absurd (present_iff.mp hPresent) hGone
  refine h.change ho ?_ ⟨modify_remove ho _ _, .inr ⟨rfl, ?_⟩, rfl, rfl, rfl, rfl, ?_, .inl hWorkers.le⟩
  · exact { Setup.Forward.refl o with doneClosed := Nat.le_succ _ }
  · exact
      { hSetup with
        done := by
          change o.doneClosed + 1 = _
          rw [hOpen]
          rfl
        idle := ⟨fun hNot => absurd (hSetup.idle.mp hNot) (by rw [hc]; nofun), nofun⟩
        begun := fun _ => hSetup.begun (by rw [hc]; nofun)
        watched := nofun
        owned := fun _ => ⟨nofun, nofun⟩
        balance := hBalance
        unopened := nofun
        bound := hBound }
  · change b.workers = b.workers + (Setup.workers { o with creator := .leaving } : Nat) - _
    rw [hWorkers]
    omega

/-- The last thing of a goroutine. -/
theorem Inv.exit (hInv : (f o).Inv (b.present r o)) (hForward : o.Forward (f o))
    (hWorkers : (f o).workers + 1 = o.workers) : b.Next { b.modify r f with workers := b.workers - 1 } := by
  refine h.change ho hForward ⟨Heap.modify_eq_set _ ho, .inl ⟨rfl, hInv⟩, rfl, rfl, rfl, rfl, ?_, .inl (by omega)⟩
  change b.workers - 1 = _
  omega

theorem Inv.monitorExit (hm : o.monitor = .leaving) :
    b.Next { b.modify r (fun o => { o with monitor := .exited }) with workers := b.workers - 1 } := by
  have hSetup := h.setup r o ho
  refine h.exit ho ?_ { Setup.Forward.refl o with } ?_
  · refine { hSetup with watched := ?_, pending := nofun }
    intro hIdle
    rw [hSetup.watched hIdle, hm]
    exact ⟨fun hHere => absurd rfl hHere.1, fun hHere => absurd rfl hHere.2⟩
  · unfold Setup.workers
    rw [hm]
    change 0 + o.creator.worker + 1 = 1 + o.creator.worker
    omega

theorem Inv.creatorExit (hc : o.creator = .leaving) :
    b.Next { b.modify r (fun o => { o with creator := .exited }) with workers := b.workers - 1 } := by
  have hSetup := h.setup r o ho
  have hOwned := hSetup.owned (by rw [hc]; nofun)
  have hBalance := hSetup.balance
  have hBound := hSetup.bound
  rw [hc] at hOwned hBalance hBound
  refine h.exit ho ?_ { Setup.Forward.refl o with } ?_
  · exact
      { hSetup with
        idle := ⟨fun hNot => absurd (hSetup.idle.mp hNot) (by rw [hc]; nofun), nofun⟩
        begun := fun _ => hSetup.begun (by rw [hc]; nofun)
        watched := nofun
        owned := fun _ => hOwned
        balance := hBalance
        unopened := nofun
        bound := hBound }
  · unfold Setup.workers
    rw [hc]
    rfl

end

theorem Inv.congr (hHeap : b'.heap = b.heap) (hSetups : b'.setups = b.setups)
    (hLimits : b'.limits = b.limits) (hWorkers : b'.workers = b.workers)
    (hWaits : 0 < b'.waiting → b'.closed = true) (hShut : 0 < b'.returned → b'.closed = true ∧ b'.workers = 0) :
    b.Next b' := by
  constructor
  · constructor
    case setup => unfold present; rw [hHeap, hSetups]; exact h.setup
    case mapped => rw [hHeap, hSetups]; exact h.mapped
    case distinct => rw [hHeap]; exact h.distinct
    case single => unfold present; rw [hHeap, hSetups]; exact h.single
    case outstanding => rw [hSetups, hLimits]; exact h.outstanding
    case workers => rw [hHeap, hWorkers]; exact h.workers
    case waits => exact hWaits
    case shut => exact hShut
  · unfold Forward
    rw [hHeap]
    exact Forward.refl b

theorem Inv.cancelTerminate (r : Nat) :
    b.Next { b.modify r (fun o => o.terminate .cancelled "cancelled") with cancels := b.cancels.erase r } := by
  obtain ⟨hInv, hForward⟩ : b.Next (b.modify r fun o => o.terminate .cancelled "cancelled") := by
    cases ho : b.heap[r]? with
    | none => exact h.congr (Heap.modify_eq_self _ ho) rfl rfl rfl h.waits h.shut
    | some o => exact h.modify_kept ho ((Setup.terminate_ended o "cancelled" rfl).kept (h.setup r o ho))
  have hErase : Next _ { b.modify r (fun o => o.terminate .cancelled "cancelled") with cancels := b.cancels.erase r } :=
    hInv.congr rfl rfl rfl rfl h.waits h.shut
  exact ⟨hErase.1, hForward.trans hErase.2⟩

theorem Inv.close : b.Next b.close := by
  have hGet : ∀ (i : Nat) (x : Setup), b.close.heap[i]? = some x →
      ∃ y, b.heap[i]? = some y ∧ y.Ended x := by
    intro i x hx
    change (b.heap.mapIdx _)[i]? = some x at hx
    rw [List.getElem?_mapIdx] at hx
    obtain ⟨y, hy, rfl⟩ := Option.map_eq_some_iff.mp hx
    refine ⟨y, hy, ?_⟩
    split
    · exact y.cancel_ended
    · exact ⟨⟨_, _, _, rfl⟩, .inl rfl⟩
  have hId : ∀ {x y : Setup}, y.Ended x → y.id = x.id ∧ y.identity = x.identity :=
    fun hEnded => ⟨hEnded.forward.id.symm, hEnded.forward.identity.symm⟩
  have hBack : ∀ (i : Nat) (y : Setup), b.heap[i]? = some y → ∃ x, b.close.heap[i]? = some x ∧ y.Ended x := by
    intro i y hy
    have hx : b.close.heap[i]? = some (if b.setups.lookup y.id = some i then y.cancel else y) := by
      change (b.heap.mapIdx _)[i]? = _
      rw [List.getElem?_mapIdx, hy]
      rfl
    obtain ⟨y', hy', hEnded⟩ := hGet i _ hx
    cases hy.symm.trans hy'
    exact ⟨_, hx, hEnded⟩
  have hPresent : ∀ {i : Nat} {x y : Setup}, y.Ended x → b.close.present i x = b.present i y := by
    intro i x y hEnded
    unfold present
    rw [(hId hEnded).1]
    rfl
  constructor
  · constructor
    case setup =>
      intro i x hx
      obtain ⟨y, hy, hEnded⟩ := hGet i x hx
      rw [hPresent hEnded]
      exact hEnded.inv (h.setup i y hy)
    case mapped =>
      intro id i hMap
      obtain ⟨y, hy, hyId⟩ := h.mapped id i hMap
      obtain ⟨x, hx, hEnded⟩ := hBack i y hy
      exact ⟨x, hx, (hId hEnded).1.symm.trans hyId⟩
    case distinct =>
      intro i i' x x' hx hx' hSame
      obtain ⟨y, hy, hEnded⟩ := hGet i x hx
      obtain ⟨y', hy', hEnded'⟩ := hGet i' x' hx'
      exact h.distinct i i' y y' hy hy' ((hId hEnded).1.trans (hSame.trans (hId hEnded').1.symm))
    case single =>
      intro i i' x x' hx hx' hp hp' hSame
      obtain ⟨y, hy, hEnded⟩ := hGet i x hx
      obtain ⟨y', hy', hEnded'⟩ := hGet i' x' hx'
      rw [hPresent hEnded] at hp
      rw [hPresent hEnded'] at hp'
      exact h.single i i' y y' hy hy' hp hp' ((hId hEnded).2.trans (hSame.trans (hId hEnded').2.symm))
    case outstanding => exact h.outstanding
    case workers =>
      have hSame : b.close.heap.map Setup.workers = b.heap.map Setup.workers := by
        apply List.ext_getElem?
        intro i
        change ((b.heap.mapIdx _).map Setup.workers)[i]? = _
        rw [List.getElem?_map, List.getElem?_map, List.getElem?_mapIdx]
        cases b.heap[i]? with
        | none => rfl
        | some y =>
          dsimp only [Option.map_some]
          split <;> rfl
      rw [hSame]
      exact h.workers
    case waits => exact fun _ => rfl
    case shut => exact fun hReturned => ⟨rfl, (h.shut hReturned).2⟩
  · intro i y hy
    obtain ⟨x, hx, hEnded⟩ := hBack i y hy
    exact ⟨x, hx, hEnded.forward⟩

theorem Inv.step (hStep : Step b b') : b.Next b' := by
  cases hStep with
  | challenge who now hFresh => exact h.challenge who now hFresh
  | create ctxEnded id who now => exact h.create ctxEnded id who now
  | claim ctxEnded id who now => exact h.claim ctxEnded id who now
  | cancel ctxEnded id who now =>
    unfold Broker.cancel
    split
    · exact h.same
    split
    · exact h.same
    · exact h.congr rfl rfl rfl rfl h.waits h.shut
  | cancelTerminate _ => exact h.cancelTerminate _
  | renew r ctxEnded request who securityDeadline guard bound extended =>
    exact h.renew r ctxEnded request who securityDeadline guard bound extended
  | setup ho hStep => exact h.modify_kept ho (Setup.Step.kept (h.setup _ _ ho) hStep)
  | monitorDone ho hm _ => exact h.monitorDone ho hm
  | monitorExit ho hm => exact h.monitorExit ho hm
  | finish ho hc => exact h.finish ho hc
  | creatorExit ho hc => exact h.creatorExit ho hc
  | close => exact h.close
  | closeReturn hWaiting hIdle =>
    exact h.congr rfl rfl rfl rfl (fun _ => h.waits hWaiting) (fun _ => ⟨h.waits hWaiting, hIdle⟩)

theorem Inv.steps (hSteps : Relation.ReflTransGen Step b b') : b.Next b' := by
  induction hSteps with
  | refl => exact h.same
  | tail _ hStep ih =>
    obtain ⟨hInv, hForward⟩ := ih.1.step hStep
    exact ⟨hInv, ih.2.trans hForward⟩

end

end Broker

variable {limits : Limits}

theorem new_ok {b : Broker} (h : new limits = .ok b) : b = { limits := limits } ∧ 1 ≤ limits.outstanding := by
  unfold new at h
  split at h
  · cases h
  rename_i hLimits
  simp only [not_or, not_lt] at hLimits
  exact ⟨(Except.ok.inj h).symm, hLimits.2.2.2.2.2.2.2.2.2.2.1⟩

theorem inv_new {b : Broker} (h : new limits = .ok b) : b.Inv := by
  obtain ⟨rfl, hOutstanding⟩ := new_ok h
  have hEmpty : ∀ {r : Nat} {o : Setup}, ¬ ([] : List Setup)[r]? = some o := by
    intro r o ho
    cases ho
  exact
    { setup := fun _ _ ho => absurd ho hEmpty
      mapped := fun _ _ hMap => by cases hMap
      distinct := fun _ _ _ _ ho => absurd ho hEmpty
      single := fun _ _ _ _ ho => absurd ho hEmpty
      outstanding := Int.le_trans (show (0 : Int) ≤ 1 by decide) hOutstanding
      workers := rfl
      waits := fun h => absurd h (Nat.lt_irrefl 0)
      shut := fun h => absurd h (Nat.lt_irrefl 0) }

theorem broker_inv {b : Broker} (h : (brokerSystem limits).Reachable b) : b.Inv := by
  refine h.invariant (I := Broker.Inv) ?_ ?_
  · intro s hs
    exact inv_new hs
  · intro s t _ hInv hStep
    exact (hInv.step hStep).1

end FamilyConnect.RoomBroker
