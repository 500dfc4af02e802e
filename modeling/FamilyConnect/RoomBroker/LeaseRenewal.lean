import FamilyConnect.RoomBroker.Cleanup
import FamilyConnect.RoomBroker.LeaseControl

/-!
# What a renewal does to a lease

`Renewal` says everything that `renew` can do to the lease of a setup, without
the broker around it. The deadlines that a lease has had are a sequence indexed
by the renewal counter; a receipt is genuine if it names one of them.
-/

namespace FamilyConnect.RoomBroker

open Lib

namespace Lease

def receipt (lease : Lease) : LeaseReceipt := ⟨lease.id, lease.renewal, lease.deadline⟩

def extend (lease : Lease) (request : LeaseReceipt) (extension : Instant) : Lease :=
  ⟨lease.id, request.sequence, extension, request, ⟨lease.id, request.sequence, extension⟩⟩

inductive Renewal (lifetime : Duration) (security bound : Instant) (lease : Lease) (request : LeaseReceipt) :
    Lease → Except Code LeaseReceipt → Prop where
  | refused {code : Code} : code ≠ "renewal_replayed" → code ≠ "renewal_limited" →
      Renewal lifetime security bound lease request lease (.error code)
  | repeated : request.sequence = lease.renewal → lease.renewal ≠ 0 →
      Renewal lifetime security bound lease request lease (.ok lease.lastLease)
  | replayed : ¬ (request.sequence = lease.renewal ∧ lease.renewal ≠ 0 ∧
      request.expiresAt = lease.lastRequest.expiresAt) → lease.renewal = 2 ^ 64 - 1 ∨
      request.sequence ≠ lease.renewal + 1 ∨ request.expiresAt ≠ lease.deadline →
        Renewal lifetime security bound lease request lease (.error "renewal_replayed")
  | limited : request.sequence = lease.renewal + 1 →
      Renewal lifetime security bound lease request lease (.error "renewal_limited")
  | extended {extension : Instant} : request.sequence = lease.renewal + 1 → request.expiresAt = lease.deadline →
      lease.renewal ≠ 2 ^ 64 - 1 → lease.deadline < extension → extension ≤ bound + lifetime → extension ≤ security →
      Renewal lifetime security bound lease request (lease.extend request extension)
        (.ok (lease.extend request extension).receipt)

end Lease

namespace Broker

variable {b : Broker} {r : Nat} {lease : Lease} {ctxEnded : Bool} {who : Option Identity} {f : Setup → Setup}

theorem lease_eq_some (h : b.lease r = some lease) : ∃ o, b.heap[r]? = some o ∧ o.lease = lease :=
  Option.map_eq_some_iff.mp h

theorem snapshot_ok {security now : Instant} {receipt : LeaseReceipt} (hLease : b.lease r = some lease)
    (h : b.snapshot r ctxEnded who security now = .ok receipt) : receipt = lease.receipt := by
  obtain ⟨o, ho, rfl⟩ := lease_eq_some hLease
  unfold snapshot at h
  split at h
  · cases h
  · cases h
  · rename_i current hCurrent
    rw [ho] at hCurrent
    cases hCurrent
    split at h
    · cases h
    · exact (Except.ok.inj h).symm

theorem snapshot_error {security now : Instant} {code : Code}
    (h : b.snapshot r ctxEnded who security now = .error code) : code ≠ "renewal_replayed" := by
  unfold snapshot at h
  repeat' split at h
  all_goals cases h
  all_goals decide

theorem get_modify {o : Setup} (ho : b.heap[r]? = some o) (f : Setup → Setup) :
    (b.modify r f).heap[r]? = some (f o) := by
  change (b.heap.modify r f)[r]? = _
  rw [Heap.modify_eq_set f ho, Heap.get_set ho]

theorem lease_modify {o : Setup} (ho : b.heap[r]? = some o) : (b.modify r f).lease r = some (f o).lease := by
  rw [lease, get_modify ho, Option.map_some]

theorem renewal_of_renew (hLease : b.lease r = some lease) (ctxEnded : Bool) (who : Option Identity)
    (request : LeaseReceipt) (security guard bound extended : Instant) :
    ∃ lease', (b.renew r ctxEnded request who security guard bound extended).1.lease r = some lease' ∧
      lease.Renewal b.limits.lifetime security bound request lease'
        (b.renew r ctxEnded request who security guard bound extended).2 := by
  obtain ⟨o, ho, rfl⟩ := lease_eq_some hLease
  unfold renew
  rw [ho]
  cases who with
  | none => exact ⟨_, hLease, .refused (by decide) (by decide)⟩
  | some identity =>
    dsimp only
    split_ifs with hStale hRepeat hReplay hLonger hAlive
    · exact ⟨_, hLease, .refused (by decide) (by decide)⟩
    · exact ⟨_, hLease, .repeated hRepeat.1 hRepeat.2.1⟩
    · exact ⟨_, hLease, .replayed hRepeat hReplay⟩
    · simp only [not_or, not_not] at hReplay
      obtain ⟨hCounter, hSequence, hExpires⟩ := hReplay
      exact ⟨_, lease_modify ho,
        .extended hSequence hExpires hCounter hLonger (min_le_left _ _) (min_le_right _ _)⟩
    · exact ⟨_, hLease, .refused (by decide) (by decide)⟩
    · simp only [not_or, not_not] at hReplay
      exact ⟨_, hLease, .limited hReplay.2.1⟩

theorem renew_limits (b : Broker) (r : Nat) (ctxEnded : Bool) (request : LeaseReceipt) (who : Option Identity)
    (security guard bound extended : Instant) :
    (b.renew r ctxEnded request who security guard bound extended).1.limits = b.limits :=
  step_limits (.renew r ctxEnded request who security guard bound extended)

end Broker

namespace Lease

structure Inv (lifetime : Duration) (now security : Instant) (history : Nat → Instant) (lease : Lease) : Prop where
  increasing : ∀ i j, i < j → j ≤ lease.renewal → history i < history j
  newest : history lease.renewal = lease.deadline
  oldest : 0 ≤ history 0
  last : lease.renewal ≠ 0 → lease.lastLease = lease.receipt ∧ lease.lastRequest.expiresAt = history (lease.renewal - 1)
  counter : lease.renewal ≤ 2 ^ 64 - 1
  lifetime : lease.deadline ≤ now + lifetime
  security : lease.renewal ≠ 0 → lease.deadline ≤ security

structure Genuine (history : Nat → Instant) (lease : Lease) (receipt : LeaseReceipt) : Prop where
  setupID : receipt.setupID = lease.id
  sequence : receipt.sequence ≤ lease.renewal
  expiresAt : receipt.expiresAt = history receipt.sequence

structure Grows (history : Nat → Instant) (lease : Lease) (history' : Nat → Instant) (lease' : Lease) : Prop where
  id : lease'.id = lease.id
  renewal : lease.renewal ≤ lease'.renewal
  past : ∀ n ≤ lease.renewal, history' n = history n

variable {lifetime : Duration} {now now' security security' bound : Instant} {history history' : Nat → Instant}
  {lease lease' : Lease} {receipt other request : LeaseReceipt} {result : Except Code LeaseReceipt}

theorem Grows.refl (history : Nat → Instant) (lease : Lease) : Grows history lease history lease :=
  ⟨rfl, le_refl _, fun _ _ => rfl⟩

theorem Genuine.grows (h : Genuine history lease receipt) (hGrows : Grows history lease history' lease') :
    Genuine history' lease' receipt where
  setupID := h.setupID.trans hGrows.id.symm
  sequence := h.sequence.trans hGrows.renewal
  expiresAt := h.expiresAt.trans (hGrows.past _ h.sequence).symm

section

variable (h : lease.Inv lifetime now security history)
include h

theorem Inv.genuine_receipt : Genuine history lease lease.receipt :=
  ⟨rfl, le_refl _, h.newest.symm⟩

omit h in
/-- The counter of a genuine receipt determines it. -/
theorem Genuine.eq_of_sequence (h : Genuine history lease receipt) (hOther : Genuine history lease other)
    (hSame : receipt.sequence = other.sequence) : receipt = other := by
  have hExpires : receipt.expiresAt = other.expiresAt := by rw [h.expiresAt, hOther.expiresAt, hSame]
  have hSetup := h.setupID.trans hOther.setupID.symm
  cases receipt
  cases other
  simp_all

theorem Inv.history_mono {i j : Nat} (hLe : i ≤ j) (hj : j ≤ lease.renewal) : history i ≤ history j := by
  rcases hLe.lt_or_eq with hLt | rfl
  · exact le_of_lt (h.increasing i j hLt hj)
  · exact le_refl _

theorem Inv.expiresAt_le (hReceipt : Genuine history lease receipt) : receipt.expiresAt ≤ lease.deadline := by
  rw [hReceipt.expiresAt, ← h.newest]
  exact h.history_mono hReceipt.sequence (le_refl _)

theorem Inv.expiresAt_mono (hReceipt : Genuine history lease receipt)
    (hOther : Genuine history lease other) (hLe : receipt.sequence ≤ other.sequence) :
    receipt.expiresAt ≤ other.expiresAt := by
  rw [hReceipt.expiresAt, hOther.expiresAt]
  exact h.history_mono hLe hOther.sequence

theorem Inv.later (hNow : now ≤ now') (hSecurity : security ≤ security') : lease.Inv lifetime now' security' history :=
  { h with
    lifetime := h.lifetime.trans (Int.add_le_add_right hNow lifetime)
    security := fun hRenewed => (h.security hRenewed).trans hSecurity }

theorem Inv.extend {extension : Instant}
    (hSequence : request.sequence = lease.renewal + 1) (hExpires : request.expiresAt = lease.deadline)
    (hCounter : lease.renewal ≠ 2 ^ 64 - 1) (hLonger : lease.deadline < extension)
    (hLifetime : extension ≤ bound + lifetime) (hSecurity : extension ≤ security) (hBound : bound ≤ now') :
    (lease.extend request extension).Inv lifetime now' security
      (Function.update history (lease.renewal + 1) extension) := by
  have hPast : ∀ n ≤ lease.renewal, Function.update history (lease.renewal + 1) extension n = history n := by
    intro n hn
    exact Function.update_of_ne (by omega) _ _
  have hRenewal : (lease.extend request extension).renewal = lease.renewal + 1 := hSequence
  constructor
  · intro i j hLt hj
    rw [hRenewal] at hj
    rw [hPast i (by omega)]
    rcases hj.lt_or_eq with hOld | rfl
    · rw [hPast j (by omega)]
      exact h.increasing i j hLt (by omega)
    · rw [Function.update_self]
      calc history i ≤ history lease.renewal := h.history_mono (by omega) (le_refl _)
        _ = lease.deadline := h.newest
        _ < extension := hLonger
  · rw [hRenewal, Function.update_self]
    rfl
  · rw [hPast 0 (Nat.zero_le _)]
    exact h.oldest
  · intro _
    refine ⟨rfl, ?_⟩
    rw [hRenewal, Nat.add_sub_cancel, hPast _ (le_refl _), h.newest]
    exact hExpires
  · have hMax := h.counter
    rw [hRenewal]
    exact Nat.lt_of_le_of_ne hMax hCounter
  · exact hLifetime.trans (Int.add_le_add_right hBound lifetime)
  · exact fun _ => hSecurity

end

theorem Renewal.inv (h : Renewal lifetime security bound lease request lease' result)
    (hInv : lease.Inv lifetime now security history) (hNow : now ≤ bound) (hBound : bound ≤ now') :
    ∃ history', Grows history lease history' lease' ∧ lease'.Inv lifetime now' security history' := by
  have hLater := hInv.later (hNow.trans hBound) (le_refl security)
  cases h with
  | extended hSequence hExpires hCounter hLonger hLifetime hSecurity =>
    refine ⟨_, ⟨rfl, ?_, ?_⟩, hInv.extend hSequence hExpires hCounter hLonger hLifetime hSecurity hBound⟩
    · change lease.renewal ≤ request.sequence
      rw [hSequence]
      exact Nat.le_succ _
    · intro n hn
      exact Function.update_of_ne (by omega) _ _
  | _ => exact ⟨history, .refl history lease, hLater⟩

end Lease

end FamilyConnect.RoomBroker
