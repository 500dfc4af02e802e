import FamilyConnect.Friends.Crowd
import FamilyConnect.Friends.TransportGateway

/-!
# Decisions on their way to a gateway

Envelopes are read from the registry while it changes, and reach the gateway in any
order and any number of times. The clock of the gateway does not go back.
-/

namespace FamilyConnect.Friends

open Lib Transaction

structure Taken where
  decision : Decision
  reading : Reading

def Reading.Before (reading reading' : Reading) : Prop :=
  reading.clock ≤ reading'.clock ∧ (reading.boot = reading'.boot →
    reading.monotonic ≤ reading'.monotonic)

structure Dispatch where
  books : Books := {}
  sent : List Envelope := []
  cache : Cache
  reading : Reading
  taken : List Taken := []

def Cache.takes (encoding : Encoding) (node : Node) (reading : Reading) (cache : Cache)
    (envelope : Envelope) : List Taken :=
  match cache.accept encoding node reading envelope with
  | .ok _ => envelope.decisions.map fun decision => ⟨decision, reading⟩
  | .error _ => []

inductive Dispatch.Step (setting : Setting) (encoding : Encoding) (node : Node) :
    Dispatch → Dispatch → Prop where
  | books {w : Dispatch} {b : Books} : Books.Step setting encoding w.books b →
      Step setting encoding node w { w with books := b }
  | read {w : Dispatch} (target : Node) (device : Option String) (envelope : Envelope) :
      readSnapshot w.books.registry w.books.paid target w.books.now device = .ok envelope →
      Step setting encoding node w { w with sent := w.sent ++ [envelope] }
  | time {w : Dispatch} (reading : Reading) : w.reading.Before reading →
      Step setting encoding node w { w with reading := reading }
  | accept {w : Dispatch} (envelope : Envelope) : envelope ∈ w.sent →
      Step setting encoding node w
        { w with
          cache := (w.cache.accepted encoding node w.reading envelope).2
          taken := w.taken ++ w.cache.takes encoding node w.reading envelope }
  | prepare {w : Dispatch} (envelope : Envelope) (token : String) : envelope ∈ w.sent →
      Step setting encoding node w
        { w with
          cache := (w.cache.prepared encoding node w.reading envelope token).2
          taken := w.taken ++ w.cache.takes encoding node w.reading envelope }

def dispatch (setting : Setting) (encoding : Encoding) (node : Node) : System Dispatch where
  initial w := w.books = {} ∧ w.sent = [] ∧ w.taken = [] ∧ w.cache.node = node ∧
    w.cache.records = [] ∧ (w.cache.observedAt : ℚ) ≤ w.reading.clock
  step := Dispatch.Step setting encoding node

variable {setting : Setting} {encoding : Encoding} {node : Node} {w w' : Dispatch} {b b' : Books}
  {r r' : Registry} {reading : Reading} {records records' : List Cached} {taken taken' : List Taken}
  {cached cached' : Cached} {decision : Decision} {envelope : Envelope} {cache cache' : Cache}

/-! ## What a record goes through -/

structure Decision.Advances (d d' : Decision) : Prop where
  bound : d'.device = d.device ∧ d'.publicKey = d.publicKey ∧ d'.tcpId = d.tcpId
  revision : d.revision ≤ d'.revision
  observedAt : d.observedAt ≤ d'.observedAt
  revoked : d.state = .paid .revoked → d'.state = .paid .revoked
  denied : d.identityAllowed = false → d'.identityAllowed = false

theorem Decision.Advances.refl (d : Decision) : d.Advances d :=
  ⟨⟨rfl, rfl, rfl⟩, le_rfl, le_rfl, id, id⟩

theorem Decision.Advances.trans {d d' d'' : Decision} (h : d.Advances d') (h' : d'.Advances d'') :
    d.Advances d'' where
  bound := ⟨h'.bound.1.trans h.bound.1, h'.bound.2.1.trans h.bound.2.1, h'.bound.2.2.trans h.bound.2.2⟩
  revision := h.revision.trans h'.revision
  observedAt := h.observedAt.trans h'.observedAt
  revoked := h'.revoked ∘ h.revoked
  denied := h'.denied ∘ h.denied

theorem Decision.Follows.advances {d d' : Decision} (h : d.Follows d') : d.Advances d' := by
  constructor
  case bound => exact ⟨h.bound.1.symm, h.bound.2.1.symm, h.bound.2.2.symm⟩
  case revision => exact h.fresh.1
  case observedAt => exact h.fresh.2.1
  case revoked => exact h.terminal.2.1
  case denied =>
    intro hDenied
    by_contra hCounts
    have hBefore := h.terminal.2.2 (Bool.not_eq_false _ |>.mp hCounts)
    rw [hDenied] at hBefore
    cases hBefore

def Advance (records records' : List Cached) : Prop :=
  ∀ device cached, Rows.get Cached.device device records = some cached →
    ∃ cached', Rows.get Cached.device device records' = some cached' ∧
      cached.decision.Advances cached'.decision

theorem Advance.refl (records : List Cached) : Advance records records :=
  fun _ cached h => ⟨cached, h, .refl _⟩

theorem Advance.trans {records'' : List Cached} (h : Advance records records')
    (h' : Advance records' records'') : Advance records records'' := by
  intro device cached hCached
  obtain ⟨cached', hCached', hFirst⟩ := h device cached hCached
  obtain ⟨cached'', hCached'', hSecond⟩ := h' device cached' hCached'
  exact ⟨cached'', hCached'', hFirst.trans hSecond⟩

theorem Advance.put (h : ∀ old, Rows.get Cached.device cached.device records = some old →
    old.decision.Advances cached.decision) :
    Advance records (Rows.put Cached.device cached records) := by
  intro device old hOld
  rw [Rows.get_put]
  split
  · rename_i hDevice
    exact ⟨cached, rfl, h old (hDevice ▸ hOld)⟩
  · exact ⟨old, hOld, .refl _⟩

structure Cached.Good (encoding : Encoding) (r : Registry) (taken : List Taken) (cached : Cached) :
    Prop where
  device : cached.device = cached.decision.device
  prepared : cached.prepared.all (hex 64) = true
  valid : cached.decision.Valid encoding cached.decision.observedAt
  taken : ∃ t ∈ taken, t.decision = cached.decision ∧ t.reading.boot = cached.boot ∧
    cached.deadline ≤ t.reading.monotonic + leaseSeconds
  known : ∃ record ∈ r.devices, record.device = cached.device

structure Kept (encoding : Encoding) (r : Registry) (taken : List Taken) (records : List Cached) :
    Prop where
  keyed : Rows.Keyed Cached.device records
  good : ∀ cached ∈ records, cached.Good encoding r taken

section

variable (h : Kept encoding r taken records)
include h

theorem Kept.put (hGood : cached.Good encoding r taken) :
    Kept encoding r taken (Rows.put Cached.device cached records) := by
  exact ⟨h.keyed.put cached, Rows.forall_put h.good hGood⟩

theorem Kept.mono (hDevices : ∀ record ∈ r.devices, ∃ record' ∈ r'.devices,
    record'.device = record.device) (hTaken : taken ⊆ taken') : Kept encoding r' taken' records := by
  refine ⟨h.keyed, fun cached hCached => ?_⟩
  obtain ⟨hDevice, hPrepared, hValid, ⟨t, hT, hSame⟩, record, hRecord, hKnown⟩ := h.good cached hCached
  obtain ⟨record', hRecord', hStill⟩ := hDevices record hRecord
  exact ⟨hDevice, hPrepared, hValid, ⟨t, hTaken hT, hSame⟩, record', hRecord', hStill.trans hKnown⟩

theorem Kept.length_le : records.length ≤ r.devices.length :=
  h.keyed.length_le fun cached hCached => (h.good cached hCached).known

/-! ## One call -/

omit h in
theorem deadlineOf_le (reading : Reading) (decision : Decision) :
    Cache.deadlineOf reading decision ≤ reading.monotonic + leaseSeconds := by
  unfold Cache.deadlineOf
  gcongr
  exact min_le_left _ _

theorem Kept.take (hValid : decision.Valid encoding decision.observedAt)
    (hTaken : ⟨decision, reading⟩ ∈ taken) (hKnown : ∃ record ∈ r.devices,
      record.device = decision.device)
    (hTake : Cache.take reading records decision = .ok records') :
    Kept encoding r taken records' ∧ Advance records records' := by
  obtain ⟨_, hSuccessor, hTake⟩ := bind_ok hTake
  obtain ⟨_, -, hTake⟩ := bind_ok hTake
  have hTake := Except.ok.inj hTake
  have hOld : ∀ old, Rows.get Cached.device decision.device records = some old →
      old.decision.Follows decision := by
    intro old hGet
    rw [hGet] at hSuccessor
    exact successor_ok_iff.mp hSuccessor
  split at hTake
  · subst hTake
    exact ⟨h, .refl _⟩
  · subst hTake
    refine ⟨h.put ⟨rfl, ?_, hValid, ⟨_, hTaken, rfl, rfl, deadlineOf_le reading decision⟩, hKnown⟩,
      .put fun old hGet => (hOld old hGet).advances⟩
    cases hGet : Rows.get Cached.device decision.device records with
    | none => rfl
    | some old => exact (h.good old (Rows.mem_of_get hGet)).prepared

theorem Kept.takeAll {decisions : List Decision}
    (hAll : ∀ decision ∈ decisions, decision.Valid encoding decision.observedAt ∧
      ⟨decision, reading⟩ ∈ taken ∧ ∃ record ∈ r.devices, record.device = decision.device)
    (hTake : decisions.foldlM (Cache.take reading) records = .ok records') :
    Kept encoding r taken records' ∧ Advance records records' := by
  induction decisions generalizing records with
  | nil =>
    cases hTake
    exact ⟨h, .refl _⟩
  | cons decision rest ih =>
    rw [List.foldlM_cons] at hTake
    obtain ⟨next, hFirst, hRest⟩ := bind_ok hTake
    obtain ⟨hValid, hTaken, hKnown⟩ := hAll decision (.head _)
    obtain ⟨hKept, hAdvance⟩ := h.take hValid hTaken hKnown hFirst
    obtain ⟨hKept', hAdvance'⟩ :=
      ih hKept (fun other hOther => hAll other (.tail _ hOther)) hRest
    exact ⟨hKept', hAdvance.trans hAdvance'⟩

end

structure Cache.Inv (encoding : Encoding) (node : Node) (r : Registry) (taken : List Taken)
    (reading : Reading) (cache : Cache) : Prop where
  node : cache.node = node
  kept : Kept encoding r taken cache.records
  observedAt : (cache.observedAt : ℚ) ≤ reading.clock

theorem Cache.accept_ok (h : cache.accept encoding node reading envelope = .ok cache') :
    validate encoding envelope node reading.clock = .ok () ∧
      ∃ records, envelope.decisions.foldlM (Cache.take reading) cache.records = .ok records ∧
        cache' = { cache with records := records, observedAt := max cache.observedAt ⌊reading.clock⌋₊ } := by
  obtain ⟨_, hValid, h⟩ := bind_ok h
  obtain ⟨state, hLoad, h⟩ := bind_ok h
  obtain ⟨records, hFold, h⟩ := bind_ok h
  obtain ⟨_, -, hLoad⟩ := bind_ok hLoad
  obtain ⟨_, -, hLoad⟩ := bind_ok hLoad
  cases hLoad
  cases h
  exact ⟨hValid, records, hFold, rfl⟩

section

variable (h : cache.Inv encoding node r taken reading)
include h

section

variable (hTaken : cache.takes encoding node reading envelope ⊆ taken)
include hTaken

section

variable (hKnown : ∀ decision ∈ envelope.decisions, ∃ record ∈ r.devices,
  record.device = decision.device)
include hKnown

theorem Cache.Inv.accept
    (hAccept : cache.accept encoding node reading envelope = .ok cache') :
    cache'.Inv encoding node r taken reading ∧ Advance cache.records cache'.records := by
  obtain ⟨hValid, records, hFold, rfl⟩ := Cache.accept_ok hAccept
  obtain ⟨-, hDecisions, -⟩ := validate_ok_iff.mp hValid
  have hTakes : cache.takes encoding node reading envelope = envelope.decisions.map fun decision =>
      ⟨decision, reading⟩ := by
    rw [Cache.takes, hAccept]
  have hAll : ∀ decision ∈ envelope.decisions, decision.Valid encoding decision.observedAt ∧
      ⟨decision, reading⟩ ∈ taken ∧ ∃ record ∈ r.devices, record.device = decision.device := by
    intro decision hDecision
    refine ⟨?_, hTaken (hTakes ▸ List.mem_map_of_mem hDecision), hKnown decision hDecision⟩
    rw [(hDecisions decision hDecision).observedAt]
    exact hDecisions decision hDecision
  obtain ⟨hKept, hAdvance⟩ := h.kept.takeAll hAll hFold
  refine ⟨⟨h.node, hKept, ?_⟩, hAdvance⟩
  rw [Nat.cast_max]
  exact max_le h.observedAt (Nat.floor_le ((Nat.cast_nonneg _).trans h.observedAt))

theorem Cache.Inv.accepted :
    (cache.accepted encoding node reading envelope).2.Inv encoding node r taken reading ∧
      Advance cache.records (cache.accepted encoding node reading envelope).2.records := by
  unfold Cache.accepted
  cases hAccept : cache.accept encoding node reading envelope with
  | error failure => exact ⟨h, .refl _⟩
  | ok state => exact h.accept hTaken hKnown hAccept

theorem Cache.Inv.prepared {token : String} :
    (cache.prepared encoding node reading envelope token).2.Inv encoding node r taken reading ∧
      Advance cache.records (cache.prepared encoding node reading envelope token).2.records := by
  unfold Cache.prepared
  split
  · rename_i hToken
    split
    · cases hAccept : cache.accept encoding node reading envelope with
      | error failure => exact ⟨h, .refl _⟩
      | ok state =>
        obtain ⟨hInv, hAdvance⟩ := h.accept hTaken hKnown hAccept
        dsimp only
        split
        · exact ⟨hInv, hAdvance⟩
        · rename_i decision hDecisions cached hRecord
          split
          · exact ⟨hInv, hAdvance⟩
          · -- Only the token of the record changes.
            obtain ⟨hDevice, -, hValid, hOld, hStill⟩ :=
              hInv.kept.good cached (Rows.mem_of_get hRecord)
            refine ⟨⟨hInv.node, hInv.kept.put ⟨hDevice, hToken, hValid, hOld, hStill⟩,
              hInv.observedAt⟩, hAdvance.trans (.put fun old hGet => ?_)⟩
            have hSame := hInv.kept.keyed.get (Rows.mem_of_get hRecord)
            cases hGet.symm.trans hSame
            exact .refl _
    · exact ⟨h, .refl _⟩
  · exact ⟨h, .refl _⟩

end

end

theorem Cache.Inv.load (hSize : cache.records.length ≤ decisionLimit) {reading' : Reading}
    (hTime : reading.clock ≤ reading'.clock) : cache.load encoding node reading' = .ok cache := by
  have hSound : ∀ cached ∈ cache.records, Cache.Sound encoding node cached := by
    intro cached hCached
    obtain ⟨hDevice, hPrepared, hValid, -⟩ := h.kept.good cached hCached
    refine ⟨hPrepared, hDevice, validate_ok_iff.mpr ⟨⟨rfl, ?_, ?_, ?_⟩, ?_, ?_⟩⟩
    · exact sub_lt_self _ (by norm_num [leaseSeconds])
    · exact le_add_of_nonneg_right (Nat.cast_nonneg _)
    · exact Nat.one_le_of_lt (by decide : 0 < decisionLimit)
    · exact List.forall_mem_singleton.mpr hValid
    · exact ⟨List.nodup_singleton _, List.nodup_singleton _, List.nodup_singleton _⟩
  have hClock : (cache.observedAt : ℚ) ≤ reading'.clock + clockSkewSeconds :=
    h.observedAt.trans (hTime.trans (le_add_of_nonneg_right (Nat.cast_nonneg _)))
  unfold Cache.load
  rw [both_ok_iff, both_ok_iff, demand_iff, demand_iff]
  exact ⟨⟨h.node, hSize, hClock⟩, hSound, rfl⟩

end

theorem Cached.Good.allowed (h : cached.Good encoding r taken)
    (hCohort : cached.decision.cohort = true) (hAllowed : cached.allowed reading = true) :
    (∃ boundary, cached.decision.boundary = some boundary ∧ reading.clock < boundary) ∧
      ∃ t ∈ taken, t.decision = cached.decision ∧ t.reading.boot = reading.boot ∧
        reading.monotonic < t.reading.monotonic + leaseSeconds := by
  obtain ⟨hYes, hCurrent⟩ := (Bool.and_eq_true _ _).mp hAllowed
  rw [if_pos hCohort] at hCurrent
  obtain ⟨hBoot, hClock, hDeadline⟩ := of_decide_eq_true hCurrent
  constructor
  · have hBoundary := h.valid.boundary hYes hCohort
    cases hForce : cached.decision.boundary with
    | none =>
      rw [hForce] at hBoundary
      cases hBoundary
    | some boundary =>
      rw [hForce] at hBoundary
      have hEnd : cached.decision.validUntil ≤ boundary := of_decide_eq_true hBoundary
      exact ⟨boundary, rfl, hClock.trans_le (Nat.cast_le.mpr hEnd)⟩
  · obtain ⟨t, hT, hSame, hBootT, hEnd⟩ := h.taken
    exact ⟨t, hT, hSame, hBootT.trans hBoot, hDeadline.trans_le hEnd⟩

theorem Cached.Good.denied (h : cached.Good encoding r taken)
    (hEnded : cached.decision.state = .paid .revoked ∨ cached.decision.identityAllowed = false) :
    cached.allowed reading = false := by
  have hNo : cached.decision.allowed = false := by
    by_contra hYes
    obtain ⟨hIdentity, -, hValid⟩ := h.valid.allowed (Bool.not_eq_false _ |>.mp hYes)
    rcases hEnded with hRevoked | hDenied
    · exact hValid hRevoked
    · rw [hDenied] at hIdentity
      cases hIdentity
  rw [Cached.allowed, hNo, Bool.false_and]

/-! ## Runs -/

def Envelope.Precedes (envelope envelope' : Envelope) : Prop :=
  ∀ d ∈ envelope.decisions, ∀ d' ∈ envelope'.decisions, d'.device = d.device → successor d d' = .ok ()

def Books.Reads (b : Books) (envelope : Envelope) : Prop :=
  ∃ target device, readSnapshot b.registry b.paid target b.now device = .ok envelope

structure Dispatch.Inv (setting : Setting) (encoding : Encoding) (node : Node) (w : Dispatch) :
    Prop where
  books : w.books.Inv setting encoding
  sent : ∀ envelope ∈ w.sent, ∃ b : Books, b.Inv setting encoding ∧ b.Later w.books ∧ b.Reads envelope
  ordered : w.sent.Pairwise Envelope.Precedes
  cache : w.cache.Inv encoding node w.books.registry w.taken w.reading

theorem Books.Later.devices (h : b.Later b') (hInv : b.Inv setting encoding) :
    ∀ record ∈ b.registry.devices, ∃ record' ∈ b'.registry.devices,
      record'.device = record.device := by
  intro record hRecord
  obtain ⟨record', hRecord', -⟩ := h.registry.devices _ _ (hInv.registry.devices.get hRecord)
  exact ⟨record', Rows.mem_of_get hRecord', Rows.key_of_get hRecord'⟩

theorem Books.Later.length_le (h : b.Later b') (hInv : b.Inv setting encoding) :
    b.registry.devices.length ≤ b'.registry.devices.length :=
  hInv.registry.devices.length_le (h.devices hInv)

theorem Books.Reads.precedes {envelope' : Envelope} (hInv : b.Inv setting encoding)
    (hInv' : b'.Inv setting encoding) (hLater : b.Later b') (h : b.Reads envelope)
    (h' : b'.Reads envelope') : envelope.Precedes envelope' := by
  obtain ⟨_, _, hRead⟩ := h
  obtain ⟨_, _, hRead'⟩ := h'
  intro d hD d' hD' hSame
  obtain ⟨record, hRecord, hDecision⟩ := readSnapshot_mem hRead hD
  obtain ⟨record', hRecord', hDecision'⟩ := readSnapshot_mem hRead' hD'
  refine successor_ok_iff.mpr (decisionOf_follows hInv hInv' hLater hRecord hRecord' ?_ hDecision
    hDecision')
  rw [← (decisionOf_identity hDecision).1.1, ← (decisionOf_identity hDecision').1.1]
  exact hSame

theorem Dispatch.Inv.known (h : w.Inv setting encoding node) (hSent : envelope ∈ w.sent) :
    ∀ decision ∈ envelope.decisions, ∃ record ∈ w.books.registry.devices,
      record.device = decision.device := by
  intro decision hDecision
  obtain ⟨b, hInv, hLater, _, _, hRead⟩ := h.sent envelope hSent
  obtain ⟨record, hRecord, hOf⟩ := readSnapshot_mem hRead hDecision
  obtain ⟨record', hRecord', hSame⟩ := hLater.devices hInv record hRecord
  exact ⟨record', hRecord', hSame.trans (decisionOf_identity hOf).1.1.symm⟩

theorem Dispatch.Inv.logged (h : w.Inv setting encoding node) (more : List Taken) :
    w.cache.Inv encoding node w.books.registry (w.taken ++ more) w.reading :=
  ⟨h.cache.node, h.cache.kept.mono (fun record hRecord => ⟨record, hRecord, rfl⟩)
    (List.subset_append_left _ _), h.cache.observedAt⟩

theorem Dispatch.Inv.step (hFits : setting.Fits encoding) (h : w.Inv setting encoding node)
    (hStep : Dispatch.Step setting encoding node w w') :
    w'.Inv setting encoding node ∧ Advance w.cache.records w'.cache.records := by
  cases hStep with
  | books hBooks =>
    obtain ⟨hInv, hLater⟩ := h.books.step hFits hBooks
    refine ⟨⟨hInv, fun envelope hSent => ?_, h.ordered, h.cache.node, ?_, h.cache.observedAt⟩, .refl _⟩
    · obtain ⟨b, hRead, hBefore, hEnvelope⟩ := h.sent envelope hSent
      exact ⟨b, hRead, hBefore.trans hLater, hEnvelope⟩
    · exact h.cache.kept.mono (hLater.devices h.books) (List.Subset.refl _)
  | read target device envelope hRead =>
    refine ⟨⟨h.books, ?_, ?_, h.cache⟩, .refl _⟩
    · exact Rows.forall_append h.sent ⟨w.books, h.books, .refl _, target, device, hRead⟩
    · refine List.pairwise_append.mpr ⟨h.ordered, List.pairwise_singleton _ _,
        fun other hOther last hLast => ?_⟩
      cases List.mem_singleton.mp hLast
      obtain ⟨b, hInv, hLater, hEarlier⟩ := h.sent other hOther
      exact hEarlier.precedes hInv h.books hLater ⟨target, device, hRead⟩
  | time reading hTime =>
    exact ⟨⟨h.books, h.sent, h.ordered, h.cache.node, h.cache.kept,
      h.cache.observedAt.trans hTime.1⟩, .refl _⟩
  | accept envelope hSent =>
    obtain ⟨hCache, hAdvance⟩ := (h.logged _).accepted (List.subset_append_right _ _) (h.known hSent)
    exact ⟨⟨h.books, h.sent, h.ordered, hCache⟩, hAdvance⟩
  | prepare envelope token hSent =>
    obtain ⟨hCache, hAdvance⟩ := (h.logged _).prepared (List.subset_append_right _ _) (h.known hSent)
    exact ⟨⟨h.books, h.sent, h.ordered, hCache⟩, hAdvance⟩

theorem Dispatch.Inv.steps (hFits : setting.Fits encoding) (h : w.Inv setting encoding node)
    (hSteps : Relation.ReflTransGen (dispatch setting encoding node).step w w') :
    w'.Inv setting encoding node ∧ Advance w.cache.records w'.cache.records := by
  induction hSteps with
  | refl => exact ⟨h, .refl _⟩
  | tail _ hStep ih =>
    obtain ⟨hInv, hAdvance⟩ := ih.1.step hFits hStep
    exact ⟨hInv, ih.2.trans hAdvance⟩

theorem Books.Inv.empty : ({} : Books).Inv setting encoding := by
  constructor
  case registry => exact Registry.Inv.empty
  case formed => exact ⟨nofun, nofun⟩
  case paid => exact Paid.Inv.empty

theorem Dispatch.Inv.reachable (hFits : setting.Fits encoding)
    (h : (dispatch setting encoding node).Reachable w) : w.Inv setting encoding node := by
  refine h.invariant ?_ fun _ _ _ hInv hStep => (hInv.step hFits hStep).1
  rintro ⟨books, sent, cache, reading, taken⟩ ⟨rfl, rfl, rfl, hNode, hRecords, hObserved⟩
  refine ⟨.empty, nofun, .nil, hNode, ?_, hObserved⟩
  change Kept encoding _ _ cache.records
  rw [hRecords]
  exact ⟨List.nodup_nil, nofun⟩

structure Dispatch.Passes (encoding : Encoding) (node : Node) (w : Dispatch) : Prop where
  valid : ∀ envelope ∈ w.sent, envelope.decisions.length ≤ decisionLimit →
    validate encoding envelope envelope.node envelope.observedAt = .ok ()
  load : w.cache.records.length ≤ decisionLimit →
    ∀ reading : Reading, w.reading.clock ≤ reading.clock →
      w.cache.load encoding node reading = .ok w.cache
  small : (∀ envelope ∈ w.sent, envelope.decisions.length ≤ w.books.registry.devices.length) ∧
    w.cache.records.length ≤ w.books.registry.devices.length

theorem Dispatch.Inv.passes (h : w.Inv setting encoding node) : w.Passes encoding node := by
  constructor
  case valid =>
    intro envelope hSent hSize
    obtain ⟨b, hInv, hLater, target, device, hRead⟩ := h.sent envelope hSent
    obtain ⟨hNode, hObserved, -⟩ := readSnapshot_ok hRead
    rw [hNode, hObserved]
    exact readSnapshot_valid hInv hSize hRead
  case load => exact fun hSize reading hTime => h.cache.load hSize hTime
  case small =>
    refine ⟨fun envelope hSent => ?_, h.cache.kept.length_le⟩
    obtain ⟨b, hInv, hLater, target, device, hRead⟩ := h.sent envelope hSent
    exact (readSnapshot_length hRead).trans (hLater.length_le hInv)

structure Dispatch.Keeps (w later : Dispatch) : Prop where
  advances : Advance w.cache.records later.cache.records
  denied : ∀ device cached, w.cache.record device = some cached →
    cached.decision.state = .paid .revoked ∨ cached.decision.identityAllowed = false →
    ∀ cached', later.cache.record device = some cached' → ∀ reading, cached'.allowed reading = false

theorem Dispatch.Inv.keeps (hInv' : w'.Inv setting encoding node)
    (h : Advance w.cache.records w'.cache.records) : w.Keeps w' := by
  refine ⟨h, fun device cached hCached hEnded cached' hCached' reading => ?_⟩
  obtain ⟨found, hFound, hAdvances⟩ := h device cached hCached
  cases hFound.symm.trans hCached'
  refine (hInv'.cache.kept.good _ (Rows.mem_of_get hCached')).denied ?_
  rcases hEnded with hRevoked | hDenied
  · exact .inl (hAdvances.revoked hRevoked)
  · exact .inr (hAdvances.denied hDenied)

/-! ## Registries of any size -/

theorem reachable_books (h : (history setting encoding).Reachable b) (hNode : cache.node = node)
    (hRecords : cache.records = []) (hObserved : (cache.observedAt : ℚ) ≤ reading.clock) :
    (dispatch setting encoding node).Reachable { books := b, cache := cache, reading := reading } := by
  induction h with
  | start hInitial => exact .start ⟨hInitial, rfl, rfl, hNode, hRecords, hObserved⟩
  | next _ hStep ih => exact ih.next (.books hStep)

theorem readSnapshot_crowd (n : Nat) : ∃ envelope,
    readSnapshot (crowd n) {} .gatewayRu 0 none = .ok envelope ∧ envelope.decisions.length = n := by
  have hDecision : ∀ record ∈ (crowd n).devices, ∃ d, decisionOf (crowd n) {} 0 record = .ok d := by
    intro record hRecord
    have hNone : effectiveSubscriptionState {} record.device 0 = .ok none := by
      rw [effectiveSubscriptionState, if_neg (Nat.not_lt_zero _),
        if_neg (by rw [hex_crowd n _ hRecord]; nofun)]
      rfl
    rw [decisionOf, hNone]
    exact ⟨_, rfl⟩
  have hPerm := List.perm_insertionSort (fun d e : Device => d.device ≤ e.device) (crowd n).devices
  obtain ⟨decisions, hDecisions⟩ := mapM_exists fun record hRecord =>
    hDecision record (hPerm.mem_iff.mp hRecord)
  refine ⟨⟨.gatewayRu, 0, decisions⟩, ?_, ?_⟩
  · have hAll : ((crowd n).devices.filter fun d => (none : Option String).all
        fun name => decide (d.device = name)) = (crowd n).devices :=
      List.filter_eq_self.mpr fun _ _ => rfl
    unfold readSnapshot
    rw [hAll]
    dsimp only
    rw [hDecisions]
    rfl
  · rw [← (mapM_ok hDecisions).length_eq, hPerm.length_eq, length_crowd]

namespace Sample

def newGateway : Cache := { node := .gatewayRu }

def morning : Reading := ⟨1, 5, "boot"⟩

def crowded (n : Nat) : Dispatch :=
  { books := ⟨crowd n, {}, 0⟩, cache := newGateway, reading := morning }

theorem reachable_crowded (n : Nat) (hN : n ≤ 2 ^ 32) :
    (dispatch plain anything .gatewayRu).Reachable (crowded n) :=
  reachable_books (reachable_crowd hN) rfl rfl (by norm_num [newGateway, morning])

theorem crowded_rejected {n : Nat} (hN : n ≤ 2 ^ 32) (hLarge : decisionLimit < n) :
    ∃ w, (dispatch plain anything .gatewayRu).Reachable w ∧ w.books = ⟨crowd n, {}, 0⟩ ∧
      ∃ envelope ∈ w.sent, validate anything envelope envelope.node envelope.observedAt ≠ .ok
      () := by
  obtain ⟨envelope, hRead, hLength⟩ := readSnapshot_crowd n
  refine ⟨_, (reachable_crowded n hN).next (.read .gatewayRu none envelope hRead), rfl, envelope,
    List.mem_append_right _ (List.mem_singleton_self _), fun hValid => ?_⟩
  obtain ⟨⟨-, -, -, hLimit⟩, -⟩ := validate_ok_iff.mp hValid
  rw [hLength] at hLimit
  exact absurd hLimit (Nat.not_le_of_lt hLarge)

def envelopeOf (b : Books) : Envelope :=
  ((readSnapshot b.registry b.paid .gatewayRu b.now none).toOption).getD ⟨.gatewayRu, 0, []⟩

def sending (w : Dispatch) : Dispatch := { w with sent := w.sent ++ [envelopeOf w.books] }

def accepting (w : Dispatch) (envelope : Envelope) : Dispatch :=
  { w with
    cache := (w.cache.accepted anything .gatewayRu w.reading envelope).2
    taken := w.taken ++ w.cache.takes anything .gatewayRu w.reading envelope }

def passing : Dispatch := accepting (sending (crowded 1)) (envelopeOf (crowded 1).books)

def ended : Dispatch :=
  { passing with books := { passing.books with registry := ((Call.revokeDevice (nameOf 0)).perform plain 0 passing.books.registry).2 } }

def told : Dispatch := accepting (sending ended) (envelopeOf ended.books)

theorem reachable_sending (h : (dispatch plain anything .gatewayRu).Reachable w)
    (hRead : readSnapshot w.books.registry w.books.paid .gatewayRu w.books.now none = .ok
      (envelopeOf w.books)) :
    (dispatch plain anything .gatewayRu).Reachable (sending w) :=
    h.next (.read .gatewayRu none _ hRead)

theorem reachable_passing : (dispatch plain anything .gatewayRu).Reachable passing :=
  (reachable_sending (reachable_crowded 1 (by decide)) (by decide +kernel)).next
    (.accept _ (List.mem_singleton_self _))

theorem reachable_told : (dispatch plain anything .gatewayRu).Reachable told := by
  have hEnded : (dispatch plain anything .gatewayRu).Reachable ended :=
    reachable_passing.next (.books (.access 0 (.revokeDevice (nameOf 0)) trivial))
  exact (reachable_sending hEnded (by decide +kernel)).next
    (.accept _ (List.mem_append_right _ (List.mem_singleton_self _)))

end Sample

/-- Whatever the registry did and however its envelopes reached the gateway: those with at most
10000 decisions are valid, a file with at most 10000 records is read again, no decision goes back,
and what is allowed is allowed for its time only. -/
theorem transport_decisions (hFits : setting.Fits encoding)
    (hReachable : (dispatch setting encoding node).Reachable w) :
    w.Passes encoding node ∧ w.sent.Pairwise Envelope.Precedes ∧
      (∀ later, Relation.ReflTransGen (dispatch setting encoding node).step w later → w.Keeps later) ∧
      ∀ device cached, w.cache.record device = some cached → cached.decision.cohort = true →
        ∀ reading, cached.allowed reading = true → (∃ boundary,
          cached.decision.boundary = some boundary ∧ reading.clock < boundary) ∧
            ∃ t ∈ w.taken, t.decision = cached.decision ∧ t.reading.boot = reading.boot ∧
              reading.monotonic < t.reading.monotonic + leaseSeconds := by
  have hInv := Dispatch.Inv.reachable hFits hReachable
  refine ⟨hInv.passes, hInv.ordered, fun later hSteps => ?_,
    fun device cached hCached hCohort reading hAllowed => ?_⟩
  · obtain ⟨hLater, hAdvance⟩ := hInv.steps hFits hSteps
    exact hLater.keeps hAdvance
  · exact (hInv.cache.kept.good cached (Rows.mem_of_get hCached)).allowed hCohort hAllowed

open Sample

/-- The envelope about 10001 devices is not valid. -/
theorem transport_decisions_crowd : plain.Fits anything ∧
    ∃ w, (dispatch plain anything .gatewayRu).Reachable w ∧
      w.books = ⟨crowd (decisionLimit + 1), {}, 0⟩ ∧
      ∃ envelope ∈ w.sent, validate anything envelope envelope.node envelope.observedAt ≠ .ok () :=
  ⟨plain_fits, crowded_rejected (by decide) (Nat.lt_succ_self _)⟩

/-- A device that passed is revoked, and the first envelope comes again. -/
theorem transport_decisions_replayed : (passing.cache.record (nameOf 0)).any
    (·.allowed morning) = true ∧ told.Passes anything .gatewayRu ∧
    ∀ cached, (accepting told (envelopeOf (crowded 1).books)).cache.record (nameOf 0) = some cached →
      ∀ reading, cached.allowed reading = false := by
  obtain ⟨hPasses, -, hKeeps, -⟩ := transport_decisions plain_fits reachable_told
  have hReplayed := hKeeps _ (.single (.accept (envelopeOf (crowded 1).books) (by decide +kernel)))
  refine ⟨by decide +kernel, hPasses, ?_⟩
  have hDenied : (told.cache.record (nameOf 0)).any
    (fun cached => !cached.decision.identityAllowed) = true := by decide +kernel
  cases hRecord : told.cache.record (nameOf 0) with
  | none =>
    rw [hRecord] at hDenied
    cases hDenied
  | some cached =>
    rw [hRecord] at hDenied
    exact hReplayed.denied (nameOf 0) cached hRecord (.inr (Bool.not_eq_true' _ |>.mp hDenied))

end FamilyConnect.Friends
