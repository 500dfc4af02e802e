import FamilyConnect.ReliableStream.EngineInvariant
import FamilyConnect.ReliableStream.Timing

/-!
# When a block is sent again

`Pass` says which blocks a successful tick emits and why. A `Flight` is a run
of one engine with the times at which it emitted each block; its clock never
goes back, and the end of a local write may restart a block's timer.
-/

namespace FamilyConnect.ReliableStream

open Lib
open Relation (ReflTransGen)

variable {frames : List Frame}

namespace Engine

def isSacked (e : Engine) (seq : Nat) : Bool := (e.sent.lookup seq).any (·.sacked)

def sackedAbove (e : Engine) (seq : Nat) : Nat :=
  (List.range' (seq + 1) (e.next - (seq + 1))).countP e.isSacked

/-- The timer of the block has run out, or enough later blocks have arrived for the first and only
early repetition of the window's head. -/
def Due (e : Engine) (seq : Nat) (b : Pending) (now : Instant) : Prop :=
  e.config.rto ≤ now.sub b.last ∨
    (seq = e.base ∧ b.retries = 0 ∧ e.config.rto.tdiv 4 ≤ now.sub b.last ∧ 3 ≤ e.sackedAbove seq)

structure Resent (e : Engine) (now : Instant) (seq : Nat) (b b' : Pending) : Prop where
  unsacked : b.sacked = false
  allowed : (b.retries : Int) < e.config.maxRetries
  due : e.Due seq b now
  first : b'.first = b.first
  last : b'.last = now
  retries : b'.retries = b.retries + 1

structure Pass (now : Instant) (e e' : Engine) (emitted : List Nat) : Prop where
  retimed : Retimed e e'
  resent : ∀ k ∈ emitted, ∃ b b', e.sent.lookup k = some b ∧ e'.sent.lookup k = some b' ∧ Resent e now k b b'
  kept : ∀ k, k ∉ emitted → e'.sent.lookup k = e.sent.lookup k

variable {e e' : Engine}

theorem Retimed.isSacked (h : Retimed e e') (seq : Nat) : e'.isSacked seq = e.isSacked seq := by
  have hHeld := h.held seq
  unfold Engine.isSacked
  cases hLookup : e'.sent.lookup seq with
  | none =>
    rw [hLookup] at hHeld
    rw [Option.isSome_none, eq_comm, Option.isSome_eq_false_iff, Option.isNone_iff_eq_none] at hHeld
    rw [hHeld]
  | some b' =>
    obtain ⟨b, hb, _, hSacked⟩ := h.block seq b' hLookup
    rw [hb, Option.any_some, Option.any_some, hSacked]

theorem Retimed.sackedAbove (h : Retimed e e') (seq : Nat) : e'.sackedAbove seq = e.sackedAbove seq := by
  unfold Engine.sackedAbove
  rw [h.next]
  exact List.countP_congr fun k _ => by rw [h.isSacked]

variable {now : Instant} {seq : Nat}

theorem Resent.of_retimed {b b' : Pending} (h : Retimed e e') (hResent : Resent e' now seq b b') :
    Resent e now seq b b' := by
  obtain ⟨hUnsacked, hAllowed, hDue, hFirst, hLast, hRetries⟩ := hResent
  rw [h.config] at hAllowed
  unfold Due at hDue
  rw [h.config, h.base, h.sackedAbove] at hDue
  exact ⟨hUnsacked, hAllowed, hDue, hFirst, hLast, hRetries⟩

theorem Pass.refl (now : Instant) (e : Engine) : Pass now e e [] where
  retimed := Retimed.refl e
  resent _ h := by cases h
  kept _ _ := rfl

theorem Pass.trans {e'' : Engine} {l l' : List Nat} (h : Pass now e e' l)
    (h' : Pass now e' e'' l') (hDisjoint : l.Disjoint l') : Pass now e e'' (l ++ l') where
  retimed := h.retimed.trans h'.retimed
  resent k hk := by
    rcases List.mem_append.mp hk with hk | hk
    · obtain ⟨b, b', hb, hb', hResent⟩ := h.resent k hk
      exact ⟨b, b', hb, (h'.kept k (hDisjoint hk)).trans hb', hResent⟩
    · obtain ⟨b, b', hb, hb', hResent⟩ := h'.resent k hk
      have hKept := h.kept k fun hl => hDisjoint hl hk
      exact ⟨b, b', hKept.symm.trans hb, hb', hResent.of_retimed h.retimed⟩
  kept k hk := by
    rw [List.mem_append, not_or] at hk
    exact (h'.kept k hk.2).trans (h.kept k hk.1)

variable {e : Engine}

theorem confirmedAmong_eq {seqs : List Nat} {n : Nat} (h : e.confirmedAmong seqs = some n) :
    n = seqs.countP e.isSacked := by
  induction seqs generalizing n with
  | nil =>
    cases h
    rfl
  | cons seq rest ih =>
    rw [confirmedAmong] at h
    cases hLookup : e.sent.lookup seq with
    | none =>
      rw [hLookup] at h
      cases h
    | some b =>
      rw [hLookup] at h
      obtain ⟨m, hm, rfl⟩ := Option.map_eq_some_iff.mp h
      rw [List.countP_cons, ← ih hm]
      simp only [isSacked, hLookup, Option.any_some]

variable {b : Pending}

theorem fastRetransmit_due (h : e.fastRetransmit seq b now = some true) : e.Due seq b now := by
  unfold fastRetransmit at h
  split at h
  · cases h
  rename_i hHead
  simp only [not_or, not_not, ne_eq, not_lt] at hHead
  obtain ⟨n, hn, hThree⟩ := Option.map_eq_some_iff.mp h
  refine .inr ⟨hHead.1, hHead.2.1, hHead.2.2, ?_⟩
  rw [sackedAbove, ← confirmedAmong_eq hn]
  exact of_decide_eq_true hThree

theorem Pass.single {b' : Pending} (hRetimed : Retimed e e')
    (hb : e.sent.lookup seq = some b) (hb' : e'.sent.lookup seq = some b')
    (hOther : ∀ k, k ≠ seq → e'.sent.lookup k = e.sent.lookup k) (hResent : Resent e now seq b b') :
    Pass now e e' [seq] where
  retimed := hRetimed
  resent k hk := by
    rw [List.mem_singleton] at hk
    subst hk
    exact ⟨b, b', hb, hb', hResent⟩
  kept k hk := hOther k fun hEq => hk (List.mem_singleton.mpr hEq)

theorem noteTimeout_other {k : Nat} (hk : k ≠ seq) : (e.noteTimeout seq b).sent.lookup k = e.sent.lookup k := by
  unfold noteTimeout
  dsimp only
  split <;> exact AList.lookup_insert_ne hk

def dataSeqs (frames : List Frame) : List Nat := (frames.filter (·.kind == .dataFrame)).map (·.seq)

theorem dataSeqs_append (frames frames' : List Frame) :
    dataSeqs (frames ++ frames') = dataSeqs frames ++ dataSeqs frames' := by
  simp only [dataSeqs, List.filter_append, List.map_append]

theorem Readied.pass {e₁ : Engine} {b₁ : Pending} (h : Readied e seq b now e₁ b₁) (hValid : e.config.Valid)
    (hb : e.sent.lookup seq = some b) (hUnsacked : b.sacked = false)
    (hRetries : (b₁.retries : Int) < e₁.config.maxRetries) :
    Pass now e (e₁.resend seq b₁ now).1 [seq] := by
  rw [(h.retimed hb).config] at hRetries
  refine Pass.single (h.resent hb) hb (AList.lookup_insert _) ?_ ?_
  · intro k hk
    refine (AList.lookup_insert_ne hk).trans ?_
    cases h with
    | late => exact noteTimeout_other hk
    | early => rfl
  · cases h with
    | late hLate => exact ⟨hUnsacked, hRetries, .inl ((retryInterval_ge hValid b).trans hLate), rfl, rfl, rfl⟩
    | early hEarly => exact ⟨hUnsacked, hRetries, fastRetransmit_due hEarly, rfl, rfl, rfl⟩

theorem retransmit_pass (now : Instant) (seqs : List Nat) (e : Engine) (output : List Frame)
    (hValid : e.config.Valid) (hNodup : seqs.Nodup) (h : (retransmit now seqs e output).2 = .ok frames) :
    ∃ emitted, emitted.Sublist seqs ∧ Pass now e (retransmit now seqs e output).1 emitted ∧
      dataSeqs frames = dataSeqs output ++ emitted := by
  induction seqs generalizing e output with
  | nil =>
    cases h
    exact ⟨[], .slnil, Pass.refl now e, (List.append_nil _).symm⟩
  | cons seq rest ih =>
    obtain ⟨hFresh, hRest⟩ := List.nodup_cons.mp hNodup
    have hVisit := retransmit_visit now seq rest e output
    generalize retransmit now (seq :: rest) e output = result at hVisit h ⊢
    cases hVisit with
    | stuck | exhausted => cases h
    | skipped =>
      obtain ⟨emitted, hSub, hPass, hFrames⟩ := ih e output hValid hRest h
      exact ⟨emitted, hSub.cons _, hPass, hFrames⟩
    | sent hb _ hUnsacked hReadied hRetries =>
      have hPass := hReadied.pass hValid hb hUnsacked hRetries
      obtain ⟨emitted, hSub, hPass', hFrames⟩ := ih _ _ (hPass.retimed.config ▸ hValid) hRest h
      refine ⟨seq :: emitted, hSub.cons_cons _, hPass.trans hPass' ?_, ?_⟩
      · intro k hk hk'
        rw [List.mem_singleton] at hk
        subst hk
        exact hFresh (hSub.subset hk')
      · rw [hFrames, dataSeqs_append, List.append_assoc]
        rfl

theorem tick_pass (hValid : e.config.Valid) (h : (e.tick now).2 = .ok frames) :
    ∃ emitted, emitted.Nodup ∧ Pass now e (e.tick now).1 emitted ∧ dataSeqs frames = emitted := by
  have hTicked := tick_cases e now
  generalize e.tick now = result at hTicked h ⊢
  cases hTicked with
  | exhausted => cases h
  | opened | quiet =>
    cases h
    exact ⟨[], .nil, ⟨{ Retimed.refl e with }, List.forall_mem_nil _, fun _ _ => rfl⟩, rfl⟩
  | loop refresh output hRemote hOutput =>
    have hRange : (List.range' e.base (e.next - e.base)).Nodup := List.nodup_range'
    obtain ⟨emitted, hSub, hPass, hFrames⟩ := retransmit_pass now _
      { e with lastRefresh := refresh } output hValid hRange h
    have hRefreshed : Retimed e { e with lastRefresh := refresh } := { Retimed.refl e with }
    have hNone : dataSeqs output = [] := by rcases hOutput with rfl | rfl <;> rfl
    rw [hNone] at hFrames
    refine ⟨emitted, hSub.nodup hRange, ⟨hRefreshed.trans hPass.retimed, ?_, hPass.kept⟩, hFrames⟩
    intro k hk
    obtain ⟨b, b', hb, hb', hResent⟩ := hPass.resent k hk
    exact ⟨b, b', hb, hb', hResent.of_retimed hRefreshed⟩

/-! ## A block past its age ends the run -/

theorem retransmit_exhausted (now : Instant) (seqs : List Nat) (e : Engine) (output : List Frame)
    (h : Covered e seqs) (hSeq : seq ∈ seqs) (hb : e.sent.lookup seq = some b)
    (hOld : e.config.maxAge ≤ now.sub b.first) :
    (retransmit now seqs e output).2 = .error .exhausted := by
  induction seqs generalizing e output with
  | nil => cases hSeq
  | cons head rest ih =>
    have hOn {e' : Engine} {out : List Frame} (hRetimed : Retimed e e') (hNe : seq ≠ head)
      (hSame : e'.sent.lookup seq = e.sent.lookup seq) :
        (retransmit now rest e' out).2 = .error .exhausted := by
      apply ih e' out (h.rest hRetimed)
      · exact (List.mem_cons.mp hSeq).resolve_left hNe
      · exact hSame.trans hb
      · rw [hRetimed.config]
        exact hOld
    have hNe {block : Pending} (hBlock : e.sent.lookup head = some block)
        (hYoung : ¬e.config.maxAge ≤ now.sub block.first) : seq ≠ head := by
      rintro rfl
      rw [hb] at hBlock
      cases hBlock
      exact hYoung hOld
    have hVisit := retransmit_visit now head rest e output
    generalize retransmit now (head :: rest) e output = result at hVisit ⊢
    cases hVisit with
    | stuck hStuck => exact (h.not_stuck hStuck).elim
    | exhausted => rfl
    | skipped hBlock hYoung => exact hOn (Retimed.refl e) (hNe hBlock hYoung) rfl
    | sent hBlock hYoung _ hReadied =>
      refine hOn (hReadied.resent hBlock) (hNe hBlock hYoung) ((AList.lookup_insert_ne (hNe hBlock hYoung)).trans ?_)
      cases hReadied with
      | late => exact noteTimeout_other (hNe hBlock hYoung)
      | early => rfl

theorem tick_exhausted (h : e.Inv) (hb : e.sent.lookup seq = some b) (hOld : e.config.maxAge ≤ now.sub b.first) :
    (e.tick now).2 = .error .exhausted := by
  have hHeld : ∀ k, e.base ≤ k → k < e.next → (e.sent.lookup k).isSome :=
    fun k hLow hHigh => (h.held k).mpr ⟨hLow, hHigh⟩
  obtain ⟨hLow, hHigh⟩ := (h.held seq).mp (by rw [hb]; rfl)
  have hTicked := tick_cases e now
  generalize e.tick now = result at hTicked ⊢
  cases hTicked with
  | exhausted => rfl
  | opened hRemote | quiet hRemote =>
    -- an engine without a peer has sent nothing
    have hWindow := h.window_remote
    rw [h.unpinned hRemote] at hWindow
    omega
  | loop refresh output =>
    refine retransmit_exhausted now _ { e with lastRefresh := refresh } output ⟨hHeld, fun _ => mem_window⟩ ?_ hb hOld
    rw [List.mem_range'_1]
    omega

theorem written_retimed (e : Engine) (seq attempt : Nat) (now : Instant) : Retimed e (e.written seq attempt now) := by
  unfold written
  split
  · exact Retimed.refl e
  rename_i block hBlock
  split
  · exact Retimed.rewrite { block with last := now } hBlock rfl rfl
  · exact Retimed.refl e

end Engine

open Engine

/-! ## Runs with the times of emission -/

structure Flight where
  engine : Engine
  clock : Instant
  log : List (Nat × Instant) := []

namespace Flight

def times (F : Flight) (seq : Nat) : List Instant := (F.log.filter (·.1 == seq)).map Prod.snd

inductive Step : Flight → Flight → Prop where
  | input {F : Flight} {raw : List UInt8} {f : Frame} {now : Instant} {frames : List Frame} :
      F.clock ≤ now → decode raw = .ok f → (F.engine.input f now).2 = .ok frames →
      Step F ⟨(F.engine.input f now).1, now, F.log⟩
  | send {F : Flight} {data : List UInt8} {now : Instant} {f : Frame} :
      F.clock ≤ now → (F.engine.send data now).2 = .ok f →
      Step F ⟨(F.engine.send data now).1, now, F.log ++ [(f.seq, now)]⟩
  | consume {F : Flight} : (F.engine.buffer.lookup F.engine.receive).isSome →
      Step F ⟨F.engine.consume.1, F.clock, F.log⟩
  | tick {F : Flight} {now : Instant} {frames : List Frame} :
      F.clock ≤ now → (F.engine.tick now).2 = .ok frames →
      Step F ⟨(F.engine.tick now).1, now, F.log ++ (dataSeqs frames).map (·, now)⟩
  | written {F : Flight} {seq attempt : Nat} {now : Instant} :
      F.clock ≤ now → Step F ⟨F.engine.written seq attempt now, now, F.log⟩

variable {now : Instant} {f : Frame}

def move (F : Flight) : Engine.Move → Option Flight
  | .input f now =>
    if F.clock ≤ now ∧ decode (encode f) = .ok f then
      (F.engine.input f now).2.toOption.map fun _ => ⟨(F.engine.input f now).1, now, F.log⟩
    else none
  | .send data now =>
    if F.clock ≤ now then
      (F.engine.send data now).2.toOption.map fun f => ⟨(F.engine.send data now).1, now, F.log ++ [(f.seq, now)]⟩
    else none
  | .consume =>
    if (F.engine.buffer.lookup F.engine.receive).isSome = true then some ⟨F.engine.consume.1, F.clock, F.log⟩ else none

theorem move_step {F F' : Flight} (m : Engine.Move) (h : F.move m = some F') : Step F F' := by
  cases m with
  | input f now =>
    obtain ⟨hOpen, hInput⟩ := Option.ite_none_right_eq_some.mp h
    obtain ⟨frames, hOk, rfl⟩ := Option.map_eq_some_iff.mp hInput
    exact .input hOpen.1 hOpen.2 (ok_of_toOption hOk)
  | send data now =>
    obtain ⟨hClock, hSend⟩ := Option.ite_none_right_eq_some.mp h
    obtain ⟨f, hOk, rfl⟩ := Option.map_eq_some_iff.mp hSend
    exact .send hClock (ok_of_toOption hOk)
  | consume =>
    obtain ⟨hHead, ⟨⟩⟩ := Option.ite_none_right_eq_some.mp h
    exact .consume hHead

variable {seq : Nat}

structure Tracked (F : Flight) (seq : Nat) (b : Pending) : Prop where
  count : (F.times seq).length = b.retries + 1
  first : (F.times seq).head? = some b.first
  last : ∀ t ∈ F.times seq, t ≤ b.last
  clock : b.last ≤ F.clock
  retries : (b.retries : Int) ≤ F.engine.config.maxRetries

structure Inv (F : Flight) : Prop where
  engine : F.engine.Inv
  tracked : ∀ seq b, F.engine.sent.lookup seq = some b → F.Tracked seq b
  bounded : ∀ seq, ((F.times seq).length : Int) ≤ F.engine.config.maxRetries + 1
  sent : ∀ p ∈ F.log, p.1 < F.engine.next

variable {F F' : Flight}

theorem times_append (log log' : List (Nat × Instant)) (e : Engine) (clock : Instant) (seq : Nat) :
    times ⟨e, clock, log ++ log'⟩ seq = times ⟨e, clock, log⟩ seq ++ times ⟨e, clock, log'⟩ seq := by
  simp only [times, List.filter_append, List.map_append]

theorem times_unsent (h : ∀ p ∈ F.log, p.1 < F.engine.next) (hSeq : F.engine.next ≤ seq) : F.times seq = [] := by
  rw [times, List.map_eq_nil_iff, List.filter_eq_nil_iff]
  intro p hp hEq
  have := h p hp
  rw [beq_iff_eq] at hEq
  omega

theorem times_emitted {emitted : List Nat} (hNodup : emitted.Nodup) (e : Engine) (clock now : Instant) (seq : Nat) :
    times ⟨e, clock, emitted.map (·, now)⟩ seq = if seq ∈ emitted then [now] else [] := by
  induction emitted with
  | nil => rfl
  | cons k rest ih =>
    obtain ⟨hFresh, hRest⟩ := List.nodup_cons.mp hNodup
    have ih := ih hRest
    simp only [times] at ih ⊢
    rw [List.map_cons, List.filter_cons]
    by_cases hk : k = seq
    · subst hk
      rw [if_neg hFresh] at ih
      simp [ih]
    · have hk' : ¬seq = k := fun h => hk h.symm
      simp [hk, hk', ih]

theorem Tracked.later {b : Pending} (h : F.Tracked seq b) (hTimes : F'.times seq = F.times seq)
    (hClock : F.clock ≤ F'.clock) (hConfig : F'.engine.config = F.engine.config) : F'.Tracked seq b where
  count := by rw [hTimes]; exact h.count
  first := by rw [hTimes]; exact h.first
  last := by rw [hTimes]; exact h.last
  clock := h.clock.trans hClock
  retries := by rw [hConfig]; exact h.retries

theorem Inv.quiet (h : F.Inv) {e' : Engine} {clock : Instant} (hEngine : e'.Inv)
    (hConfig : e'.config = F.engine.config) (hNext : e'.next = F.engine.next)
    (hBlock : ∀ seq b', e'.sent.lookup seq = some b' → ∃ b, F.engine.sent.lookup seq = some b ∧
      b'.first = b.first ∧ b'.retries = b.retries ∧ b.last ≤ b'.last ∧ b'.last ≤ clock) :
    Inv ⟨e', clock, F.log⟩ where
  engine := hEngine
  tracked seq b' hb' := by
    obtain ⟨b, hb, hFirst, hRetries, hLast, hLater⟩ := hBlock seq b' hb'
    have hTracked := h.tracked seq b hb
    constructor
    · rw [hRetries]
      exact hTracked.count
    · rw [hFirst]
      exact hTracked.first
    · exact fun t ht => (hTracked.last t ht).trans hLast
    · exact hLater
    · rw [hRetries, hConfig]
      exact hTracked.retries
  bounded := by
    rw [hConfig]
    exact h.bounded
  sent := by
    rw [hNext]
    exact h.sent

theorem settle_times {b b' : Pending} (h : settle f seq b = some b') :
    b'.first = b.first ∧ b'.retries = b.retries ∧ b'.last = b.last := by
  unfold settle at h
  split at h
  · cases h
  split at h
  · cases h
    exact ⟨rfl, rfl, rfl⟩
  · cases h
    exact ⟨rfl, rfl, rfl⟩

theorem input_blocks (e : Engine) (f : Frame) (now : Instant) :
    (e.input f now).1.config = e.config ∧ (e.input f now).1.next = e.next ∧
      ∀ seq b', (e.input f now).1.sent.lookup seq = some b' → ∃ b, e.sent.lookup seq = some b ∧
        b'.first = b.first ∧ b'.retries = b.retries ∧ b'.last = b.last := by
  have hCases := input_cases e f now
  generalize e.input f now = result at hCases ⊢
  have hSame : ∀ seq b', e.sent.lookup seq = some b' → ∃ b, e.sent.lookup seq = some b ∧
      b'.first = b.first ∧ b'.retries = b.retries ∧ b'.last = b.last := fun _ b' hb' => ⟨b', hb', rfl, rfl, rfl⟩
  cases hCases with
  | pinned e' _ _ _ hPinned => exact ⟨hPinned.config, hPinned.next, by rw [hPinned.sent]; exact hSame⟩
  | settled e' _ _ _ _ _ hSettled =>
    refine ⟨hSettled.config, hSettled.next, ?_⟩
    intro seq b' hb'
    rw [hSettled.sent, Table.lookup_filterMap] at hb'
    obtain ⟨b, hb, hSettle⟩ := Option.bind_eq_some_iff.mp hb'
    exact ⟨b, hb, settle_times hSettle⟩
  | stored e' _ _ _ _ hStored => exact ⟨hStored.config, hStored.next, by rw [hStored.sent]; exact hSame⟩
  | _ => exact ⟨rfl, rfl, hSame⟩

theorem Inv.input (h : F.Inv) (hFrame : f.WellFormed) (hClock : F.clock ≤ now) :
    Inv ⟨(F.engine.input f now).1, now, F.log⟩ := by
  obtain ⟨hConfig, hNext, hBlocks⟩ := input_blocks F.engine f now
  refine h.quiet (inv_input h.engine hFrame now) hConfig hNext ?_
  intro seq b' hb'
  obtain ⟨b, hb, hFirst, hRetries, hLast⟩ := hBlocks seq b' hb'
  exact ⟨b, hb, hFirst, hRetries, hLast.ge, hLast.le.trans ((h.tracked seq b hb).clock.trans hClock)⟩

theorem Inv.consume (h : F.Inv) (hHead : (F.engine.buffer.lookup F.engine.receive).isSome) :
    Inv ⟨F.engine.consume.1, F.clock, F.log⟩ := by
  obtain ⟨data, hData⟩ := Option.isSome_iff_exists.mp hHead
  refine h.quiet (inv_consume h.engine hData) rfl rfl ?_
  exact fun seq b hb => ⟨b, hb, rfl, rfl, le_rfl, (h.tracked seq b hb).clock⟩

theorem Inv.written (h : F.Inv) {attempt : Nat} (hClock : F.clock ≤ now) :
    Inv ⟨F.engine.written seq attempt now, now, F.log⟩ := by
  have hRetimed := written_retimed F.engine seq attempt now
  refine h.quiet (inv_retimed h.engine hRetimed) hRetimed.config hRetimed.next ?_
  intro k b' hb'
  have hKept : ∀ b, F.engine.sent.lookup k = some b → b.last ≤ now :=
    fun b hb => (h.tracked k b hb).clock.trans hClock
  unfold Engine.written at hb'
  split at hb'
  · exact ⟨b', hb', rfl, rfl, le_rfl, hKept b' hb'⟩
  rename_i block hBlock
  split at hb'
  · by_cases hk : k = seq
    · subst hk
      rw [AList.lookup_insert, Option.some.injEq] at hb'
      subst hb'
      exact ⟨block, hBlock, rfl, rfl, hKept block hBlock, le_rfl⟩
    · rw [AList.lookup_insert_ne hk] at hb'
      exact ⟨b', hb', rfl, rfl, le_rfl, hKept b' hb'⟩
  · exact ⟨b', hb', rfl, rfl, le_rfl, hKept b' hb'⟩

theorem Inv.send (h : F.Inv) {data : List UInt8} (hClock : F.clock ≤ now) (hSend : (F.engine.send data now).2 = .ok f) :
    Inv ⟨(F.engine.send data now).1, now, F.log ++ [(f.seq, now)]⟩ := by
  obtain ⟨_, _, _, _, _, hFrame, hEq⟩ := send_ok h.engine hSend
  have hSeq : f.seq = F.engine.next := by rw [hFrame]
  have hRetries := h.engine.valid.maxRetries_pos
  have hUnsent := times_unsent h.sent (le_refl F.engine.next)
  have hTimes : ∀ k, times ⟨(F.engine.send data now).1, now, F.log ++ [(f.seq, now)]⟩ k =
      F.times k ++ if k = F.engine.next then [now] else [] := by
    intro k
    rw [times_append, hSeq]
    congr 1
    simpa using times_emitted (List.nodup_singleton F.engine.next) (F.engine.send data now).1 now now k
  constructor
  case engine => exact inv_send h.engine hSend
  case tracked =>
    intro seq b hb
    simp only [hEq] at hb
    by_cases hk : seq = F.engine.next
    · subst hk
      rw [AList.lookup_insert, Option.some.injEq] at hb
      subst hb
      constructor
      · rw [hTimes, if_pos rfl, hUnsent]
        rfl
      · rw [hTimes, if_pos rfl, hUnsent]
        rfl
      · intro t ht
        rw [hTimes, if_pos rfl, hUnsent] at ht
        exact (List.mem_singleton.mp ht).le
      · exact le_rfl
      · rw [hEq]
        dsimp only
        omega
    · rw [AList.lookup_insert_ne hk] at hb
      apply (h.tracked seq b hb).later _ hClock (by rw [hEq])
      rw [hTimes, if_neg hk, List.append_nil]
  case bounded =>
    intro seq
    rw [hTimes, hEq]
    split
    · rename_i hk
      subst hk
      rw [hUnsent, List.nil_append, List.length_singleton]
      dsimp only
      omega
    · rw [List.append_nil]
      exact h.bounded seq
  case sent =>
    rw [hEq]
    refine List.forall_mem_append.mpr ⟨fun p hp => Nat.lt_succ_of_lt (h.sent p hp), List.forall_mem_singleton.mpr ?_⟩
    rw [hSeq]
    exact Nat.lt_succ_self _

theorem Inv.tick (h : F.Inv) (hClock : F.clock ≤ now) (hTick : (F.engine.tick now).2 = .ok frames) :
    Inv ⟨(F.engine.tick now).1, now, F.log ++ (dataSeqs frames).map (·, now)⟩ := by
  obtain ⟨emitted, hNodup, hPass, hFrames⟩ := tick_pass h.engine.valid hTick
  rw [hFrames]
  have hTimes : ∀ k, times ⟨(F.engine.tick now).1, now, F.log ++ emitted.map (·, now)⟩ k =
      F.times k ++ if k ∈ emitted then [now] else [] := by
    intro k
    rw [times_append, times_emitted hNodup]
    rfl
  constructor
  case engine => exact inv_retimed h.engine hPass.retimed
  case tracked =>
    intro seq b' hb'
    by_cases hSeq : seq ∈ emitted
    · obtain ⟨b, b'', hb, hb'', hResent⟩ := hPass.resent seq hSeq
      cases hb'.symm.trans hb''
      have hTracked := h.tracked seq b hb
      have hAllowed := hResent.allowed
      constructor
      · rw [hTimes, if_pos hSeq, List.length_append, hTracked.count, hResent.retries, List.length_singleton]
      · rw [hTimes, if_pos hSeq, List.head?_append, hTracked.first, hResent.first]
        rfl
      · intro t ht
        rw [hTimes, if_pos hSeq, List.mem_append, List.mem_singleton] at ht
        rw [hResent.last]
        rcases ht with ht | rfl
        · exact (hTracked.last t ht).trans (hTracked.clock.trans hClock)
        · exact le_rfl
      · rw [hResent.last]
      · rw [hPass.retimed.config, hResent.retries]
        push_cast
        omega
    · rw [hPass.kept seq hSeq] at hb'
      apply (h.tracked seq b' hb').later _ hClock hPass.retimed.config
      rw [hTimes, if_neg hSeq, List.append_nil]
  case bounded =>
    intro seq
    rw [hTimes, hPass.retimed.config]
    split
    · rename_i hSeq
      obtain ⟨b, b', hb, _, hResent⟩ := hPass.resent seq hSeq
      have hAllowed := hResent.allowed
      rw [List.length_append, (h.tracked seq b hb).count, List.length_singleton]
      push_cast
      omega
    · rw [List.append_nil]
      exact h.bounded seq
  case sent =>
    intro p hp
    rw [hPass.retimed.next]
    rcases List.mem_append.mp hp with hp | hp
    · exact h.sent p hp
    · obtain ⟨k, hk, rfl⟩ := List.mem_map.mp hp
      obtain ⟨b, _, hb, _, _⟩ := hPass.resent k hk
      exact ((h.engine.held k).mp (by rw [hb]; rfl)).2

theorem Inv.step (h : F.Inv) (hStep : Step F F') : F'.Inv := by
  cases hStep with
  | input hClock hDecode _ => exact h.input (decode_wellFormed hDecode) hClock
  | send hClock hSend => exact h.send hClock hSend
  | consume hHead => exact h.consume hHead
  | tick hClock hTick => exact h.tick hClock hTick
  | written hClock => exact h.written hClock

theorem Step.config (h : F.Inv) (hStep : Step F F') : F'.engine.config = F.engine.config := by
  cases hStep with
  | input => exact (input_blocks _ _ _).1
  | send _ hSend =>
    obtain ⟨_, _, _, _, _, _, hEq⟩ := send_ok h.engine hSend
    rw [hEq]
  | consume => rfl
  | tick => exact (tick_spec _ _).1.config
  | written => exact (written_retimed _ _ _ _).config

/-! ## A sacked block -/

def Done (e : Engine) (seq : Nat) : Prop := seq < e.base ∨ ∃ b, e.sent.lookup seq = some b ∧ b.sacked = true

theorem Done.lt_next {e : Engine} (hInv : e.Inv) (h : Done e seq) : seq < e.next := by
  rcases h with hBelow | ⟨b, hb, _⟩
  · exact lt_of_lt_of_le hBelow hInv.base_le
  · exact ((hInv.held seq).mp (by rw [hb]; rfl)).2

theorem Done.retimed {e e' : Engine} (h : Done e seq) (hRetimed : Retimed e e') : Done e' seq := by
  rcases h with hBelow | ⟨b, hb, hSacked⟩
  · exact .inl (by rwa [hRetimed.base])
  · right
    have hHeld := hRetimed.held seq
    rw [hb, Option.isSome_some] at hHeld
    obtain ⟨b', hb'⟩ := Option.isSome_iff_exists.mp hHeld
    obtain ⟨b'', hb'', _, hSame⟩ := hRetimed.block seq b' hb'
    rw [hb] at hb''
    cases hb''
    exact ⟨b', hb', hSame.trans hSacked⟩

theorem Done.input {e : Engine} (h : Done e seq) (f : Frame) (now : Instant) : Done (e.input f now).1 seq := by
  have hCases := input_cases e f now
  generalize e.input f now = result at hCases ⊢
  cases hCases with
  | pinned e' _ _ _ hPinned =>
    unfold Done at h ⊢
    rw [hPinned.base, hPinned.sent]
    exact h
  | settled e' _ _ _ hLow _ hSettled =>
    unfold Done at h ⊢
    rw [hSettled.base, hSettled.sent]
    by_cases hBelow : seq < f.ack
    · exact .inl hBelow
    rcases h with hOld | ⟨b, hb, hSacked⟩
    · exact .inl (lt_of_lt_of_le hOld hLow)
    · -- the block survives the ACK, and `settle` only ever sets the mark
      right
      rw [Table.lookup_filterMap, hb, Option.bind_some, settle, if_neg hBelow]
      split
      · exact ⟨_, rfl, rfl⟩
      · exact ⟨b, rfl, hSacked⟩
  | stored e' _ _ _ _ hStored =>
    unfold Done at h ⊢
    rw [hStored.base, hStored.sent]
    exact h
  | _ => exact h

theorem Step.done (hInv : F.Inv) (h : Done F.engine seq) (hStep : Step F F') :
    Done F'.engine seq ∧ F'.times seq = F.times seq := by
  cases hStep with
  | input => exact ⟨h.input _ _, rfl⟩
  | consume => exact ⟨h, rfl⟩
  | written => exact ⟨h.retimed (written_retimed _ _ _ _), rfl⟩
  | send hClock hSend =>
    rename_i data now f
    obtain ⟨_, _, _, _, _, hFrame, hEq⟩ := send_ok hInv.engine hSend
    have hNe : seq ≠ F.engine.next := (h.lt_next hInv.engine).ne
    constructor
    · rw [hEq]
      rcases h with hBelow | ⟨b, hb, hSacked⟩
      · exact .inl hBelow
      · exact .inr ⟨b, (AList.lookup_insert_ne hNe).trans hb, hSacked⟩
    · have hOut : seq ∉ [f.seq] := by
        rw [hFrame, List.mem_singleton]
        exact hNe
      have hLogged := times_emitted (List.nodup_singleton f.seq) (F.engine.send data now).1 now now seq
      rw [if_neg hOut] at hLogged
      rw [times_append]
      exact (congrArg _ hLogged).trans (List.append_nil _)
  | tick hClock hTick =>
    rename_i now frames
    obtain ⟨emitted, hNodup, hPass, hFrames⟩ := tick_pass hInv.engine.valid hTick
    have hOut : seq ∉ emitted := by
      intro hSeq
      obtain ⟨b, _, hb, _, hResent⟩ := hPass.resent seq hSeq
      rcases h with hBelow | ⟨b', hb', hSacked⟩
      · have hHeld := (hInv.engine.held seq).mp (by rw [hb]; rfl)
        omega
      · rw [hb] at hb'
        cases hb'
        exact absurd hSacked (by rw [hResent.unsacked]; decide)
    refine ⟨h.retimed hPass.retimed, ?_⟩
    rw [hFrames, times_append, times_emitted hNodup, if_neg hOut]
    exact List.append_nil _

theorem steps_done (hInv : F.Inv) (h : Done F.engine seq) (hSteps : ReflTransGen Step F F') :
    F'.times seq = F.times seq := by
  have hAll : F'.Inv ∧ Done F'.engine seq ∧ F'.times seq = F.times seq := by
    induction hSteps with
    | refl => exact ⟨hInv, h, rfl⟩
    | tail _ hStep ih =>
      obtain ⟨hInv', hDone, hTimes⟩ := ih
      obtain ⟨hNext, hSame⟩ := hStep.done hInv' hDone
      exact ⟨hInv'.step hStep, hNext, hSame.trans hTimes⟩
  exact hAll.2.2

end Flight

def flightSystem (config : Config) (localEpoch : Epoch) (started : Instant) : System Flight where
  initial F := F = { engine := newEngine config localEpoch started, clock := started }
  step := Flight.Step

theorem flight_inv {config : Config} (hValid : config.validate = none) {localEpoch : Epoch} {started : Instant}
    {F : Flight} (h : (flightSystem config localEpoch started).Reachable F) : F.Inv ∧ F.engine.config = config := by
  refine h.invariant (I := fun F => F.Inv ∧ F.engine.config = config) ?_ ?_
  · rintro F rfl
    have hConfig := (Config.validate_eq_none_iff config).mp hValid
    refine ⟨⟨inv_newEngine hConfig localEpoch started, ?_, ?_, List.forall_mem_nil _⟩, rfl⟩
    · intro seq b hb
      cases hb
    · intro seq
      have hRetries := hConfig.maxRetries_pos
      simp only [Flight.times, List.filter_nil, List.map_nil, List.length_nil, newEngine]
      omega
  · rintro F F' _ ⟨hInv, hConfig⟩ hStep
    exact ⟨hInv.step hStep, (hStep.config hInv).trans hConfig⟩

/-- How often and when a block goes out, over every run with a clock that never goes back. -/
theorem retransmission_discipline (config : Config) (hValid : config.validate = none) (localEpoch : Epoch)
    (started : Instant) (F : Flight) (h : (flightSystem config localEpoch started).Reachable F) :
    (∀ seq, ((F.times seq).length : Int) ≤ config.maxRetries + 1) ∧
      (∀ seq b F', F.engine.sent.lookup seq = some b → b.sacked = true → ReflTransGen Flight.Step F F' →
        F'.times seq = F.times seq) ∧
      (∀ now frames, F.clock ≤ now → (F.engine.tick now).2 = .ok frames →
        (dataSeqs frames).Nodup ∧ ∀ seq ∈ dataSeqs frames, ∃ t, (F.times seq).getLast? = some t ∧
          (t + config.rto ≤ now ∨
            (F.times seq).length = 1 ∧ t + config.rto.tdiv 4 ≤ now ∧ seq = F.engine.base ∧
              3 ≤ F.engine.sackedAbove seq)) ∧
      (∀ now seq t, seq ∈ F.engine.sent → (F.times seq).head? = some t → t + config.maxAge ≤ now →
        (F.engine.tick now).2 = .error .exhausted) := by
  obtain ⟨hInv, hConfig⟩ := flight_inv hValid h
  refine ⟨hConfig ▸ hInv.bounded, ?_, ?_, ?_⟩
  · intro seq b F' hb hSacked hSteps
    exact Flight.steps_done hInv (.inr ⟨b, hb, hSacked⟩) hSteps
  · intro now frames hClock hTick
    obtain ⟨emitted, hNodup, hPass, rfl⟩ := tick_pass hInv.engine.valid hTick
    refine ⟨hNodup, ?_⟩
    intro seq hSeq
    obtain ⟨b, _, hb, _, hResent⟩ := hPass.resent seq hSeq
    have hTracked := hInv.tracked seq b hb
    have hRto : 0 ≤ config.rto := le_trans (by decide) (hConfig ▸ hInv.engine.valid.rto_pos)
    obtain ⟨t, ht⟩ : ∃ t, (F.times seq).getLast? = some t := by
      cases hLast : (F.times seq).getLast? with
      | some t => exact ⟨t, rfl⟩
      | none =>
        have hCount := hTracked.count
        rw [List.getLast?_eq_none_iff.mp hLast] at hCount
        cases hCount
    have hLast := hTracked.last t (List.mem_of_getLast? ht)
    have hDue := hResent.due
    unfold Due at hDue
    rw [hConfig] at hDue
    refine ⟨t, ht, ?_⟩
    rcases hDue with hDue | ⟨hBase, hFresh, hEarly, hThree⟩
    · left
      exact (add_le_add_left hLast _).trans (Instant.add_le_of_le_sub hDue (lt_of_lt_of_le (by decide) hRto))
    · right
      refine ⟨by rw [hTracked.count, hFresh], ?_, hBase, hThree⟩
      exact (add_le_add_left hLast _).trans (Instant.add_le_of_le_sub hEarly
        (lt_of_lt_of_le (by decide) (Int.tdiv_nonneg hRto (by decide))))
  · intro now seq t hSeq ht hOld
    obtain ⟨b, hb⟩ := Table.mem_iff_lookup.mp hSeq
    have hFirst := (hInv.tracked seq b hb).first
    rw [ht, Option.some.injEq] at hFirst
    have hMinute := (hConfig ▸ hInv.engine.valid).maxAge_le
    apply tick_exhausted hInv.engine hb
    rw [hConfig, ← hFirst]
    exact Instant.le_sub_of_add_le hOld (hMinute.trans (by decide))

def peerSack : Frame :=
  { kind := .ackFrame, source := peerOpening.source, target := peerOpening.target, ack := 0, bits := 14#32 }

theorem retransmission_discipline_early : ∃ F now frames,
    (flightSystem defaultConfig ⟨List.replicate 16 1, rfl⟩ 1).Reachable F ∧
      (F.engine.tick now).2 = .ok frames ∧ dataSeqs frames = [0] ∧ ∃ t, (F.times 0).getLast? = some t ∧
        (t + defaultConfig.rto ≤ now ∨
          (F.times 0).length = 1 ∧ t + defaultConfig.rto.tdiv 4 ≤ now ∧ 0 = F.engine.base ∧
            3 ≤ F.engine.sackedAbove 0) := by
  let wide : Frame := { peerOpening with window := 8 }
  have hPlay : ([Engine.Move.input wide 2, .send [1] 3, .send [2] 3, .send [3] 3, .send [4] 3,
    .input peerSack 5].foldlM Flight.move
      ⟨newEngine defaultConfig ⟨List.replicate 16 1, rfl⟩ 1, 1, []⟩).bind
        (fun F => (F.engine.tick 300000000).2.toOption.map
          fun frames => (F.clock, dataSeqs frames)) = some (5, [0]) := by decide +kernel
  obtain ⟨F, hRun, hTick⟩ := Option.bind_eq_some_iff.mp hPlay
  obtain ⟨frames, hTick, hEnd⟩ := Option.map_eq_some_iff.mp hTick
  obtain ⟨hClock, hData⟩ := Prod.mk.inj hEnd
  have hReach := System.Reachable.play (S := flightSystem defaultConfig ⟨List.replicate 16 1, rfl⟩ 1)
    (fun _ _ _ => Flight.move_step _) (.start rfl) hRun
  have hOk := ok_of_toOption hTick
  have hDiscipline := (retransmission_discipline _ (by decide) _ _ _ hReach).2.2.1 300000000 frames
    (by rw [hClock]; decide) hOk
  exact ⟨F, _, frames, hReach, hOk, hData, hDiscipline.2 0 (by rw [hData]; exact List.mem_singleton_self 0)⟩

end FamilyConnect.ReliableStream
