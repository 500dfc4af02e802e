import FamilyConnect.ReliableStream.EngineInvariant

/-!
# Two honest engines over a faulty network

Each side keeps every frame it ever put out. A step of one side may feed it
any of the other side's frames, any number of times and in any order, which
covers loss, duplication, delay and reordering; it cannot feed it a frame the
other side did not put out. `accepted` and `consumed` record the blocks that
`send` took and `consume` returned.
-/

namespace FamilyConnect.ReliableStream

open Lib

structure Side where
  engine : Engine
  outbox : List Frame := []
  accepted : List (List UInt8) := []
  consumed : List (List UInt8) := []

def emitted : Except Err (List Frame) → List Frame
  | .ok frames => frames
  | .error _ => []

namespace Side

def start (config : Config) (localEpoch : Epoch) (now : Instant) : Side :=
  { engine := newEngine config localEpoch now }

def tick (s : Side) (now : Instant) : Side :=
  { s with engine := (s.engine.tick now).1, outbox := s.outbox ++ emitted (s.engine.tick now).2 }

def input (s : Side) (f : Frame) (now : Instant) : Side :=
  { s with engine := (s.engine.input f now).1, outbox := s.outbox ++ emitted (s.engine.input f now).2 }

def send (s : Side) (data : List UInt8) (now : Instant) : Side :=
  match s.engine.send data now with
  | (engine, .ok f) => { s with engine := engine, outbox := s.outbox ++ [f], accepted := s.accepted ++ [data] }
  | (engine, .error _) => { s with engine := engine }

def consume (s : Side) : Side :=
  { s with
    engine := s.engine.consume.1
    outbox := s.outbox ++ [s.engine.consume.2.2]
    consumed := s.consumed ++ [s.engine.consume.2.1] }

inductive Step (wire : List Frame) : Side → Side → Prop where
  | tick {s : Side} (now : Instant) : Step wire s (s.tick now)
  | input {s : Side} {f : Frame} (now : Instant) : f ∈ wire → Step wire s (s.input f now)
  | send {s : Side} {data : List UInt8} (now : Instant) :
      s.engine.writable = true → data ≠ [] →
      (data.length : Int) ≤ min s.engine.config.payload s.engine.remoteSize → Step wire s (s.send data now)
  | consume {s : Side} : (s.engine.buffer.lookup s.engine.receive).isSome → Step wire s s.consume

end Side

structure Link where
  left : Side
  right : Side

inductive Link.Step : Link → Link → Prop where
  | left {l : Link} {s : Side} : Side.Step l.right.outbox l.left s → Link.Step l { l with left := s }
  | right {l : Link} {s : Side} : Side.Step l.left.outbox l.right s → Link.Step l { l with right := s }

def linkSystem (leftConfig rightConfig : Config) (leftEpoch rightEpoch : Epoch)
    (leftStart rightStart : Instant) : System Link where
  initial l :=
    l = ⟨Side.start leftConfig leftEpoch leftStart, Side.start rightConfig rightEpoch rightStart⟩
  step := Link.Step

/-! ## A scheduler for concrete runs -/

inductive Move where
  | tick (now : Instant)
  | input (index : Nat) (now : Instant)
  | send (data : List UInt8) (now : Instant)
  | consume

/-- One step chosen by a script; a step that its caller's guard forbids is refused. -/
def Side.perform (wire : List Frame) (s : Side) : Move → Option Side
  | .tick now => some (s.tick now)
  | .input index now => wire[index]?.map fun f => s.input f now
  | .send data now =>
    if s.engine.writable = true ∧ data ≠ [] ∧
        (data.length : Int) ≤ min s.engine.config.payload s.engine.remoteSize then some (s.send data now)
    else none
  | .consume => if (s.engine.buffer.lookup s.engine.receive).isSome then some s.consume else none

inductive Turn where
  | left (move : Move)
  | right (move : Move)

def Link.perform (l : Link) : Turn → Option Link
  | .left move => (l.left.perform l.right.outbox move).map fun s => { l with left := s }
  | .right move => (l.right.perform l.left.outbox move).map fun s => { l with right := s }

def Link.play (l : Link) : List Turn → Option Link
  | [] => some l
  | turn :: rest => (l.perform turn).bind fun l' => l'.play rest

theorem Side.perform_step {wire : List Frame} {s s' : Side} {move : Move} (h : s.perform wire move = some s') :
    Side.Step wire s s' := by
  cases move with
  | tick now =>
    cases h
    exact .tick now
  | input index now =>
    obtain ⟨f, hf, rfl⟩ := Option.map_eq_some_iff.mp h
    exact .input now (List.mem_of_getElem? hf)
  | send data now =>
    simp only [Side.perform] at h
    split at h
    · rename_i hGuard
      cases h
      exact .send now hGuard.1 hGuard.2.1 hGuard.2.2
    · cases h
  | consume =>
    simp only [Side.perform] at h
    split at h
    · rename_i hGuard
      cases h
      exact .consume hGuard
    · cases h

theorem Link.perform_step {l l' : Link} {turn : Turn} (h : l.perform turn = some l') : Link.Step l l' := by
  cases turn with
  | left move =>
    obtain ⟨s, hs, rfl⟩ := Option.map_eq_some_iff.mp h
    exact .left (Side.perform_step hs)
  | right move =>
    obtain ⟨s, hs, rfl⟩ := Option.map_eq_some_iff.mp h
    exact .right (Side.perform_step hs)

theorem Link.play_steps {turns : List Turn} {l l' : Link} (h : l.play turns = some l') :
    Relation.ReflTransGen Link.Step l l' := by
  induction turns generalizing l with
  | nil =>
    cases h
    exact .refl
  | cons turn rest ih =>
    obtain ⟨m, hm, hRest⟩ := Option.bind_eq_some_iff.mp h
    exact .head (Link.perform_step hm) (ih hRest)

/-! ## The joint invariant -/

def CarriesData (s r : Side) (f : Frame) : Prop :=
  f.kind = .dataFrame → s.accepted[f.seq]? = some f.data ∧
    (f.seq : Int) < r.engine.receive + r.engine.config.receiveWindow

def CarriesAck (s r : Side) (f : Frame) : Prop :=
  f.kind = .ackFrame → f.ack ≤ r.engine.receive ∧
    ∀ i, f.bits.getLsbD i = true →
      f.ack + i < s.engine.next ∧ (f.ack + i < r.engine.receive ∨ f.ack + i ∈ r.engine.buffer)

structure Flow (s r : Side) : Prop where
  next_eq : s.engine.next = s.accepted.length
  receive_eq : r.engine.receive = r.consumed.length
  consumed : r.consumed = s.accepted.take r.engine.receive
  receive_le : r.engine.receive ≤ s.engine.next
  base_le : s.engine.base ≤ r.engine.receive
  accepted : ∀ d ∈ s.accepted, d ≠ [] ∧ (d.length : Int) ≤ r.engine.config.payload
  sent : ∀ k b, s.engine.sent.lookup k = some b → s.accepted[k]? = some b.data
  buffered : ∀ k d, r.engine.buffer.lookup k = some d → s.accepted[k]? = some d
  sacked : ∀ k b, s.engine.sent.lookup k = some b → b.sacked = true →
    k < r.engine.receive ∨ k ∈ r.engine.buffer
  data : ∀ f ∈ s.outbox, CarriesData s r f
  acks : ∀ f ∈ r.outbox, CarriesAck s r f

structure Honest (a : Side) : Prop where
  epoch_ne : a.engine.localEpoch ≠ Epoch.zero
  source : ∀ f ∈ a.outbox, f.source = a.engine.localEpoch
  opens : ∀ f ∈ a.outbox, f.kind = .openFrame →
    f.window = a.engine.config.receiveWindow ∧ f.payload = a.engine.config.payload
  noReset : ∀ f ∈ a.outbox, f.kind ≠ .resetFrame
  wellFormed : ∀ f ∈ a.outbox, f.WellFormed

def Peers (a b : Side) : Prop :=
  a.engine.remote ≠ Epoch.zero → a.engine.remote = b.engine.localEpoch ∧
    a.engine.remoteWindow = b.engine.config.receiveWindow ∧ a.engine.remoteSize = b.engine.config.payload

structure LinkInv (a b : Side) : Prop where
  invLeft : a.engine.Inv
  invRight : b.engine.Inv
  honestLeft : Honest a
  honestRight : Honest b
  peersLeft : Peers a b
  peersRight : Peers b a
  forward : Flow a b
  backward : Flow b a

variable {a b : Side}

theorem LinkInv.symm (h : LinkInv a b) : LinkInv b a :=
  ⟨h.invRight, h.invLeft, h.honestRight, h.honestLeft, h.peersRight, h.peersLeft, h.backward, h.forward⟩

variable {f : Frame}

theorem CarriesData.mono {s s' r r' : Side} (h : CarriesData s r f)
    (hAccepted : s.accepted <+: s'.accepted) (hConfig : r'.engine.config = r.engine.config)
    (hReceive : r.engine.receive ≤ r'.engine.receive) : CarriesData s' r' f := by
  intro hKind
  obtain ⟨hData, hWindow⟩ := h hKind
  refine ⟨?_, ?_⟩
  · obtain ⟨rest, hRest⟩ := hAccepted
    have hLt := (List.getElem?_eq_some_iff.mp hData).1
    rw [← hRest, List.getElem?_append_left hLt]
    exact hData
  · rw [hConfig]
    omega

theorem CarriesAck.mono {s s' r r' : Side} (h : CarriesAck s r f)
    (hNext : s.engine.next ≤ s'.engine.next) (hReceive : r.engine.receive ≤ r'.engine.receive)
    (hBuffer : ∀ k ∈ r.engine.buffer, k < r'.engine.receive ∨ k ∈ r'.engine.buffer) : CarriesAck s' r' f := by
  intro hKind
  obtain ⟨hAck, hBits⟩ := h hKind
  refine ⟨hAck.trans hReceive, ?_⟩
  intro i hi
  obtain ⟨hSent, hReached⟩ := hBits i hi
  refine ⟨hSent.trans_le hNext, ?_⟩
  rcases hReached with hPast | hHeld
  · exact .inl (hPast.trans_le hReceive)
  · exact hBuffer _ hHeld

variable {s r : Side} {k : Nat} {d : List UInt8} {frames : List Frame}

theorem Flow.accepted_lt (h : Flow s r) (hk : s.accepted[k]? = some d) : k < s.engine.next :=
  h.next_eq ▸ (List.getElem?_eq_some_iff.mp hk).1

/-- The ACK a receiver would build now covers only what it holds or has handed over. -/
theorem Flow.carriesAck_ack (h : Flow s r) (hInv : r.engine.Inv) : CarriesAck s r r.engine.ack := by
  intro _
  refine ⟨le_rfl, ?_⟩
  intro i hi
  obtain ⟨_, seq, hSeq, hSub⟩ := (Engine.getLsbD_sackBits r.engine i).mp hi
  obtain ⟨d, hd⟩ := Table.mem_iff_lookup.mp hSeq
  have hLow := (hInv.buffered seq d hd).1
  rw [hInv.buffer_sub hd] at hSub
  have hEq : r.engine.ack.ack + i = seq := by
    change r.engine.receive + i = seq
    omega
  rw [hEq]
  exact ⟨h.accepted_lt (h.buffered seq d hd), .inr hSeq⟩

/-- A block still held fits the receiver's current window: the base never passes the receiver. -/
theorem Flow.carriesData_held (h : Flow s r) (hInv : s.engine.Inv) (hPeers : Peers s r)
    (hRemote : s.engine.remote ≠ Epoch.zero) {b : Pending}
    (hb : s.engine.sent.lookup k = some b) : CarriesData s r (s.engine.dataOf k b) := by
  intro _
  obtain ⟨hLow, hHigh⟩ := (hInv.held k).mp (by rw [hb]; rfl)
  have hWindow := hInv.window_remote
  have hBase := h.base_le
  rw [(hPeers hRemote).2.1] at hWindow
  refine ⟨h.sent k b hb, ?_⟩
  change (k : Int) < _
  omega

section sender

variable {s r : Side}

section

variable (h : Flow s r)
include h

theorem Flow.sender_put (hFrames : ∀ f ∈ frames, CarriesData s r f) :
    Flow { s with outbox := s.outbox ++ frames } r :=
  { h with
    data := by
      intro f hf
      rcases List.mem_append.mp hf with hf | hf
      · exact h.data f hf
      · exact hFrames f hf }

variable {e : Engine}

/-- The sender keeps the blocks it holds, may drop some the receiver has, and marks only blocks the
receiver has. -/
theorem Flow.sender_window (hNext : e.next = s.engine.next) (hBase : e.base ≤ r.engine.receive)
    (hSent : ∀ k b', e.sent.lookup k = some b' → ∃ b, s.engine.sent.lookup k = some b ∧ b'.data = b.data ∧
      (b'.sacked = true → b.sacked = true ∨ k < r.engine.receive ∨ k ∈ r.engine.buffer)) :
    Flow { s with engine := e } r :=
  { h with
    next_eq := hNext.trans h.next_eq
    receive_le := h.receive_le.trans hNext.ge
    base_le := hBase
    sent := by
      intro k b' hb'
      obtain ⟨b, hb, hData, _⟩ := hSent k b' hb'
      rw [hData]
      exact h.sent k b hb
    sacked := by
      intro k b' hb' hMark
      obtain ⟨b, hb, _, hSacked⟩ := hSent k b' hb'
      rcases hSacked hMark with hOld | hReach
      · exact h.sacked k b hb hOld
      · exact hReach
    acks := fun f hf => (h.acks f hf).mono hNext.ge le_rfl fun k hk => .inr hk }

theorem Flow.sender_same (hNext : e.next = s.engine.next)
    (hBase : e.base = s.engine.base) (hSent : e.sent = s.engine.sent) : Flow { s with engine := e } r := by
  refine h.sender_window hNext (hBase.trans_le h.base_le) ?_
  intro k b hb
  exact ⟨b, hSent ▸ hb, rfl, .inl⟩

theorem Flow.sender_retimed (hRetimed : Engine.Retimed s.engine e) : Flow { s with engine := e } r := by
  refine h.sender_window hRetimed.next (hRetimed.base.trans_le h.base_le) ?_
  intro k b' hb'
  obtain ⟨b, hb, hData, hSacked⟩ := hRetimed.block k b' hb'
  exact ⟨b, hb, hData, fun hMark => .inl (hSacked ▸ hMark)⟩

/-- A genuine ACK moves the base to at most what the receiver consumed and marks only blocks the
receiver has. -/
theorem Flow.sender_settled (hInv : s.engine.Inv)
    (hAck : CarriesAck s r f) (hKind : f.kind = .ackFrame) (hSettled : Engine.Settled s.engine e f) :
    Flow { s with engine := e } r := by
  obtain ⟨hReached, hBits⟩ := hAck hKind
  refine h.sender_window hSettled.next (hSettled.base.trans_le hReached) ?_
  intro k b' hb'
  rw [hSettled.sent, Table.lookup_filterMap] at hb'
  obtain ⟨b, hb, hSettle⟩ := Option.bind_eq_some_iff.mp hb'
  refine ⟨b, hb, Engine.settle_data hSettle, ?_⟩
  unfold Engine.settle at hSettle
  split at hSettle
  · cases hSettle
  rename_i hLow
  split at hSettle
  · rename_i hBit
    intro _
    have hk := ((hInv.held k).mp (by rw [hb]; rfl)).2
    have hNext := hInv.next_lt
    rw [testBit_eq, Word.sub_of_le (by omega) (by omega)] at hBit
    have hReach := (hBits _ hBit).2
    have hEq : f.ack + (k - f.ack) = k := by omega
    rw [hEq] at hReach
    exact .inr hReach
  · cases hSettle
    exact .inl

theorem Flow.sender_send (hInv : s.engine.Inv) (hPeers : Peers s r) {data : List UInt8}
    {now : Instant} (hSend : (s.engine.send data now).2 = .ok f) :
    Flow { s with engine := (s.engine.send data now).1, accepted := s.accepted ++ [data] } r := by
  obtain ⟨hRemote, hRoom, hNonempty, hSize, _, _, hEq⟩ := Engine.send_ok hInv hSend
  obtain ⟨_, _, hPayload⟩ := hPeers hRemote
  have hNew : (s.accepted ++ [data])[s.engine.next]? = some data := by
    rw [h.next_eq, List.getElem?_concat_length]
  have hOld : ∀ (k : Nat) d, s.accepted[k]? = some d → (s.accepted ++ [data])[k]? = some d := by
    intro k d hk
    rw [List.getElem?_append_left (List.getElem?_eq_some_iff.mp hk).1]
    exact hk
  have hBlock : ∀ k b, (s.engine.send data now).1.sent.lookup k = some b →
      k = s.engine.next ∧ b.data = data ∧ b.sacked = false ∨ s.engine.sent.lookup k = some b := by
    intro k b hb
    rw [hEq] at hb
    by_cases hk : k = s.engine.next
    · subst hk
      simp only [AList.lookup_insert, Option.some.injEq] at hb
      subst hb
      exact .inl ⟨rfl, rfl, rfl⟩
    · simp only [AList.lookup_insert_ne hk] at hb
      exact .inr hb
  have hNext : (s.engine.send data now).1.next = s.engine.next + 1 := by rw [hEq]
  exact
    { h with
      next_eq := by
        change (s.engine.send data now).1.next = (s.accepted ++ [data]).length
        rw [hNext, List.length_append, h.next_eq]
        rfl
      consumed := by
        have hLe : r.engine.receive ≤ s.accepted.length := h.next_eq ▸ h.receive_le
        change r.consumed = (s.accepted ++ [data]).take r.engine.receive
        rw [List.take_append_of_le_length hLe]
        exact h.consumed
      receive_le := h.receive_le.trans (hNext ▸ Nat.le_succ _)
      base_le := by
        change (s.engine.send data now).1.base ≤ _
        rw [hEq]
        exact h.base_le
      accepted := by
        exact List.forall_mem_append.mpr ⟨h.accepted,
          List.forall_mem_singleton.mpr ⟨hNonempty, hPayload ▸ hSize.trans (min_le_right _ _)⟩⟩
      sent := by
        intro k b hb
        rcases hBlock k b hb with ⟨rfl, hData, _⟩ | hb
        · rw [hData]
          exact hNew
        · exact hOld k _ (h.sent k b hb)
      buffered := fun k d hd => hOld k d (h.buffered k d hd)
      sacked := by
        intro k b hb hMark
        rcases hBlock k b hb with ⟨_, _, hFresh⟩ | hb
        · rw [hFresh] at hMark
          cases hMark
        · exact h.sacked k b hb hMark
      data := fun g hg => (h.data g hg).mono (List.prefix_append _ _) rfl le_rfl
      acks := fun g hg => (h.acks g hg).mono (hNext ▸ Nat.le_succ _) le_rfl fun k hk => .inr hk }

end

end sender

section receiver

variable {s r : Side}

theorem Flow.receiver_put (h : Flow s r) (hFrames : ∀ f ∈ frames, CarriesAck s r f) :
    Flow s { r with outbox := r.outbox ++ frames } :=
  { h with
    acks := by
      intro f hf
      rcases List.mem_append.mp hf with hf | hf
      · exact h.acks f hf
      · exact hFrames f hf }

variable {e : Engine}

/-- The receiver stays where it is, forgets nothing and buffers only blocks the sender accepted. -/
theorem Flow.receiver_window (h : Flow s r) (hConfig : e.config = r.engine.config)
    (hReceive : e.receive = r.engine.receive) (hBuffered : ∀ k d, e.buffer.lookup k = some d → s.accepted[k]? = some d)
    (hKept : ∀ k ∈ r.engine.buffer, k ∈ e.buffer) : Flow s { r with engine := e } :=
  { h with
    receive_eq := hReceive.trans h.receive_eq
    consumed := by
      change r.consumed = s.accepted.take e.receive
      rw [hReceive]
      exact h.consumed
    receive_le := hReceive.trans_le h.receive_le
    base_le := h.base_le.trans hReceive.ge
    accepted := by
      change ∀ d ∈ s.accepted, d ≠ [] ∧ (d.length : Int) ≤ e.config.payload
      rw [hConfig]
      exact h.accepted
    buffered := hBuffered
    sacked := fun k b hb hMark =>
      (h.sacked k b hb hMark).imp (fun hPast => hPast.trans_le hReceive.ge) (hKept k)
    data := fun f hf => (h.data f hf).mono List.prefix_rfl hConfig hReceive.ge
    acks := fun f hf => (h.acks f hf).mono le_rfl hReceive.ge fun k hk => .inr (hKept k hk) }

theorem Flow.receiver_same (h : Flow s r) (hConfig : e.config = r.engine.config)
    (hReceive : e.receive = r.engine.receive) (hBuffer : e.buffer = r.engine.buffer) :
    Flow s { r with engine := e } := by
  refine h.receiver_window hConfig hReceive ?_ ?_
  · rw [hBuffer]
    exact h.buffered
  · rw [hBuffer]
    exact fun k hk => hk

theorem Flow.receiver_stored (h : Flow s r) (hData : CarriesData s r f)
    (hKind : f.kind = .dataFrame) (hStored : Engine.Stored r.engine e f) : Flow s { r with engine := e } := by
  refine h.receiver_window hStored.config hStored.receive ?_ ?_
  · intro k d hk
    rw [hStored.buffer] at hk
    by_cases hEq : k = f.seq
    · subst hEq
      rw [AList.lookup_insert, Option.some.injEq] at hk
      exact hk ▸ (hData hKind).1
    · rw [AList.lookup_insert_ne hEq] at hk
      exact h.buffered k d hk
  · intro k hk
    rw [hStored.buffer]
    exact (AList.mem_insert _).mpr (.inr hk)

theorem Flow.receiver_consume (h : Flow s r) (hInv : r.engine.Inv)
    (hHead : r.engine.buffer.lookup r.engine.receive = some d) :
    Flow s { r with engine := r.engine.consume.1, consumed := r.consumed ++ [d] } := by
  obtain ⟨_, _, _, hEq⟩ := Engine.consume_eq hInv hHead
  have hReceive : r.engine.consume.1.receive = r.engine.receive + 1 := by rw [hEq]
  have hBuffer : r.engine.consume.1.buffer = r.engine.buffer.erase r.engine.receive := rfl
  have hNow := h.buffered _ _ hHead
  have hKept : ∀ k ∈ r.engine.buffer, k < r.engine.consume.1.receive ∨ k ∈ r.engine.consume.1.buffer := by
    intro k hk
    rw [hBuffer, AList.mem_erase, hReceive]
    by_cases hEqk : k = r.engine.receive
    · exact .inl (by omega)
    · exact .inr ⟨hEqk, hk⟩
  exact
    { h with
      receive_eq := by
        change r.engine.consume.1.receive = (r.consumed ++ [d]).length
        rw [hReceive, List.length_append, h.receive_eq]
        rfl
      consumed := by
        change r.consumed ++ [d] = s.accepted.take r.engine.consume.1.receive
        rw [hReceive, h.consumed, List.take_add_one, hNow]
        rfl
      receive_le := hReceive.trans_le (h.accepted_lt hNow)
      base_le := h.base_le.trans (hReceive ▸ Nat.le_succ _)
      buffered := fun k d' hk => h.buffered k d' (Table.lookup_erase_some hk).2
      sacked := by
        intro k b hb hMark
        rcases h.sacked k b hb hMark with hPast | hHeld
        · exact .inl (hPast.trans (hReceive ▸ Nat.lt_succ_self _))
        · exact hKept k hHeld
      data := fun g hg => (h.data g hg).mono List.prefix_rfl rfl (hReceive ▸ Nat.le_succ _)
      acks := fun g hg => (h.acks g hg).mono le_rfl (hReceive ▸ Nat.le_succ _) hKept }

end receiver

/-! ## Frames put out by an honest side -/

variable {e : Engine}

theorem opening_wellFormed (hInv : e.Inv) (hEpoch : e.localEpoch ≠ Epoch.zero) (target : Epoch) :
    (e.opening target).WellFormed where
  source_ne := hEpoch
  seq_lt := by simp [Engine.opening]
  ack_lt := by simp [Engine.opening]
  data_ne h := by cases h
  data_le := by simp [Engine.opening]
  open_window _ := ⟨hInv.valid.receiveWindow_pos, hInv.valid.receiveWindow_le, hInv.valid.payload_pos,
    hInv.valid.payload_le⟩
  target_ne h := absurd rfl h

theorem ack_wellFormed (hInv : e.Inv) (hEpoch : e.localEpoch ≠ Epoch.zero)
    (hRemote : e.remote ≠ Epoch.zero) : e.ack.WellFormed where
  source_ne := hEpoch
  seq_lt := by simp [Engine.ack, Engine.packet]
  ack_lt := hInv.receive_lt
  data_ne h := by cases h
  data_le := by simp [Engine.ack, Engine.packet]
  open_window h := by cases h
  target_ne _ := hRemote

theorem data_wellFormed (h : Flow s r) (hInv : s.engine.Inv) (hPeer : r.engine.config.Valid)
    (hEpoch : s.engine.localEpoch ≠ Epoch.zero) (hRemote : s.engine.remote ≠ Epoch.zero) {b : Pending}
    (hb : s.engine.sent.lookup k = some b) : (s.engine.dataOf k b).WellFormed := by
  have hk := ((hInv.held k).mp (by rw [hb]; rfl)).2
  obtain ⟨hNonempty, hSize⟩ := h.accepted b.data (List.mem_of_getElem? (h.sent k b hb))
  have hMax := hPeer.payload_le
  exact
    { source_ne := hEpoch
      seq_lt := hk.trans hInv.next_lt
      ack_lt := by simp [Engine.dataOf, Engine.packet]
      data_ne := fun _ => hNonempty
      data_le := by
        change b.data.length ≤ 32768
        omega
      open_window := fun hKind => by cases hKind
      target_ne := fun _ => hRemote }

def Emittable (e : Engine) (f : Frame) : Prop :=
  (∃ target, f = e.opening target) ∨
    e.remote ≠ Epoch.zero ∧ (f = e.ack ∨ ∃ seq b, e.sent.lookup seq = some b ∧ f = e.dataOf seq b)

theorem Engine.TickFrame.emittable (h : e.TickFrame f) : Emittable e f := by
  rcases h with ⟨_, hOpening⟩ | hPinned
  · exact .inl ⟨_, hOpening⟩
  · exact .inr hPinned

/-! ## The joint invariant is preserved -/

section joint

variable {a b : Side}

theorem Honest.put (h : Honest a)
    (hFrames : ∀ f ∈ frames, Emittable a.engine f ∧ f.WellFormed) : Honest { a with outbox := a.outbox ++ frames } := by
  have hNew : ∀ f ∈ frames, f.source = a.engine.localEpoch ∧ f.kind ≠ .resetFrame ∧ (f.kind = .openFrame →
      f.window = a.engine.config.receiveWindow ∧ f.payload = a.engine.config.payload) := by
    intro f hf
    rcases (hFrames f hf).1 with ⟨target, rfl⟩ | ⟨_, rfl | ⟨seq, block, _, rfl⟩⟩
    · exact ⟨rfl, nofun, fun _ => ⟨rfl, rfl⟩⟩
    · exact ⟨rfl, nofun, nofun⟩
    · exact ⟨rfl, nofun, nofun⟩
  exact
    { epoch_ne := h.epoch_ne
      source := fun f hf => (List.mem_append.mp hf).elim (h.source f) fun hf => (hNew f hf).1
      opens := fun f hf => (List.mem_append.mp hf).elim (h.opens f) fun hf => (hNew f hf).2.2
      noReset := fun f hf => (List.mem_append.mp hf).elim (h.noReset f) fun hf => (hNew f hf).2.1
      wellFormed := fun f hf => (List.mem_append.mp hf).elim (h.wellFormed f) fun hf => (hFrames f hf).2 }

section

variable (h : LinkInv a b)
include h

theorem LinkInv.put (hFrames : ∀ f ∈ frames, Emittable a.engine f) :
    LinkInv { a with outbox := a.outbox ++ frames } b := by
  have hSound : ∀ f ∈ frames, f.WellFormed ∧ CarriesData a b f ∧ CarriesAck b a f := by
    intro f hf
    rcases hFrames f hf with ⟨target, rfl⟩ | ⟨hRemote, rfl | ⟨seq, block, hBlock, rfl⟩⟩
    · exact ⟨opening_wellFormed h.invLeft h.honestLeft.epoch_ne target, nofun, nofun⟩
    · exact ⟨ack_wellFormed h.invLeft h.honestLeft.epoch_ne hRemote, nofun, h.backward.carriesAck_ack h.invLeft⟩
    · exact ⟨data_wellFormed h.forward h.invLeft h.invRight.valid h.honestLeft.epoch_ne hRemote hBlock,
        h.forward.carriesData_held h.invLeft h.peersLeft hRemote hBlock, nofun⟩
  exact
    { invLeft := h.invLeft
      invRight := h.invRight
      honestLeft := h.honestLeft.put fun f hf => ⟨hFrames f hf, (hSound f hf).1⟩
      honestRight := h.honestRight
      peersLeft := h.peersLeft
      peersRight := h.peersRight
      forward := h.forward.sender_put fun f hf => (hSound f hf).2.1
      backward := h.backward.receiver_put fun f hf => (hSound f hf).2.2 }

variable {a' : Side}

theorem LinkInv.advance (hInv : a'.engine.Inv) (hOutbox : a'.outbox = a.outbox)
    (hConfig : a'.engine.config = a.engine.config) (hEpoch : a'.engine.localEpoch = a.engine.localEpoch)
    (hPeers : Peers a' b) (hForward : Flow a' b) (hBackward : Flow b a') : LinkInv a' b where
  invLeft := hInv
  invRight := h.invRight
  honestLeft :=
    { epoch_ne := hEpoch ▸ h.honestLeft.epoch_ne
      source := by rw [hOutbox, hEpoch]; exact h.honestLeft.source
      opens := by rw [hOutbox, hConfig]; exact h.honestLeft.opens
      noReset := by rw [hOutbox]; exact h.honestLeft.noReset
      wellFormed := by rw [hOutbox]; exact h.honestLeft.wellFormed }
  honestRight := h.honestRight
  peersLeft := hPeers
  peersRight := by
    unfold Peers
    rw [hEpoch, hConfig]
    exact h.peersRight
  forward := hForward
  backward := hBackward

omit h in
theorem Peers.same (h : Peers a b) (hRemote : a'.engine.remote = a.engine.remote)
    (hWindow : a'.engine.remoteWindow = a.engine.remoteWindow)
    (hSize : a'.engine.remoteSize = a.engine.remoteSize) : Peers a' b := by
  unfold Peers
  rw [hRemote, hWindow, hSize]
  exact h

theorem LinkInv.tick (now : Instant) : LinkInv (a.tick now) b := by
  obtain ⟨hRetimed, hFrames⟩ := Engine.tick_spec a.engine now
  have hSaid : ∀ f ∈ emitted (a.engine.tick now).2, Emittable a.engine f := by
    intro f hf
    cases hResult : (a.engine.tick now).2 with
    | ok frames =>
      rw [hResult] at hf
      exact (hFrames frames hResult f hf).emittable
    | error err =>
      rw [hResult] at hf
      cases hf
  have hPut := h.put hSaid
  exact hPut.advance (Engine.inv_retimed h.invLeft hRetimed) rfl hRetimed.config hRetimed.localEpoch
    (h.peersLeft.same hRetimed.remote hRetimed.remoteWindow hRetimed.remoteSize)
    (hPut.forward.sender_retimed hRetimed)
    (hPut.backward.receiver_same hRetimed.config hRetimed.receive hRetimed.buffer)

theorem LinkInv.input (hf : f ∈ b.outbox) (now : Instant) : LinkInv (a.input f now) b := by
  have hInv := Engine.inv_input h.invLeft (h.honestRight.wellFormed f hf) now
  have hCases := Engine.input_cases a.engine f now
  unfold Side.input
  generalize a.engine.input f now = result at hInv hCases ⊢
  cases hCases with
  | ignored | changed | reset | badAck | badData => exact h.put nofun
  | reply => exact h.put fun g hg => .inl ⟨_, List.mem_singleton.mp hg⟩
  | acked hRemote _ => exact h.put fun g hg => .inr ⟨hRemote, .inl (List.mem_singleton.mp hg)⟩
  | pinned e' hKind _ _ hPinned =>
    obtain ⟨hWindow, hPayload⟩ := h.honestRight.opens f hf hKind
    have hSource := h.honestRight.source f hf
    have hNext : LinkInv { a with engine := e' } b := by
      refine h.advance hInv rfl hPinned.config hPinned.localEpoch ?_ ?_ ?_
      · intro _
        exact ⟨hPinned.remote.trans hSource, hPinned.remoteWindow.trans hWindow,
          hPinned.remoteSize.trans hPayload⟩
      · exact h.forward.sender_same hPinned.next hPinned.base hPinned.sent
      · exact h.backward.receiver_same hPinned.config hPinned.receive hPinned.buffer
    refine hNext.put fun g hg => ?_
    rcases List.mem_cons.mp hg with rfl | hg
    · exact .inl ⟨_, rfl⟩
    · have hRemote : e'.remote ≠ Epoch.zero := by
        rw [hPinned.remote, hSource]
        exact h.honestRight.epoch_ne
      exact .inr ⟨hRemote, .inl (List.mem_singleton.mp hg)⟩
  | settled e' hKind _ _ _ _ hSettled =>
    have hNext : LinkInv { a with engine := e' } b := by
      refine h.advance hInv rfl hSettled.config hSettled.localEpoch ?_ ?_ ?_
      · exact h.peersLeft.same hSettled.remote hSettled.remoteWindow hSettled.remoteSize
      · exact h.forward.sender_settled h.invLeft (h.forward.acks f hf) hKind hSettled
      · exact h.backward.receiver_same hSettled.config hSettled.receive hSettled.buffer
    exact hNext.put nofun
  | stored e' hKind hRemote _ _ hStored =>
    have hNext : LinkInv { a with engine := e' } b := by
      refine h.advance hInv rfl hStored.config hStored.localEpoch ?_ ?_ ?_
      · exact h.peersLeft.same hStored.remote hStored.remoteWindow hStored.remoteSize
      · exact h.forward.sender_same hStored.next hStored.base hStored.sent
      · exact h.backward.receiver_stored (h.backward.data f hf) hKind hStored
    refine hNext.put fun g hg => ?_
    exact .inr ⟨hStored.remote ▸ hRemote, .inl (List.mem_singleton.mp hg)⟩

theorem LinkInv.send (data : List UInt8) (now : Instant) : LinkInv (a.send data now) b := by
  cases hSend : (a.engine.send data now).2 with
  | error err =>
    have hEngine := Engine.send_error hSend
    have hEq : a.send data now = a := by
      unfold Side.send
      rw [show a.engine.send data now = (a.engine, .error err) from Prod.ext hEngine hSend]
    rw [hEq]
    exact h
  | ok f =>
    obtain ⟨hRemote, _, _, _, _, hFrame, hEngine⟩ := Engine.send_ok h.invLeft hSend
    have hNext : LinkInv { a with engine := (a.engine.send data now).1, accepted := a.accepted ++ [data] } b := by
      refine h.advance (Engine.inv_send h.invLeft hSend) rfl ?_ ?_ ?_ ?_ ?_
      · rw [hEngine]
      · rw [hEngine]
      · refine h.peersLeft.same ?_ ?_ ?_ <;> rw [hEngine]
      · exact h.forward.sender_send h.invLeft h.peersLeft hSend
      · refine Flow.receiver_same (r := { a with accepted := a.accepted ++ [data] }) ?_ ?_ ?_ ?_
        · exact { h.backward with }
        all_goals rw [hEngine]
    have hSaid : ∀ g ∈ [f], Emittable (a.engine.send data now).1 g := by
      intro g hg
      refine .inr ⟨?_, .inr ⟨a.engine.next, { data := data, first := now, last := now }, ?_, ?_⟩⟩
      · rw [hEngine]
        exact hRemote
      · rw [hEngine]
        exact AList.lookup_insert _
      · rw [hEngine, List.mem_singleton.mp hg, hFrame]
        rfl
    have hEq : a.send data now =
        { a with
          engine := (a.engine.send data now).1
          accepted := a.accepted ++ [data]
          outbox := a.outbox ++ [f] } := by
      unfold Side.send
      rw [show a.engine.send data now = ((a.engine.send data now).1, .ok f) from Prod.ext rfl hSend]
    rw [hEq]
    exact hNext.put hSaid

theorem LinkInv.consume (hHead : (a.engine.buffer.lookup a.engine.receive).isSome) : LinkInv a.consume b := by
  obtain ⟨d, hd⟩ := Option.isSome_iff_exists.mp hHead
  obtain ⟨hReturned, _, hAck, _⟩ := Engine.consume_eq h.invLeft hd
  have hNext : LinkInv { a with engine := a.engine.consume.1, consumed := a.consumed ++ [d] } b := by
    refine h.advance (Engine.inv_consume h.invLeft hd) rfl rfl rfl h.peersLeft ?_ ?_
    · exact { h.forward.sender_same rfl rfl rfl with }
    · exact h.backward.receiver_consume h.invLeft hd
  have hRemote : a.engine.remote ≠ Epoch.zero := h.invLeft.buffer_pinned _ _ hd
  unfold Side.consume
  rw [hReturned, hAck]
  refine hNext.put fun g hg => ?_
  exact .inr ⟨hRemote, .inl (List.mem_singleton.mp hg)⟩

theorem LinkInv.step (hStep : Side.Step b.outbox a a') : LinkInv a' b := by
  cases hStep with
  | tick now => exact h.tick now
  | input now hf => exact h.input hf now
  | send now _ _ _ => exact h.send _ now
  | consume hHead => exact h.consume hHead

end

end joint

variable {leftConfig rightConfig : Config} {leftEpoch rightEpoch : Epoch}

theorem LinkInv.start
    (hLeft : leftConfig.Valid) (hRight : rightConfig.Valid) (hLeftEpoch : leftEpoch ≠ Epoch.zero)
    (hRightEpoch : rightEpoch ≠ Epoch.zero) (leftStart rightStart : Instant) :
    LinkInv (Side.start leftConfig leftEpoch leftStart) (Side.start rightConfig rightEpoch rightStart) := by
  have hHonest : ∀ {config epoch now}, epoch ≠ Epoch.zero → Honest (Side.start config epoch now) := by
    intro config epoch now hEpoch
    exact ⟨hEpoch, nofun, nofun, nofun, nofun⟩
  have hFlow : ∀ {config config' epoch epoch' now now'},
      Flow (Side.start config epoch now) (Side.start config' epoch' now') := by
    intro config config' epoch epoch' now now'
    exact ⟨rfl, rfl, rfl, le_rfl, le_rfl, nofun, nofun, nofun, nofun, nofun, nofun⟩
  exact
    { invLeft := Engine.inv_newEngine hLeft leftEpoch leftStart
      invRight := Engine.inv_newEngine hRight rightEpoch rightStart
      honestLeft := hHonest hLeftEpoch
      honestRight := hHonest hRightEpoch
      peersLeft := fun h => absurd rfl h
      peersRight := fun h => absurd rfl h
      forward := hFlow
      backward := hFlow }

theorem link_inv {leftStart rightStart : Instant}
    (hLeft : leftConfig.validate = none) (hRight : rightConfig.validate = none)
    (hLeftEpoch : leftEpoch ≠ Epoch.zero) (hRightEpoch : rightEpoch ≠ Epoch.zero) {l : Link}
    (h : (linkSystem leftConfig rightConfig leftEpoch rightEpoch leftStart rightStart).Reachable
      l) : LinkInv l.left l.right := by
  refine h.invariant (I := fun l => LinkInv l.left l.right) ?_ ?_
  · rintro s rfl
    exact LinkInv.start ((Config.validate_eq_none_iff _).mp hLeft) ((Config.validate_eq_none_iff _).mp hRight)
      hLeftEpoch hRightEpoch leftStart rightStart
  · intro s t _ hInv hStep
    cases hStep with
    | left hStep => exact hInv.step hStep
    | right hStep => exact (hInv.symm.step hStep).symm

/-! ## Delivery and absence of protocol errors -/

def Delivers (s r : Side) : Prop :=
  r.consumed <+: s.accepted ∧
    (∀ k d, r.consumed.length ≤ k → s.accepted[k]? = some d →
      ∃ b, s.engine.sent.lookup k = some b ∧ b.data = d) ∧
    (∀ k b, s.engine.sent.lookup k = some b → b.sacked = true →
      k < r.consumed.length ∨ r.engine.buffer.lookup k = some b.data)

theorem Flow.delivers (h : Flow s r) (hInv : s.engine.Inv) : Delivers s r := by
  refine ⟨?_, ?_, ?_⟩
  · rw [h.consumed]
    exact List.take_prefix _ _
  · intro k d hk hd
    have hLow : s.engine.base ≤ k := h.base_le.trans (h.receive_eq ▸ hk)
    obtain ⟨b, hb⟩ := Option.isSome_iff_exists.mp ((hInv.held k).mpr ⟨hLow, h.accepted_lt hd⟩)
    have hData := (h.sent k b hb).symm.trans hd
    exact ⟨b, hb, Option.some.inj hData⟩
  · intro k b hb hMark
    rcases h.sacked k b hb hMark with hPast | hHeld
    · exact .inl (h.receive_eq ▸ hPast)
    · obtain ⟨d, hd⟩ := Table.mem_iff_lookup.mp hHeld
      have hData := (h.sent k b hb).symm.trans (h.buffered k d hd)
      rw [Option.some.inj hData]
      exact .inr hd

theorem LinkInv.not_badAck (h : LinkInv a b) (hf : f ∈ b.outbox) (hKind : f.kind = .ackFrame) :
    ¬ Engine.BadAck a.engine f := by
  obtain ⟨hAck, hBits⟩ := h.forward.acks f hf hKind
  have hReceive := h.forward.receive_le
  have hNext := h.invLeft.next_lt
  rintro (hBeyond | ⟨hLe, bit, _, hBit, hOutside⟩)
  · omega
  · have hSent := (hBits bit hBit).1
    rw [Word.sub_of_le hLe hNext] at hOutside
    omega

theorem LinkInv.not_badData (h : LinkInv a b) (hf : f ∈ b.outbox) (hKind : f.kind = .dataFrame) :
    ¬ Engine.BadData a.engine f := by
  obtain ⟨hData, hInside⟩ := h.backward.data f hf hKind
  have hSeq := h.backward.accepted_lt hData
  have hNext := h.invRight.next_lt
  rintro (hSize | hLast | ⟨hLow, hOutside⟩ | ⟨previous, hPrevious, hDiffers⟩)
  · have hFits := (h.backward.accepted f.data (List.mem_of_getElem? hData)).2
    omega
  · simp only [Word.greatest] at hLast
    omega
  · rw [h.invLeft.receiveWindow_word, Word.sub_of_le hLow (by omega)] at hOutside
    have hPos := h.invLeft.valid.receiveWindow_pos
    omega
  · have hSame := (h.backward.buffered f.seq previous hPrevious).symm.trans hData
    exact hDiffers (Option.some.inj hSame)

theorem LinkInv.input_ne_protocol (h : LinkInv a b) (hf : f ∈ b.outbox)
    (now : Instant) : (a.engine.input f now).2 ≠ .error .protocol := by
  have hCases := Engine.input_cases a.engine f now
  generalize a.engine.input f now = result at hCases ⊢
  cases hCases with
  | ignored | reply | pinned | acked | reset | settled | stored => exact nofun
  | changed hKind _ hRemote _ hChanged =>
    obtain ⟨hWindow, hPayload⟩ := h.honestRight.opens f hf hKind
    obtain ⟨_, hRemoteWindow, hRemoteSize⟩ := h.peersLeft hRemote
    rcases hChanged with hChanged | hChanged
    · exact absurd (hWindow.trans hRemoteWindow.symm) hChanged
    · exact absurd (hPayload.trans hRemoteSize.symm) hChanged
  | badAck hKind _ _ hBad => exact absurd hBad (h.not_badAck hf hKind)
  | badData hKind _ _ hBad => exact absurd hBad (h.not_badData hf hKind)

section results

variable (leftConfig rightConfig : Config) (leftEpoch rightEpoch : Epoch) (leftStart rightStart : Instant)

/-- Over a network that loses, repeats, delays and reorders frames, delivery holds in both directions. -/
theorem link_delivery (hLeft : leftConfig.validate = none) (hRight : rightConfig.validate = none)
    (hLeftEpoch : leftEpoch ≠ Epoch.zero) (hRightEpoch : rightEpoch ≠ Epoch.zero) (l : Link)
    (h : (linkSystem leftConfig rightConfig leftEpoch rightEpoch leftStart rightStart).Reachable l) :
    Delivers l.left l.right ∧ Delivers l.right l.left := by
  have hInv := link_inv hLeft hRight hLeftEpoch hRightEpoch h
  exact ⟨hInv.forward.delivers hInv.invLeft, hInv.backward.delivers hInv.invRight⟩

def exchange : List Turn :=
  [.left (.tick 1), .right (.input 0 2), .left (.input 0 3), .right (.input 1 4), .left (.send [7] 5),
    .right (.input 3 6), .right (.input 3 7), .right .consume, .left (.input 2 8)]

def exchangeStart : Link :=
  ⟨Side.start defaultConfig peerOpening.target 1, Side.start defaultConfig peerOpening.source 1⟩

theorem link_delivery_exchange : ∃ l, exchangeStart.play exchange = some l ∧ l.right.consumed = [[7]] ∧
    Delivers l.left l.right := by
  have hPlay : ((exchangeStart.play exchange).map fun l => l.right.consumed) = some [[7]] := by decide
  obtain ⟨l, hl, hConsumed⟩ := Option.map_eq_some_iff.mp hPlay
  have hReachable := (System.Reachable.start rfl : (linkSystem defaultConfig defaultConfig _ _ 1 1).Reachable
    exchangeStart).steps (Link.play_steps hl)
  exact ⟨l, hl, hConsumed, (link_delivery _ _ _ _ _ _ (by decide) (by decide) (by decide) (by decide) l
    hReachable).1⟩

/-- No frame of an honest peer, however old, is taken for a protocol violation, and a pinned peer is
the peer with its own parameters. -/
theorem link_no_protocol_error (hLeft : leftConfig.validate = none) (hRight : rightConfig.validate = none)
    (hLeftEpoch : leftEpoch ≠ Epoch.zero) (hRightEpoch : rightEpoch ≠ Epoch.zero) (l : Link)
    (h : (linkSystem leftConfig rightConfig leftEpoch rightEpoch leftStart rightStart).Reachable l) :
    (∀ f ∈ l.right.outbox, ∀ now, (l.left.engine.input f now).2 ≠ .error .protocol) ∧
      (∀ f ∈ l.left.outbox, ∀ now, (l.right.engine.input f now).2 ≠ .error .protocol) ∧
      Peers l.left l.right ∧ Peers l.right l.left := by
  have hInv := link_inv hLeft hRight hLeftEpoch hRightEpoch h
  exact ⟨fun f hf now => hInv.input_ne_protocol hf now, fun f hf now => hInv.symm.input_ne_protocol hf now,
    hInv.peersLeft, hInv.peersRight⟩

theorem link_no_protocol_error_exchange : ∃ l, exchangeStart.play exchange = some l ∧
    l.right.engine.remote = l.left.engine.localEpoch ∧
    ∀ f ∈ l.left.outbox, ∀ now, (l.right.engine.input f now).2 ≠ .error .protocol := by
  have hPlay : ((exchangeStart.play exchange).map fun l =>
      decide (l.right.engine.remote = l.left.engine.localEpoch)) = some true := by decide
  obtain ⟨l, hl, hPinned⟩ := Option.map_eq_some_iff.mp hPlay
  have hReachable := (System.Reachable.start rfl : (linkSystem defaultConfig defaultConfig _ _ 1 1).Reachable
    exchangeStart).steps (Link.play_steps hl)
  exact ⟨l, hl, of_decide_eq_true hPinned, (link_no_protocol_error _ _ _ _ _ _ (by decide) (by decide)
    (by decide) (by decide) l hReachable).2.1⟩

end results

end FamilyConnect.ReliableStream
