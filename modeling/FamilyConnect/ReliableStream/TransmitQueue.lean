import FamilyConnect.ReliableStream.Retransmission

/-!
# The transmit queue of `Stream.run`

The select loop of a stream: frames wait in `pending`, one at a time is with
the writer, and an ACK or OPEN replaces a queued one for the same target.
Against a single peer the queue never needs more than its capacity, since
DATA enters only an empty queue and the other frames have few lanes.
-/

namespace FamilyConnect.ReliableStream

open Lib Engine

inductive Stop where
  | engine (err : Err)
  | backpressure
  | carrier
  deriving DecidableEq

/-- A queued frame. `block` records that its block was outstanding when it was queued, `obsolete`
the channel that is closed once it no longer is. -/
structure Job where
  packet : Frame
  attempt : Nat := 0
  block : Bool := false
  obsolete : Option Nat := none
  deriving DecidableEq

structure Loop where
  engine : Engine
  completionEnabled : Bool
  pending : List Job := []
  activeData : Table Nat Job := ∅
  /-- The channels closed so far, and the number of channels made. -/
  closed : List Nat := []
  channels : Nat := 0
  /-- The frame that is with the writer. -/
  busy : Option Job := none

namespace Loop

def capacity : Nat := maxWindow + 2

def newJob (loop : Loop) (packet : Frame) : Loop × Job :=
  if packet.kind = .dataFrame then
    let job : Job :=
      match loop.engine.sent.lookup packet.seq with
      | some block => { packet := packet, attempt := block.retries, block := true }
      | none => { packet := packet }
    if loop.completionEnabled then
      let job := { job with obsolete := some loop.channels }
      ({ loop with channels := loop.channels + 1, activeData := loop.activeData.insert packet.seq job }, job)
    else (loop, job)
  else (loop, { packet := packet })

def coalesce (job : Job) : List Job → Option (List Job)
  | [] => none
  | previous :: rest =>
    if previous.packet.kind = job.packet.kind ∧ previous.packet.target = job.packet.target then some (job :: rest)
    else (coalesce job rest).map (previous :: ·)

def enqueue (loop : Loop) (packet : Frame) : Except Stop Loop :=
  let (loop, job) := loop.newJob packet
  let coalesced :=
    if packet.kind = .ackFrame ∨ packet.kind = .openFrame then coalesce job loop.pending else none
  match coalesced with
  | some pending => .ok { loop with pending := pending }
  | none =>
    if loop.pending.length = capacity then .error .backpressure
    else .ok { loop with pending := loop.pending ++ [job] }

def queue (loop : Loop) : List Frame → Except Stop Loop
  | [] => .ok loop
  | packet :: packets =>
    match loop.enqueue packet with
    | .ok loop => loop.queue packets
    | .error stop => .error stop

def isObsolete (loop : Loop) (job : Job) : Bool := job.obsolete.any (· ∈ loop.closed)

/-- The head of the loop: obsolete frames leave the front of the queue. -/
def prune (loop : Loop) : Loop := { loop with pending := loop.pending.dropWhile loop.isObsolete }

def isStale (loop : Loop) (sequence : Nat) (job : Job) : Bool :=
  match loop.engine.sent.lookup sequence with
  | none => true
  | some block => !job.block || block.sacked

def retire (loop : Loop) : Loop :=
  { loop with
    closed := loop.closed ++
      (loop.activeData.entries.filter fun entry => loop.isStale entry.1 entry.2).filterMap (·.2.obsolete)
    activeData := Table.filterMap (fun sequence job => if loop.isStale sequence job then none else some job)
      loop.activeData }

inductive Event where
  | dispatch
  | written (sent : Bool) (now : Instant)
  | write (data : List UInt8) (now : Instant)
  | read
  | incoming (raw : List UInt8) (now : Instant)
  | lost
  | tick (now : Instant)

/-- One case of the select; `none` when its channel is not enabled. -/
def react (loop : Loop) : Event → Option (Except Stop Loop)
  | .dispatch =>
    match loop.busy, loop.pending with
    | none, job :: rest => some (.ok { loop with pending := rest, busy := some job })
    | _, _ => none
  | .written sent now =>
    match loop.busy with
    | none => none
    | some job =>
      let loop := { loop with busy := none }
      let loop :=
        if loop.completionEnabled = true ∧ job.packet.kind = .dataFrame then
          { loop with
            engine :=
              if sent && job.block then loop.engine.written job.packet.seq job.attempt now else loop.engine
            activeData := loop.activeData.erase job.packet.seq }
        else loop
      if sent then some (.ok loop) else some (.error .carrier)
  | .write data now =>
    if loop.busy = none ∧ loop.pending = [] ∧ loop.engine.writable = true then
      match loop.engine.send data now with
      | (engine, .ok packet) => some ({ loop with engine := engine }.queue [packet])
      | (_, .error err) => some (.error (.engine err))
    else none
  | .read =>
    if (loop.engine.buffer.lookup loop.engine.receive).isSome then
      some ({ loop with engine := loop.engine.consume.1 }.queue [loop.engine.consume.2.2])
    else none
  | .incoming raw now =>
    match decode raw with
    | .error err => some (.error (.engine err))
    | .ok packet =>
      match loop.engine.input packet now with
      | (engine, .ok packets) => some ({ loop with engine := engine }.retire.queue packets)
      | (_, .error err) => some (.error (.engine err))
  | .lost => some (.error .carrier)
  | .tick now =>
    if loop.busy = none ∧ loop.pending = [] then
      match loop.engine.tick now with
      | (engine, .ok packets) => some ({ loop with engine := engine }.queue packets)
      | (_, .error err) => some (.error (.engine err))
    else none

def turn (loop : Loop) (event : Event) : Option (Except Stop Loop) := loop.prune.react event

def Event.From (peer : Epoch) : Event → Prop
  | .incoming raw _ => ∀ packet, decode raw = .ok packet → packet.source = peer
  | _ => True

/-! ## Lanes -/

def lane (packet : Frame) : Option (Kind × Epoch) :=
  if packet.kind = .dataFrame then none else some (packet.kind, packet.target)

def lanes (packets : List Frame) : List (Kind × Epoch) := packets.filterMap lane

def dataCount (packets : List Frame) : Nat := packets.countP (·.kind == .dataFrame)

def packets (loop : Loop) : List Frame := loop.pending.map (·.packet)

theorem length_lanes (packets : List Frame) : packets.length = (lanes packets).length + dataCount packets := by
  induction packets with
  | nil => rfl
  | cons packet rest ih =>
    simp only [lanes, dataCount] at ih ⊢
    rw [List.length_cons, ih, List.filterMap_cons, List.countP_cons, lane]
    by_cases hData : packet.kind = .dataFrame
    · simp [hData]
      omega
    · simp [hData]
      omega

@[simp] theorem lanes_append (first second : List Frame) : lanes (first ++ second) = lanes first ++ lanes second :=
  List.filterMap_append

@[simp] theorem dataCount_append (first second : List Frame) :
    dataCount (first ++ second) = dataCount first + dataCount second := List.countP_append

def Allowed (peer : Epoch) (key : Kind × Epoch) : Prop :=
  key = (.ackFrame, peer) ∨ key = (.openFrame, peer) ∨ key = (.openFrame, Epoch.zero)

structure Fits (peer : Epoch) (queued arriving : List Frame) : Prop where
  nodup : (lanes queued).Nodup
  allowed : ∀ key ∈ lanes (queued ++ arriving), Allowed peer key
  few : dataCount (queued ++ arriving) ≤ maxWindow
  apart : 0 < dataCount (queued ++ arriving) → (.openFrame, Epoch.zero) ∉ lanes (queued ++ arriving)

variable {peer : Epoch} {queued arriving : List Frame}

theorem Fits.length_le (h : Fits peer queued arriving) : queued.length ≤ capacity := by
  have hFew := h.few
  have hAllowed : ∀ key ∈ lanes queued, Allowed peer key := by
    intro key hKey
    exact h.allowed key (by rw [lanes_append]; exact List.mem_append_left _ hKey)
  rw [dataCount_append] at hFew
  rw [length_lanes, capacity]
  by_cases hData : 0 < dataCount queued
  · -- with DATA in the queue, only the two lanes of the peer are left
    have hLanes : (lanes queued).length ≤ 2 := by
      have hSub : lanes queued ⊆ [(.ackFrame, peer), (.openFrame, peer)] := by
        intro key hKey
        rcases hAllowed key hKey with rfl | rfl | rfl
        · simp
        · simp
        · refine absurd ?_ (h.apart (by rw [dataCount_append]; omega))
          rw [lanes_append]
          exact List.mem_append_left _ hKey
      exact (List.subperm_of_subset h.nodup hSub).length_le
    omega
  · have hLanes : (lanes queued).length ≤ 3 := by
      have hSub : lanes queued ⊆ [(.ackFrame, peer), (.openFrame, peer), (.openFrame, Epoch.zero)] := by
        intro key hKey
        rcases hAllowed key hKey with rfl | rfl | rfl <;> simp
      exact (List.subperm_of_subset h.nodup hSub).length_le
    simp only [maxWindow]
    omega

variable {packet : Frame} {queued' : List Frame} {job : Job}

theorem Fits.append (h : Fits peer queued (packet :: arriving))
    (hFree : ∀ key, lane packet = some key → key ∉ lanes queued) : Fits peer (queued ++ [packet]) arriving where
  nodup := by
    rw [lanes_append]
    refine h.nodup.append ?_ ?_
    · simp only [lanes, List.filterMap_cons, List.filterMap_nil]
      cases lane packet <;> simp
    · intro key hQueued hPacket
      simp only [lanes, List.filterMap_cons, List.filterMap_nil] at hPacket
      cases hLane : lane packet with
      | none =>
        rw [hLane] at hPacket
        cases hPacket
      | some key' =>
        rw [hLane, List.mem_singleton] at hPacket
        subst hPacket
        exact hFree key hLane hQueued
  allowed := by
    rw [List.append_assoc]
    exact h.allowed
  few := by
    rw [List.append_assoc]
    exact h.few
  apart := by
    rw [List.append_assoc]
    exact h.apart

theorem Fits.weaken {arriving' : List Frame} (h : Fits peer queued arriving)
    (hNodup : (lanes queued').Nodup) (hLanes : lanes (queued' ++ arriving') ⊆ lanes (queued ++ arriving))
    (hData : dataCount (queued' ++ arriving') ≤ dataCount (queued ++ arriving)) : Fits peer queued' arriving' where
  nodup := hNodup
  allowed key hKey := h.allowed key (hLanes hKey)
  few := hData.trans h.few
  apart hPos hMem := h.apart (lt_of_lt_of_le hPos hData) (hLanes hMem)

theorem sublist_tail (queued : List Frame) (packet : Frame) (arriving : List Frame) :
    (queued ++ arriving).Sublist (queued ++ packet :: arriving) :=
  (List.sublist_cons_self packet arriving).append_left queued

theorem Fits.replace (h : Fits peer queued (packet :: arriving))
    (hLanes : lanes queued' = lanes queued) (hData : dataCount queued' = dataCount queued) :
    Fits peer queued' arriving := by
  refine h.weaken (hLanes ▸ h.nodup) ?_ ?_
  · rw [lanes_append, hLanes, ← lanes_append]
    exact ((sublist_tail queued packet arriving).filterMap _).subset
  · rw [dataCount_append, hData, ← dataCount_append]
    exact (sublist_tail queued packet arriving).countP_le

theorem Fits.sublist (h : Fits peer queued arriving) (hSub : queued'.Sublist queued) :
    Fits peer queued' arriving :=
  h.weaken (h.nodup.sublist (hSub.filterMap _)) ((hSub.append_right arriving).filterMap _).subset
    (hSub.append_right arriving).countP_le

theorem Fits.arrive (h : Fits peer queued []) (hPeer : peer ≠ Epoch.zero)
    (hLanes : ∀ packet ∈ arriving, lane packet = some (.ackFrame, peer) ∨ lane packet = some (.openFrame, peer)) :
    Fits peer queued arriving := by
  have hData : dataCount arriving = 0 := by
    rw [dataCount, List.countP_eq_zero]
    intro packet hPacket hKind
    have hNone : lane packet = none := if_pos (beq_iff_eq.mp hKind)
    rcases hLanes packet hPacket with hLane | hLane <;> simp [hNone] at hLane
  have hKeys : ∀ key ∈ lanes arriving, key = (.ackFrame, peer) ∨ key = (.openFrame, peer) := by
    intro key hKey
    obtain ⟨packet, hPacket, hLane⟩ := List.mem_filterMap.mp hKey
    rcases hLanes packet hPacket with hEq | hEq
    · exact .inl (Option.some.inj (hLane.symm.trans hEq))
    · exact .inr (Option.some.inj (hLane.symm.trans hEq))
  constructor
  case nodup => exact h.nodup
  case allowed =>
    intro key hKey
    rw [lanes_append] at hKey
    rcases List.mem_append.mp hKey with hKey | hKey
    · exact h.allowed key (by rwa [List.append_nil])
    · rcases hKeys key hKey with hEq | hEq
      · exact .inl hEq
      · exact .inr (.inl hEq)
  case few =>
    rw [dataCount_append, hData]
    simpa using h.few
  case apart =>
    intro hPos hMem
    rw [dataCount_append, hData] at hPos
    rw [lanes_append] at hMem
    rcases List.mem_append.mp hMem with hMem | hMem
    · exact h.apart (by simpa using hPos) (by rwa [List.append_nil])
    · rcases hKeys _ hMem with hEq | hEq
      · cases hEq
      · exact hPeer (congrArg Prod.snd hEq).symm

/-! ## Queueing -/

theorem coalesce_some {pending pending' : List Job} (h : coalesce job pending = some pending') :
    ∃ before previous after, pending = before ++ previous :: after ∧ pending' = before ++ job :: after ∧
      previous.packet.kind = job.packet.kind ∧ previous.packet.target = job.packet.target := by
  induction pending generalizing pending' with
  | nil => cases h
  | cons head rest ih =>
    rw [coalesce] at h
    split at h
    · rename_i hSame
      cases h
      exact ⟨[], head, rest, rfl, rfl, hSame.1, hSame.2⟩
    · obtain ⟨rest', hRest, rfl⟩ := Option.map_eq_some_iff.mp h
      obtain ⟨before, previous, after, rfl, rfl, hKind, hTarget⟩ := ih hRest
      exact ⟨head :: before, previous, after, rfl, rfl, hKind, hTarget⟩

theorem coalesce_none {pending : List Job} (h : coalesce job pending = none) :
    ∀ previous ∈ pending,
      ¬(previous.packet.kind = job.packet.kind ∧ previous.packet.target = job.packet.target) := by
  induction pending with
  | nil => exact List.forall_mem_nil _
  | cons head rest ih =>
    rw [coalesce] at h
    split at h
    · cases h
    · rename_i hOther
      exact List.forall_mem_cons.mpr ⟨hOther, ih (Option.map_eq_none_iff.mp h)⟩

structure Queued (loop loop' : Loop) (packet : Frame) (job : Job) : Prop where
  engine : loop'.engine = loop.engine
  busy : loop'.busy = loop.busy
  packet_eq : job.packet = packet
  plain : packet.kind ≠ .dataFrame → job.obsolete = none
  pending : loop'.pending = loop.pending ++ [job] ∨
    packet.kind ≠ .dataFrame ∧ ∃ before previous after, loop.pending = before ++ previous :: after ∧
      loop'.pending = before ++ job :: after ∧ previous.packet.kind = packet.kind ∧
      previous.packet.target = packet.target

theorem newJob_spec (loop : Loop) (packet : Frame) :
    (loop.newJob packet).1.engine = loop.engine ∧ (loop.newJob packet).1.busy = loop.busy ∧
      (loop.newJob packet).1.pending = loop.pending ∧ (loop.newJob packet).2.packet = packet ∧
      (packet.kind ≠ .dataFrame → (loop.newJob packet).2.obsolete = none) := by
  unfold newJob
  split
  · rename_i hData
    split <;> split <;> exact ⟨rfl, rfl, rfl, rfl, fun hKind => absurd hData hKind⟩
  · exact ⟨rfl, rfl, rfl, rfl, fun _ => rfl⟩

variable {loop loop' : Loop} {changed : Loop} {e : Engine}

theorem enqueue_fits (h : Fits peer loop.packets (packet :: arriving)) :
    ∃ loop' job, loop.enqueue packet = .ok loop' ∧ Queued loop loop' packet job ∧
      Fits peer loop'.packets arriving := by
  obtain ⟨hEngine, hBusy, hPending, hPacket, hPlain⟩ := newJob_spec loop packet
  -- a frame that finds its lane free goes to the end, and the queue is not full
  have hAppend : (∀ key, lane packet = some key → key ∉ lanes loop.packets) →
      (loop.newJob packet).1.pending.length ≠ capacity ∧
        Queued loop { (loop.newJob packet).1 with
          pending := (loop.newJob packet).1.pending ++ [(loop.newJob packet).2] } packet (loop.newJob packet).2 ∧
        Fits peer (Loop.packets { (loop.newJob packet).1 with
          pending := (loop.newJob packet).1.pending ++ [(loop.newJob packet).2] }) arriving := by
    intro hFree
    have hFits := h.append hFree
    have hLength := hFits.length_le
    refine ⟨?_, ⟨hEngine, hBusy, hPacket, hPlain, .inl (by rw [hPending])⟩, ?_⟩
    · rw [List.length_append, List.length_singleton, packets, List.length_map] at hLength
      rw [hPending]
      omega
    · simp only [packets, List.map_append, List.map_cons, List.map_nil, hPacket, hPending] at hFits ⊢
      exact hFits
  unfold enqueue
  dsimp only
  by_cases hData : packet.kind = .dataFrame
  · obtain ⟨hRoom, hQueued, hFits⟩ := hAppend fun key hKey => by simp [lane, hData] at hKey
    rw [if_neg (by rw [hData]; decide)]
    rw [if_neg hRoom]
    exact ⟨_, _, rfl, hQueued, hFits⟩
  · have hLane : lane packet = some (packet.kind, packet.target) := if_neg hData
    have hKind : packet.kind = .ackFrame ∨ packet.kind = .openFrame := by
      have hMem : (packet.kind, packet.target) ∈ lanes (loop.packets ++ packet :: arriving) :=
        List.mem_filterMap.mpr ⟨packet, List.mem_append_right _ (.head _), hLane⟩
      rcases h.allowed _ hMem with hEq | hEq | hEq
      · exact .inl (congrArg Prod.fst hEq)
      · exact .inr (congrArg Prod.fst hEq)
      · exact .inr (congrArg Prod.fst hEq)
    rw [if_pos hKind, hPending]
    cases hCoalesce : coalesce (loop.newJob packet).2 loop.pending with
    | some pending' =>
      obtain ⟨before, previous, after, hOld, rfl, hSameKind, hSameTarget⟩ := coalesce_some hCoalesce
      rw [hPacket] at hSameKind hSameTarget
      refine ⟨_, _, rfl, ⟨hEngine, hBusy, hPacket, hPlain, .inr ⟨hData, before, previous, after, hOld, rfl,
        hSameKind, hSameTarget⟩⟩, ?_⟩
      have hPrevious : lane previous.packet = lane packet := by rw [lane, lane, hSameKind, hSameTarget]
      apply h.replace
      · simp only [packets, hOld, lanes, List.map_append, List.map_cons, List.filterMap_append,
          List.filterMap_cons, hPacket, hPrevious]
      · simp only [packets, hOld, dataCount, List.map_append, List.map_cons, List.countP_append,
          List.countP_cons, hPacket, hSameKind]
    | none =>
      have hNone := coalesce_none hCoalesce
      rw [hPacket] at hNone
      obtain ⟨hRoom, hQueued, hFits⟩ := hAppend (by
        intro key hKey hMem
        obtain ⟨other, hOther, hEq⟩ := List.mem_filterMap.mp hMem
        obtain ⟨previous, hPrevious, rfl⟩ := List.mem_map.mp hOther
        rw [← hKey, hLane] at hEq
        unfold lane at hEq
        split at hEq
        · cases hEq
        · have hPair := Option.some.inj hEq
          exact hNone previous hPrevious ⟨congrArg Prod.fst hPair, congrArg Prod.snd hPair⟩)
      rw [hPending] at hRoom hQueued hFits
      rw [if_neg hRoom]
      exact ⟨_, _, rfl, hQueued, hFits⟩

def Supersedes (job' job : Job) : Prop :=
  job' = job ∨ job'.packet.kind = .ackFrame ∧ job'.packet.target = job.packet.target ∧
    job.packet.ack ≤ job'.packet.ack

theorem Supersedes.trans {first second third : Job} (h : Supersedes third second)
    (h' : Supersedes second first) : Supersedes third first := by
  rcases h with rfl | ⟨hKind, hTarget, hAck⟩
  · exact h'
  · rcases h' with rfl | ⟨_, hTarget', hAck'⟩
    · exact .inr ⟨hKind, hTarget, hAck⟩
    · exact .inr ⟨hKind, hTarget.trans hTarget', hAck'.trans hAck⟩

/-- Every queued ACK of `before` is still in `after`, or a later one in its place. -/
def KeepsAcks (before after : List Job) : Prop :=
  ∀ job ∈ before, job.packet.kind = .ackFrame → ∃ job' ∈ after, Supersedes job' job

theorem KeepsAcks.refl (pending : List Job) : KeepsAcks pending pending :=
  fun job hJob _ => ⟨job, hJob, .inl rfl⟩

theorem KeepsAcks.trans {first second third : List Job} (h : KeepsAcks first second)
    (h' : KeepsAcks second third) : KeepsAcks first third := by
  intro job hJob hKind
  obtain ⟨job', hJob', hSuper⟩ := h job hJob hKind
  have hKind' : job'.packet.kind = .ackFrame := by
    rcases hSuper with rfl | ⟨hKind', _⟩
    · exact hKind
    · exact hKind'
  obtain ⟨job'', hJob'', hSuper'⟩ := h' job' hJob' hKind'
  exact ⟨job'', hJob'', hSuper'.trans hSuper⟩

structure Ready (peer : Epoch) (loop : Loop) (arriving : List Frame) : Prop where
  fits : Fits peer loop.packets arriving
  acks : ∀ job ∈ loop.pending, job.packet.kind = .ackFrame → job.packet.ack ≤ loop.engine.receive
  plain : ∀ job ∈ loop.pending, job.packet.kind ≠ .dataFrame → job.obsolete = none
  current : ∀ packet ∈ arriving, packet.kind = .ackFrame → packet.ack = loop.engine.receive

theorem enqueue_ready (h : Ready peer loop (packet :: arriving)) :
    ∃ loop', loop.enqueue packet = .ok loop' ∧ Ready peer loop' arriving ∧ loop'.engine = loop.engine ∧
      loop'.busy = loop.busy ∧ KeepsAcks loop.pending loop'.pending := by
  obtain ⟨loop', job, hOk, hQueued, hFits⟩ := enqueue_fits h.fits
  have hCurrent := h.current packet (.head _)
  have hMem : ∀ other ∈ loop'.pending, other ∈ loop.pending ∨ other = job := by
    intro other hOther
    rcases hQueued.pending with hEnd | ⟨_, before, previous, after, hOld, hNew, _, _⟩
    · rw [hEnd, List.mem_append, List.mem_singleton] at hOther
      exact hOther
    · rw [hNew] at hOther
      rw [hOld]
      simp only [List.mem_append, List.mem_cons] at hOther ⊢
      tauto
  refine ⟨loop', hOk, ⟨hFits, ?_, ?_, ?_⟩, hQueued.engine, hQueued.busy, ?_⟩
  · intro other hOther hKind
    rw [hQueued.engine]
    rcases hMem other hOther with hOld | rfl
    · exact h.acks other hOld hKind
    · rw [hQueued.packet_eq] at hKind ⊢
      exact (hCurrent hKind).le
  · intro other hOther hKind
    rcases hMem other hOther with hOld | rfl
    · exact h.plain other hOld hKind
    · rw [hQueued.packet_eq] at hKind
      exact hQueued.plain hKind
  · rw [hQueued.engine]
    exact fun other hOther => h.current other (.tail _ hOther)
  · intro other hOther hKind
    rcases hQueued.pending with hEnd | ⟨_, before, previous, after, hOld, hNew, hSameKind, hSameTarget⟩
    · rw [hEnd]
      exact ⟨other, List.mem_append_left _ hOther, .inl rfl⟩
    · rw [hNew]
      rw [hOld] at hOther
      simp only [List.mem_append, List.mem_cons] at hOther ⊢
      rcases hOther with hOther | rfl | hOther
      · exact ⟨other, .inl hOther, .inl rfl⟩
      · -- the replaced frame is an ACK, and the new one carries the present value
        have hAck : packet.kind = .ackFrame := hSameKind.symm.trans hKind
        refine ⟨job, .inr (.inl rfl), .inr ⟨?_, ?_, ?_⟩⟩
        · rw [hQueued.packet_eq]
          exact hAck
        · rw [hQueued.packet_eq]
          exact hSameTarget.symm
        · rw [hQueued.packet_eq, hCurrent hAck]
          exact h.acks other (by rw [hOld]; simp) hKind
      · exact ⟨other, .inr (.inr hOther), .inl rfl⟩

theorem queue_ready (h : Ready peer loop arriving) :
    ∃ loop', loop.queue arriving = .ok loop' ∧ Ready peer loop' [] ∧ loop'.engine = loop.engine ∧
      loop'.busy = loop.busy ∧ KeepsAcks loop.pending loop'.pending := by
  induction arriving generalizing loop with
  | nil => exact ⟨loop, rfl, h, rfl, rfl, KeepsAcks.refl _⟩
  | cons packet rest ih =>
    obtain ⟨next, hNext, hReady, hEngine, hBusy, hKeeps⟩ := enqueue_ready h
    obtain ⟨loop', hRest, hReady', hEngine', hBusy', hKeeps'⟩ := ih hReady
    refine ⟨loop', ?_, hReady', hEngine'.trans hEngine, hBusy'.trans hBusy, hKeeps.trans hKeeps'⟩
    rw [queue, hNext]
    exact hRest

/-! ## One turn -/

structure Inv (peer : Epoch) (loop : Loop) : Prop where
  engine : loop.engine.Inv
  remote : loop.engine.remote ≠ Epoch.zero → loop.engine.remote = peer
  ready : Ready peer loop []

theorem Ready.mem_prune (h : Ready peer loop []) (hJob : job ∈ loop.pending)
    (hKind : job.packet.kind = .ackFrame) : job ∈ loop.prune.pending := by
  have hPlain := h.plain job hJob (by rw [hKind]; decide)
  rw [← List.takeWhile_append_dropWhile (p := loop.isObsolete) (l := loop.pending)] at hJob
  rcases List.mem_append.mp hJob with hDropped | hKept
  · have hObsolete := List.mem_takeWhile_imp hDropped
    rw [isObsolete, hPlain] at hObsolete
    cases hObsolete
  · exact hKept

theorem Ready.shrink (h : Ready peer loop []) (hSub : loop'.pending.Sublist loop.pending)
    (hReceive : loop'.engine.receive = loop.engine.receive) : Ready peer loop' [] where
  fits := h.fits.sublist (hSub.map _)
  acks job hJob hKind := by
    rw [hReceive]
    exact h.acks job (hSub.subset hJob) hKind
  plain job hJob := h.plain job (hSub.subset hJob)
  current := List.forall_mem_nil _

theorem Inv.prune (h : loop.Inv peer) : loop.prune.Inv peer :=
  ⟨h.engine, h.remote, h.ready.shrink (List.dropWhile_sublist _) rfl⟩

structure Turned (peer : Epoch) (loop loop' : Loop) : Prop where
  inv : loop'.Inv peer
  acks : ∀ job ∈ loop.pending, job.packet.kind = .ackFrame →
    loop'.busy = some job ∨ ∃ job' ∈ loop'.pending, Supersedes job' job

theorem turned_queue {engine : Engine} (hPending : changed.pending = loop.pending)
    (hEngine : changed.engine = engine) (hInv : engine.Inv)
    (hRemote : engine.remote ≠ Epoch.zero → engine.remote = peer) (hReady : Ready peer changed arriving) :
    ∃ loop', changed.queue arriving = .ok loop' ∧ Turned peer loop loop' := by
  obtain ⟨loop', hOk, hReady', hSame, _, hKeeps⟩ := queue_ready hReady
  rw [hEngine] at hSame
  refine ⟨loop', hOk, ⟨hSame ▸ hInv, hSame ▸ hRemote, hReady'⟩, ?_⟩
  intro job hJob hKind
  exact .inr (hKeeps job (hPending ▸ hJob) hKind)

def Good (peer : Epoch) (loop : Loop) (outcome : Option (Except Stop Loop)) : Prop :=
  outcome ≠ some (.error .backpressure) ∧ ∀ loop', outcome = some (.ok loop') → Turned peer loop loop'

theorem Good.ok (h : Turned peer loop loop') : Good peer loop (some (.ok loop')) := by
  constructor
  · rintro ⟨⟩
  · rintro _ ⟨⟩
    exact h

theorem Good.error {stop : Stop} (h : stop ≠ .backpressure) : Good peer loop (some (.error stop)) := by
  constructor
  · rintro ⟨⟩
    exact h rfl
  · rintro _ ⟨⟩

theorem Good.none : Good peer loop none := by
  constructor
  · rintro ⟨⟩
  · rintro _ ⟨⟩

theorem Good.of_queue {outcome : Except Stop Loop} (h : ∃ loop', outcome = .ok loop' ∧ Turned peer loop loop') :
    Good peer loop (some outcome) := by
  obtain ⟨loop', rfl, hTurned⟩ := h
  exact Good.ok hTurned

theorem good_dispatch (h : loop.Inv peer) : Good peer loop (loop.react .dispatch) := by
  rw [react]
  split
  · rename_i job rest _ hPending
    have hSub : rest.Sublist loop.pending := by
      rw [hPending]
      exact List.sublist_cons_self _ _
    refine Good.ok ⟨⟨h.engine, h.remote, h.ready.shrink hSub rfl⟩, ?_⟩
    intro other hOther _
    rw [hPending] at hOther
    rcases List.mem_cons.mp hOther with rfl | hOther
    · exact .inl rfl
    · exact .inr ⟨other, hOther, .inl rfl⟩
  · exact Good.none

theorem good_written (h : loop.Inv peer) (sent : Bool) (now : Instant) :
    Good peer loop (loop.react (.written sent now)) := by
  rw [react]
  split
  · exact Good.none
  rename_i job _
  dsimp only
  have hKept : ∀ (e : Engine) (active : Table Nat Job), Retimed loop.engine e →
      Turned peer loop { loop with engine := e, activeData := active, busy := none } := by
    intro e active hRetimed
    refine ⟨⟨inv_retimed h.engine hRetimed, ?_, h.ready.shrink (List.Sublist.refl _) hRetimed.receive⟩, ?_⟩
    · rw [hRetimed.remote]
      exact h.remote
    · exact fun other hOther _ => .inr ⟨other, hOther, .inl rfl⟩
  split
  · split
    · refine Good.ok (hKept _ _ ?_)
      split
      · exact written_retimed _ _ _ _
      · exact Retimed.refl _
    · exact Good.ok (hKept _ _ (Retimed.refl _))
  · exact Good.error (by decide)

theorem good_write (h : loop.Inv peer) (data : List UInt8) (now : Instant) :
    Good peer loop (loop.react (.write data now)) := by
  rw [react]
  split
  · rename_i hGuard
    obtain ⟨_, hEmpty, _⟩ := hGuard
    cases hSend : loop.engine.send data now with
    | mk engine result =>
      cases result with
      | error err => exact Good.error nofun
      | ok packet =>
        have hOk : (loop.engine.send data now).2 = .ok packet := by rw [hSend]
        obtain ⟨_, _, _, _, _, hPacket, hEq⟩ := send_ok h.engine hOk
        have hInv := inv_send h.engine hOk
        rw [hSend] at hEq hInv
        dsimp only at hEq hInv
        have hData : packet.kind = .dataFrame := by rw [hPacket]; rfl
        refine Good.of_queue (turned_queue rfl rfl hInv ?_ ?_)
        · rw [hEq]
          exact h.remote
        · refine ⟨?_, ?_, ?_, ?_⟩
          · simp only [packets, hEmpty, List.map_nil]
            constructor <;> simp [lanes, lane, dataCount, hData, maxWindow]
          · rw [hEmpty]
            exact List.forall_mem_nil _
          · rw [hEmpty]
            exact List.forall_mem_nil _
          · intro other hOther hKind
            rw [List.mem_singleton.mp hOther, hData] at hKind
            cases hKind
  · exact Good.none

def Reply (peer : Epoch) (e : Engine) (packet : Frame) : Prop :=
  lane packet = some (.ackFrame, peer) ∧ packet.ack = e.receive ∨ lane packet = some (.openFrame, peer)

theorem reply_ack (h : e.remote = peer) : Reply peer e e.ack := by
  refine .inl ⟨?_, rfl⟩
  rw [← h]
  rfl

theorem reply_opening (e : Engine) (peer : Epoch) : Reply peer e (e.opening peer) := .inr rfl

theorem Ready.reply (h : Ready peer loop []) (hPeer : peer ≠ Epoch.zero)
    (hPending : changed.pending = loop.pending) (hReceive : loop.engine.receive ≤ changed.engine.receive)
    (hReplies : ∀ packet ∈ arriving, Reply peer changed.engine packet) : Ready peer changed arriving where
  fits := by
    have hPackets : changed.packets = loop.packets := by rw [packets, packets, hPending]
    rw [hPackets]
    apply h.fits.arrive hPeer
    intro packet hPacket
    exact (hReplies packet hPacket).imp And.left id
  acks job hJob hKind := (h.acks job (hPending ▸ hJob) hKind).trans hReceive
  plain job hJob := h.plain job (hPending ▸ hJob)
  current packet hPacket hKind := by
    rcases hReplies packet hPacket with ⟨_, hAck⟩ | hLane
    · exact hAck
    · rw [lane, hKind] at hLane
      cases hLane

theorem good_read (h : loop.Inv peer) : Good peer loop (loop.react .read) := by
  rw [react]
  split
  · rename_i hHead
    obtain ⟨data, hData⟩ := Option.isSome_iff_exists.mp hHead
    obtain ⟨_, _, hAck, hEq⟩ := consume_eq h.engine hData
    have hPinned := h.engine.buffer_pinned _ _ hData
    have hRemote := h.remote hPinned
    have hSame : loop.engine.consume.1.remote = loop.engine.remote := by rw [hEq]
    have hReceive : loop.engine.receive ≤ loop.engine.consume.1.receive := by
      rw [hEq]
      exact Nat.le_succ _
    refine Good.of_queue (turned_queue rfl rfl (inv_consume h.engine hData) ?_ ?_)
    · intro _
      exact hSame.trans hRemote
    · rw [hAck]
      exact h.ready.reply (hRemote ▸ hPinned) rfl hReceive
        (List.forall_mem_singleton.mpr (reply_ack (hSame.trans hRemote)))
  · exact Good.none

variable {now : Instant} {frames : List Frame} {event : Event}

theorem input_replies {f : Frame}
    (hRemote : e.remote ≠ Epoch.zero → e.remote = peer) (hSource : f.source = peer)
    (hOk : (e.input f now).2 = .ok frames) :
    ((e.input f now).1.remote ≠ Epoch.zero → (e.input f now).1.remote = peer) ∧
      (e.input f now).1.receive = e.receive ∧ ∀ packet ∈ frames, Reply peer (e.input f now).1 packet := by
  have hCases := input_cases e f now
  generalize e.input f now = result at hCases hOk ⊢
  cases hCases with
  | ignored =>
    cases hOk
    exact ⟨hRemote, rfl, List.forall_mem_nil _⟩
  | reply =>
    cases hOk
    rw [hSource]
    exact ⟨hRemote, rfl, List.forall_mem_singleton.mpr (reply_opening e peer)⟩
  | pinned e' _ _ _ hPinned =>
    cases hOk
    have hPeer : e'.remote = peer := hPinned.remote.trans hSource
    rw [hSource]
    refine ⟨fun _ => hPeer, hPinned.receive, List.forall_mem_cons.mpr ⟨reply_opening e' peer, ?_⟩⟩
    exact List.forall_mem_singleton.mpr (reply_ack hPeer)
  | acked hPinned =>
    cases hOk
    exact ⟨hRemote, rfl, List.forall_mem_singleton.mpr (reply_ack (hRemote hPinned))⟩
  | settled e' _ _ _ _ _ hSettled =>
    cases hOk
    refine ⟨?_, hSettled.receive, List.forall_mem_nil _⟩
    rw [hSettled.remote]
    exact hRemote
  | stored e' _ hPinned _ _ hStored =>
    cases hOk
    have hPeer : e'.remote = peer := hStored.remote.trans (hRemote hPinned)
    exact ⟨fun _ => hPeer, hStored.receive, List.forall_mem_singleton.mpr (reply_ack hPeer)⟩
  | changed | reset | badAck | badData => cases hOk

theorem good_incoming (h : loop.Inv peer) {raw : List UInt8}
    (hFrom : Event.From peer (.incoming raw now)) : Good peer loop (loop.react (.incoming raw now)) := by
  rw [react]
  cases hDecode : decode raw with
  | error err => exact Good.error nofun
  | ok packet =>
    have hSource : packet.source = peer := hFrom packet hDecode
    have hFrame := decode_wellFormed hDecode
    dsimp only
    cases hInput : loop.engine.input packet now with
    | mk engine result =>
      cases result with
      | error err => exact Good.error nofun
      | ok frames =>
        have hInv := inv_input h.engine hFrame now
        obtain ⟨hRemote, hReceive, hReplies⟩ := input_replies h.remote hSource
          (show (loop.engine.input packet now).2 = .ok frames by rw [hInput])
        rw [hInput] at hInv hRemote hReceive hReplies
        refine Good.of_queue (turned_queue rfl rfl hInv hRemote ?_)
        exact h.ready.reply (hSource ▸ hFrame.source_ne) rfl hReceive.ge hReplies

theorem dataCount_eq (frames : List Frame) : dataCount frames = (dataSeqs frames).length := by
  rw [dataCount, dataSeqs, List.length_map, List.countP_eq_length_filter]

theorem tick_dataCount (h : e.Inv)
    (hTick : (e.tick now).2 = .ok frames) : dataCount frames ≤ maxWindow := by
  obtain ⟨emitted, hNodup, hPass, hFrames⟩ := tick_pass h.valid hTick
  have hSub : emitted ⊆ List.range' e.base (e.next - e.base) := by
    intro k hk
    obtain ⟨b, _, hb, _, _⟩ := hPass.resent k hk
    have hHeld := (h.held k).mp (by rw [hb]; rfl)
    rw [List.mem_range'_1]
    omega
  have hLength := (List.subperm_of_subset hNodup hSub).length_le
  have hWindow := h.window_send
  have hMost := h.valid.sendWindow_le
  rw [List.length_range'] at hLength
  rw [dataCount_eq, hFrames, maxWindow]
  omega

theorem good_tick (h : loop.Inv peer) (now : Instant) : Good peer loop (loop.react (.tick now)) := by
  rw [react]
  split
  · rename_i hGuard
    cases hTick : loop.engine.tick now with
    | mk engine result =>
      cases result with
      | error err => exact Good.error nofun
      | ok frames =>
        have hOk : (loop.engine.tick now).2 = .ok frames := by rw [hTick]
        obtain ⟨hRetimed, hFrames⟩ := tick_spec loop.engine now
        have hFrames := hFrames frames hOk
        have hInv := inv_retimed h.engine hRetimed
        have hFew := tick_dataCount h.engine hOk
        rw [hTick] at hRetimed hInv
        have hEmpty : loop.pending = [] := hGuard.2
        refine Good.of_queue (turned_queue rfl rfl hInv ?_ ?_)
        · rw [hRetimed.remote]
          exact h.remote
        refine ⟨⟨?_, ?_, ?_, ?_⟩, ?_, ?_, ?_⟩
        · simp [packets, hEmpty, lanes]
        · intro key hKey
          rw [packets, hEmpty, List.map_nil, List.nil_append] at hKey
          obtain ⟨packet, hPacket, hLane⟩ := List.mem_filterMap.mp hKey
          rcases hFrames packet hPacket with ⟨_, rfl⟩ | ⟨hPinned, rfl | ⟨seq, b, _, rfl⟩⟩
          · exact .inr (.inr (Option.some.inj hLane).symm)
          · rcases reply_ack (h.remote hPinned) with ⟨hAck, _⟩ | hOpen
            · exact .inl (Option.some.inj (hLane.symm.trans hAck))
            · exact .inr (.inl (Option.some.inj (hLane.symm.trans hOpen)))
          · cases hLane
        · simpa [packets, hEmpty] using hFew
        · -- a tick emits the opening to nobody only while no block can be outstanding
          rw [packets, hEmpty, List.map_nil, List.nil_append]
          intro hPos hMem
          obtain ⟨packet, hPacket, hLane⟩ := List.mem_filterMap.mp hMem
          obtain ⟨other, hOther, hKind⟩ := List.countP_pos_iff.mp hPos
          rcases hFrames packet hPacket with ⟨hUnpinned, _⟩ | ⟨_, rfl | ⟨seq, b, _, rfl⟩⟩
          · rcases hFrames other hOther with ⟨_, rfl⟩ | ⟨hPinned, _⟩
            · cases hKind
            · exact hPinned hUnpinned
          · cases hLane
          · cases hLane
        · rw [hEmpty]
          exact List.forall_mem_nil _
        · rw [hEmpty]
          exact List.forall_mem_nil _
        · intro packet hPacket hKind
          rw [hRetimed.receive]
          rcases hFrames packet hPacket with ⟨_, rfl⟩ | ⟨_, rfl | ⟨seq, b, _, rfl⟩⟩
          · cases hKind
          · rfl
          · cases hKind
  · exact Good.none

theorem good_react (h : loop.Inv peer) (hFrom : event.From peer) : Good peer loop (loop.react event) := by
  cases event with
  | dispatch => exact good_dispatch h
  | written sent now => exact good_written h sent now
  | write data now => exact good_write h data now
  | read => exact good_read h
  | incoming raw now => exact good_incoming h hFrom
  | lost => exact Good.error (by decide)
  | tick now => exact good_tick h now

theorem good_turn (h : loop.Inv peer) (hFrom : event.From peer) : Good peer loop (loop.turn event) := by
  obtain ⟨hNot, hTurned⟩ := good_react h.prune hFrom
  refine ⟨hNot, ?_⟩
  intro loop' hOk
  obtain ⟨hInv, hAcks⟩ := hTurned loop' hOk
  exact ⟨hInv, fun job hJob hKind => hAcks job (h.ready.mem_prune hJob hKind) hKind⟩

end Loop

def loopSystem (config : Config) (localEpoch : Epoch) (started : Instant) (completionEnabled : Bool)
    (peer : Epoch) : System Loop where
  initial loop :=
    loop = { engine := newEngine config localEpoch started, completionEnabled := completionEnabled }
  step loop loop' := ∃ event : Loop.Event, event.From peer ∧ loop.turn event = some (.ok loop')

theorem loop_inv {config : Config} (hValid : config.validate = none) {localEpoch : Epoch} {started : Instant}
    {completionEnabled : Bool} {peer : Epoch} {loop : Loop}
    (h : (loopSystem config localEpoch started completionEnabled peer).Reachable loop) : loop.Inv peer := by
  refine h.invariant ?_ ?_
  · rintro loop rfl
    refine ⟨inv_newEngine ((Config.validate_eq_none_iff config).mp hValid) localEpoch started, ?_, ?_⟩
    · exact fun hRemote => absurd rfl hRemote
    · refine ⟨⟨List.nodup_nil, List.forall_mem_nil _, Nat.zero_le _, ?_⟩, List.forall_mem_nil _,
        List.forall_mem_nil _, List.forall_mem_nil _⟩
      exact fun hPos => absurd hPos (lt_irrefl 0)
  · rintro loop loop' _ hInv ⟨event, hFrom, hTurn⟩
    exact ((Loop.good_turn hInv hFrom).2 loop' hTurn).inv

/-- Against a single peer the queue stays within its capacity and never fails for want of room; a
queued ACK stays, goes to the writer, or gives its place to one that acknowledges at least as much. -/
theorem transmit_queue_bounded (config : Config) (hValid : config.validate = none) (localEpoch : Epoch)
    (started : Instant) (completionEnabled : Bool) (peer : Epoch) (loop : Loop)
    (h : (loopSystem config localEpoch started completionEnabled peer).Reachable loop) :
    loop.pending.length ≤ maxWindow + 2 ∧
      (∀ event : Loop.Event, event.From peer → loop.turn event ≠ some (.error .backpressure)) ∧
      (∀ (event : Loop.Event) (loop' : Loop), event.From peer → loop.turn event = some (.ok loop') →
        ∀ job ∈ loop.pending, job.packet.kind = .ackFrame →
          job ∈ loop'.pending ∨ loop'.busy = some job ∨
            ∃ job' ∈ loop'.pending, job'.packet.kind = .ackFrame ∧
              job'.packet.target = job.packet.target ∧ job.packet.ack ≤ job'.packet.ack) := by
  have hInv := loop_inv hValid h
  refine ⟨?_, ?_, ?_⟩
  · have hLength := hInv.ready.fits.length_le
    rwa [Loop.packets, List.length_map] at hLength
  · exact fun event hFrom => (Loop.good_turn hInv hFrom).1
  · intro event loop' hFrom hTurn job hJob hKind
    rcases ((Loop.good_turn hInv hFrom).2 loop' hTurn).acks job hJob hKind with hBusy | ⟨job', hJob', hSuper⟩
    · exact .inr (.inl hBusy)
    · rcases hSuper with rfl | hLater
      · exact .inl hJob'
      · exact .inr (.inr ⟨job', hJob', hLater⟩)

theorem transmit_queue_bounded_opened : ∃ loop,
    (loopSystem defaultConfig ⟨List.replicate 16 1, rfl⟩ 1 true peerOpening.source).Reachable loop ∧
      loop.pending.map (·.packet.kind) = [.openFrame, .ackFrame] ∧
      ∀ event : Loop.Event, event.From peerOpening.source → loop.turn event ≠ some (.error .backpressure) := by
  let start : Loop := { engine := newEngine defaultConfig ⟨List.replicate 16 1, rfl⟩ 1, completionEnabled := true }
  let arrival : Loop.Event := .incoming (encode peerOpening) 2
  have hDecode : decode (encode peerOpening) = .ok peerOpening := by decide +kernel
  have hFrom : arrival.From peerOpening.source := by
    intro packet hPacket
    cases hDecode.symm.trans hPacket
    rfl
  have hKinds : (start.turn arrival).map (·.toOption.map (·.pending.map (·.packet.kind))) =
      some (some [.openFrame, .ackFrame]) := by decide +kernel
  obtain ⟨outcome, hTurn, hOutcome⟩ := Option.map_eq_some_iff.mp hKinds
  obtain ⟨loop, hLoop, hPending⟩ := Option.map_eq_some_iff.mp hOutcome
  cases outcome with
  | error stop => cases hLoop
  | ok next =>
    cases hLoop
    have hReach : (loopSystem defaultConfig ⟨List.replicate 16 1, rfl⟩ 1 true peerOpening.source).Reachable loop :=
      .next (.start rfl) ⟨arrival, hFrom, hTurn⟩
    exact ⟨loop, hReach, hPending, (transmit_queue_bounded _ (by decide) _ _ _ _ _ hReach).2.1⟩

end FamilyConnect.ReliableStream
