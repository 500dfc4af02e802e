import FamilyConnect.TCPForward.Scheduler

/-!
# Turns of the streams

The two passes of the scheduler share one cursor. When the pass for priority
frames stops at a stream, the cursor can jump over a stream whose turn has not
come. As long as it does not, data frames go round.
-/

namespace FamilyConnect.TCPForward

open Lib Relation

def Grants (id : Nat) (e : Mux.Source × Frame) : Prop := e.1 = .queue id ∧ e.2.kind = .dataFrame

instance (id : Nat) (e : Mux.Source × Frame) : Decidable (Grants id e) :=
  inferInstanceAs (Decidable (e.1 = .queue id ∧ e.2.kind = .dataFrame))

def turns (id : Nat) (entries : List (Mux.Source × Frame)) : Nat := (entries.filter fun e => Grants id e).length

theorem turns_append (id : Nat) (entries entries' : List (Mux.Source × Frame)) :
    turns id (entries ++ entries') = turns id entries + turns id entries' := by
  rw [turns, List.filter_append, List.length_append]
  rfl

theorem turns_of_not_grants {id : Nat} {e : Mux.Source × Frame} (h : ¬Grants id e) : turns id [e] = 0 := by
  simp [turns, h]

namespace Mux

variable {m m' : Mux} {id cursor burst : Nat} {s : Stream} {frame : Frame} {source : Source}

theorem source_of_data (hOffer : m.offer true id = some (s, frame))
    (hLeaves : Leaves m source frame ({ m with cursor := cursor, priorityBurst := burst }.put id s)) :
    source = .queue id ∧ frame.kind = .dataFrame := by
  obtain ⟨s₀, hLookup, ⟨hSend, hKind⟩ | ⟨hFalse, _⟩⟩ := offer_some hOffer
  · refine ⟨(hLeaves.source_eq ?_).symm, of_decide_eq_true hKind.symm⟩
    simp [contents, put, (object_of_lookup hLookup).2, hSend]
  · cases hFalse

theorem source_of_control {rest : List Frame} (hControl : m.control = frame :: rest)
    (hLeaves : Leaves m source frame { m with control := rest, cursor := cursor, priorityBurst := burst }) :
    source = .control := by
  refine (hLeaves.source_eq ?_).symm
  simp [contents, hControl]

theorem slot_ne_of_ready (hReady : m.Ready id) {k : Nat} (hFirst : m.Skips true k) :
    ∀ j < k, Rotation.slot m.order m.cursor j ≠ some id :=
  fun j hj hSlot => hReady.offer (hFirst j hj id hSlot)

/-- The next frame is a priority frame of a stream, and from behind that stream on a pass does not come to `id` before
it comes to `other`. -/
def Overtakes (m : Mux) (id other : Nat) : Prop :=
  m.control = [] ∧ (8 ≤ m.priorityBurst → m.Starved) ∧
    ∃ k x, Rotation.slot m.order m.cursor k = some x ∧ m.offer false x ≠ none ∧ m.Skips false k ∧
      ¬Rotation.Before m.order (Rotation.behind m.order m.cursor k) id other

end Mux

namespace Feed

variable {pkg : Packages} {S S' T : Feed} {id other : Nat}

/-- A step while `id` waits, which does not overtake it if `other` has had a turn after the first `start` frames. -/
def Keeps (start id other : Nat) (S S' : Feed) : Prop :=
  Waits id S S' ∧ (S'.log ≠ S.log → turns other (S.log.drop start) ≠ 0 → ¬S.mux.Overtakes id other)

def Due (id other : Nat) (m : Mux) (entries : List (Mux.Source × Frame)) : Prop :=
  turns other entries = 0 ∨
    turns other entries = 1 ∧ m.cursor ≤ m.order.length ∧ Rotation.Before m.order m.cursor id other

variable {entries : List (Mux.Source × Frame)}

theorem due_next (h : (system pkg).Reachable S) (hReady : S.mux.Ready id) (hOther : other ≠ id) {frame : Frame}
    {m' : Mux} {source : Mux.Source} (hDue : Due id other S.mux entries)
    (hNext : S.mux.nextLocked = (m', some frame)) (hLeaves : S.mux.Leaves source frame m')
    (hKeeps : turns other entries ≠ 0 → ¬S.mux.Overtakes id other) (hNot : ¬Grants id (source, frame)) :
    Due id other m' (entries ++ [(source, frame)]) := by
  have hTurn := Mux.turn_nextLocked S.mux
  rw [hNext] at hTurn
  cases hTurn with
  | @data k x s _ hk hSlot hOffer hFirst =>
    obtain ⟨rfl, hKind⟩ := Mux.source_of_data hOffer hLeaves
    have hx : x ≠ id := by
      rintro rfl
      exact hNot ⟨rfl, hKind⟩
    have hBefore := Mux.slot_ne_of_ready hReady hFirst
    obtain ⟨s, _, _, hLookup, _⟩ := hReady
    have hMem := mem_order h hLookup
    rw [Due, turns_append]
    by_cases hSame : x = other
    · subst hSame
      have hOne : turns x [(Mux.Source.queue x, frame)] = 1 := by simp [turns, Grants, hKind]
      have hNone : turns x entries = 0 := by
        rcases hDue with hNone | ⟨_, hAfter⟩
        · exact hNone
        · exact absurd hSlot (hAfter.2.slot_ne (listed h).2 hBefore hk)
      exact .inr ⟨by omega, Rotation.behind_le hSlot, Rotation.before_of_slot hSlot hMem hOther.symm⟩
    · have hZero : turns other [(Mux.Source.queue x, frame)] = 0 :=
        turns_of_not_grants fun hGrants => hSame (Mux.Source.queue.inj hGrants.1)
      rw [hZero, Nat.add_zero]
      exact hDue.imp_right fun hAfter =>
        ⟨hAfter.1, Rotation.behind_le hSlot, hAfter.2.2.behind hSlot hx hBefore⟩
  | control hControl hCursor hRange _ =>
    obtain rfl := Mux.source_of_control hControl hLeaves
    have hZero : turns other [(Mux.Source.control, frame)] = 0 :=
      turns_of_not_grants fun hGrants => by cases hGrants.1
    rw [Due, turns_append, hZero, Nat.add_zero]
    exact hDue.imp_right fun hAfter =>
      ⟨hAfter.1, hRange.trans (max_le hAfter.2.1 le_rfl), hAfter.2.2.congr hCursor⟩
  | @priority k x s _ hControl hStarved hSlot hOffer hFirst =>
    have hKind : frame.kind ≠ .dataFrame := by
      obtain ⟨_, _, ⟨_, hPriority⟩ | ⟨_, _, hUpdate⟩⟩ := Mux.offer_some hOffer
      · exact of_decide_eq_false hPriority.symm
      · rw [hUpdate]
        decide
    have hZero : turns other [(source, frame)] = 0 := turns_of_not_grants fun hGrants => hKind hGrants.2
    rw [Due, turns_append, hZero, Nat.add_zero]
    refine hDue.imp_right fun hAfter => ⟨hAfter.1, Rotation.behind_le hSlot, ?_⟩
    by_contra hBefore
    refine hKeeps (by rw [hAfter.1]; decide) ⟨hControl, hStarved, k, x, hSlot, ?_, hFirst, hBefore⟩
    rw [hOffer]
    rintro ⟨⟩

theorem due_run (h : (system pkg).Reachable S) (hOther : other ≠ id)
    (hRun : ReflTransGen (Keeps S.log.length id other) S S') (hLog : S'.log = S.log ++ entries)
    (hNot : ∀ e ∈ entries, ¬Grants id e) : Due id other S'.mux entries := by
  induction hRun generalizing entries with
  | refl =>
    obtain rfl : entries = [] := List.self_eq_append_right.mp hLog
    exact .inl rfl
  | @tail T T' hRun hStep ih =>
    have hWaits : ReflTransGen (Waits id) S T := hRun.lift (fun S => S) fun _ _ hStep => hStep.1
    obtain ⟨⟨hStep, hReady, _⟩, hKeeps⟩ := hStep
    cases hStep with
    | @enqueue added m' hEnqueue =>
      obtain ⟨ids, hOrder, _⟩ := hEnqueue.opened
      refine (ih hLog hNot).imp_right fun ⟨hOne, hRange, hBefore⟩ => ?_
      rw [hOrder, hEnqueue.cursor]
      exact ⟨hOne, hRange.trans (by simp), hBefore.append hRange ids⟩
    | nothing hNext =>
      have hTurn := Mux.turn_nextLocked T.mux
      rw [hNext] at hTurn
      cases hTurn with
      | nothing _ _ hCursor hRange =>
        exact (ih hLog hNot).imp_right fun hAfter =>
          ⟨hAfter.1, hRange.trans (max_le hAfter.2.1 le_rfl), hAfter.2.2.congr hCursor⟩
    | @next source frame m' hNext hLeaves =>
      obtain ⟨before, hBefore, rfl⟩ := run_log_concat hWaits hLog
      have hOld := ih hBefore fun e he => hNot e (List.mem_append_left _ he)
      have hPick := hKeeps (by simp)
      rw [hBefore, List.drop_left] at hPick
      exact due_next (run_reachable h hWaits) hReady hOther hOld hNext hLeaves hPick
        (hNot (source, frame) (by simp))

end Feed

/-- While a stream waits for its turn no other stream has two, unless a priority frame moves the cursor past it. -/
theorem round_robin (pkg : Packages) (S S' : Feed) (id other : Nat) (entries : List (Mux.Source × Frame))
    (h : (Feed.system pkg).Reachable S) (hOther : other ≠ id)
    (hRun : ReflTransGen (Feed.Keeps S.log.length id other) S S') (hLog : S'.log = S.log ++ entries)
    (hNot : ∀ e ∈ entries, ¬Grants id e) : turns other entries ≤ 1 := by
  rcases Feed.due_run h hOther hRun hLog hNot with hNone | ⟨hOne, _⟩
  · exact hNone.trans_le (Nat.zero_le 1)
  · exact hOne.le

namespace Sample

theorem waits_next {S : Feed} {id : Nat} {frame : Frame} (hFrame : S.mux.nextLocked.2 = some frame)
    (hReady : S.mux.Ready id ∧ S.mux.nextLocked.1.Ready id) :
    ∃ source, S.mux.Leaves source frame S.mux.nextLocked.1 ∧
      Feed.Waits id S { S with mux := S.mux.nextLocked.1, log := S.log ++ [(source, frame)] } := by
  have hNext : S.mux.nextLocked = (S.mux.nextLocked.1, some frame) := Prod.ext rfl hFrame
  obtain ⟨source, hLeaves⟩ := Mux.exists_leaves hNext
  exact ⟨source, hLeaves, .next hNext hLeaves, hReady⟩

theorem enqueue_modify {m : Mux} {f : Stream → Stream} (id : Nat) (queue frames : List Frame)
    (h : (m.object id).map (fun s => (s.send, (f s).send)) = some (queue, queue ++ frames)) (hNodup : m.order.Nodup) :
    m.Enqueue (fun source => if source = .queue id then frames else []) (m.modify id f) := by
  obtain ⟨s, hObject, hPair⟩ := Option.map_eq_some_iff.mp h
  obtain ⟨hOld, hNew⟩ := Prod.mk.inj hPair
  have hModify : m.modify id f = m.put id (f s) := by simp only [Mux.modify, hObject]
  rw [hModify]
  refine ⟨fun source => ?_, ⟨[], (List.append_nil _).symm, by simp [Mux.put]⟩, hNodup, rfl, rfl⟩
  cases source with
  | control => simp [Mux.contents, Mux.put]
  | credit _ => simp [Mux.contents]
  | queue i =>
    by_cases hi : i = id
    · subst hi
      simp [Mux.contents, Mux.put, hObject, hOld, hNew]
    · simp [Mux.contents, Mux.put, hi]

abbrev served : Mux := two.nextLocked.1

/-- Stream 1 has sent its frame and has another one. -/
def refilled : Mux := served.modify 1 fun s => (s.write [2] served.batch served.cancelled).1

def relieved : Mux := refilled.modify 3 fun s => (s.read 1 refilled.cancelled).1

/-- A byte arrives and is read. -/
def taken (s : Stream) : Stream :=
  (((s.accept packages false ⟨.dataFrame, s.id, [9]⟩).toOption.getD (s, false)).1.read 1 false).1

def credited : Mux := refilled.modify 1 taken

theorem credited_keeps : ¬credited.Overtakes 3 1 := by
  rintro ⟨-, -, k, x, hSlot, hOffer, hFirst, hBefore⟩
  have hSlots : Rotation.slot credited.order credited.cursor 0 = some 3 ∧
      Rotation.slot credited.order credited.cursor 1 = some 1 := by decide +kernel
  have hOffers : credited.offer false 3 = none ∧ credited.offer false 1 ≠ none := by decide +kernel
  match k with
  | 0 =>
    cases hSlots.1.symm.trans hSlot
    exact hOffer hOffers.1
  | 1 => exact hBefore (Rotation.before_of_slot hSlots.2 (by decide +kernel) (by decide))
  | k + 2 => exact hOffers.2 (hFirst 1 (by omega) 1 hSlots.2)

def firstTurn : List (Mux.Source × Frame) := [(.queue 1, ⟨.dataFrame, 1, [1]⟩)]

theorem waits_refilled : Feed.Waits 3 feed ⟨served, two.contents, firstTurn⟩ ∧
    ∃ queued, Feed.Waits 3 ⟨served, two.contents, firstTurn⟩ ⟨refilled, queued, firstTurn⟩ := by
  have hReady : (two.Ready 3 ∧ served.Ready 3) ∧ refilled.Ready 3 := by decide +kernel
  have hSent : two.nextLocked.2 = some ⟨.dataFrame, 1, [1]⟩ := by decide +kernel
  have hTaken : served.contents (.queue 1) ≠ two.contents (.queue 1) := by decide +kernel
  have hWrite : served.Enqueue _ refilled :=
    enqueue_modify (m := served) (f := fun s => (s.write [2] served.batch served.cancelled).1) 1 []
      [⟨.dataFrame, 1, [2]⟩] (by decide +kernel) (by decide +kernel)
  obtain ⟨source, hLeaves, hStep⟩ := waits_next (S := feed) hSent hReady.1
  obtain rfl := hLeaves.source_eq hTaken
  exact ⟨hStep, _, .enqueue hWrite, hReady.1.2, hReady.2⟩

end Sample

open Sample

/-- Stream 3 waits while stream 1 has its turn, gets another frame and has its window update sent. -/
theorem round_robin_refilled :
    ∃ S S' entries, (Feed.system packages).Reachable S ∧ ReflTransGen (Feed.Keeps S.log.length 3 1) S S' ∧
      S'.log = S.log ++ entries ∧
      entries.map (fun e => (e.2.kind, e.2.id)) = [(.dataFrame, 1), (.windowUpdate, 1)] ∧
      S'.mux.Ready 1 ∧ S'.mux.Ready 3 ∧ turns 1 entries ≤ 1 := by
  obtain ⟨hFirst, queued, hSecond⟩ := waits_refilled
  have hUpdate : credited.nextLocked.2 = some ⟨.windowUpdate, 1, [0, 0, 0, 1]⟩ := by decide +kernel
  have hReady : credited.Ready 3 ∧ credited.nextLocked.1.Ready 1 ∧ credited.nextLocked.1.Ready 3 := by decide +kernel
  have hRead : refilled.Enqueue _ credited :=
    enqueue_modify (m := refilled) (f := taken) 1 [⟨.dataFrame, 1, [2]⟩] [] (by decide +kernel)
      (by decide +kernel)
  have hKeeps := credited_keeps
  generalize credited = credited at *
  obtain ⟨hReady₁, hReady₂, hReady₃⟩ := hReady
  have hRun : ReflTransGen (Feed.Keeps 0 3 1) feed ⟨refilled, queued, firstTurn⟩ :=
    (ReflTransGen.single ⟨hFirst, fun _ hTurn => absurd rfl hTurn⟩).tail ⟨hSecond, fun hLog => absurd rfl hLog⟩
  have hRun := hRun.tail ⟨⟨.enqueue hRead, hSecond.2.2, hReady₁⟩, fun hLog => absurd rfl hLog⟩
  obtain ⟨source, _, hStep⟩ := waits_next (S := Feed.mk credited _ _) hUpdate ⟨hReady₁, hReady₃⟩
  have hRun := hRun.tail ⟨hStep, fun _ _ => hKeeps⟩
  refine ⟨feed, _, firstTurn ++ [(source, ⟨.windowUpdate, 1, [0, 0, 0, 1]⟩)], reachable_feed, hRun, rfl, rfl,
    hReady₂, hReady₃, ?_⟩
  exact round_robin packages _ _ 3 1 _ reachable_feed (by decide) hRun rfl (by simp [firstTurn, Grants])

/-- Stream 3 waits, its window update moves the cursor past it, and stream 1 has two turns. -/
theorem round_robin_credit :
    ∃ S S' entries, (Feed.system packages).Reachable S ∧ ReflTransGen (Feed.Waits 3) S S' ∧
      S'.mux.order = S.mux.order ∧ S'.log = S.log ++ entries ∧
      entries.map (fun e => (e.2.kind, e.2.id)) = [(.dataFrame, 1), (.windowUpdate, 3), (.dataFrame, 1)] ∧
      (∀ e ∈ entries, ¬Grants 3 e) ∧ turns 1 entries = 2 := by
  have hReach := reachable_feed
  obtain ⟨hFirst, queued, hSecond⟩ := waits_refilled
  -- the rest of the run, evaluated
  have hUpdate : relieved.nextLocked.2 = some ⟨.windowUpdate, 3, [0, 0, 0, 1]⟩ := by decide +kernel
  have hData : relieved.nextLocked.1.nextLocked.2 = some ⟨.dataFrame, 1, [2]⟩ := by decide +kernel
  have hTaken : relieved.nextLocked.1.nextLocked.1.contents (.queue 1) ≠
      relieved.nextLocked.1.contents (.queue 1) := by decide +kernel
  have hOrder : relieved.nextLocked.1.nextLocked.1.order = feed.mux.order := by decide +kernel
  have hReady : relieved.Ready 3 ∧ relieved.nextLocked.1.Ready 3 ∧ relieved.nextLocked.1.nextLocked.1.Ready 3 := by
    decide +kernel
  have hRead : refilled.Enqueue _ relieved :=
    enqueue_modify (m := refilled) (f := fun s => (s.read 1 refilled.cancelled).1) 3
      [⟨.dataFrame, 3, [3]⟩] [] (by decide +kernel) (by decide +kernel)
  have hLog : feed.log = [] := rfl
  generalize relieved = relieved, refilled = refilled, feed = S at *
  obtain ⟨hReady₁, hReady₂, hReady₃⟩ := hReady
  have hRun := ((ReflTransGen.single hFirst).tail hSecond).tail ⟨.enqueue hRead, hSecond.2.2, hReady₁⟩
  obtain ⟨credit, _, hStep⟩ := waits_next (S := Feed.mk relieved _ _) hUpdate ⟨hReady₁, hReady₂⟩
  have hRun := hRun.tail hStep
  obtain ⟨source, hLeaves, hStep⟩ := waits_next (S := Feed.mk relieved.nextLocked.1 _ _) hData ⟨hReady₂, hReady₃⟩
  obtain rfl := hLeaves.source_eq hTaken
  refine ⟨S, _, firstTurn ++ [(credit, ⟨.windowUpdate, 3, [0, 0, 0, 1]⟩), (.queue 1, ⟨.dataFrame, 1, [2]⟩)], hReach,
    hRun.tail hStep, hOrder, ?_, rfl, ?_, ?_⟩
  · simp [hLog]
  · simp [firstTurn, Grants]
  · simp [firstTurn, turns, Grants]

end FamilyConnect.TCPForward
