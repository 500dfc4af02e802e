import FamilyConnect.DesktopAuto.Interrupts

/-!
# Waiting before a restoration

The marks of a run, newest first, say when a restoration began and why. One
restoration is free after a connection is asked for or has been healthy for
long enough; every other one waits for the instant that the last failure set.
-/

namespace FamilyConnect.DesktopAuto

open Lib

def Schedule.bound (s : Schedule) : Duration := if s.cooldown then 305 * Duration.second else 125 * Duration.second

def Schedule.Sound (s : Schedule) : Prop :=
  s.failedAt + s.bound ≤ Duration.greatest →
    s.failedAt + 30 * Duration.second ≤ s.retryAt ∧ s.retryAt ≤ s.failedAt + s.bound

def calm : List Mark → Bool
  | [] => true
  | .accepted _ :: _ | .stable _ _ :: _ => true
  | .restore :: _ => false
  | _ :: rest => calm rest

def Watched (since : Duration) : List Mark → Prop
  | .healthy now :: rest => now = since ∨ Watched since rest
  | .stable _ _ :: rest => Watched since rest
  | _ => False

structure Recorded (marks : List Mark) : Prop where
  retried : ∀ schedule startedAt, .retry schedule startedAt ∈ marks →
    ∃ s, schedule = some s ∧ s.Sound ∧ s.retryAt ≤ startedAt
  restored : ∀ later earlier, marks = later ++ .restore :: earlier → calm earlier = true
  stable : ∀ later since now earlier, marks = later ++ .stable since now :: earlier →
    since + stableTraffic ≤ now ∧ Watched since earlier

def Mark.plain : Mark → Bool
  | .restore | .retry _ _ | .stable _ _ => false
  | _ => true

variable {marks : List Mark}

theorem Recorded.cons {mark : Mark} (h : Recorded marks)
    (hRetry : ∀ schedule startedAt, mark = .retry schedule startedAt →
      ∃ s, schedule = some s ∧ s.Sound ∧ s.retryAt ≤ startedAt)
    (hRestore : mark = .restore → calm marks = true)
    (hStable : ∀ since now, mark = .stable since now → since + stableTraffic ≤ now ∧ Watched since marks) :
    Recorded (mark :: marks) := by
  constructor
  case retried =>
    intro schedule startedAt hMem
    rcases List.mem_cons.mp hMem with hNewest | hOlder
    · exact hRetry schedule startedAt hNewest.symm
    · exact h.retried schedule startedAt hOlder
  case restored =>
    rintro (_ | ⟨newest, later⟩) earlier hSplit
    · cases hSplit
      exact hRestore rfl
    · cases hSplit
      exact h.restored later earlier rfl
  case stable =>
    rintro (_ | ⟨newest, later⟩) since now earlier hSplit
    · cases hSplit
      exact hStable since now rfl
    · cases hSplit
      exact h.stable later since now earlier rfl

theorem Recorded.plain {mark : Mark} (h : Recorded marks) (hPlain : mark.plain = true) :
    Recorded (mark :: marks) := by
  apply h.cons
  · rintro schedule startedAt rfl
    cases hPlain
  · rintro rfl
    cases hPlain
  · rintro since now rfl
    cases hPlain

def Point.plain : Point → Bool
  | .connectStart _ _ | .retryCheck | .retryDue | .retryStart => false
  | _ => true

namespace Controller

structure RecoveryInv (c : Controller) : Prop where
  clock : Duration.least ≤ c.clock
  scheduled : c.retryAt ≠ 0 → ∃ s, c.schedule = some s ∧ s.retryAt = c.retryAt
  sound : ∀ s, c.schedule = some s → s.Sound
  recorded : Recorded c.marks
  calm : c.restorations = 0 → DesktopAuto.calm c.marks = true
  starting : ∀ preferred lastGood, c.point = .connectStart preferred lastGood → DesktopAuto.calm c.marks = true
  waiting : c.point = .retryCheck ∨ c.point = .retryDue → c.state = .restoring
  due : c.point = .retryStart → c.retryAt ≠ 0 ∧ c.retryAt ≤ c.clock
  since : 0 ≤ c.healthySince → c.healthySince ≤ c.clock
  watched : c.point = .idle → c.state = .connected → 0 ≤ c.healthySince → Watched c.healthySince c.marks

variable {c c' : Controller} {a : Answer} {l : Loop}

section

variable (h : c.RecoveryInv)
include h

theorem RecoveryInv.plain (hClock : c.clock ≤ c'.clock)
    (hRetry : c'.retryAt = 0 ∨ c'.retryAt = c.retryAt) (hSchedule : c'.schedule = c.schedule)
    (hRecorded : Recorded c'.marks) (hCalm : c'.restorations = 0 → DesktopAuto.calm c'.marks = true)
    (hSince : c'.healthySince = c.healthySince ∨ c'.healthySince < 0) (hPlain : c'.point.plain = true)
    (hIdle : c'.point = .idle → c'.state ≠ .connected ∨ c'.healthySince < 0) : c'.RecoveryInv where
  clock := le_trans h.clock hClock
  scheduled hSome := by
    rw [hRetry.resolve_left hSome, hSchedule]
    exact h.scheduled (hRetry.resolve_left hSome ▸ hSome)
  sound := hSchedule ▸ h.sound
  recorded := hRecorded
  calm := hCalm
  starting preferred lastGood hPoint := by
    rw [hPoint] at hPlain
    cases hPlain
  waiting hPoint := by
    rcases hPoint with hPoint | hPoint
    all_goals rw [hPoint] at hPlain; cases hPlain
  due hPoint := by
    rw [hPoint] at hPlain
    cases hPlain
  since hSome := by
    have hSame := hSince.resolve_right (not_lt.mpr hSome)
    rw [hSame] at hSome ⊢
    exact le_trans (h.since hSome) hClock
  watched hPoint hState hSome := by
    rcases hIdle hPoint with hOther | hNever
    · exact absurd hState hOther
    · exact absurd hSome (not_le.mpr hNever)

theorem RecoveryInv.later {now : Duration} (hClock : c.clock ≤ now) : { c with clock := now }.RecoveryInv :=
  { h with
    clock := le_trans h.clock hClock
    due := fun hDue => ⟨(h.due hDue).1, le_trans (h.due hDue).2 hClock⟩
    since := fun hSome => le_trans (h.since hSome) hClock }

theorem RecoveryInv.quiet {now : Duration} (hClock : c.clock ≤ now) (hQuiet : c.Quiet c')
    (hLeads : c.Leads now c'.point) : { c' with clock := now }.RecoveryInv where
  clock := le_trans h.clock hClock
  scheduled := by
    rw [hQuiet.retryAt, hQuiet.schedule]
    exact h.scheduled
  sound := hQuiet.schedule ▸ h.sound
  recorded := hQuiet.marks ▸ h.recorded
  calm := by
    rw [hQuiet.restorations, hQuiet.marks]
    exact h.calm
  starting preferred lastGood hPoint := by
    rw [hPoint] at hLeads
    exact hLeads.elim
  waiting hPoint := by
    rw [hQuiet.state]
    rcases hPoint with hPoint | hPoint
    · rw [hPoint] at hLeads
      exact hLeads.elim
    · rw [hPoint] at hLeads
      exact h.waiting (.inl hLeads)
  due hPoint := by
    rw [hPoint] at hLeads
    rw [hQuiet.retryAt]
    exact hLeads
  since := by
    rw [hQuiet.healthySince]
    exact fun hSome => le_trans (h.since hSome) hClock
  watched hPoint hState := by
    -- Only a `Retry` that came too early ends quietly.
    rw [hPoint] at hLeads
    rw [hQuiet.state, h.waiting (.inr hLeads)] at hState
    cases hState

variable {deadline : Duration} {candidates : List Candidate} {last : Failure}

omit h in
theorem plain_round {restoring temporary : Bool} {index : Nat}
    : (round restoring deadline index candidates last temporary).plain = true := by
  cases candidates with
  | nil | cons candidate rest => rfl

omit h in
theorem round_ne_idle {restoring temporary : Bool} {index : Nat}
    : round restoring deadline index candidates last temporary ≠ .idle := by
  cases candidates with
  | nil | cons candidate rest => nofun

omit h in
theorem backoff_bounds (series : Nat) :
    30 * Duration.second ≤ min maxRecoveryBackoff (recoveryBackoff * 2 ^ min series 2) ∧
      min maxRecoveryBackoff (recoveryBackoff * 2 ^ min series 2) ≤ 120 * Duration.second := by
  refine ⟨?_, min_le_left _ _⟩
  have hSeries : min series 2 = 0 ∨ min series 2 = 1 ∨ min series 2 = 2 := by omega
  rcases hSeries with hSeries | hSeries | hSeries
  all_goals rw [hSeries]; decide

omit h in
theorem sound_of_delay {now delay : Int} {cooldown : Bool} (hNow : Duration.least ≤ now)
    (hLow : 30 * Duration.second ≤ delay) (hHigh : delay ≤ Schedule.bound ⟨now, Duration.add now delay, cooldown⟩) :
    Schedule.Sound ⟨now, Duration.add now delay, cooldown⟩ := by
  intro hFits
  have hSum : Duration.add now delay = now + delay := by
    apply Duration.add_of_le
    · simp only [Duration.least, Duration.second, Duration.millisecond] at *
      grind
    · exact le_trans (Int.add_le_add_left hHigh now) hFits
  constructor
  · exact le_of_le_of_eq (Int.add_le_add_left hLow now) hSum.symm
  · exact le_of_eq_of_le hSum (Int.add_le_add_left hHigh now)

omit h in
theorem sound_schedule {now : Int} (jitter : Int) (series : Nat) (cooldown : Bool) (hNow : Duration.least ≤ now) :
    Schedule.Sound ⟨now, Duration.add now ((if cooldown then recoveryCooldown else
      min maxRecoveryBackoff (recoveryBackoff * 2 ^ min series 2)) + max 0
        (min (5 * Duration.second) jitter)), cooldown⟩ := by
  have hJitter : (0 : Int) ≤ max 0 (min (5 * Duration.second) jitter) := le_max_left _ _
  have hJitterMax : max 0 (min (5 * Duration.second) jitter) ≤ 5 * Duration.second :=
    max_le (by decide) (min_le_left _ _)
  have hBackoff := backoff_bounds series
  apply sound_of_delay hNow
  all_goals simp only [Schedule.bound, Duration.second, Duration.millisecond, recoveryCooldown] at *; grind

theorem RecoveryInv.settle (hClock : c.clock ≤ a.now) (reason : Failure) (restoring temporary : Bool) :
    { c.settle a reason restoring temporary with clock := a.now }.RecoveryInv := by
  have hNever : ¬(0 : Duration) ≤ -1 := by decide
  unfold Controller.settle
  dsimp only
  split
  · constructor
    case clock => exact le_trans h.clock hClock
    case scheduled => exact fun _ => ⟨_, rfl, rfl⟩
    case sound =>
      rintro s ⟨⟩
      exact sound_schedule a.jitter c.failedSeries _ (le_trans h.clock hClock)
    case recorded => exact h.recorded
    case calm => exact h.calm
    case starting | waiting | due | watched => exact nofun
    case since => exact fun hSome => absurd hSome hNever
  · exact h.plain hClock (.inl rfl) rfl h.recorded h.calm (.inl rfl) rfl fun _ => .inl nofun

theorem RecoveryInv.commit (hClock : c.clock ≤ a.now) :
    { c.proceedLoop l a .commit with clock := a.now }.RecoveryInv := by
  have hNever : (-1 : Duration) < 0 := by decide
  rw [proceedLoop]
  split
  · exact h.plain hClock (.inr rfl) rfl h.recorded h.calm (.inl rfl) rfl (by rintro ⟨⟩)
  · split
    · exact h.plain hClock (.inr rfl) rfl h.recorded h.calm (.inl rfl) rfl (by rintro ⟨⟩)
    · split <;> exact h.plain hClock (.inl rfl) rfl (h.recorded.plain rfl) h.calm (.inr hNever) rfl fun _ => .inr hNever

theorem RecoveryInv.proceed (hClock : c.clock ≤ a.now) : { c.proceed a with clock := a.now }.RecoveryInv := by
  have hNever : (-1 : Duration) < 0 := by decide
  by_cases hIdle : c.point = .idle
  · rw [Controller.proceed, hIdle]
    exact h.later hClock
  by_cases hQuiet : c.point.quiet = true
  · obtain ⟨hSame, hLeads⟩ := proceed_quiet (a := a) hQuiet hIdle
    exact h.quiet hClock hSame hLeads
  rw [Controller.proceed]
  split
  all_goals rename_i hPoint
  all_goals rw [hPoint] at hQuiet
  case h_2 =>
    exact h.plain hClock (.inl rfl) rfl h.recorded (fun _ => h.starting _ _ hPoint)
      (.inr hNever) rfl (by rintro ⟨⟩)
  case h_8 =>
    dsimp only
    split
    · exact h.plain hClock (.inr rfl) rfl h.recorded h.calm (.inl rfl) rfl (by rintro ⟨⟩)
    · rename_i hFirst
      have hNone : c.restorations = 0 := Nat.lt_one_iff.mp (not_le.mp (not_or.mp hFirst).2)
      exact h.plain hClock (.inr rfl) rfl (h.recorded.cons (by rintro _ _ ⟨⟩)
        (fun _ => h.calm hNone) (by rintro _ _ ⟨⟩)) (by rintro ⟨⟩) (.inl rfl) rfl
        (by rintro ⟨⟩)
  case h_13 =>
    obtain ⟨hSome, hDue⟩ := h.due hPoint
    obtain ⟨s, hSchedule, hRetryAt⟩ := h.scheduled hSome
    refine h.plain hClock (.inl rfl) rfl (h.recorded.cons ?_ (by rintro ⟨⟩) (by rintro _ _ ⟨⟩))
      (by rintro ⟨⟩) (.inl rfl) plain_round
      fun hPoint => absurd hPoint round_ne_idle
    rintro schedule startedAt ⟨⟩
    refine ⟨s, hSchedule, h.sound s hSchedule, ?_⟩
    rw [hRetryAt]
    exact le_trans hDue hClock
  case h_14 l stage =>
    cases stage
    case commit => exact h.commit hClock
    all_goals exact absurd rfl hQuiet
  case h_16 => exact h.settle hClock _ _ _
  case h_17 =>
    dsimp only
    split
    · rename_i hState
      exact h.plain hClock (.inl rfl) rfl h.recorded h.calm (.inl rfl) rfl fun _ =>
        .inl (by dsimp only; rw [hState]; rintro ⟨⟩)
    · exact h.plain hClock (.inl rfl) rfl h.recorded h.calm (.inl rfl) rfl (by rintro ⟨⟩)
  case h_20 | h_21 => exact h.plain hClock (.inr rfl) rfl h.recorded h.calm (.inl rfl) rfl fun _ => .inl (by rintro ⟨⟩)
  all_goals exact absurd rfl hQuiet

theorem RecoveryInv.same (hClock : c'.clock = c.clock := by rfl) (hRetry : c'.retryAt = c.retryAt := by rfl)
    (hSchedule : c'.schedule = c.schedule := by rfl) (hMarks : c'.marks = c.marks := by rfl)
    (hRestorations : c'.restorations = c.restorations := by rfl) (hPoint : c'.point = c.point := by rfl)
    (hState : c'.state = c.state := by rfl) (hSince : c'.healthySince = c.healthySince := by rfl) : c'.RecoveryInv := by
  constructor
  case clock => rw [hClock]; exact h.clock
  case scheduled => rw [hRetry, hSchedule]; exact h.scheduled
  case sound => rw [hSchedule]; exact h.sound
  case recorded => rw [hMarks]; exact h.recorded
  case calm => rw [hRestorations, hMarks]; exact h.calm
  case starting => rw [hPoint, hMarks]; exact h.starting
  case waiting => rw [hPoint, hState]; exact h.waiting
  case due => rw [hPoint, hRetry, hClock]; exact h.due
  case since => rw [hSince, hClock]; exact h.since
  case watched => rw [hPoint, hState, hSince, hMarks]; exact h.watched

theorem RecoveryInv.connect (nilContext : Bool) (generation : Nat) (preferred lastGood : Candidate) :
    (c.connect nilContext generation preferred lastGood).1.RecoveryInv := by
  unfold Controller.connect
  split
  · exact h
  split
  · exact h
  split
  · exact h
  split
  · exact h
  · exact ⟨h.clock, h.scheduled, h.sound, h.recorded.plain rfl, fun _ => rfl, fun _ _ _ => rfl, nofun, nofun,
      h.since, nofun⟩

theorem RecoveryInv.retry (generation : Nat) : (c.retry generation).1.RecoveryInv := by
  unfold Controller.retry
  split
  · exact h
  split
  · exact h
  split
  · exact h
  · rename_i hState
    exact ⟨h.clock, h.scheduled, h.sound, h.recorded, h.calm, nofun, fun _ => not_not.mp hState, nofun,
      h.since, nofun⟩

omit h in
theorem stable_of_add {since now : Int} (hNow : since ≤ now) (hStable : stableTraffic ≤ Duration.add now (-since)) :
    since + stableTraffic ≤ now := by
  simp only [Duration.add, stableTraffic, Duration.second, Duration.millisecond] at *
  grind

theorem RecoveryInv.healthy {first second : Duration} (hFirst : c.clock ≤ first)
    (hSecond : first ≤ second) (generation : Nat) (good : Bool) :
    { (c.healthy generation good first second).1 with clock := second }.RecoveryInv := by
  have hClock : c.clock ≤ second := le_trans hFirst hSecond
  have hNever : (-1 : Duration) < 0 := by decide
  unfold Controller.healthy
  split
  · exact h.later hClock
  split
  · exact h.later hClock
  rename_i hBusy _
  have hIdle : c.point = .idle := not_not.mp hBusy
  split
  · exact h.plain hClock (.inr rfl) rfl (h.recorded.plain rfl) h.calm (.inr hNever)
      (by rw [hIdle]; rfl) fun _ => .inr hNever
  rename_i hGood
  have hState : c.state = .connected := not_not.mp (not_or.mp hGood).1
  have hSince : (if c.healthySince < 0 then first else c.healthySince) ≤ second := by
    split
    · exact hSecond
    · rename_i hSome
      exact le_trans (h.since (not_lt.mp hSome)) hClock
  have hWatched : Watched (if c.healthySince < 0 then first else c.healthySince)
      (.healthy (if c.healthySince < 0 then first else second) :: c.marks) := by
    split
    · exact .inl rfl
    · rename_i hSome
      exact .inr (h.watched hIdle hState (not_lt.mp hSome))
  dsimp only
  generalize (if c.healthySince < 0 then first else c.healthySince) = since at *
  generalize (if c.healthySince < 0 then first else second) = report at *
  have hRecorded : Recorded (.healthy report :: c.marks) := h.recorded.plain rfl
  have hNotStarting : ∀ preferred lastGood, c.point ≠ .connectStart preferred lastGood := by
    rw [hIdle]
    exact nofun
  have hNotDue : c.point ≠ .retryStart := by
    rw [hIdle]
    exact nofun
  split
  · rename_i hStable
    have hLong : since + stableTraffic ≤ second := stable_of_add hSince hStable
    have hProven : Recorded (.stable since second :: .healthy report :: c.marks) := by
      refine hRecorded.cons nofun nofun ?_
      rintro since now ⟨⟩
      exact ⟨hLong, hWatched⟩
    exact ⟨le_trans h.clock hClock, h.scheduled, h.sound, hProven, fun _ => rfl, fun _ _ _ => rfl, h.waiting,
      fun hDue => absurd hDue hNotDue, fun _ => hSince, fun _ _ _ => hWatched⟩
  · exact ⟨le_trans h.clock hClock, h.scheduled, h.sound, hRecorded, h.calm,
      fun _ _ hStart => absurd hStart (hNotStarting _ _), h.waiting, fun hDue => absurd hDue hNotDue, fun _ => hSince,
      fun _ _ _ => hWatched⟩

theorem RecoveryInv.step (hStep : Step c c') : c'.RecoveryInv := by
  cases hStep with
  | interrupt generation reason =>
    rcases c.interrupt_cases generation reason with ⟨failure, hSame⟩ | ⟨-, hStop⟩
    · rw [hSame]
      exact h
    · rw [hStop]
      exact h.same
  | cancel => exact h.same
  | connect nilContext generation preferred lastGood => exact h.connect nilContext generation preferred lastGood
  | lost generation reason =>
    unfold lost
    repeat' split
    all_goals first
      | exact h
      | exact h.plain (le_refl c.clock) (.inr rfl) rfl h.recorded h.calm (.inl rfl) rfl nofun
  | retry generation => exact h.retry generation
  | healthy generation good hFirst hSecond _ => exact h.healthy hFirst hSecond generation good
  | disconnect generation =>
    rcases c.disconnect_cases generation with hSame | ⟨-, hStop⟩
    · rw [hSame]
      exact h
    · rw [hStop]
      exact h.same
  | disconnectLocked _ _ =>
    unfold disconnectLocked
    dsimp only
    split
    · exact h.same
    · exact h.plain (le_refl c.clock) (.inr rfl) rfl h.recorded h.calm (.inl rfl) rfl nofun
  | proceed a hClock _ => exact h.proceed hClock

end

end Controller

end FamilyConnect.DesktopAuto
