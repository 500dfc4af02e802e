import FamilyConnect.ReliableStream.EngineStep

/-!
# Round-trip estimate and retry interval

The bounds of the estimator and of the interval it gives, and that 64-bit
arithmetic computes both exactly. `sampleRTT` is a minimum over the blocks an
ACK covers, so the order in which the blocks are visited does not matter.
-/

namespace FamilyConnect.ReliableStream

open Lib

namespace Engine

/-! ## The estimator -/

structure Estimated (e : Engine) : Prop where
  smoothed_nonneg : 0 ≤ e.smoothedRTT
  smoothed_le : e.smoothedRTT ≤ e.config.maxAge
  variation_nonneg : 0 ≤ e.rttVariation
  variation_le : e.rttVariation ≤ e.config.maxAge

section

variable {s v x m : Int}

theorem smoothing_bounds (hs : 0 ≤ s) (hm : s ≤ m) (hx : 0 < x) (hxm : x ≤ m) :
    0 ≤ (7 * s + x).tdiv 8 ∧ (7 * s + x).tdiv 8 ≤ m ∧ (0 < s → 0 < (7 * s + x).tdiv 8) := by
  rw [Int.tdiv_eq_ediv_of_nonneg (by omega)]
  omega

theorem variation_bounds (hv : 0 ≤ v) (hm : v ≤ m) (hs : 0 ≤ s) (hsm : s ≤ m) (hx : 0 < x) (hxm : x ≤ m) :
    0 ≤ (3 * v + if s - x < 0 then -(s - x) else s - x).tdiv 4 ∧
      (3 * v + if s - x < 0 then -(s - x) else s - x).tdiv 4 ≤ m := by
  rw [Int.tdiv_eq_ediv_of_nonneg (by split <;> omega)]
  split <;> omega

end

theorem Config.Valid.maxAge_pos {config : Config} (h : config.Valid) : (0 : Int) < config.maxAge := by
  have hRto := h.rto_pos
  have hAge := h.rto_le_maxAge
  simp only [Duration.millisecond] at hRto
  exact lt_of_lt_of_le (by decide) (hRto.trans hAge)

variable {e : Engine}

theorem observeRTT_estimated (hValid : e.config.Valid) (h : e.Estimated) (sample : Duration) :
    (e.observeRTT sample).Estimated := by
  unfold observeRTT
  split
  · exact h
  rename_i hSample
  have hPos : 0 < min sample e.config.maxAge := lt_min (not_le.mp hSample) (Config.Valid.maxAge_pos hValid)
  have hLe : min sample e.config.maxAge ≤ e.config.maxAge := min_le_right _ _
  split
  · constructor
    · exact hPos.le
    · exact hLe
    · exact Int.tdiv_nonneg hPos.le (by decide)
    · exact (Int.tdiv_le_self _ hPos.le).trans hLe
  · obtain ⟨hLow, hHigh, _⟩ := smoothing_bounds h.smoothed_nonneg h.smoothed_le hPos hLe
    obtain ⟨hLow', hHigh'⟩ := variation_bounds h.variation_nonneg h.variation_le h.smoothed_nonneg
      h.smoothed_le hPos hLe
    exact ⟨hLow, hHigh, hLow', hHigh'⟩

theorem observeRTT_pos (hValid : e.config.Valid) (h : e.Estimated) (hSet : 0 < e.smoothedRTT)
    (sample : Duration) : 0 < (e.observeRTT sample).smoothedRTT := by
  unfold observeRTT
  split
  · exact hSet
  rename_i hSample
  have hPos : 0 < min sample e.config.maxAge := lt_min (not_le.mp hSample) (Config.Valid.maxAge_pos hValid)
  split
  · exact hPos
  · exact (smoothing_bounds h.smoothed_nonneg h.smoothed_le hPos (min_le_right _ _)).2.2 hSet

/-! ## The retry interval -/

section

variable {ceiling interval : Int}

theorem backoff_succ (attempts : Nat) : backoff ceiling (attempts + 1) interval =
    if interval < ceiling then backoff ceiling attempts (min (2 * interval) ceiling) else interval := rfl

theorem backoff_ge (attempts : Nat) (hPos : 0 ≤ interval) (hLe : interval ≤ ceiling) :
    interval ≤ backoff ceiling attempts interval := by
  induction attempts generalizing interval with
  | zero => exact le_rfl
  | succ attempts ih =>
    rw [backoff_succ]
    split
    · have hDouble : interval ≤ min (2 * interval) ceiling := by omega
      exact hDouble.trans (ih (by omega) (by omega))
    · exact le_rfl

theorem backoff_le (attempts : Nat) (hLe : interval ≤ ceiling) : backoff ceiling attempts interval ≤ ceiling := by
  induction attempts generalizing interval with
  | zero => exact hLe
  | succ attempts ih =>
    rw [backoff_succ]
    split
    · exact ih (min_le_right _ _)
    · exact hLe

theorem backoff_mono {few many : Nat} (h : few ≤ many) (hPos : 0 ≤ interval) (hLe : interval ≤ ceiling) :
    backoff ceiling few interval ≤ backoff ceiling many interval := by
  induction few generalizing many interval with
  | zero => exact backoff_ge many hPos hLe
  | succ few ih =>
    obtain ⟨many, rfl⟩ : ∃ n, many = n + 1 := ⟨many - 1, by omega⟩
    rw [backoff_succ, backoff_succ]
    split
    · exact ih (by omega) (by omega) (by omega)
    · exact le_rfl

/-- Two doublings reach a ceiling of four intervals, so the loop body runs at most twice. -/
theorem backoff_twice (hFour : ceiling ≤ 4 * interval) (attempts : Nat) :
    backoff ceiling attempts interval = backoff ceiling (min attempts 2) interval := by
  match attempts with
  | 0 | 1 => rfl
  | attempts + 2 =>
    have hMin : min (attempts + 2) 2 = 2 := by omega
    have hDone : ∀ (n : Nat) (x : Int), ceiling ≤ x → backoff ceiling n x = x := by
      intro n x hx
      cases n with
      | zero => rfl
      | succ n => rw [backoff_succ, if_neg (by omega)]
    rw [hMin]
    rw [backoff_succ, backoff_succ, backoff_succ, backoff_succ]
    split
    · split
      · exact hDone _ _ (by omega)
      · rfl
    · rfl

end

theorem interval_bounds {rto age spread : Int} (hPos : 0 ≤ rto) (hTen : rto ≤ 10 * Duration.second)
    (hAge : rto ≤ age) {interval ceiling : Int} (hInterval : interval = max rto spread)
    (hCeiling : ceiling = min (min (4 * interval) (10 * Duration.second)) age) :
    0 ≤ min interval ceiling ∧ rto ≤ min interval ceiling ∧ ceiling ≤ 4 * min interval ceiling := by
  simp only [Duration.second, Duration.millisecond] at *
  omega

theorem retryInterval_start (hValid : e.config.Valid) :
    let interval := max e.config.rto (e.smoothedRTT + 4 * e.rttVariation)
    let ceiling := min (min (4 * interval) (10 * Duration.second)) e.config.maxAge
    0 ≤ min interval ceiling ∧ e.config.rto ≤ min interval ceiling ∧ ceiling ≤ 4 * min interval ceiling :=
  interval_bounds (le_trans (by decide) hValid.rto_pos) hValid.rto_le hValid.rto_le_maxAge rfl rfl

theorem retryInterval_ge (hValid : e.config.Valid) (b : Pending) : e.config.rto ≤ e.retryInterval b := by
  obtain ⟨hPos, hRto, _⟩ := retryInterval_start hValid
  exact hRto.trans (backoff_ge _ hPos (min_le_right _ _))

theorem retryInterval_le (e : Engine) (b : Pending) : e.retryInterval b ≤ min (10 * Duration.second) e.config.maxAge :=
  (backoff_le b.timeouts (min_le_right _ _)).trans (min_le_min_right _ (min_le_right _ _))

theorem retryInterval_mono (hValid : e.config.Valid) {b b' : Pending}
    (h : b.timeouts ≤ b'.timeouts) : e.retryInterval b ≤ e.retryInterval b' := by
  obtain ⟨hPos, _, _⟩ := retryInterval_start hValid
  exact backoff_mono h hPos (min_le_right _ _)

theorem retryInterval_twice (hValid : e.config.Valid) (b : Pending) :
    e.retryInterval b = e.retryInterval { b with timeouts := min b.timeouts 2 } := by
  obtain ⟨_, _, hFour⟩ := retryInterval_start hValid
  exact backoff_twice hFour b.timeouts

/-! ## The same in 64-bit registers -/

/-- `observeRTT` with every sum, difference and product as the register holds it. -/
def observeRTTWord (state : Engine) (sample : Duration) : Engine :=
  if sample ≤ 0 then state
  else
    let sample := min sample state.config.maxAge
    if state.smoothedRTT = 0 then
      { state with smoothedRTT := sample, rttVariation := sample.tdiv 2 }
    else
      let difference := Duration.wrap (state.smoothedRTT - sample)
      let difference := if difference < 0 then Duration.wrap (-difference) else difference
      { state with
        rttVariation := (Duration.wrap (Duration.wrap (3 * state.rttVariation) + difference)).tdiv 4
        smoothedRTT := (Duration.wrap (Duration.wrap (7 * state.smoothedRTT) + sample)).tdiv 8 }

def backoffWord (ceiling : Duration) : Nat → Duration → Duration
  | 0, interval => interval
  | attempts + 1, interval =>
    if interval < ceiling then backoffWord ceiling attempts (min (Duration.wrap (2 * interval)) ceiling)
    else interval

def retryIntervalWord (state : Engine) (block : Pending) : Duration :=
  let interval := max state.config.rto
    (Duration.wrap (state.smoothedRTT + Duration.wrap (4 * state.rttVariation)))
  let ceiling := min (min (Duration.wrap (4 * interval)) (10 * Duration.second)) state.config.maxAge
  backoffWord ceiling block.timeouts (min interval ceiling)

theorem wrap_small {a : Int} (hLow : -10 ^ 15 ≤ a) (hHigh : a ≤ 10 ^ 15) : Duration.wrap a = a :=
  Duration.wrap_of_le (hLow.trans' (by decide)) (hHigh.trans (by decide))

/-- The intermediate values of `observeRTT` fit, since every operand is at most a minute. -/
theorem registers_exact {s v x m : Int} (hs : 0 ≤ s) (hsm : s ≤ m) (hv : 0 ≤ v) (hvm : v ≤ m) (hx : 0 < x)
    (hxm : x ≤ m) (hm : m ≤ 60000000000) :
    Duration.wrap (s - x) = s - x ∧ Duration.wrap (-(s - x)) = -(s - x) ∧ Duration.wrap (3 * v) = 3 * v ∧
      Duration.wrap (7 * s) = 7 * s ∧ Duration.wrap (7 * s + x) = 7 * s + x ∧
      Duration.wrap (3 * v + if s - x < 0 then -(s - x) else s - x) =
        3 * v + if s - x < 0 then -(s - x) else s - x := by
  refine ⟨wrap_small (by omega) (by omega), wrap_small (by omega) (by omega), wrap_small (by omega) (by omega),
    wrap_small (by omega) (by omega), wrap_small (by omega) (by omega), ?_⟩
  apply wrap_small
  · split <;> omega
  · split <;> omega

/-- Those of `retryInterval`, likewise. -/
theorem interval_exact {s v m rto : Int} (hs : 0 ≤ s) (hsm : s ≤ m) (hv : 0 ≤ v) (hvm : v ≤ m)
    (hm : m ≤ Duration.minute) (hPos : 0 ≤ rto) (hTen : rto ≤ 10 * Duration.second) :
    Duration.wrap (4 * v) = 4 * v ∧ Duration.wrap (s + 4 * v) = s + 4 * v ∧
      Duration.wrap (4 * max rto (s + 4 * v)) = 4 * max rto (s + 4 * v) ∧ m ≤ 10 ^ 14 := by
  simp only [Duration.minute, Duration.second, Duration.millisecond] at hm hTen
  exact ⟨wrap_small (by omega) (by omega), wrap_small (by omega) (by omega), wrap_small (by omega) (by omega),
    by omega⟩

theorem observeRTTWord_eq (hValid : e.config.Valid) (h : e.Estimated) (sample : Duration) :
    e.observeRTTWord sample = e.observeRTT sample := by
  have hMinute : (e.config.maxAge : Int) ≤ 60000000000 := hValid.maxAge_le
  unfold observeRTTWord observeRTT
  split
  · rfl
  rename_i hSample
  have hPos : (0 : Int) < min sample e.config.maxAge := lt_min (not_le.mp hSample) (Config.Valid.maxAge_pos hValid)
  have hLe : (min sample e.config.maxAge : Int) ≤ e.config.maxAge := min_le_right _ _
  dsimp only
  split
  · rfl
  · obtain ⟨hDifference, hNegated, hThree, hSeven, hSum, hSpread⟩ := registers_exact h.smoothed_nonneg
      h.smoothed_le h.variation_nonneg h.variation_le hPos hLe hMinute
    rw [hDifference, hNegated, hThree, hSeven, hSum, hSpread]

theorem backoffWord_eq {ceiling : Int} (hCeiling : ceiling ≤ 10 ^ 14) (attempts : Nat) {interval : Int}
    (hPos : 0 ≤ interval) (hLe : interval ≤ ceiling) :
    backoffWord ceiling attempts interval = backoff ceiling attempts interval := by
  induction attempts generalizing interval with
  | zero => rfl
  | succ attempts ih =>
    rw [backoffWord, backoff, wrap_small (by omega) (by omega)]
    split
    · exact ih (by omega) (by omega)
    · rfl

theorem retryIntervalWord_eq (hValid : e.config.Valid) (h : e.Estimated) (b : Pending) :
    e.retryIntervalWord b = e.retryInterval b := by
  obtain ⟨hPos, _, _⟩ := retryInterval_start hValid
  obtain ⟨hFour, hSum, hCeiling, hSmall⟩ := interval_exact h.smoothed_nonneg h.smoothed_le h.variation_nonneg
    h.variation_le hValid.maxAge_le (le_trans (by decide) hValid.rto_pos) hValid.rto_le
  unfold retryIntervalWord retryInterval
  dsimp only
  rw [hFour, hSum, hCeiling]
  exact backoffWord_eq ((min_le_right _ _).trans hSmall) _ hPos (min_le_right _ _)

/-! ## The samples of an ACK -/

def Eligible (packet : Frame) (seq : Nat) (block : Pending) : Prop :=
  acknowledged packet seq = true ∧ block.sacked = false ∧ block.retries = 0

def sampleStep (packet : Frame) (now : Instant) (sample : Duration) (entry : (_ : Nat) × Pending) : Duration :=
  if acknowledged packet entry.1 && !entry.2.sacked && entry.2.retries == 0 then
    let elapsed := now.sub entry.2.first
    if 0 < elapsed ∧ (sample = 0 ∨ elapsed < sample) then elapsed else sample
  else sample

theorem sampleRTT_eq (e : Engine) (packet : Frame) (now : Instant) :
    e.sampleRTT packet now = e.sent.entries.foldl (sampleStep packet now) 0 := rfl

theorem sampleStep_comm (packet : Frame) (now : Instant) (sample : Duration) (a b : (_ : Nat) × Pending) :
    sampleStep packet now (sampleStep packet now sample a) b =
      sampleStep packet now (sampleStep packet now sample b) a := by
  unfold sampleStep
  generalize now.sub a.2.first = first
  generalize now.sub b.2.first = second
  grind

/-- Whatever order the table is walked in, the sample is the same. -/
theorem sampleRTT_perm (e : Engine) (packet : Frame) (now : Instant) {entries : List ((_ : Nat) × Pending)}
    (h : entries.Perm e.sent.entries) : entries.foldl (sampleStep packet now) 0 = e.sampleRTT packet now := by
  rw [sampleRTT_eq]
  exact h.foldl_eq' (fun a _ b _ sample => sampleStep_comm packet now sample a b) 0

theorem sampleRTT_source {packet : Frame} {now : Instant} (h : e.sampleRTT packet now ≠ 0) :
    ∃ seq block, e.sent.lookup seq = some block ∧ Eligible packet seq block ∧
      e.sampleRTT packet now = now.sub block.first := by
  have hFold : ∀ (entries : List ((_ : Nat) × Pending)) (sample : Duration),
      entries.foldl (sampleStep packet now) sample = sample ∨
        ∃ entry ∈ entries, Eligible packet entry.1 entry.2 ∧
          entries.foldl (sampleStep packet now) sample = now.sub entry.2.first := by
    intro entries
    induction entries with
    | nil => exact fun _ => .inl rfl
    | cons entry rest ih =>
      intro sample
      rw [List.foldl_cons]
      have hStep : sampleStep packet now sample entry = sample ∨
          Eligible packet entry.1 entry.2 ∧ sampleStep packet now sample entry = now.sub entry.2.first := by
        unfold sampleStep Eligible
        grind
      rcases ih (sampleStep packet now sample entry) with hSame | ⟨other, hOther, hEligible, hValue⟩
      · rw [hSame]
        rcases hStep with hKept | ⟨hEligible, hValue⟩
        · exact .inl hKept
        · exact .inr ⟨entry, .head _, hEligible, hValue⟩
      · exact .inr ⟨other, .tail _ hOther, hEligible, hValue⟩
  rcases hFold e.sent.entries 0 with hZero | ⟨entry, hEntry, hEligible, hValue⟩
  · exact absurd hZero h
  · exact ⟨entry.1, entry.2, AList.mem_lookup_iff.mpr hEntry, hEligible, hValue⟩

end Engine

end FamilyConnect.ReliableStream
