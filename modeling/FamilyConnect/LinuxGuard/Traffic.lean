import FamilyConnect.LinuxGuard.Containment

/-!
# Traffic while the guard is there

The rules of the installed table, and the order of tables, taken together: what
can leave the machine from an `acquire` to the `release` after it.
-/

namespace FamilyConnect.LinuxGuard

open Lib

/-! ## From one candidate to the next -/

def State.AbsentIn (s : State) (notes : List Note) : Prop := ∃ found, .links found ∈ notes ∧ s.absentFrom found = true

def Cleared (s₁ s₂ : State) (between : List Note) : Prop :=
  ∃ recent b waiting, between = recent ++ .installed b :: waiting ∧ b.mode = .blocked ∧
    s₁.AbsentIn recent ∧ s₂.AbsentIn recent

structure Follows (trace : List Note) (s₁ s₂ : State) (between : List Note) : Prop where
  split : ∃ later earlier, trace = later ++ .installed s₂ :: (between ++ .installed s₁ :: earlier)
  blocked : ∀ s, .installed s ∈ between → s.mode = .blocked
  kept : .removed ∉ between

variable {s : State} {trace : List Note}

section

variable {s₁ s₂ : State} {between : List Note}

def Phase.Since (s₁ : State) (between : List Note) : Phase → Prop
  | .free => False
  | .ready s => s = s₁
  | .blocked s => s = s₁ ∧ ∃ recent b waiting, between = recent ++ .installed b :: waiting ∧ b.mode = .blocked
  | .checked s => s = s₁ ∧ ∃ recent b waiting, between = recent ++ .installed b :: waiting ∧ b.mode = .blocked ∧
      s₁.AbsentIn recent

theorem State.AbsentIn.cons {notes : List Note} (h : s.AbsentIn notes) (note : Note) : s.AbsentIn (note :: notes) := by
  obtain ⟨found, hMem, hAbsent⟩ := h
  exact ⟨found, .tail _ hMem, hAbsent⟩

theorem Phase.Since.cons {p : Phase} (h : p.Since s₁ between) (note : Note) : p.Since s₁ (note :: between) := by
  cases p with
  | free | ready s => exact h
  | blocked s =>
    obtain ⟨hSame, recent, b, waiting, hSplit, hMode⟩ := h
    exact ⟨hSame, note :: recent, b, waiting, by rw [hSplit]; rfl, hMode⟩
  | checked s =>
    obtain ⟨hSame, recent, b, waiting, hSplit, hMode, hAbsent⟩ := h
    exact ⟨hSame, note :: recent, b, waiting, by rw [hSplit]; rfl, hMode, hAbsent.cons note⟩

theorem since_ready (hReady : s₁.mode = .ready) (earlier : List Note)
    (hBlocked : ∀ s, .installed s ∈ between → s.mode = .blocked) (hKept : .removed ∉ between) :
    (phase (between ++ .installed s₁ :: earlier)).Since s₁ between := by
  induction between with
  | nil =>
    change ((phase earlier).next (.installed s₁)).Since s₁ []
    simp [Phase.next, hReady, Phase.Since]
  | cons note between ih =>
    have hBefore := ih (fun s hMem => hBlocked s (.tail _ hMem)) fun hMem => hKept (.tail _ hMem)
    rw [List.cons_append, phase]
    cases note with
    | removed => exact absurd (.head _) hKept
    | live link =>
      have hSame : (phase (between ++ .installed s₁ :: earlier)).next (.live link) = phase
          (between ++ .installed s₁ :: earlier) := by
        cases phase (between ++ .installed s₁ :: earlier) <;> rfl
      rw [hSame]
      exact hBefore.cons _
    | installed b =>
      have hMode := hBlocked b (.head _)
      cases hPhase : phase (between ++ .installed s₁ :: earlier) with
      | free =>
        rw [hPhase] at hBefore
        exact hBefore.elim
      | ready s =>
        rw [hPhase] at hBefore
        simp only [Phase.next, hMode]
        exact ⟨hBefore, [], b, between, rfl, hMode⟩
      | blocked s | checked s =>
        rw [hPhase] at hBefore
        simp only [Phase.next, hMode]
        exact hBefore.cons _
    | links found =>
      cases hPhase : phase (between ++ .installed s₁ :: earlier) with
      | free =>
        rw [hPhase] at hBefore
        exact hBefore.elim
      | ready s | checked s =>
        rw [hPhase] at hBefore
        exact hBefore.cons _
      | blocked s =>
        rw [hPhase] at hBefore
        rw [Phase.next]
        split
        · rename_i hAbsent
          obtain ⟨rfl, recent, b, waiting, hSplit, hMode⟩ := hBefore
          exact ⟨rfl, .links found :: recent, b, waiting, by rw [hSplit]; rfl, hMode, found, .head _, hAbsent⟩
        · exact hBefore.cons _

theorem absentIn_of_now {b : State} {recent rest : List Note}
    (h : absentNow s (recent ++ .installed b :: rest) = true) : s.AbsentIn recent := by
  induction recent with
  | nil => cases h
  | cons note recent ih =>
    cases note with
    | installed s' | removed => cases h
    | live link => exact (ih h).cons _
    | links found =>
      rw [List.cons_append, absentNow, Bool.or_eq_true] at h
      rcases h with hNow | hLater
      · exact ⟨found, .head _, hNow⟩
      · exact (ih hLater).cons _

theorem Handed.cleared (h : Handed trace) (hFollows : Follows trace s₁ s₂ between) (hReady : s₁.mode = .ready)
    (hNext : s₂.mode ≠ .blocked) : Cleared s₁ s₂ between := by
  obtain ⟨later, earlier, hSplit⟩ := hFollows.split
  have hAdmits := h later s₂ _ hSplit hNext
  have hSince := since_ready hReady earlier hFollows.blocked hFollows.kept
  cases hPhase : phase (between ++ .installed s₁ :: earlier) with
  | free =>
    rw [hPhase] at hSince
    exact hSince.elim
  | ready s | blocked s =>
    rw [hPhase] at hAdmits
    exact hAdmits.elim
  | checked s =>
    rw [hPhase] at hSince hAdmits
    obtain ⟨-, recent, b, waiting, hBetween, hMode, hAbsent⟩ := hSince
    have hNow : absentNow s₂ (between ++ .installed s₁ :: earlier) = true := hAdmits
    rw [hBetween, List.append_assoc, List.cons_append] at hNow
    exact ⟨recent, b, waiting, hBetween, hMode, hAbsent, absentIn_of_now hNow⟩

end

/-! ## Containment -/

structure State.Tunnels (s : State) (trace : List Note) (p : Packet) : Prop where
  mode : s.mode = .ready
  link : ∃ link, .live link ∈ trace ∧ s.live link = true ∧ p.oif = link.ifindex ∧ p.oifname = link.ifname
  family : p.nfproto = 2 ∨ p.nfproto = 10 ∧ s.ipv6 = true

structure Contains (trace : List Note) (s : State) (table : List Object) : Prop where
  drops : ∀ hook, table.findSome? (Object.default hook) = some .drop
  user : ∀ p : Packet, p.hook = .output → p.skuid ≠ some 0 → p.oifname ≠ "lo" → accepts table p = true →
    p.NeighbourDiscovery ∨ s.Tunnels trace p
  forwarded : s.mode ≠ .ready → ∀ p : Packet, p.hook = .forward → accepts table p = false

theorem State.eq_of_live {link : Link} (h : s.live link = true) :
    s.selected.map (·.interface) = some link.ifname ∧ link.ifindex = s.index := by
  unfold State.live at h
  split at h
  · rename_i c hSelected
    simp only [Bool.and_eq_true, beq_iff_eq] at h
    rw [hSelected, h.1.1.1]
    exact ⟨rfl, h.1.1.2⟩
  · cases h

theorem State.Leaves.tunnels {p : Packet} (h : s.Leaves p)
    (hLive : ∃ link, .live link ∈ trace ∧ s.live link = true) : s.Tunnels trace p := by
  obtain ⟨link, hMem, hLink⟩ := hLive
  obtain ⟨hName, hIndex⟩ := State.eq_of_live hLink
  refine ⟨h.mode, ⟨link, hMem, hLink, ?_, ?_⟩, h.family⟩
  · rw [hIndex]
    exact h.index
  · exact Option.some.inj (h.interface.symm.trans hName)

theorem lastInstalled_mem (h : lastInstalled trace = some s) : .installed s ∈ trace := by
  induction trace with
  | nil => cases h
  | cons note trace ih =>
    cases note with
    | installed s' =>
      cases h
      exact .head _
    | removed => cases h
    | links found | live link => exact .tail _ (ih h)

theorem World.Inv.contains {w : World} (h : w.Inv) (hContained : w.contained = true) :
    ∃ j s, w.journal = some j ∧ w.table = some (objects j.generation s) ∧
      Contains w.trace s (objects j.generation s) := by
  obtain ⟨s, hLast⟩ := Option.isSome_iff_exists.mp (h.contained hContained)
  obtain ⟨j, hJournal, hTable, -⟩ := h.installed s hLast
  refine ⟨j, s, hJournal, hTable, default_objects j.generation s, ?_, fun hMode p => not_forwarded hMode⟩
  intro p hHook hUser hInterface hAccepts
  refine (leaves_of_accepts hAccepts hHook hUser hInterface).imp_right fun hLeaves => ?_
  exact hLeaves.tunnels (h.live s (lastInstalled_mem hLast) hLeaves.mode)

/-! ## A change of candidates in which the links come and go -/

def sampleTCP : Candidate := ⟨.tcp, "fctcp01234567", some 0x08080808, some 443⟩

def meshLink : Link := ⟨"fcmesh0", 5, true, .tun⟩

def tcpLink : Link := ⟨"fctcp01234567", 6, true, .tun⟩

def meshReady : State := ⟨.ready, some sampleMesh, 5, false, by decide +kernel⟩

def tcpProbe : State := ⟨.probe, some sampleTCP, 0, false, by decide +kernel⟩

def changing : World :=
  [Move.start sampleOwner, .perform .acquire (seeing 22 []), .perform (.prepare sampleMesh) (seeing 30 []),
    .perform (.ready 5 false) (seeing 30 [meshLink]), .perform .block (seeing 30 [meshLink, tcpLink]),
    .perform (.prepare sampleTCP) (seeing 4 [meshLink, tcpLink] ++ seeing 1 [tcpLink] ++ seeing 1 [meshLink] ++
      seeing 9 [meshLink, tcpLink])].foldl World.move { table := none }

def changingNotes : List Note := (changing.trace.drop 1).take 35

theorem reachable_changing : (guardSystem (fun _ => True) none).Reachable changing :=
  reachable_moves (.start rfl) fun _ _ _ _ => trivial

theorem follows_changing : Follows changing.trace meshReady tcpProbe changingNotes := by
  refine ⟨⟨[], changing.trace.drop 37, by decide +kernel⟩, fun s hMem => ?_, by decide +kernel⟩
  have hBlocked : ∀ note ∈ changingNotes, ∀ s ∈ lastInstalled [note], s.mode = .blocked := by decide +kernel
  exact hBlocked _ hMem s rfl

/-- While a guard contains the traffic, the table is that of a policy state and lets through only
what this state allows. Between two candidates the traffic is blocked, and each of the two links was
seen to be absent. -/
theorem guard_contains {allowed : Choice → Prop} {table : Option (List Object)} {w : World}
    (hReachable : (guardSystem allowed table).Reachable w) :
    (w.contained = true → ∃ j s, w.journal = some j ∧ w.table = some (objects j.generation s) ∧
      Contains w.trace s (objects j.generation s)) ∧
    ∀ s₁ s₂ between, Follows w.trace s₁ s₂ between → s₁.mode = .ready → s₂.mode ≠ .blocked → Cleared s₁ s₂ between := by
  have hInv := World.Inv.reachable hReachable
  constructor
  · exact hInv.contains
  · intro s₁ s₂ between hFollows
    exact hInv.handed.cleared hFollows

/-- While the tables between the two candidates were installed, one of the links was always there. -/
theorem guard_links_overlap : ∃ w, (guardSystem (fun _ => True) none).Reachable w ∧ w.contained = true ∧
    ∃ s₁ s₂ between, Follows w.trace s₁ s₂ between ∧ s₁.mode = .ready ∧ s₂.mode = .probe ∧ s₁.selected ≠ s₂.selected ∧
      ∀ found, .links found ∈ between → ¬(s₁.absentFrom found = true ∧ s₂.absentFrom found = true) := by
  refine ⟨changing, reachable_changing,
    by decide +kernel, meshReady, tcpProbe, changingNotes, follows_changing, rfl, rfl, by decide, fun found hMem => ?_⟩
  have hOverlap : ∀ note ∈ changingNotes, absentNow meshReady [note] = false ∨ absentNow tcpProbe [note] = false := by
    decide +kernel
  rintro ⟨hMesh, hTCP⟩
  have hNote := hOverlap _ hMem
  simp [absentNow, hMesh, hTCP] at hNote

theorem guard_contains_changing : (∃ j s, changing.journal = some j ∧ changing.table = some (objects j.generation s) ∧
    Contains changing.trace s (objects j.generation s)) ∧ Cleared meshReady tcpProbe changingNotes :=
  have hContains := guard_contains reachable_changing
  ⟨hContains.1 (by decide +kernel), hContains.2 meshReady tcpProbe changingNotes follows_changing rfl nofun⟩

end FamilyConnect.LinuxGuard
