import FamilyConnect.LinuxGuard.Containment

/-!
# Recovery

While nothing fails, but processes die, the journal names the state of the
installed table, and the next `acquire` blocks. There is one gap: an `acquire`
writes its own intent over the one that it found, so when it dies before its
transaction, the rules of the interrupted operation are no longer recognised.
-/

namespace FamilyConnect.LinuxGuard

open Lib Program

def Faultless (choice : Choice) : Prop := choice.fault = .none

theorem not_faulty : ¬Faulty Faultless := by
  rintro ⟨choice, hNone, hFault⟩
  exact hFault hNone

structure World.Covered (w : World) : Prop where
  missing : w.journal = none → w.table = none
  covers : ∀ j t, w.journal = some j → w.table = some t → ∃ s ∈ j.choices, t = objects j.generation s

/-- The rules of an interrupted `prepare` or `ready` were installed, and another intent has replaced
the one that names them. -/
structure Torn (w w' : World) : Prop where
  found : ∃ j s, w.journal = some j ∧ j.pending = some (.apply s) ∧ s.mode ≠ .blocked ∧
    w.table = some (objects j.generation s)
  intent : w'.journal ≠ w.journal
  rules : w'.table = w.table

theorem World.Covered.same {w w' : World} (h : w.Covered) (hJournal : w'.journal = w.journal)
    (hTable : w'.table = w.table) : w'.Covered := by
  constructor
  case missing =>
    rw [hJournal, hTable]
    exact h.missing
  case covers =>
    rw [hJournal, hTable]
    exact h.covers

theorem World.Covered.stably {w : World} (h : w.Covered) : w.Stably World.Covered :=
  fun _ hSteady => h.same hSteady.journal hSteady.table

variable {w : World}

theorem covered_of_mem {j : Journal} {s : State} (hJournal : w.journal = some j) (hMem : s ∈ j.choices)
    (hTable : w.table = some (objects j.generation s)) : w.Covered := by
  constructor
  case missing =>
    intro hNone
    rw [hJournal] at hNone
    cases hNone
  case covers =>
    intro j' t hJ hT
    rw [← Option.some.inj (hJournal.symm.trans hJ)]
    exact ⟨s, hMem, (Option.some.inj (hTable.symm.trans hT)).symm⟩

theorem covered_of_none (hTable : w.table = none) : w.Covered := by
  constructor
  case missing => exact fun _ => hTable
  case covers =>
    intro j t _ hT
    rw [hTable] at hT
    cases hT

theorem State.idle (s : State) (hMode : s.mode ≠ .ready) : s.index = 0 ∧ s.ipv6 = false := by
  have hValid := s.valid
  unfold policyCheck at hValid
  split at hValid
  · cases hValid
  · split at hValid
    · cases hValid
    · simp [hMode] at hValid
      grind

theorem State.eq_of_blocked {s s' : State} (hMode : s.mode = .blocked) (hMode' : s'.mode = .blocked)
    (hSelected : s.selected = s'.selected) : s = s' := by
  obtain ⟨hIndex, hIPv6⟩ := s.idle (by rw [hMode]; nofun)
  obtain ⟨hIndex', hIPv6'⟩ := s'.idle (by rw [hMode']; nofun)
  cases s
  cases s'
  simp_all

section

variable {w₀ w : World} {o : Owner} {s : State}

def World.Mends (w₀ w : World) : Prop := w.Covered ∨ Torn w₀ w

theorem World.Covered.mends (h : w.Covered) : w.Stably w₀.Mends := fun w' hSteady => .inl (h.stably w' hSteady)

theorem World.Mends.stably (w : World) (h : w₀.Mends w) : w.Stably w₀.Mends := by
  intro w' hSteady
  rcases h with hCovered | hTorn
  · exact hCovered.mends w' hSteady
  · refine .inr ⟨hTorn.found, ?_, hSteady.table.trans hTorn.rules⟩
    rw [hSteady.journal]
    exact hTorn.intent

variable {value : Journal}

theorem mends_applyState (hNow : w.Covered) (hGranted : Granted o s w value)
    (hIntent : ∀ w', w'.journal = some (intent o value s) → w'.table = w.table → w₀.Mends w') :
    Ensures Faultless w₀.Mends (applyState o s) (fun result w' => result = .ok () ∧
      w'.journal = some (outcome o s) ∧ w'.table = some (objects o.generation s)) w := by
  have hSame : ∀ value', Granted o s w value' → value' = value :=
    fun value' hGranted' => Option.some.inj (hGranted'.record.symm.trans hGranted.record)
  refine ensures_applyState (.inl hNow) World.Mends.stably ?_ ?_ ?_ ?_
  · rintro (hFaulty | hNot) failure w' _
    · exact absurd hFaulty not_faulty
    · exact absurd hGranted (hNot value)
  · intro value' w' hGranted' hSteady
    rw [hSame value' hGranted']
    exact ⟨hIntent _ rfl hSteady.table, hIntent _ rfl hSteady.table⟩
  · intro value' w₁ w₂ _ _ h₂
    exact .inl (covered_of_mem h₂.journal (by simp [Journal.choices, intent, Pending.state]) rfl)
  · intro value' w₁ w₂ w₃ _ _ _ h₃
    have hMem : s ∈ (outcome o s).choices := mem_choices_current rfl
    have hTable : w₃.table = some (objects o.generation s) := h₃.table
    exact ⟨.inl (covered_of_mem rfl hMem hTable), .inl (covered_of_mem rfl hMem hTable), rfl, rfl, hTable⟩

section

variable (h : w.Runs o)
include h

/-- A journal without a pending operation names exactly the table. -/
theorem World.Runs.settled_table {current : State} (hSettles : Settles w value current) :
    w.table = some (objects o.generation current) := by
  have hLast := h.inv.settled value current hSettles.journal hSettles.pending hSettles.current
  obtain ⟨j, hJournal, hTable, -⟩ := h.inv.installed current hLast
  rw [← h.inv.owner o value h.owner hSettles.record, ← Option.some.inj (hJournal.symm.trans hSettles.journal)]
  exact hTable

theorem mends_next {current : State} (hSettles : Settles w value current) (s : State) :
    Ensures Faultless w₀.Mends (applyState o s) (fun _ w' => w'.Covered) w := by
  have hTable := h.settled_table hSettles
  have hMem := mem_choices_current hSettles.current
  have hGranted : Granted o s w value := by
    refine ⟨hSettles.held, hSettles.record, hSettles.journal, fun hNone => ?_, fun installed hInstalled => ?_⟩
    · rw [hTable] at hNone
      cases hNone
    · exact ⟨current, hMem, (Option.some.inj (hTable.symm.trans hInstalled)).symm⟩
  have hNow : w.Covered := by
    refine covered_of_mem hSettles.journal hMem ?_
    rw [h.inv.owner o value h.owner hSettles.record]
    exact hTable
  refine (mends_applyState hNow hGranted fun w' hJournal hSame => ?_).mono fun result w' _ hPost => ?_
  · refine .inl (covered_of_mem (s := current) hJournal ?_ (hSame.trans hTable))
    exact mem_choices_current hSettles.current
  · obtain ⟨-, hJournal, hTable'⟩ := hPost
    exact covered_of_mem hJournal (mem_choices_current rfl) hTable'

theorem mends_block (hCovered : w.Covered) : Ensures Faultless w₀.Mends (block o) (fun _ w' => w'.Covered) w := by
  refine ensures_bind (ensures_settled hCovered.mends (fun _ => hCovered.stably) ?_)
  intro value current w₁ h₁ hSettles
  have hCovered₁ := hCovered.stably _ h₁
  refine ensures_bind (ensures_ofExcept (.inl hCovered₁) ?_)
  split
  · exact mends_next (h.stably w₁ h₁) hSettles _
  · exact hCovered₁

theorem mends_prepare (hCovered : w.Covered) (selected : Candidate) :
    Ensures Faultless w₀.Mends (prepare o selected) (fun _ w' => w'.Covered) w := by
  refine ensures_bind (ensures_ofExcept (.inl hCovered) ?_)
  split
  · rename_i next _
    refine ensures_bind (ensures_settled hCovered.mends (fun _ => hCovered.stably) ?_)
    intro value current w₁ h₁ hSettles
    have hCovered₁ := hCovered.stably _ h₁
    dsimp only
    split
    · exact ensures_throw (.inl hCovered₁) hCovered₁
    have hAbsent : ∀ selected w₂, w₁.Steady w₂ →
        Ensures Faultless w₀.Mends (absent selected) (fun _ w' => w₁.Steady w') w₂ := by
      intro selected w₂ h₂
      exact ensures_absent (h₂.stably hCovered₁.mends) (fun _ w' hS => h₂.trans hS) (fun _ => h₂)
        fun _ choice _ _ => h₂.trans (.observe w₂ choice)
    refine ensures_step (hAbsent _ w₁ (.refl w₁)) (fun _ w₂ _ h₂ => hCovered₁.stably _ h₂) fun _ w₂ _ h₂ => ?_
    refine ensures_bind ((hAbsent _ w₂ h₂).mono fun result w₃ _ h₃ => ?_)
    cases result with
    | error failure => exact hCovered₁.stably _ h₃
    | ok _ => exact mends_next (h.stably w₃ (h₁.trans h₃)) (hSettles.steady h₃) next
  · exact hCovered

theorem mends_ready (hCovered : w.Covered) (index : Nat) (ipv6 : Bool) :
    Ensures Faultless w₀.Mends (ready o index ipv6) (fun _ w' => w'.Covered) w := by
  refine ensures_bind (ensures_settled hCovered.mends (fun _ => hCovered.stably) ?_)
  intro value current w₁ h₁ hSettles
  have hCovered₁ := hCovered.stably _ h₁
  dsimp only
  split
  · exact ensures_throw (.inl hCovered₁) hCovered₁
  refine ensures_bind (ensures_ofExcept (.inl hCovered₁) ?_)
  split
  · rename_i next _
    refine ensures_bind (ensures_verifyTun hCovered₁.mends (fun _ => hCovered₁.stably) ?_)
    intro link w₂ h₂ _ _
    exact mends_next (h.stably w₂ (h₁.trans h₂)) (hSettles.steady h₂) next
  · exact hCovered₁

theorem mends_release (hCovered : w.Covered) :
    Ensures Faultless w₀.Mends (release o) (fun _ w' => w'.Covered) w := by
  refine ensures_bind (ensures_settled hCovered.mends (fun _ => hCovered.stably) ?_)
  intro value current w₁ h₁ hSettles
  have hCovered₁ := hCovered.stably _ h₁
  have hLooks : World.Stably _ w₀.Mends := hCovered₁.mends
  have hTable := (h.stably w₁ h₁).settled_table hSettles
  dsimp only
  split
  · exact ensures_throw (.inl hCovered₁) hCovered₁
  have hAbsent : Ensures Faultless w₀.Mends (absent current.selected) (fun _ w' => w₁.Steady w') w₁ :=
    ensures_absent hLooks (fun _ _ hS => hS) (fun _ => .refl w₁) fun _ choice _ _ => .observe w₁ choice
  refine ensures_step hAbsent (fun _ w₂ _ h₂ => hCovered₁.stably _ h₂) fun _ w₂ _ h₂ => ?_
  refine ensures_bind (ensures_readOwned (h₂.stably hLooks) (h₂.record.trans hSettles.record)
    (fun _ _ => h₂.stably hCovered₁.stably) fun w₃ h₃ _ => ?_)
  have h₃ := h₂.trans h₃
  -- The intent of a release still names the state of the table.
  have hSaved : ∀ w' : World, w'.journal = some ⟨o.uid, o.generation, some current, some .release⟩ →
      w'.table = w₁.table → w'.Covered :=
    fun w' hJournal hSame => covered_of_mem hJournal (mem_choices_current rfl) (hSame.trans hTable)
  refine ensures_bind (ensures_save (h₃.stably hLooks) (fun w' hS => .inl (hSaved _ rfl (h₃.trans hS).table))
    (fun w' hS => .inl (hSaved _ rfl (h₃.trans hS).table)) not_faulty.elim fun w₄ h₄ => ?_)
  have hCovered₄ := hSaved (w₄.saved ⟨o.uid, o.generation, some current, some .release⟩) rfl (h₃.trans h₄).table
  have hDeleted : Ensures Faultless w₀.Mends (if w₂.table ≠ none then apply [.delete] none else pure ())
      (fun _ w' => w'.Covered) (w₄.saved ⟨o.uid, o.generation, some current, some .release⟩) := by
    split
    · refine ensures_apply none ?_ hCovered₄.mends (fun _ _ => .inl (covered_of_none rfl))
        not_faulty.elim fun _ _ => covered_of_none rfl
      change transaction [.delete] w₄.table = some none
      rw [(h₃.trans h₄).table, hTable]
      rfl
    · exact ensures_pure (.inl hCovered₄) hCovered₄
  refine ensures_step hDeleted (fun _ w₅ _ hCovered₅ => hCovered₅) fun _ w₅ _ hCovered₅ => ?_
  refine ensures_bind (ensures_read hCovered₅.mends (fun _ => hCovered₅.stably) fun w₆ h₆ => ?_)
  dsimp only
  split
  · exact ensures_throw (.inl (hCovered₅.stably _ h₆)) (hCovered₅.stably _ h₆)
  rename_i hNone
  have hTable₆ : w₆.table = none := h₆.table.trans (not_not.mp hNone)
  have hGone : ∀ w', w₆.Steady w' → { w' with journal := none }.Covered :=
    fun w' hS => covered_of_none (hS.table.trans hTable₆)
  refine ensures_bind (ensures_unlink (fun w' hS => .inl (covered_of_none (hS.table.trans hTable₆)))
    (fun w' hS => .inl (hGone w' hS))
    not_faulty.elim fun w₇ h₇ => ?_)
  have hCovered₇ := hGone w₇ h₇
  refine ensures_bind (ensures_outside rfl hCovered₇.mends not_faulty.elim
    fun _ w₈ h₈ => ?_)
  have hCovered₈ := hCovered₇.stably _ h₈
  exact ensures_setRecord (.inl hCovered₈) (fun w' hS => .inl ((hCovered₈.stably _ hS).same rfl rfl))
    fun w' hS => (hCovered₈.stably _ hS).same rfl rfl

end

/-! ## `acquire` -/

def World.Matches (w : World) (o : Owner) : Prop :=
  ∀ j, w.journal = some j → j.uid = o.uid ∧ j.generation = o.generation

def World.Recovered (w : World) (o : Owner) : Prop :=
  ∃ s : State, s.mode = .blocked ∧ w.journal = some ⟨o.uid, o.generation, some s, none⟩ ∧
    w.table = some (objects o.generation s)

structure Loaded (o : Owner) (w w' : World) (value : Journal) : Prop where
  held : w'.held = w.held
  table : w'.table = w.table
  record : w'.record = some value
  journal : w'.journal = some value
  generation : value.generation = o.generation
  origin : w.journal = some value ∨ w.table = none

theorem Loaded.steady {w' w'' : World} (hSteady : w'.Steady w'') (h : Loaded o w w' value) : Loaded o w w'' value :=
  ⟨hSteady.held.trans h.held, hSteady.table.trans h.table, hSteady.record.trans h.record,
    hSteady.journal.trans h.journal, h.generation, h.origin⟩

theorem mends_loadRecord (hCovered : w.Covered) :
    Ensures Faultless w₀.Mends (loadRecord o) (fun result w' => w'.Covered ∧
      match result with | .ok _ => ∃ value, Loaded o w w' value | .error _ => ¬w.Matches o) w := by
  have hLooks : World.Stably _ w₀.Mends := hCovered.mends
  refine ensures_bind (ensures_attemptRead hLooks not_faulty.elim ?_ ?_)
  · intro w₁ h₁ hJournal
    have hTable := hCovered.missing hJournal
    refine ensures_bind (ensures_read (h₁.stably hLooks) not_faulty.elim fun w₂ h₂ => ?_)
    have h₂ := h₁.trans h₂
    dsimp only
    rw [if_neg (not_not.mpr (h₁.table.trans hTable))]
    have hSaved : ∀ w' : World, w'.table = w.table → w'.Covered := fun w' hSame => covered_of_none (hSame.trans hTable)
    refine ensures_save (h₂.stably hLooks) (fun w' hS => .inl (hSaved _ (h₂.trans hS).table))
      (fun w' hS => .inl (hSaved _ (h₂.trans hS).table)) not_faulty.elim fun w₃ h₃ => ?_
    have h₃ := h₂.trans h₃
    exact ⟨hSaved _ h₃.table, _, h₃.held, h₃.table, rfl, rfl, rfl, .inr hTable⟩
  · intro value w₁ h₁ hJournal
    have hCovered₁ := hCovered.stably _ h₁
    dsimp only
    split
    · rename_i hOther
      refine ensures_throw (.inl hCovered₁) ⟨hCovered₁, fun hMatches => ?_⟩
      obtain ⟨hUid, hGeneration⟩ := hMatches value hJournal
      exact hOther.elim (absurd hUid) (absurd hGeneration)
    · rename_i hOwner
      refine ensures_setRecord (.inl hCovered₁) (fun w' hS => .inl
        ((hCovered₁.stably _ hS).same rfl rfl)) fun w₂ h₂ => ?_
      have h₂ := h₁.trans h₂
      exact ⟨(hCovered.stably _ h₂).same rfl rfl, value, h₂.held, h₂.table, rfl, h₂.journal.trans hJournal,
        not_not.mp (not_or.mp hOwner).2, .inl hJournal⟩

theorem Loaded.recognised {w' : World} (h : Loaded o w w' value) (hCovered : w'.Covered) :
    Recognised o value true w'.table := by
  refine ⟨fun _ => .inr rfl, fun installed hInstalled => ?_⟩
  rw [← h.generation]
  exact hCovered.covers value installed h.journal hInstalled

theorem mem_choices_cases {s' : State} (h : s' ∈ value.choices) :
    value.current = some s' ∨ value.pending = some (.apply s') := by
  rw [Journal.choices, List.mem_append, Option.mem_toList, Option.mem_toList] at h
  refine h.imp_right fun hPending => ?_
  obtain ⟨pending, hSome, hState⟩ := Option.bind_eq_some_iff.mp hPending
  cases pending with
  | release => cases hState
  | apply s =>
    rw [hSome, Option.some.inj hState]

/-- The intent of `acquire` names the table, or tears it from the journal. -/
theorem Loaded.mends {w' w'' : World} (h : Loaded o w w' value) (hSteady : w₀.Steady w) (hCovered : w'.Covered)
    (hPolicy : policy .blocked (((value.pending.bind Pending.state).or value.current).bind
      (·.selected)) 0 false = .ok s)
    (hJournal : w''.journal = some (intent o value s)) (hTable : w''.table = w'.table) : w₀.Mends w'' := by
  obtain ⟨hMode, hSelected, -, -⟩ := policy_eq_ok hPolicy
  cases hInstalled : w'.table with
  | none => exact .inl (covered_of_none (hTable.trans hInstalled))
  | some installed =>
    obtain ⟨s', hMem, hObjects⟩ := hCovered.covers value installed h.journal hInstalled
    rw [h.generation] at hObjects
    have hThere : w''.table = some (objects o.generation s') := by rw [hTable, hInstalled, hObjects]
    rcases mem_choices_cases hMem with hCurrent | hPending
    · exact .inl (covered_of_mem hJournal (mem_choices_current hCurrent) hThere)
    · by_cases hBlocked : s'.mode = .blocked
      · have hSame : s = s' := by
          refine State.eq_of_blocked hMode hBlocked ?_
          rw [hSelected, hPending]
          rfl
        rw [← hSame] at hThere
        exact .inl (covered_of_mem hJournal (by simp [Journal.choices, intent, Pending.state]) hThere)
      · have hOrigin : w.journal = some value := by
          refine h.origin.resolve_right fun hNone => ?_
          rw [← h.table, hInstalled] at hNone
          cases hNone
        have hStart : w₀.journal = some value := hSteady.journal.symm.trans hOrigin
        have hRules : w'.table = w₀.table := h.table.trans hSteady.table
        refine .inr ⟨⟨value, s', hStart, hPending, hBlocked, ?_⟩, ?_, hTable.trans hRules⟩
        · rw [← hRules, hInstalled, hObjects, h.generation]
        · rw [hJournal, hStart]
          intro hEqual
          rw [← Option.some.inj hEqual] at hPending
          have hSame : s = s' := by simpa [intent] using hPending
          rw [hSame] at hMode
          exact hBlocked hMode

theorem mends_acquire (hSteady : w₀.Steady w) (hCovered : w.Covered) :
    Ensures Faultless w₀.Mends (acquire o) (fun result w' => w'.Covered ∧
      (w.held = true → w.record = none → w.Matches o → result = .ok () ∧ w'.Recovered o)) w := by
  have hLooks : World.Stably _ w₀.Mends := hCovered.mends
  refine ensures_bind (ensures_locked hLooks fun w₁ h₁ => ?_)
  refine ensures_bind (ensures_record (h₁.stably hLooks) fun w₂ h₂ => ?_)
  have h₂ := h₁.trans h₂
  have hCovered₂ := hCovered.stably _ h₂
  dsimp only
  split
  · rename_i hRefused
    refine ensures_throw (.inl hCovered₂) ⟨hCovered₂, fun hHeld hFree => ?_⟩
    rw [hHeld, h₁.record, hFree] at hRefused
    simp at hRefused
  rename_i hFree
  have hHeld : w.held = true := by
    rw [not_or, Bool.not_eq_false] at hFree
    exact hFree.1
  refine ensures_bind ((mends_loadRecord hCovered₂).mono fun result w₃ _ hPost => ?_)
  obtain ⟨hCovered₃, hResult⟩ := hPost
  cases result with
  | error failure =>
    refine ⟨hCovered₃, fun _ _ hMatches => absurd ?_ hResult⟩
    intro j hJ
    exact hMatches j (h₂.journal.symm.trans hJ)
  | ok _ =>
    obtain ⟨value, hLoaded⟩ := hResult
    have hLooks₃ : World.Stably _ w₀.Mends := hCovered₃.mends
    have hRecognised := hLoaded.recognised hCovered₃
    refine ensures_bind (ensures_readOwned hLooks₃ hLoaded.record ?_ fun w₄ h₄ _ => ?_)
    · rintro (hFaulty | hNot)
      · exact absurd hFaulty not_faulty
      · exact absurd hRecognised hNot
    refine ensures_bind (ensures_theRecord (h₄.stably hLooks₃) (h₄.record.trans hLoaded.record) fun w₅ h₅ => ?_)
    have h₅ := h₄.trans h₅
    have hCovered₅ := hCovered₃.stably _ h₅
    have hLoaded₅ := hLoaded.steady h₅
    have hValid : (((value.pending.bind Pending.state).or value.current).bind (·.selected)).bind
        Candidate.check = none := by
      cases (value.pending.bind Pending.state).or value.current with
      | none => rfl
      | some previous => exact previous.selected_valid
    obtain ⟨s, hPolicy⟩ := policy_blocked hValid
    obtain ⟨hMode, -, -, -⟩ := policy_eq_ok hPolicy
    refine ensures_bind (ensures_ofExcept (.inl hCovered₅) ?_)
    rw [hPolicy]
    have hGranted : Granted o s w₅ value := by
      refine ⟨hLoaded₅.held.trans (h₂.held.trans hHeld), hLoaded₅.record, hLoaded₅.journal, ?_⟩
      rw [decide_eq_true hMode]
      exact hLoaded₅.recognised hCovered₅
    have hIntent : ∀ w' : World, w'.journal = some (intent o value s) → w'.table = w₅.table → w₀.Mends w' :=
      fun w' => hLoaded₅.mends (hSteady.trans h₂) hCovered₅ hPolicy
    refine ensures_bind ((mends_applyState hCovered₅ hGranted hIntent).mono fun result w₆ _ hPost => ?_)
    obtain ⟨rfl, hJournal, hTable⟩ := hPost
    have hCovered₆ : w₆.Covered := covered_of_mem hJournal (mem_choices_current rfl) hTable
    refine ensures_perform (.inl hCovered₆) fun choice _ => ?_
    have hCovered₇ := hCovered₆.stably _ (.observe w₆ choice)
    exact ⟨.inl (hCovered₇.same rfl rfl), hCovered₇.same rfl rfl, fun _ _ _ => ⟨rfl, s, hMode, hJournal, hTable⟩⟩

/-! ## Whole runs -/

structure World.Whole (o : Owner) (w : World) : Prop where
  runs : w.Runs o
  covered : w.Covered

theorem guarded_whole (o : Owner) (w₀ : World) :
    Guarded Faultless (fun w => w.Runs o ∧ w₀.Mends w) (World.Whole o) o w₀ where
  now _ h := ⟨h.runs, .inl h.covered⟩
  steady _ w' hSteady h := ⟨h.runs.stably w' hSteady, h.covered.stably w' hSteady⟩
  acquire _ hSteady h := (h.runs.acquire.and (mends_acquire hSteady h.covered)).mono
    fun _ _ hKeep hPost => ⟨hKeep.1, hPost.2.1⟩
  block _ h := (h.runs.block.and (mends_block h.runs h.covered)).mono fun _ _ hKeep hPost => ⟨hKeep.1, hPost.2⟩
  prepare selected _ h :=
    ((h.runs.prepare selected).and (mends_prepare h.runs h.covered selected)).mono
      fun _ _ hKeep hPost => ⟨hKeep.1, hPost.2⟩
  ready index ipv6 _ h :=
    ((h.runs.ready index ipv6).and (mends_ready h.runs h.covered index ipv6)).mono
      fun _ _ hKeep hPost => ⟨hKeep.1, hPost.2⟩
  release _ h := (h.runs.release.and (mends_release h.runs h.covered)).mono fun _ _ hKeep hPost => ⟨hKeep.1, hPost.2⟩

end

/-- Runs in which nothing fails, and in which no process dies between the intent and the transaction
of an `acquire` that found the rules of an interrupted `prepare` or `ready`. -/
def recoverySystem : System World where
  initial w := w = { table := none }
  step w w' := World.Step Faultless w w' ∧ ¬(w'.owner = none ∧ Torn w w')

theorem reachable_of_recovery (h : recoverySystem.Reachable w) : (guardSystem Faultless none).Reachable w := by
  induction h with
  | start hStart => exact .start hStart
  | next _ hStep ih => exact ih.next hStep.1

theorem covered_reachable (h : recoverySystem.Reachable w) : w.Covered := by
  refine h.invariant (I := World.Covered) ?_ ?_
  · rintro w rfl
    exact covered_of_none rfl
  · intro w w' hReachable hCovered hStep
    obtain ⟨hStep, hWhole⟩ := hStep
    have hInv := World.Inv.reachable (reachable_of_recovery hReachable)
    cases hStep with
    | start o hFree | crash => exact hCovered.same rfl rfl
    | @perform o operation choices hOwner hAllowed =>
      obtain ⟨hKeep, hPost⟩ := ((guarded_whole o w).program ⟨⟨hInv, hOwner⟩, hCovered⟩ operation).run hAllowed
      unfold World.after at hWhole ⊢
      cases hOutcome : ((operation.program o).run guardMachine choices w).1 with
      | some result => exact (hPost result hOutcome).covered
      | none =>
        rw [hOutcome] at hWhole
        rcases hKeep.2 with hCovered' | hTorn
        · exact hCovered'.same rfl rfl
        · exact absurd ⟨rfl, hTorn.found, hTorn.intent, hTorn.rules⟩ hWhole

/-! ## The calls of `acquire` -/

theorem within_theRecord : theRecord.Within 1 := by
  refine within_bind (within_perform _) fun value => ?_
  split <;> trivial

theorem within_save (o : Owner) (current : Option State) (pending : Option Pending) :
    (save o current pending).Within 2 :=
  within_bind (within_perform _) fun _ => within_perform _

theorem within_owned : owned.Within 3 := by
  refine within_bind (within_perform _) fun held => within_bind (within_perform _) fun old => ?_
  split
  · refine within_bind (within_perform _) fun stored => ?_
    split <;> trivial
  · trivial

theorem within_readOwned (o : Owner) (allowMissing : Bool) : (readOwned o allowMissing).Within 2 := by
  refine within_bind (within_perform _) fun actual => within_bind within_theRecord fun value => ?_
  split
  · trivial
  · split <;> trivial

theorem within_applyState (o : Owner) (s : State) : (applyState o s).Within 12 := by
  refine within_bind within_owned fun _ => within_bind (within_readOwned o _) fun actual => ?_
  refine within_bind within_theRecord fun value => within_bind (within_save o _ _) fun _ => ?_
  refine within_bind (within_perform _) fun _ => within_bind (within_perform _) fun installed => ?_
  split
  · trivial
  · exact within_save o _ _

theorem within_loadRecord (o : Owner) : (loadRecord o).Within 4 := by
  refine within_bind (within_attempt _) fun stored => ?_
  split
  · refine within_bind (within_perform _) fun installed => ?_
    split
    · trivial
    · exact within_save o _ _
  · trivial
  · split
    · trivial
    · exact (within_perform _).mono (by decide)

theorem within_acquire (o : Owner) : (acquire o).Within 22 := by
  refine within_bind (within_perform _) fun held => within_bind (within_perform _) fun old => ?_
  split
  · trivial
  refine within_bind (within_loadRecord o) fun _ => within_bind (within_readOwned o true) fun _ => ?_
  refine within_bind within_theRecord fun value => ?_
  refine within_bind (n := 0) within_done fun s => within_bind (within_applyState o s) fun _ => within_perform _

/-! ## An interrupted `prepare` -/

def interrupted : List Move :=
  [.start sampleOwner, .perform .acquire (seeing 22 []), .perform (.prepare sampleMesh) (seeing 14 [])]

def interruptedTwice : List Move := interrupted ++ [.start sampleOwner, .perform .acquire (seeing 14 [])]

theorem faultless_seeing (calls : Nat) (found : List Link) : ∀ choice ∈ seeing calls found, Faultless choice := by
  intro choice hMem
  rw [List.eq_of_mem_replicate hMem]
  rfl

theorem faultless_interrupted : ∀ move ∈ interruptedTwice, ∀ choice ∈ move.choices, Faultless choice := by
  simp only [interruptedTwice, interrupted, List.cons_append, List.nil_append, List.forall_mem_cons, Move.choices]
  exact ⟨nofun, faultless_seeing 22 [], faultless_seeing 14 [], nofun, faultless_seeing 14 [], nofun⟩

/-- A move that finds no interrupted operation. -/
theorem recovery_move (move : Move) (hReachable : recoverySystem.Reachable w)
    (hAllowed : ∀ choice ∈ move.choices, Faultless choice) (hSettled : ∀ j ∈ w.journal, j.pending = none) :
    recoverySystem.Reachable (w.move move) := by
  rcases w.step_move hAllowed with hSame | hStep
  · rw [hSame]
    exact hReachable
  · refine hReachable.next ⟨hStep, fun hTorn => ?_⟩
    obtain ⟨j, s, hJournal, hPending, -⟩ := hTorn.2.found
    rw [hSettled j hJournal] at hPending
    cases hPending

theorem reachable_interrupted : recoverySystem.Reachable (interrupted.foldl World.move { table := none }) := by
  have hStarted := recovery_move (.start sampleOwner) (.start rfl) (fun _ hMem => by cases hMem)
    (fun _ hJ => by cases hJ)
  have hAcquired := recovery_move (.perform .acquire (seeing 22 [])) hStarted
    (faultless_seeing 22 []) (fun _ hJ => by cases hJ)
  exact recovery_move (.perform (.prepare sampleMesh) (seeing 14 [])) hAcquired
    (faultless_seeing 14 []) (by decide +kernel)

/-- After any crashes but those in the gap, the next `acquire` of the same owner succeeds and ends blocked. -/
theorem guard_recovers {w : World} {o : Owner} {choices : List Choice} (hReachable : recoverySystem.Reachable w)
    (hOwner : ∀ j, w.journal = some j → j.uid = o.uid ∧ j.generation = o.generation)
    (hChoices : ∀ choice ∈ choices, choice.fault = .none) (hLength : 22 ≤ choices.length) :
    ((acquire o).run guardMachine choices (w.started o)).1 = some (.ok ()) ∧
      ((acquire o).run guardMachine choices (w.started o)).2.Recovered o := by
  have hCovered : (w.started o).Covered := (covered_reachable hReachable).same rfl rfl
  have hRun := (mends_acquire (o := o) (.refl _) hCovered).run hChoices
  obtain ⟨result, hResult⟩ := Option.ne_none_iff_exists'.mp
    ((within_acquire o).run (M := guardMachine) (w := w.started o) hLength)
  obtain ⟨rfl, hRecovered⟩ := (hRun.2 result hResult).2 rfl rfl hOwner
  exact ⟨hResult, hRecovered⟩

/-- The rules of the interrupted `prepare` are still installed, but the journal no longer names them. -/
theorem guard_torn : ∃ w, (guardSystem Faultless none).Reachable w ∧
    (∀ j ∈ w.journal, j.uid = sampleOwner.uid ∧ j.generation = sampleOwner.generation) ∧
    ((acquire sampleOwner).run guardMachine (seeing 22 []) (w.started sampleOwner)).1 = some
    (.error .ownershipMismatch) :=
  ⟨interruptedTwice.foldl World.move { table := none },
    reachable_moves (.start rfl) faultless_interrupted, by decide +kernel, by decide +kernel⟩

theorem guard_recovers_interrupted :
    ((interrupted.foldl World.move { table := none }).journal.bind (·.pending)).isSome = true ∧
      ((acquire sampleOwner).run guardMachine (seeing 22 [])
      ((interrupted.foldl World.move { table := none }).started sampleOwner)).1 =
      some (.ok ()) :=
  ⟨by decide +kernel, (guard_recovers reachable_interrupted (by decide +kernel) (faultless_seeing 22 []) (by decide)).1⟩

end FamilyConnect.LinuxGuard
