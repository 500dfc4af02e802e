import FamilyConnect.LinuxGuard.Guard

/-!
# What the parts of the guard do

One rule for each method that the operations are made of, for any invariant
`keep` of the cuts. A rule for reading says that the world is still the same
but for notes; a rule for writing names the worlds in between.
-/

namespace FamilyConnect.LinuxGuard

open Lib Program

def Note.quiet : Note → Bool
  | .links _ | .live _ => true
  | _ => false

structure World.Steady (w w' : World) : Prop where
  table : w'.table = w.table
  journal : w'.journal = w.journal
  owner : w'.owner = w.owner
  held : w'.held = w.held
  record : w'.record = w.record
  contained : w'.contained = w.contained
  trace : ∃ notes, w'.trace = notes ++ w.trace ∧ ∀ note ∈ notes, note.quiet = true

namespace World.Steady

variable {w w' w'' : World}

theorem refl (w : World) : w.Steady w := ⟨rfl, rfl, rfl, rfl, rfl, rfl, [], rfl, nofun⟩

theorem trans (h : w.Steady w') (h' : w'.Steady w'') : w.Steady w'' := by
  obtain ⟨notes, hNotes, hQuiet⟩ := h.trace
  obtain ⟨notes', hNotes', hQuiet'⟩ := h'.trace
  refine ⟨h'.table.trans h.table, h'.journal.trans h.journal, h'.owner.trans h.owner, h'.held.trans h.held,
    h'.record.trans h.record, h'.contained.trans h.contained, notes' ++ notes, ?_, ?_⟩
  · rw [hNotes', hNotes, List.append_assoc]
  · intro note hMem
    exact (List.mem_append.mp hMem).elim (hQuiet' note) (hQuiet note)

theorem observe (w : World) (choice : Choice) : w.Steady (w.observe choice) :=
  ⟨rfl, rfl, rfl, rfl, rfl, rfl, [.links choice.found], rfl, by simp [Note.quiet]⟩

end World.Steady

/-- Whatever is noted in between. -/
abbrev World.Stably (w : World) (holds : World → Prop) : Prop := ∀ w', w.Steady w' → holds w'

theorem World.Steady.stably {w w' : World} {holds : World → Prop} (h : w.Steady w')
    (hHolds : w.Stably holds) : w'.Stably holds :=
  fun w'' h' => hHolds w'' (h.trans h')

def Faulty (allowed : Choice → Prop) : Prop := ∃ choice, allowed choice ∧ choice.fault ≠ .none

variable {c : Call}

section

variable {allowed : Choice → Prop} {keep : World → Prop} {w : World} {α : Type}

abbrev Ensures (allowed : Choice → Prop) (keep : World → Prop) (p : GuardM α) (post : Except Failure α → World → Prop)
    (w : World) : Prop := Program.Ensures guardMachine allowed keep p post w

section

variable (hKeep : w.Stably keep)
include hKeep

theorem ensures_look {post : Except Failure (guardInterface.Answer c) → World → Prop}
    (hLook : ∀ choice, (exec c choice w).2 = w.observe choice)
    (hPost : ∀ choice, allowed choice → post (exec c choice w).1 (w.observe choice)) :
    Ensures allowed keep (perform c) post w := by
  refine ensures_perform (hKeep w (.refl w)) fun choice hAllowed => ?_
  change keep (exec c choice w).2 ∧ post (exec c choice w).1 (exec c choice w).2
  rw [hLook choice]
  exact ⟨hKeep _ (.observe w choice), hPost choice hAllowed⟩

variable {fault : Fault}

variable {answer : α}

omit hKeep in
theorem faulty_look : (faulty fault w w answer).2 = w := by
  cases fault <;> rfl

omit hKeep in
theorem faulty_post {w' : World} {post : Except Failure α → World → Prop}
    (hOk : fault = .none → post (.ok answer) w') (hBefore : fault ≠ .none → post (.error .system) w)
    (hAfter : fault ≠ .none → post (.error .system) w') :
    post (faulty fault w w' answer).1 (faulty fault w w' answer).2 := by
  cases fault with
  | none => exact hOk rfl
  | before => exact hBefore nofun
  | after => exact hAfter nofun

theorem ensures_locked {post : Except Failure Bool → World → Prop}
    (hPost : w.Stably (post (.ok w.held))) : Ensures allowed keep locked post w :=
  ensures_look hKeep (fun _ => rfl) fun choice _ => hPost _ (.observe w choice)

theorem ensures_record {post : Except Failure (Option Journal) → World → Prop}
    (hPost : w.Stably (post (.ok w.record))) : Ensures allowed keep record post w :=
  ensures_look hKeep (fun _ => rfl) fun choice _ => hPost _ (.observe w choice)

theorem ensures_host {post : Except Failure Host → World → Prop}
    (hPost : ∀ h w', w.Steady w' → post (.ok h) w') : Ensures allowed keep host post w :=
  ensures_look hKeep (fun _ => rfl) fun choice _ => hPost _ _ (.observe w choice)

variable {post : Except Failure Unit → World → Prop}

theorem ensures_setHost {value : Host}
    (hPost : w.Stably (post (.ok ()))) : Ensures allowed keep (setHost value) post w := by
  refine ensures_perform (hKeep w (.refl w)) fun choice _ => ?_
  have hSteady : w.Steady { w.observe choice with host := value } :=
    ⟨rfl, rfl, rfl, rfl, rfl, rfl, [.links choice.found], rfl, by simp [Note.quiet]⟩
  exact ⟨hKeep _ hSteady, hPost _ hSteady⟩

theorem ensures_faulty {post : Except Failure (guardInterface.Answer c) → World → Prop}
    {answer : Choice → guardInterface.Answer c} (hExec : ∀ choice,
      exec c choice w = faulty choice.fault (w.observe choice) (w.observe choice) (answer choice))
    (hError : Faulty allowed → w.Stably (post (.error .system)))
    (hOk : ∀ choice, post (.ok (answer choice)) (w.observe choice)) : Ensures allowed keep (perform c) post w := by
  refine ensures_look hKeep (fun choice => by rw [hExec, faulty_look]) fun choice hAllowed => ?_
  have hFail : choice.fault ≠ .none → post (.error .system) (w.observe choice) :=
    fun hFault => hError ⟨choice, hAllowed, hFault⟩ _ (.observe w choice)
  have hPost := faulty_post (fun _ => hOk choice) hFail hFail
  rwa [faulty_look, ← hExec] at hPost

theorem ensures_read {post : Except Failure (Option (List Object)) → World → Prop}
    (hError : Faulty allowed → w.Stably (post (.error .system)))
    (hOk : w.Stably (post (.ok w.table))) : Ensures allowed keep read post w :=
  ensures_faulty hKeep (fun _ => rfl) hError fun choice => hOk _ (.observe w choice)

theorem ensures_links {post : Except Failure (List Link) → World → Prop}
    (hError : Faulty allowed → w.Stably (post (.error .system)))
    (hOk : ∀ choice, post (.ok choice.found) (w.observe choice)) :
    Ensures allowed keep links post w :=
  ensures_faulty hKeep (fun _ => rfl) hError hOk

theorem ensures_privateRead {post : Except Failure Journal → World → Prop}
    (hError : Faulty allowed ∨ w.journal = none → ∀ failure, w.Stably (post (.error failure)))
    (hOk : ∀ value w', w.Steady w' → w.journal = some value → post (.ok value) w') :
    Ensures allowed keep privateRead post w := by
  cases hJournal : w.journal with
  | none =>
    refine ensures_look hKeep (fun choice => by simp only [exec, hJournal]) fun choice _ => ?_
    simp only [exec, hJournal]
    exact hError (.inr hJournal) _ _ (.observe w choice)
  | some value =>
    exact ensures_faulty hKeep (fun choice => by simp only [exec, hJournal]) (fun hFaulty => hError (.inl hFaulty) _)
      fun choice => hOk value _ (.observe w choice) hJournal

theorem ensures_attemptRead {post : Except Failure (Except Failure Journal) → World → Prop}
    (hFault : Faulty allowed → w.Stably (post (.ok (.error .system))))
    (hMissing : ∀ w', w.Steady w' → w.journal = none → post (.ok (.error .missingFile)) w')
    (hOk : ∀ value w', w.Steady w' → w.journal = some value → post (.ok (.ok value)) w') :
    Ensures allowed keep (Program.attempt (I := guardInterface) Call.privateRead) post w := by
  refine ensures_attempt (hKeep w (.refl w)) fun choice hAllowed => ?_
  have hSteady := World.Steady.observe w choice
  change keep (exec .privateRead choice w).2 ∧ post (.ok (exec .privateRead choice w).1) (exec .privateRead choice w).2
  cases hJournal : w.journal with
  | none =>
    simp only [exec, hJournal]
    refine ⟨hKeep _ hSteady, ?_⟩
    split
    · exact hMissing _ hSteady hJournal
    · rename_i hFaulty
      exact hFault ⟨choice, hAllowed, hFaulty⟩ _ hSteady
  | some value =>
    simp only [exec, hJournal]
    cases hFaulty : choice.fault with
    | none => exact ⟨hKeep _ hSteady, hOk value _ hSteady hJournal⟩
    | before | after => exact ⟨hKeep _ hSteady, hFault ⟨choice, hAllowed, by rw [hFaulty]; nofun⟩ _ hSteady⟩

theorem ensures_owned
    (hError : Faulty allowed ∨ w.held = false ∨ w.record = none ∨ w.journal ≠ w.record →
      ∀ failure, w.Stably (post (.error failure)))
    (hOk : ∀ value w', w.Steady w' → w.held = true → w.record = some value →
      w.journal = some value → post (.ok ()) w') :
    Ensures allowed keep owned post w := by
  refine ensures_bind (ensures_locked hKeep fun w₁ h₁ => ?_)
  refine ensures_bind (ensures_record (h₁.stably hKeep) fun w₂ h₂ => ?_)
  have h₂ := h₁.trans h₂
  rw [h₁.record]
  cases hHeld : w.held with
  | false => exact ensures_throw (hKeep w₂ h₂) (hError (.inr (.inl hHeld)) _ w₂ h₂)
  | true =>
    cases hRecord : w.record with
    | none => exact ensures_throw (hKeep w₂ h₂) (hError (.inr (.inr (.inl hRecord))) _ w₂ h₂)
    | some value =>
      refine ensures_bind (ensures_privateRead (h₂.stably hKeep) ?_ ?_)
      · intro hWhy failure w₃ h₃
        refine hError (hWhy.imp_right fun hNone => .inr (.inr ?_)) failure w₃ (h₂.trans h₃)
        rw [← h₂.journal, hNone, hRecord]
        nofun
      · intro stored w₃ h₃ hStored
        have h₃ := h₂.trans h₃
        rw [h₂.journal] at hStored
        dsimp only
        split
        · rename_i hSame
          rw [hSame] at hStored
          exact ensures_pure (hKeep w₃ h₃) (hOk value w₃ h₃ hHeld hRecord hStored)
        · rename_i hOther
          refine ensures_throw (hKeep w₃ h₃) (hError (.inr (.inr (.inr fun hEqual => hOther ?_))) _ w₃ h₃)
          rw [hStored, hRecord] at hEqual
          exact Option.some.inj hEqual

variable {value : Journal}

theorem ensures_theRecord {post : Except Failure Journal → World → Prop} (hRecord : w.record = some value)
    (hOk : w.Stably (post (.ok value))) : Ensures allowed keep theRecord post w := by
  refine ensures_bind (ensures_record hKeep fun w₁ h₁ => ?_)
  rw [hRecord]
  exact ensures_pure (hKeep w₁ h₁) (hOk w₁ h₁)

structure Recognised (o : Owner) (value : Journal) (allowMissing : Bool) (table : Option (List Object)) : Prop where
  missing : table = none → value.current = none ∨ allowMissing = true
  found : ∀ installed, table = some installed → ∃ s ∈ value.choices, installed = objects o.generation s

variable {o : Owner}

theorem ensures_readOwned {post : Except Failure (Option (List Object)) → World → Prop}
    {allowMissing : Bool} (hRecord : w.record = some value)
    (hError : Faulty allowed ∨ ¬Recognised o value allowMissing w.table → ∀ failure, w.Stably (post (.error failure)))
    (hOk : ∀ w', w.Steady w' → Recognised o value allowMissing w.table → post (.ok w.table) w') :
    Ensures allowed keep (readOwned o allowMissing) post w := by
  refine ensures_bind (ensures_read hKeep (fun hFaulty => hError (.inl hFaulty) _) fun w₁ h₁ => ?_)
  refine ensures_bind (ensures_theRecord (h₁.stably hKeep) (h₁.record.trans hRecord) fun w₂ h₂ => ?_)
  have h₂ := h₁.trans h₂
  dsimp only
  split
  · rename_i hGone
    refine ensures_throw (hKeep w₂ h₂) (hError (.inr fun hRecognised => ?_) _ w₂ h₂)
    rcases hRecognised.missing hGone.1 with hNone | hAllowed
    · exact hGone.2.1 hNone
    · exact absurd hAllowed (by simp [hGone.2.2])
  · rename_i hThere
    split
    · rename_i hForeign
      refine ensures_throw (hKeep w₂ h₂) (hError (.inr fun hRecognised => ?_) _ w₂ h₂)
      obtain ⟨installed, hInstalled⟩ := Option.ne_none_iff_exists'.mp hForeign.1
      obtain ⟨s, hMem, hSame⟩ := hRecognised.found installed hInstalled
      have hOther := List.all_eq_true.mp hForeign.2 s hMem
      rw [hInstalled, hSame] at hOther
      simp at hOther
    · rename_i hOwn
      refine ensures_pure (hKeep w₂ h₂) (hOk w₂ h₂ ⟨fun hNone => ?_, fun installed hInstalled => ?_⟩)
      · by_contra hNot
        rw [not_or, Bool.not_eq_true] at hNot
        exact hThere ⟨hNone, hNot⟩
      · by_contra hNot
        refine hOwn ⟨by rw [hInstalled]; nofun, List.all_eq_true.mpr fun s hMem => ?_⟩
        rw [hInstalled]
        simpa using fun hSame => hNot ⟨s, hMem, hSame⟩

namespace World

def wrote (w : World) (value : Journal) : World := { w with journal := some value }

def saved (w : World) (value : Journal) : World := { w with journal := some value, record := some value }

end World

omit hKeep in
theorem faulty_outcome {w' : World} {post : Except Failure α → World → Prop} (hBefore : keep w)
    (hAfter : keep w') (hOk : post (.ok answer) w')
    (hError : fault ≠ .none → post (.error .system) w ∧ post (.error .system) w') :
    keep (faulty fault w w' answer).2 ∧ post (faulty fault w w' answer).1 (faulty fault w w' answer).2 := by
  cases fault with
  | none => exact ⟨hAfter, hOk⟩
  | before => exact ⟨hBefore, (hError nofun).1⟩
  | after => exact ⟨hAfter, (hError nofun).2⟩

theorem ensures_privateWrite (hWrote : w.Stably fun w' => keep (w'.wrote value))
    (hError : Faulty allowed → w.Stably fun w' => post (.error .system) w' ∧ post (.error .system) (w'.wrote value))
    (hOk : w.Stably fun w' => post (.ok ()) (w'.wrote value)) : Ensures allowed keep (privateWrite value) post w :=
  ensures_perform (hKeep w (.refl w)) fun choice hAllowed =>
    have hSteady := World.Steady.observe w choice
    faulty_outcome (hKeep _ hSteady) (hWrote _ hSteady) (hOk _ hSteady)
      fun hFault => hError ⟨choice, hAllowed, hFault⟩ _ hSteady

omit hKeep in
theorem ensures_setRecord {value : Option Journal} (hNow : keep w)
    (hKeep : w.Stably fun w' => keep { w' with record := value })
    (hOk : w.Stably fun w' => post (.ok ()) { w' with record := value }) :
      Ensures allowed keep (setRecord value) post w :=
  ensures_perform hNow fun choice _ => ⟨hKeep _ (.observe w choice), hOk _ (.observe w choice)⟩

omit hKeep in
/-- Notes that are made after the journal was replaced might have been made before. -/
theorem World.Steady.wrote {w' : World} (h : (w.wrote value).Steady w') :
    ∃ w'', w.Steady w'' ∧ w' = w''.wrote value := by
  refine ⟨{ w' with journal := w.journal }, ⟨h.table, rfl, h.owner, h.held, h.record, h.contained, h.trace⟩, ?_⟩
  have hJournal := h.journal
  cases w' with
  | mk table journal owner held record host contained trace =>
    simp only [World.wrote] at hJournal ⊢
    rw [hJournal]

theorem ensures_save {current : Option State} {pending : Option Pending}
    (hWrote : w.Stably fun w' => keep (w'.wrote ⟨o.uid, o.generation, current, pending⟩))
    (hSaved : w.Stably fun w' => keep (w'.saved ⟨o.uid, o.generation, current, pending⟩))
    (hError : Faulty allowed → w.Stably fun w' => post (.error .system) w' ∧
      post (.error .system) (w'.wrote ⟨o.uid, o.generation, current, pending⟩))
    (hOk : w.Stably fun w' => post (.ok ()) (w'.saved ⟨o.uid, o.generation, current, pending⟩)) :
    Ensures allowed keep (save o current pending) post w := by
  refine ensures_bind (ensures_privateWrite hKeep hWrote hError fun w₁ h₁ => ?_)
  refine ensures_setRecord (hWrote w₁ h₁) ?_ ?_
  · intro w₂ h₂
    obtain ⟨w₃, h₃, rfl⟩ := h₂.wrote
    exact hSaved w₃ (h₁.trans h₃)
  · intro w₂ h₂
    obtain ⟨w₃, h₃, rfl⟩ := h₂.wrote
    exact hOk w₃ (h₁.trans h₃)

omit hKeep in
theorem ensures_apply {commands : List Command} {installs : Option State}
    (table : Option (List Object)) (hTransaction : transaction commands w.table = some table)
    (hKeep : w.Stably keep) (hInstalled : w.Stably fun w' => keep (w'.install table installs))
    (hError : Faulty allowed → w.Stably fun w' => post (.error .system) w' ∧
      post (.error .system) (w'.install table installs))
    (hOk : w.Stably fun w' => post (.ok ()) (w'.install table installs)) :
    Ensures allowed keep (apply commands installs) post w := by
  refine ensures_perform (hKeep w (.refl w)) fun choice hAllowed => ?_
  have hSteady := World.Steady.observe w choice
  change keep (exec (.apply commands installs) choice w).2 ∧
    post (exec (.apply commands installs) choice w).1 (exec (.apply commands installs) choice w).2
  simp only [exec, hTransaction]
  exact faulty_outcome (hKeep _ hSteady) (hInstalled _ hSteady) (hOk _ hSteady)
    fun hFault => hError ⟨choice, hAllowed, hFault⟩ _ hSteady

omit hKeep in
theorem transaction_add (added : List Object) (table : Option (List Object)) (hAdded : added ≠ []) :
    transaction (added.map .add) table = some (some (table.getD [] ++ added)) := by
  induction added generalizing table with
  | nil => exact absurd rfl hAdded
  | cons object rest ih =>
    rw [List.map_cons, transaction]
    cases rest with
    | nil => rfl
    | cons next rest =>
      rw [ih _ nofun]
      simp

omit hKeep in
theorem objects_ne_nil (generation : Generation) (s : State) : objects generation s ≠ [] := nofun

omit hKeep in
theorem transaction_replace (table : Option (List Object)) (added : List Object) (hAdded : added ≠ []) :
    transaction ((if table = none then [] else [.delete]) ++ added.map .add) table = some (some added) := by
  cases table with
  | none => exact transaction_add added none hAdded
  | some installed =>
    rw [if_neg nofun, List.singleton_append, transaction, transaction_add added none hAdded]
    rfl

theorem ensures_unlink (hUnlinked : w.Stably fun w' => keep { w' with journal := none })
    (hError : Faulty allowed → w.Stably fun w' => post (.error .system) w' ∧
      post (.error .system) { w' with journal := none })
    (hOk : w.Stably fun w' => post (.ok ()) { w' with journal := none }) : Ensures allowed keep unlink post w :=
  ensures_perform (hKeep w (.refl w)) fun choice hAllowed =>
    have hSteady := World.Steady.observe w choice
    faulty_outcome (hKeep _ hSteady) (hUnlinked _ hSteady) (hOk _ hSteady)
      fun hFault => hError ⟨choice, hAllowed, hFault⟩ _ hSteady

def Call.outside : Call → Bool
  | .syncDirectory | .check | .platformConfigure | .platformPrepare _ | .platformOpen _ | .platformApplied _
  | .platformCancelHealth | .platformClose | .platformRelease | .platformRemember _ => true
  | _ => false

omit hKeep in
theorem ensures_outside {post : Except Failure (guardInterface.Answer c) → World → Prop} (hOutside : c.outside = true)
    (hKeep : w.Stably keep) (hError : Faulty allowed → ∀ failure, w.Stably (post (.error failure)))
    (hOk : ∀ answer w', w.Steady w' → post (.ok answer) w') : Ensures allowed keep (perform c) post w := by
  refine ensures_perform (hKeep w (.refl w)) fun choice hAllowed => ?_
  have hSteady := World.Steady.observe w choice
  change keep (exec c choice w).2 ∧ post (exec c choice w).1 (exec c choice w).2
  have hFail : choice.fault ≠ .none → ∀ failure, post (.error failure) (w.observe choice) :=
    fun hFault failure => hError ⟨choice, hAllowed, hFault⟩ failure _ hSteady
  cases c
  case check =>
    refine ⟨hKeep _ hSteady, ?_⟩
    simp only [exec]
    split
    · exact hOk _ _ hSteady
    · exact hFail (by assumption) _
  all_goals first
    | exact faulty_outcome (hKeep _ hSteady) (hKeep _ hSteady) (hOk _ _ hSteady) fun hFault =>
      ⟨hFail hFault _, hFail hFault _⟩
    | cases hOutside

omit hKeep in
theorem ensures_require {condition : Bool} (hKeep : keep w)
    (hError : post (.error .protocol) w) (hOk : post (.ok ()) w) : Ensures allowed keep (require condition) post w := by
  unfold require
  split
  · exact ensures_pure hKeep hOk
  · exact ensures_throw hKeep hError

structure Settles (w : World) (value : Journal) (current : State) : Prop where
  held : w.held = true
  record : w.record = some value
  journal : w.journal = some value
  pending : value.pending = none
  current : value.current = some current

omit hKeep in
theorem Settles.steady {w' : World} {current : State} (hSteady : w.Steady w') (h : Settles w value current) :
    Settles w' value current :=
  ⟨hSteady.held.trans h.held, hSteady.record.trans h.record, hSteady.journal.trans h.journal, h.pending, h.current⟩

theorem ensures_settled {post : Except Failure State → World → Prop} {pendingError : Failure}
    (hError : ∀ failure, w.Stably (post (.error failure)))
    (hOk : ∀ value current w', w.Steady w' → Settles w' value current → post (.ok current) w') :
    Ensures allowed keep (settled pendingError) post w := by
  refine ensures_bind (ensures_owned hKeep (fun _ => hError) fun value w₁ h₁ hHeld hRecord hJournal => ?_)
  refine ensures_bind (ensures_theRecord (h₁.stably hKeep) (h₁.record.trans hRecord) fun w₂ h₂ => ?_)
  have h₂ := h₁.trans h₂
  dsimp only
  split
  · exact ensures_throw (hKeep w₂ h₂) (hError _ w₂ h₂)
  · rename_i hPending
    cases hCurrent : value.current with
    | none => exact ensures_throw (hKeep w₂ h₂) (hError _ w₂ h₂)
    | some current =>
      exact ensures_pure (hKeep w₂ h₂) (hOk value current w₂ h₂ ⟨h₂.held.trans hHeld, h₂.record.trans hRecord,
        h₂.journal.trans hJournal, not_not.mp hPending, hCurrent⟩)

theorem ensures_absent {selected : Option Candidate} (hError : ∀ failure, w.Stably (post (.error failure)))
    (hNone : selected = none → post (.ok ()) w)
    (hSome : ∀ c choice, selected = some c → (∀ link ∈ choice.found, link.ifname ≠ c.interface) →
      post (.ok ()) (w.observe choice)) : Ensures allowed keep (absent selected) post w := by
  cases selected with
  | none => exact ensures_pure (hKeep w (.refl w)) (hNone rfl)
  | some c =>
    refine ensures_bind (ensures_links hKeep (fun _ w' h => hError _ w' h) fun choice => ?_)
    have hSteady := World.Steady.observe w choice
    dsimp only
    split
    · exact ensures_throw (hKeep _ hSteady) (hError _ _ hSteady)
    · rename_i hFree
      refine ensures_pure (hKeep _ hSteady) (hSome c choice rfl fun link hMem hSame => hFree ?_)
      exact List.any_eq_true.mpr ⟨link, hMem, decide_eq_true hSame⟩

theorem ensures_verifyTun {s : State} (hError : ∀ failure, w.Stably (post (.error failure)))
    (hOk : ∀ link w', w.Steady w' → .live link ∈ w'.trace → s.live link = true → post (.ok ()) w') :
    Ensures allowed keep (verifyTun s) post w := by
  refine ensures_bind (ensures_links hKeep (fun _ w' h => hError _ w' h) fun choice => ?_)
  have hSteady := World.Steady.observe w choice
  dsimp only
  split
  · rename_i link _
    split
    · rename_i hLive
      refine ensures_perform (hKeep _ hSteady) fun choice' _ => ?_
      have hNoted : w.Steady (exec (.noteLive link) choice' (w.observe choice)).2 :=
        ⟨rfl, rfl, rfl, rfl, rfl, rfl, [.live link, .links choice'.found, .links choice.found], rfl,
          by simp [Note.quiet]⟩
      exact ⟨hKeep _ hNoted, hOk link _ hNoted (.head _) hLive⟩
    · exact ensures_throw (hKeep _ hSteady) (hError _ _ hSteady)
  · exact ensures_throw (hKeep _ hSteady) (hError _ _ hSteady)

end

def intent (o : Owner) (value : Journal) (s : State) : Journal := ⟨o.uid, o.generation, value.current, some (.apply s)⟩

def outcome (o : Owner) (s : State) : Journal := ⟨o.uid, o.generation, some s, none⟩

structure Granted (o : Owner) (s : State) (w : World) (value : Journal) : Prop where
  held : w.held = true
  record : w.record = some value
  journal : w.journal = some value
  recognised : Recognised o value (s.mode = .blocked) w.table

theorem ensures_applyState {s : State} (hNow : keep w) (hStable : ∀ w, keep w → w.Stably keep)
    (hError : Faulty allowed ∨ (∀ value, ¬Granted o s w value) → ∀ failure w', keep w' → post (.error failure) w')
    (hIntent : ∀ value w', Granted o s w value → w.Steady w' →
      keep (w'.wrote (intent o value s)) ∧ keep (w'.saved (intent o value s)))
    (hInstall : ∀ value w₁ w₂, Granted o s w value → w.Steady w₁ → (w₁.saved (intent o value s)).Steady w₂ →
      keep (w₂.install (some (objects o.generation s)) (some s)))
    (hOutcome : ∀ value w₁ w₂ w₃, Granted o s w value → w.Steady w₁ → (w₁.saved (intent o value s)).Steady w₂ →
      (w₂.install (some (objects o.generation s)) (some s)).Steady w₃ →
      keep (w₃.wrote (outcome o s)) ∧ keep (w₃.saved (outcome o s)) ∧ post (.ok ()) (w₃.saved (outcome o s))) :
    Ensures allowed keep (applyState o s) post w := by
  have hKeep := hStable w hNow
  refine ensures_bind (ensures_owned hKeep ?_ fun value w₁ h₁ hHeld hRecord hJournal => ?_)
  · intro hWhy failure w₁ h₁
    refine hError (hWhy.imp_right fun hNot value hGranted => ?_) failure w₁ (hKeep w₁ h₁)
    rcases hNot with hFree | hNone | hOther
    · rw [hGranted.held] at hFree
      cases hFree
    · rw [hGranted.record] at hNone
      cases hNone
    · exact hOther (hGranted.journal.trans hGranted.record.symm)
  refine ensures_bind (ensures_readOwned (h₁.stably hKeep) (h₁.record.trans hRecord) ?_ ?_)
  · intro hWhy failure w₂ h₂
    refine hError (hWhy.imp_right fun hNot other hGranted => ?_) failure w₂ (hKeep w₂ (h₁.trans h₂))
    have hSame : other = value := Option.some.inj (hGranted.record.symm.trans hRecord)
    rw [h₁.table, ← hSame] at hNot
    exact hNot hGranted.recognised
  intro w₂ h₂ hRecognised
  rw [h₁.table] at hRecognised
  have hGranted : Granted o s w value := ⟨hHeld, hRecord, hJournal, hRecognised⟩
  have h₂ := h₁.trans h₂
  refine ensures_bind (ensures_theRecord (h₂.stably hKeep) (h₂.record.trans hRecord) fun w₃ h₃ => ?_)
  have h₃ := h₂.trans h₃
  refine ensures_bind (ensures_save (h₃.stably hKeep) (fun w' h => (hIntent value w' hGranted (h₃.trans h)).1)
    (fun w' h => (hIntent value w' hGranted (h₃.trans h)).2) ?_ ?_)
  · intro hFaulty w₄ h₄
    have h₄ := h₃.trans h₄
    exact ⟨hError (.inl hFaulty) _ _ (hKeep w₄ h₄), hError (.inl hFaulty) _ _ (hIntent value w₄ hGranted h₄).1⟩
  intro w₄ h₄
  have h₄ := h₃.trans h₄
  have hSaved : keep (w₄.saved (intent o value s)) := (hIntent value w₄ hGranted h₄).2
  refine ensures_bind (ensures_apply (some (objects o.generation s)) ?_ (hStable _ hSaved)
    (fun w' h => hInstall value w₄ w' hGranted h₄ h) ?_ ?_)
  · change transaction _ w₄.table = _
    rw [h₄.table, h₁.table]
    exact transaction_replace w.table _ (objects_ne_nil o.generation s)
  · intro hFaulty w₅ h₅
    exact ⟨hError (.inl hFaulty) _ _ (hStable _ hSaved w₅ h₅),
      hError (.inl hFaulty) _ _ (hInstall value w₄ w₅ hGranted h₄ h₅)⟩
  intro w₅ h₅
  have hInstalled := hInstall value w₄ w₅ hGranted h₄ h₅
  refine ensures_bind (ensures_read (hStable _ hInstalled) ?_ fun w₆ h₆ => ?_)
  · intro hFaulty w₆ h₆
    exact hError (.inl hFaulty) _ _ (hStable _ hInstalled w₆ h₆)
  have hThere : (w₅.install (some (objects o.generation s)) (some s)).table = some (objects o.generation s) := rfl
  dsimp only
  rw [if_neg (not_not.mpr hThere)]
  refine ensures_save (h₆.stably (hStable _ hInstalled))
    (fun w' h => (hOutcome value w₄ w₅ w' hGranted h₄ h₅ (h₆.trans h)).1)
    (fun w' h => (hOutcome value w₄ w₅ w' hGranted h₄ h₅ (h₆.trans h)).2.1) ?_
    fun w' h => (hOutcome value w₄ w₅ w' hGranted h₄ h₅ (h₆.trans h)).2.2
  intro hFaulty w₇ h₇
  exact ⟨hError (.inl hFaulty) _ _ (hStable _ hInstalled w₇ (h₆.trans h₇)),
    hError (.inl hFaulty) _ _ (hOutcome value w₄ w₅ w₇ hGranted h₄ h₅ (h₆.trans h₇)).1⟩

end

/-! ## Operations -/

structure Guarded (allowed : Choice → Prop) (keep holds : World → Prop) (o : Owner) (w₀ : World) : Prop where
  now : ∀ w, holds w → keep w
  steady : ∀ w w', w.Steady w' → holds w → holds w'
  acquire : ∀ w, w₀.Steady w → holds w → Ensures allowed keep (acquire o) (fun _ => holds) w
  block : ∀ w, holds w → Ensures allowed keep (block o) (fun _ => holds) w
  prepare : ∀ selected w, holds w → Ensures allowed keep (prepare o selected) (fun _ => holds) w
  ready : ∀ index ipv6 w, holds w → Ensures allowed keep (ready o index ipv6) (fun _ => holds) w
  release : ∀ w, holds w → Ensures allowed keep (release o) (fun _ => holds) w

theorem ensures_then {allowed : Choice → Prop} {keep holds : World → Prop} {w : World} {α β : Type}
    {p : GuardM α} {f : α → GuardM β} (hFirst : Ensures allowed keep p (fun _ => holds) w)
    (hRest : ∀ a w', holds w' → Ensures allowed keep (f a) (fun _ => holds) w') :
    Ensures allowed keep (p >>= f) (fun _ => holds) w :=
  ensures_step hFirst (fun _ _ _ hHolds => hHolds) fun a w' _ => hRest a w'

namespace Guarded

variable {allowed : Choice → Prop} {keep holds : World → Prop} {o : Owner} {w₀ w : World}

variable (h : Guarded allowed keep holds o w₀)
include h

section

variable (hHolds : holds w)
include hHolds

theorem stays : w.Stably holds := fun w' hSteady => h.steady w w' hSteady hHolds

theorem looks : w.Stably keep := fun w' hSteady => h.now w' (h.stays hHolds w' hSteady)

theorem outside (hOutside : c.outside = true) : Ensures allowed keep (perform c) (fun _ => holds) w :=
  ensures_outside hOutside (h.looks hHolds) (fun _ _ => h.stays hHolds) fun _ => h.stays hHolds

theorem require (condition : Bool) :
    Ensures allowed keep (require condition) (fun _ => holds) w := ensures_require (h.now w hHolds) hHolds hHolds

theorem record : Ensures allowed keep record (fun _ => holds) w :=
  ensures_record (h.looks hHolds) (h.stays hHolds)

theorem host : Ensures allowed keep host (fun _ => holds) w :=
  ensures_host (h.looks hHolds) fun _ => h.stays hHolds

theorem setHost (value : Host) : Ensures allowed keep (setHost value) (fun _ => holds) w :=
  ensures_setHost (h.looks hHolds) (h.stays hHolds)

theorem done {α : Type} (a : α) : Ensures allowed keep (pure a) (fun _ => holds) w :=
  ensures_pure (h.now w hHolds) hHolds

theorem checked {α : Type} (a : α) : Ensures allowed keep (do check; pure a) (fun _ => holds) w :=
  ensures_then (h.outside hHolds rfl) fun _ _ hHolds' => h.done hHolds' a

theorem snapshot : Ensures allowed keep (snapshot o) (fun _ => holds) w := by
  refine ensures_bind (ensures_settled (h.looks hHolds) (fun _ => h.stays hHolds) ?_)
  intro value current w₁ h₁ hSettles
  have hHolds₁ := h.stays hHolds w₁ h₁
  refine ensures_bind (ensures_readOwned (h.looks hHolds₁) hSettles.record (fun _ _ => h.stays hHolds₁)
    fun w₂ h₂ _ => ?_)
  have hVerified : Ensures allowed keep (if current.mode = .ready then verifyTun current
      else pure ()) (fun _ w' => w₁.Steady w') w₂ := by
    have hLooks : w₂.Stably keep := h₂.stably (h.looks hHolds₁)
    split
    · exact ensures_verifyTun hLooks (fun _ _ => h₂.trans) fun _ _ hS _ _ => h₂.trans hS
    · exact ensures_pure (hLooks w₂ (.refl w₂)) h₂
  refine ensures_step hVerified (fun _ w₃ _ h₃ => h.stays hHolds₁ w₃ h₃) fun _ w₃ _ h₃ => ?_
  have hHolds₃ := h.stays hHolds₁ w₃ h₃
  exact ensures_theRecord (h.looks hHolds₃) (h₃.record.trans hSettles.record) (h.stays hHolds₃)

theorem openCandidate (selected : Route) : Ensures allowed keep (openCandidate o selected) (fun _ => holds) w := by
  refine ensures_then (h.outside hHolds rfl) fun plan w₁ h₁ => ?_
  refine ensures_then (h.outside h₁ rfl) fun _ w₂ h₂ => ?_
  refine ensures_then (h.require h₂ _) fun _ w₃ h₃ => ?_
  refine ensures_then (h.prepare plan w₃ h₃) fun _ w₄ h₄ => ?_
  refine ensures_then (h.outside h₄ rfl) fun opened w₅ h₅ => ?_
  refine ensures_then (h.outside h₅ rfl) fun _ w₆ h₆ => ?_
  refine ensures_then (h.ready opened.1 opened.2 w₆ h₆) fun _ w₇ h₇ => ?_
  refine ensures_then (h.outside h₇ rfl) fun _ w₈ h₈ => ?_
  exact ensures_then (h.outside h₈ rfl) fun _ w₉ h₉ => h.checked h₉ []

theorem closeCandidate : Ensures allowed keep (closeCandidate o) (fun _ => holds) w := by
  refine ensures_then (h.record hHolds) fun old w₁ h₁ => ?_
  split
  · exact ensures_then (h.block w₁ h₁) fun _ w₂ h₂ => h.outside h₂ rfl
  · exact h.done h₁ ()

theorem releaseGuard : Ensures allowed keep (releaseGuard o) (fun _ => holds) w := by
  refine ensures_then (h.record hHolds) fun old w₁ h₁ => ?_
  split
  · refine ensures_then (h.outside h₁ rfl) fun _ w₂ h₂ => ?_
    exact ensures_then (h.outside h₂ rfl) fun _ w₃ h₃ => h.release w₃ h₃
  · exact h.done h₁ ()

end

theorem call (hHolds : holds w₀) (guardPrepared known : Bool) (action : Action) :
    Ensures allowed keep (call o guardPrepared known action) (fun _ => holds) w₀ := by
  refine ensures_bind (ensures_host (h.looks hHolds) fun old w₁ h₁ => ?_)
  have hHolds₁ := h.stays hHolds w₁ h₁
  refine ensures_bind (ensures_require (h.now w₁ hHolds₁) hHolds₁ ?_)
  refine ensures_bind (ensures_outside rfl (h.looks hHolds₁) (fun _ _ => h.stays hHolds₁) fun _ w₂ h₂ => ?_)
  have h₂ := h₁.trans h₂
  have hHolds₂ := h.stays hHolds w₂ h₂
  cases action with
  | configure =>
    -- Nothing has changed before the guard is asked.
    refine ensures_bind (ensures_require (h.now w₂ hHolds₂) hHolds₂ ?_)
    refine ensures_bind (ensures_setHost (h.looks hHolds₂) fun w₃ h₃ => ?_)
    have hHolds₃ := h.stays hHolds₂ w₃ h₃
    have hGuarded : Ensures allowed keep (if guardPrepared then LinuxGuard.block o else LinuxGuard.acquire o)
        (fun _ => holds) w₃ := by
      split
      · exact h.block w₃ hHolds₃
      · exact h.acquire w₃ (h₂.trans h₃) hHolds₃
    refine ensures_then hGuarded fun _ w₄ h₄ => ?_
    refine ensures_then (h.outside h₄ rfl) fun result w₅ h₅ => ?_
    exact ensures_then (h.require h₅ _) fun _ w₆ h₆ => h.checked h₆ result
  | «open» selected =>
    refine ensures_catch ((h.openCandidate hHolds₂ selected).mono fun result w₃ _ h₃ => ?_)
    cases result with
    | ok routes => exact h₃
    | error failure => exact ensures_then (h.outside h₃ rfl) fun _ w₄ h₄ => ensures_throw (h.now w₄ h₄) h₄
  | close => exact ensures_then (h.closeCandidate hHolds₂) fun _ w₃ h₃ => h.checked h₃ []
  | release =>
    refine ensures_then (h.releaseGuard hHolds₂) fun _ w₃ h₃ => ?_
    exact ensures_then (h.setHost h₃ _) fun _ w₄ h₄ => h.checked h₄ []
  | remember candidate => exact ensures_then (h.outside hHolds₂ rfl) fun _ w₃ h₃ => h.checked h₃ []

theorem abort (hHolds : holds w) : Ensures allowed keep (abort o) (fun _ => holds) w := by
  refine ensures_then (h.host hHolds) fun old w₁ h₁ => ?_
  refine ensures_then (h.record h₁) fun value w₂ h₂ => ?_
  split
  · exact ensures_then (h.block w₂ h₂) fun _ w₃ h₃ => h.outside h₃ rfl
  · exact h.done h₂ ()

theorem program (hHolds : holds w₀) (operation : Operation) :
    Ensures allowed keep (operation.program o) (fun _ => holds) w₀ := by
  cases operation with
  | acquire => exact h.acquire w₀ (.refl w₀) hHolds
  | block => exact h.block w₀ hHolds
  | prepare selected => exact h.prepare selected w₀ hHolds
  | ready index ipv6 => exact h.ready index ipv6 w₀ hHolds
  | release => exact h.release w₀ hHolds
  | snapshot => exact ensures_then (h.snapshot hHolds) fun _ _ h' => h.done h' ()
  | call guardPrepared known action =>
    exact ensures_then (h.call hHolds guardPrepared known action) fun _ _ h' => h.done h' ()
  | abort => exact h.abort hHolds

end Guarded

end FamilyConnect.LinuxGuard
