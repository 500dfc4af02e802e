import FamilyConnect.Messenger.Store

/-!
# Edited messages

Source: `visible_messages` of `messenger/store.py`, with the fields that an edit changes. Ids are
unique in the table, so an edit finds at most one original.
-/

namespace FamilyConnect.Messenger

open Lib

/-- A stored message with its text; the revision of an edit was checked when it was parsed or queued. -/
structure Post where
  record : Record
  text : String
  positive : ∀ target revision, record.kind = .edit target revision → 0 < revision

structure Shown extends Visible where
  text : String
  edited : Bool := false
  status : Status
  attempt : Option Token
  deriving DecidableEq

namespace Post

def original (post : Post) : Option Shown :=
  post.record.visible.map fun visible =>
    { visible with text := post.text, status := post.record.status, attempt := post.record.attempt }

def target (post : Post) : Option Id :=
  match post.record.kind with
  | .edit target _ => some target
  | _ => none

def revision (post : Post) : Nat :=
  match post.record.kind with
  | .edit _ revision => revision
  | _ => 0

/-- The edit comes from the peer of the text, in the same direction. -/
def Edits (edit : Post) (original : Shown) : Prop :=
  edit.target = some original.id ∧ original.audio = false ∧ original.peer = edit.record.peer ∧
    original.outgoing = edit.record.outgoing

instance (edit : Post) (original : Shown) : Decidable (edit.Edits original) :=
  inferInstanceAs (Decidable (_ ∧ _))

def amend (edit : Post) (original : Shown) : Shown :=
  { original with
    text := edit.text
    revision := edit.revision
    edited := true
    status := if original.outgoing then edit.record.status else original.status
    attempt := if original.outgoing then edit.record.attempt else original.attempt }

/-- The loop body. -/
def revise (edit : Post) (original : Shown) : Shown :=
  if edit.Edits original ∧ original.revision < edit.revision then edit.amend original else original

end Post

def shownMessages (messages : List Post) : List Shown :=
  messages.foldl (fun visible edit => visible.map edit.revise) (messages.filterMap Post.original)

/-- The edit with the highest revision. -/
def latest (messages : List Post) (original : Shown) : Option Post :=
  (messages.filter fun edit => edit.Edits original).argmax Post.revision

variable {messages : List Post} {edit other : Post} {original : Shown}

theorem revise_visible (edit : Post) (original : Shown) :
    (edit.revise original).toVisible = edit.record.revise original.toVisible := by
  unfold Post.revise Record.revise
  split
  · rename_i hNew
    obtain ⟨⟨hTarget, hSame⟩, hRevision⟩ := hNew
    unfold Post.target at hTarget
    unfold Post.revision at hRevision
    grind [Post.amend, Post.revision]
  · grind [Post.Edits, Post.target, Post.revision]

theorem visible_original (post : Post) : post.original.map Shown.toVisible = post.record.visible := by
  unfold Post.original
  cases post.record.visible <;> rfl

/-- Without the texts these are the messages that the store looks at. -/
theorem shownMessages_visible (messages : List Post) :
    (shownMessages messages).map Shown.toVisible = visibleMessages (messages.map Post.record) := by
  have hFold : ∀ (edits : List Post) (shown : List Shown),
      (edits.foldl (fun visible edit => visible.map edit.revise) shown).map Shown.toVisible =
        (edits.map Post.record).foldl (fun visible edit => visible.map edit.revise) (shown.map Shown.toVisible) := by
    intro edits
    induction edits with
    | nil => exact fun _ => rfl
    | cons edit rest ih =>
      intro shown
      rw [List.foldl_cons, ih, List.map_cons, List.foldl_cons, List.map_map, List.map_map]
      congr 2
      exact funext (revise_visible edit)
  rw [shownMessages, hFold, visibleMessages, List.map_filterMap, List.filterMap_map]
  congr 2
  exact funext visible_original

/-! ## One original -/

def revised (messages : List Post) (original : Shown) : Shown :=
  messages.foldl (fun original edit => edit.revise original) original

theorem shownMessages_eq (messages : List Post) :
    shownMessages messages = (messages.filterMap Post.original).map (revised messages) := by
  have hFold : ∀ (edits : List Post) (visible : List Shown),
      edits.foldl (fun visible edit => visible.map edit.revise) visible = visible.map (revised edits) := by
    intro edits
    induction edits with
    | nil => exact fun visible => (List.map_id visible).symm
    | cons edit rest ih =>
      intro visible
      rw [List.foldl_cons, ih, List.map_map]
      rfl
  exact hFold messages _

theorem edits_revise : other.Edits (edit.revise original) ↔ other.Edits original := by
  unfold Post.revise
  split <;> rfl

theorem amend_revise : other.amend (edit.revise original) = other.amend original := by
  unfold Post.revise
  split
  · simp only [Post.amend]
    split <;> rfl
  · rfl

/-- What is left is the original or one of its edits, and no edit has a higher revision. -/
theorem revised_cases (messages : List Post) (original : Shown) :
    (revised messages original = original ∨
        ∃ edit ∈ messages, edit.Edits original ∧ revised messages original = edit.amend original) ∧
      original.revision ≤ (revised messages original).revision ∧
        ∀ edit ∈ messages, edit.Edits original → edit.revision ≤ (revised messages original).revision := by
  induction messages generalizing original with
  | nil => simp [revised]
  | cons first rest ih =>
    have hStep : revised (first :: rest) original = revised rest (first.revise original) := rfl
    obtain ⟨hResult, hFirst, hBound⟩ := ih (first.revise original)
    simp only [edits_revise, amend_revise] at hResult hBound
    rw [hStep]
    by_cases hNew : first.Edits original ∧ original.revision < first.revision
    · have hRevise : first.revise original = first.amend original := if_pos hNew
      rw [hRevise] at hResult hFirst hBound ⊢
      have hAmend : first.revision ≤ (revised rest (first.amend original)).revision := hFirst
      grind
    · have hRevise : first.revise original = original := if_neg hNew
      rw [hRevise] at hResult hFirst hBound ⊢
      grind

/-- Edits of one original have distinct revisions. -/
def Distinct (messages : List Post) : Prop :=
  ∀ edit ∈ messages, ∀ other ∈ messages, ∀ original : Shown, edit.Edits original → other.Edits original →
    edit.revision = other.revision → edit = other

theorem Post.Edits.pos (h : edit.Edits original) : 0 < edit.revision := by
  have hTarget := h.1
  unfold Post.target at hTarget
  unfold Post.revision
  split at hTarget
  · rename_i target revision hKind
    exact edit.positive target revision hKind
  · cases hTarget

theorem revised_eq (hDistinct : Distinct messages) (hFirst : original.revision = 0) :
    revised messages original = (latest messages original).elim original (·.amend original) := by
  obtain ⟨hResult, -, hBound⟩ := revised_cases messages original
  cases hLatest : latest messages original with
  | none =>
    have hNone := List.filter_eq_nil_iff.mp (List.argmax_eq_none.mp hLatest)
    rcases hResult with hSame | ⟨edit, hMem, hEdits, -⟩
    · exact hSame
    · exact absurd (decide_eq_true hEdits) (hNone edit hMem)
  | some best =>
    obtain ⟨hBest, hEdits⟩ := List.mem_filter.mp (List.argmax_mem hLatest)
    have hEdits := of_decide_eq_true hEdits
    have hLe := hBound best hBest hEdits
    rcases hResult with hSame | ⟨edit, hMem, hEdit, hSame⟩
    · rw [hSame, hFirst] at hLe
      exact absurd hEdits.pos (not_lt.mpr hLe)
    · have hGe : edit.revision ≤ best.revision :=
        List.le_of_mem_argmax (List.mem_filter.mpr ⟨hMem, decide_eq_true hEdit⟩) hLatest
      rw [hSame] at hLe ⊢
      rw [hDistinct edit hMem best hBest original hEdit hEdits (le_antisymm hGe hLe)]
      rfl

theorem revised_perm {messages' : List Post} (hPerm : messages.Perm messages')
    (hDistinct : Distinct messages) (original : Shown) :
    revised messages original = revised messages' original := by
  apply hPerm.foldl_eq'
  intro edit hEdit other hOther current
  have hSame := hDistinct edit hEdit other hOther current
  unfold Post.revise
  grind [Post.amend, Post.Edits]

theorem revised_filter {keep : Post → Bool} (hOthers : ∀ edit ∈ messages, keep edit = false → ¬edit.Edits original) :
    revised (messages.filter keep) original = revised messages original := by
  induction messages generalizing original with
  | nil => rfl
  | cons edit rest ih =>
    have hRest := fun other hMem => hOthers other (.tail _ hMem)
    cases hKeep : keep edit with
    | true =>
      rw [List.filter_cons_of_pos hKeep]
      exact ih fun other hMem hDropped => edits_revise.not.mpr (hRest other hMem hDropped)
    | false =>
      have hEdit : edit.revise original = original := if_neg fun hNew => hOthers edit (.head _) hKeep hNew.1
      rw [List.filter_cons_of_neg (by simp [hKeep]), ih hRest]
      exact congrArg (revised rest) hEdit.symm

theorem original_of_target (h : edit.target ≠ none) : edit.original = none := by
  unfold Post.target at h
  unfold Post.original Record.visible
  grind

theorem revision_original {post : Post} (h : post.original = some original) : original.revision = 0 := by
  unfold Post.original Record.visible at h
  grind

/-- Every text is shown as its latest edit has it, whatever the order of the table; edits that are not for a text of the
same peer and direction change nothing. -/
theorem edits_converge (hDistinct : Distinct messages) :
    shownMessages messages =
        (messages.filterMap Post.original).map (fun original =>
          (latest messages original).elim original (·.amend original)) ∧
      (∀ messages', messages.Perm messages' → (shownMessages messages).Perm (shownMessages messages')) ∧
      ∀ keep : Post → Bool,
        (∀ edit ∈ messages, keep edit = false → edit.target ≠ none ∧
          ∀ post ∈ messages, ∀ original, post.original = some original → ¬edit.Edits original) →
        shownMessages (messages.filter keep) = shownMessages messages := by
  simp only [shownMessages_eq]
  refine ⟨?_, ?_, ?_⟩
  · apply List.map_congr_left
    intro original hMem
    obtain ⟨post, -, hPost⟩ := List.mem_filterMap.mp hMem
    exact revised_eq hDistinct (revision_original hPost)
  · intro messages' hPerm
    rw [funext (revised_perm hPerm hDistinct)]
    exact (hPerm.filterMap _).map _
  · intro keep hOthers
    have hOriginals : (messages.filter keep).filterMap Post.original = messages.filterMap Post.original := by
      rw [List.filterMap_filter]
      apply List.filterMap_congr
      intro post hMem
      split
      · rfl
      · rename_i hDropped
        exact (original_of_target (hOthers post hMem (Bool.eq_false_iff.mpr hDropped)).1).symm
    rw [hOriginals]
    apply List.map_congr_left
    intro original hMem
    obtain ⟨post, hPost, hOriginal⟩ := List.mem_filterMap.mp hMem
    exact revised_filter fun edit hEdit hDropped => (hOthers edit hEdit hDropped).2 post hPost original hOriginal

namespace Sample

theorem lasting (kind : Kind) : kind.isReceipt = true → (none : Option Time) = none := fun _ => rfl

def post (id : Id) (kind : Kind) (text : String)
    (h : ∀ target revision, kind = .edit target revision → 0 < revision) : Post :=
  ⟨{ id := id, peer := [7], kind := kind, packed := [], outgoing := false, status := .received,
     plain := lasting kind }, text, h⟩

/-- The second edit was stored before the text and the first. -/
def edited : List Post :=
  [post [2] (.edit [1] 2) "second" (by simp), post [1] .text "text" (by simp), post [3] (.edit [1] 1) "first" (by simp)]

theorem edited_distinct : Distinct edited := by
  intro edit hEdit other hOther original hEdits hOtherEdits hRevision
  simp only [edited, List.mem_cons, List.not_mem_nil, or_false] at hEdit hOther
  rcases hEdit with rfl | rfl | rfl <;> rcases hOther with rfl | rfl | rfl <;> first | rfl | cases hRevision

end Sample

theorem edits_converge_edited : (shownMessages Sample.edited).map Shown.text = ["second"] := by
  rw [(edits_converge Sample.edited_distinct).1]
  decide +kernel

end FamilyConnect.Messenger
