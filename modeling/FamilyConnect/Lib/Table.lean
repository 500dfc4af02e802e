import Mathlib

/-!
# Finite maps with bulk updates and weights

`AList` supplies lookup, insertion and erasure. Added here are the loop that
visits every entry and keeps, rewrites or deletes it, and the total weight of
the values held, with the way each operation changes that total.
-/

namespace FamilyConnect.Lib

universe u v w

abbrev Table (κ : Type u) (α : Type v) := AList (fun _ : κ => α)

namespace Table

variable {κ : Type u} {α : Type v} {M : Type w}

variable (f : κ → α → Option α)

/-- The loop over all entries that keeps, rewrites or deletes each of them. -/
def filterMap (t : Table κ α) : Table κ α where
  entries := t.entries.filterMap fun e => (f e.1 e.2).map fun v => ⟨e.1, v⟩
  nodupKeys := by
    have hKeys : (t.entries.filterMap fun e => (f e.1 e.2).map fun v => (⟨e.1, v⟩ : Σ _ : κ, α)).keys.Sublist
        t.entries.keys := by
      induction t.entries with
      | nil => simp
      | cons e l ih =>
        rw [List.filterMap_cons]
        cases f e.1 e.2 with
        | none => exact ih.trans (List.sublist_cons_self _ _)
        | some v => exact ih.cons_cons e.1
    exact hKeys.nodup t.nodupKeys

def weight [AddCommMonoid M] (m : α → M) (t : Table κ α) : M :=
  (t.entries.map fun e => m e.2).sum

/-- The weight of what `filterMap f` deletes. -/
def droppedWeight [AddCommMonoid M] (m : α → M) (f : κ → α → Option α) (t : Table κ α) : M :=
  ((t.entries.filter fun e => (f e.1 e.2).isNone).map fun e => m e.2).sum

theorem weight_filterMap [AddCommMonoid M] (m : α → M) (f : κ → α → Option α)
    (hf : ∀ k v v', f k v = some v' → m v' = m v) (t : Table κ α) :
    weight m t = weight m (t.filterMap f) + droppedWeight m f t := by
  have h : ∀ l : List (Σ _ : κ, α), (l.map fun e => m e.2).sum =
      ((l.filterMap fun e => (f e.1 e.2).map fun v => (⟨e.1, v⟩ : Σ _ : κ, α)).map fun e => m e.2).sum +
        ((l.filter fun e => (f e.1 e.2).isNone).map fun e => m e.2).sum := by
    intro l
    induction l with
    | nil => simp
    | cons e l ih =>
      rw [List.map_cons, List.sum_cons, ih, List.filterMap_cons, List.filter_cons]
      cases hv : f e.1 e.2 with
      | none => simp [add_left_comm]
      | some v => simp [hf e.1 e.2 v hv, add_assoc]
  exact h t.entries

variable [DecidableEq κ]

variable {t : Table κ α} {k : κ}

theorem mem_iff_lookup : k ∈ t ↔ ∃ v, t.lookup k = some v := by
  rw [← AList.lookup_isSome, Option.isSome_iff_exists]

theorem lookup_filterMap (t : Table κ α) (k : κ) : (t.filterMap f).lookup k = (t.lookup k).bind (f k) := by
  have h : ∀ l : List (Σ _ : κ, α), l.NodupKeys →
      (l.filterMap fun e => (f e.1 e.2).map fun v => (⟨e.1, v⟩ : Σ _ : κ, α)).dlookup k =
        (l.dlookup k).bind (f k) := by
    intro l hl
    induction l with
    | nil => rfl
    | cons e l ih =>
      obtain ⟨k', v⟩ := e
      have hTail := ih (List.nodupKeys_cons.mp hl).2
      by_cases hk : k = k'
      · subst hk
        have hNot : l.dlookup k = none := List.dlookup_eq_none.mpr (List.nodupKeys_cons.mp hl).1
        rw [List.dlookup_cons_eq, List.filterMap_cons]
        cases hf : f k v with
        | none => simpa [hNot, hf] using hTail
        | some v' => simp [hf]
      · rw [List.dlookup_cons_ne _ _ hk, List.filterMap_cons]
        cases hf : f k' v with
        | none => simpa [hf] using hTail
        | some v' =>
          simp only [Option.map_some]
          rw [List.dlookup_cons_ne _ _ hk]
          exact hTail
  exact h t.entries t.nodupKeys

theorem lookup_insert_some {k j : κ} {v v' : α} (h : (t.insert k v).lookup j = some v') :
    j = k ∧ v' = v ∨ j ≠ k ∧ t.lookup j = some v' := by
  by_cases hj : j = k
  · subst hj
    rw [AList.lookup_insert, Option.some.injEq] at h
    exact .inl ⟨rfl, h.symm⟩
  · rw [AList.lookup_insert_ne hj] at h
    exact .inr ⟨hj, h⟩

variable {v : α}

theorem lookup_erase_some {k j : κ} (h : (t.erase k).lookup j = some v) : j ≠ k ∧ t.lookup j = some v := by
  by_cases hj : j = k
  · subst hj
    rw [AList.lookup_erase] at h
    cases h
  · rw [AList.lookup_erase_ne hj] at h
    exact ⟨hj, h⟩

theorem length_keys_erase (h : t.lookup k = some v) : (t.erase k).keys.length + 1 = t.keys.length := by
  have hMem : k ∈ t.keys := AList.mem_keys.mp (mem_iff_lookup.mpr ⟨v, h⟩)
  rw [AList.keys_erase, List.length_erase_of_mem hMem]
  exact Nat.sub_add_cancel (List.length_pos_of_mem hMem)

theorem length_keys_erase_le (k : κ) (t : Table κ α) : (t.erase k).keys.length ≤ t.keys.length := by
  rw [AList.keys_erase]
  exact List.length_erase_le

theorem length_keys_pos (h : t.lookup k = some v) : 0 < t.keys.length :=
  List.length_pos_of_mem (AList.mem_keys.mp (mem_iff_lookup.mpr ⟨v, h⟩))

theorem length_keys_insert_le (k : κ) (v : α) (t : Table κ α) : (t.insert k v).keys.length ≤ t.keys.length + 1 := by
  rw [AList.keys_insert, List.length_cons]
  exact Nat.succ_le_succ List.length_erase_le

theorem length_keys_insert_of_mem (v : α) (h : k ∈ t) : (t.insert k v).keys.length = t.keys.length := by
  have hMem : k ∈ t.keys := AList.mem_keys.mp h
  rw [AList.keys_insert, List.length_cons, List.length_erase_of_mem hMem]
  exact Nat.sub_add_cancel (List.length_pos_of_mem hMem)

theorem length_keys_insert_of_not_mem (v : α) (h : k ∉ t) : (t.insert k v).keys.length = t.keys.length + 1 := by
  rw [AList.keys_insert, List.length_cons, List.erase_of_not_mem fun hk => h (AList.mem_keys.mpr hk)]

theorem erase_insert (k : κ) (v : α) (t : Table κ α) : (t.insert k v).erase k = t.erase k := by
  apply AList.ext
  have hCons : (t.insert k v).entries = ⟨k, v⟩ :: t.entries.kerase k := AList.entries_insert
  have hHead : k = (⟨k, v⟩ : Sigma fun _ : κ => α).1 := rfl
  calc ((t.insert k v).erase k).entries = (t.insert k v).entries.kerase k := rfl
    _ = t.entries.kerase k := by rw [hCons, List.kerase_cons_eq hHead]

/-- The entries that `filterMap f` deletes. -/
def dropped (t : Table κ α) : List κ :=
  (t.entries.filter fun e => (f e.1 e.2).isNone).map Sigma.fst

omit [DecidableEq κ] in
theorem length_keys_filterMap (t : Table κ α) :
    (t.filterMap f).keys.length + (dropped f t).length = t.keys.length := by
  have h : ∀ l : List (Σ _ : κ, α),
      (l.filterMap fun e => (f e.1 e.2).map fun v => (⟨e.1, v⟩ : Σ _ : κ, α)).length +
        (l.filter fun e => (f e.1 e.2).isNone).length = l.length := by
    intro l
    induction l with
    | nil => rfl
    | cons e l ih =>
      rw [List.filterMap_cons, List.filter_cons]
      cases hv : f e.1 e.2 with
      | none =>
        simp only [Option.map_none, Option.isNone_none, if_true, List.length_cons]
        omega
      | some v =>
        simp only [Option.map_some, Option.isNone_some, Bool.false_eq_true, if_false, List.length_cons]
        omega
  simp only [dropped, AList.keys, List.keys, List.length_map]
  exact h t.entries

theorem mem_dropped {f : κ → α → Option α} : k ∈ dropped f t ↔ ∃ v, t.lookup k = some v ∧ f k v = none := by
  simp only [dropped, List.mem_map, List.mem_filter, Option.isNone_iff_eq_none]
  constructor
  · rintro ⟨⟨k', v⟩, ⟨hMem, hNone⟩, rfl⟩
    exact ⟨v, AList.mem_lookup_iff.mpr hMem, hNone⟩
  · rintro ⟨v, hLookup, hNone⟩
    exact ⟨⟨k, v⟩, ⟨AList.mem_lookup_iff.mp hLookup, hNone⟩, rfl⟩

/-- The loop that writes one value under every key of a list. -/
def insertAll (v : α) (keys : List κ) (t : Table κ α) : Table κ α := keys.foldl (fun t k => t.insert k v) t

theorem lookup_insertAll (v : α) (keys : List κ) (t : Table κ α) (k : κ) :
    (insertAll v keys t).lookup k = if k ∈ keys then some v else t.lookup k := by
  induction keys generalizing t with
  | nil => simp [insertAll]
  | cons k' keys ih =>
    have hStep : insertAll v (k' :: keys) t = insertAll v keys (t.insert k' v) := rfl
    rw [hStep, ih]
    by_cases hMem : k ∈ keys
    · simp [hMem]
    · by_cases hk : k = k'
      · subst hk
        simp [hMem]
      · simp [hMem, hk, AList.lookup_insert_ne hk]

theorem length_keys_insertAll_le (v : α) (keys : List κ) (t : Table κ α) :
    (insertAll v keys t).keys.length ≤ t.keys.length + keys.length := by
  induction keys generalizing t with
  | nil => exact le_rfl
  | cons k keys ih =>
    have hStep : insertAll v (k :: keys) t = insertAll v keys (t.insert k v) := rfl
    have hInsert := length_keys_insert_le k v t
    have hRest := ih (t.insert k v)
    rw [hStep, List.length_cons]
    omega

variable [AddCommMonoid M] (m : α → M)

theorem weight_insert (h : t.lookup k = none) : weight m (t.insert k v) = m v + weight m t := by
  rw [weight, AList.entries_insert_of_notMem (AList.lookup_eq_none.mp h), List.map_cons, List.sum_cons]
  rfl

theorem weight_erase (h : t.lookup k = some v) : weight m t = m v + weight m (t.erase k) := by
  have hMem : k ∈ t.entries.keys := AList.mem_keys.mp (mem_iff_lookup.mpr ⟨v, h⟩)
  obtain ⟨v', before, after, hNot, hEntries, hErase⟩ := List.exists_of_kerase hMem
  have hv : v' = v := by
    have hLookup : t.entries.dlookup k = some v := h
    rw [hEntries, List.dlookup_append, List.dlookup_eq_none.mpr hNot, List.dlookup_cons_eq] at hLookup
    exact Option.some.inj hLookup
  subst hv
  change (t.entries.map fun e => m e.2).sum = m v' + ((t.entries.kerase k).map fun e => m e.2).sum
  rw [hErase, hEntries]
  simp [add_left_comm]

theorem weight_replace (v' : α) (h : t.lookup k = some v) : weight m (t.insert k v') + m v = m v' + weight m t := by
  have hSame : t.insert k v' = (t.erase k).insert k v' := by
    apply AList.ext
    rw [AList.entries_insert, AList.entries_insert]
    change _ = _ :: (t.entries.kerase k).kerase k
    rw [List.kerase_of_notMem_keys (List.notMem_keys_kerase k t.nodupKeys)]
  rw [hSame, weight_insert m (AList.lookup_erase k t), weight_erase m h]
  ac_rfl

end Table

end FamilyConnect.Lib
