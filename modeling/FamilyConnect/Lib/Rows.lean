import Mathlib

/-!
# Rows in the order of insertion

A table whose rows are read by a key, and in which a row that is written again
keeps its place.
-/

namespace FamilyConnect.Lib.Rows

universe u v

variable {κ : Type u} {α : Type v} [DecidableEq κ] {key : α → κ} {k : κ} {row row' : α} {rows : List α}

def get (key : α → κ) (k : κ) (rows : List α) : Option α := rows.find? fun row => decide (key row = k)

def put (key : α → κ) (row : α) : List α → List α
  | [] => [row]
  | first :: rest => if key first = key row then row :: rest else first :: put key row rest

theorem key_of_get (h : get key k rows = some row) : key row = k := by
  simpa using List.find?_some h

theorem mem_of_get (h : get key k rows = some row) : row ∈ rows := List.mem_of_find?_eq_some h

theorem get_cons (key : α → κ) (k : κ) (row : α) (rows : List α) :
    get key k (row :: rows) = if key row = k then some row else get key k rows := by
  by_cases hKey : key row = k
  · simp [get, hKey]
  · simp [get, hKey]

theorem get_put (key : α → κ) (k : κ) (row : α) (rows : List α) :
    get key k (put key row rows) = if key row = k then some row else get key k rows := by
  induction rows with
  | nil => exact get_cons key k row []
  | cons first rest ih =>
    rw [put]
    split
    · rename_i hSame
      rw [get_cons, get_cons, hSame]
      split <;> rfl
    · rename_i hOther
      rw [get_cons, get_cons, ih]
      split
      · rename_i hFirst
        rw [if_neg fun hRow => hOther (hFirst.trans hRow.symm)]
      · rfl

theorem put_put (hKey : key row = key row') : put key row' (put key row rows) = put key row' rows := by
  induction rows with
  | nil =>
    rw [put]
    exact if_pos hKey
  | cons first rest ih =>
    by_cases hFirst : key first = key row
    · rw [put, if_pos hFirst, put, if_pos hKey, put, if_pos (hFirst.trans hKey)]
    · rw [put, if_neg hFirst, put, if_neg fun h => hFirst (h.trans hKey.symm), ih, put,
        if_neg fun h => hFirst (h.trans hKey.symm)]

theorem mem_put_self (key : α → κ) (row : α) (rows : List α) : row ∈ put key row rows := by
  induction rows with
  | nil => exact List.mem_singleton_self row
  | cons first rest ih =>
    rw [put]
    split
    · exact .head _
    · exact .tail _ ih

theorem mem_put_other (hMem : row' ∈ rows) (hKey : key row' ≠ key row) : row' ∈ put key row rows := by
  induction rows with
  | nil => cases hMem
  | cons first rest ih =>
    rw [put]
    rcases List.mem_cons.mp hMem with rfl | hRest
    · rw [if_neg hKey]
      exact .head _
    · split
      · exact .tail _ hRest
      · exact .tail _ (ih hRest)

theorem put_new (hNew : get key (key row) rows = none) : put key row rows = rows ++ [row] := by
  induction rows with
  | nil => rfl
  | cons first rest ih =>
    rw [get_cons] at hNew
    split at hNew
    · cases hNew
    · rename_i hOther
      rw [put, if_neg hOther, ih hNew]
      rfl

theorem get_append_of_some (row : α) (h : get key k rows = some row') : get key k (rows ++ [row]) = some row' := by
  rw [get] at h ⊢
  rw [List.find?_append, h, Option.some_or]

theorem get_append_of_none (h : get key k rows = none) (hKey : key row = k) : get key k (rows ++ [row]) = some row := by
  rw [get] at h ⊢
  rw [List.find?_append, h, Option.none_or]
  simp [hKey]

theorem get_map {f : α → α} (hKey : ∀ row, key (f row) = key row) (k : κ) (rows : List α) :
    get key k (rows.map f) = (get key k rows).map f := by
  induction rows with
  | nil => rfl
  | cons first rest ih =>
    rw [List.map_cons, get_cons, get_cons, hKey, ih]
    split <;> rfl

theorem mem_put (h : row' ∈ put key row rows) : row' = row ∨ row' ∈ rows := by
  induction rows with
  | nil => exact .inl (List.mem_singleton.mp h)
  | cons first rest ih =>
    rw [put] at h
    split at h
    · exact (List.mem_cons.mp h).imp_right (List.mem_cons_of_mem first)
    · rcases List.mem_cons.mp h with rfl | hRest
      · exact .inr (.head _)
      · exact (ih hRest).imp_right (List.mem_cons_of_mem first)

theorem forall_put {p : α → Prop} (h : ∀ row' ∈ rows, p row') (hRow : p row) : ∀ row' ∈ put key row rows, p row' := by
  intro row' hMem
  rcases mem_put hMem with rfl | hOld
  · exact hRow
  · exact h row' hOld

omit [DecidableEq κ] in
theorem forall_append {p : α → Prop} (h : ∀ row' ∈ rows, p row') (hRow : p row) : ∀ row' ∈ rows ++ [row], p row' :=
  List.forall_mem_append.mpr ⟨h, List.forall_mem_singleton.mpr hRow⟩

def Keyed (key : α → κ) (rows : List α) : Prop := (rows.map key).Nodup

section

variable (h : Keyed key rows)
include h

theorem Keyed.get (hMem : row ∈ rows) : get key (key row) rows = some row := by
  induction rows with
  | nil => cases hMem
  | cons first rest ih =>
    obtain ⟨hFirst, hRest⟩ := List.nodup_cons.mp h
    rw [get_cons]
    rcases List.mem_cons.mp hMem with rfl | hLater
    · exact if_pos rfl
    · rw [if_neg fun hKey => hFirst (List.mem_map.mpr ⟨row, hLater, hKey.symm⟩), ih hRest hLater]

theorem Keyed.mem_put (hMem : row' ∈ Rows.put key row rows) : row' = row ∨ row' ∈ rows ∧ key row' ≠ key row := by
  induction rows with
  | nil => exact .inl (List.mem_singleton.mp hMem)
  | cons first rest ih =>
    obtain ⟨hFirst, hRest⟩ := List.nodup_cons.mp h
    rw [Rows.put] at hMem
    split at hMem
    · rename_i hSame
      rcases List.mem_cons.mp hMem with rfl | hLater
      · exact .inl rfl
      · refine .inr ⟨.tail _ hLater, fun hKey => hFirst ?_⟩
        rw [hSame, ← hKey]
        exact List.mem_map.mpr ⟨row', hLater, rfl⟩
    · rename_i hOther
      rcases List.mem_cons.mp hMem with rfl | hLater
      · exact .inr ⟨.head _, hOther⟩
      · exact (ih hRest hLater).imp_right fun hOld => ⟨.tail _ hOld.1, hOld.2⟩

theorem Keyed.put (row : α) : Keyed key (put key row rows) := by
  induction rows with
  | nil => exact List.nodup_singleton _
  | cons first rest ih =>
    obtain ⟨hFirst, hRest⟩ := List.nodup_cons.mp h
    rw [Rows.put]
    split
    · rename_i hSame
      rw [hSame] at hFirst
      exact List.nodup_cons.mpr ⟨hFirst, hRest⟩
    · rename_i hOther
      refine List.nodup_cons.mpr ⟨fun hMem => ?_, ih hRest⟩
      obtain ⟨row', hPut, hKey⟩ := List.mem_map.mp hMem
      rcases Rows.mem_put hPut with rfl | hOld
      · exact hOther hKey.symm
      · exact hFirst (List.mem_map.mpr ⟨row', hOld, hKey⟩)

omit [DecidableEq κ] in
theorem Keyed.filter (p : α → Bool) : Keyed key (rows.filter p) :=
  h.sublist (List.filter_sublist.map key)

theorem Keyed.append (hNew : Rows.get key (key row) rows = none) : Keyed key (rows ++ [row]) := by
  rw [← put_new hNew]
  exact h.put row

omit h in
theorem length_filter_put {p : α → Bool} (hRow : p row = false) (rows : List α) :
    ((Rows.put key row rows).filter p).length ≤ (rows.filter p).length := by
  induction rows with
  | nil => simp [Rows.put, hRow]
  | cons first rest ih =>
    rw [Rows.put]
    split
    · rw [List.filter_cons_of_neg (by simp [hRow])]
      exact (List.Sublist.filter p (List.sublist_cons_self first rest)).length_le
    · rw [List.filter_cons, List.filter_cons]
      split
      · exact Nat.succ_le_succ ih
      · exact ih

omit h in
theorem length_put (h : Rows.get key (key row) rows = some row') : (Rows.put key row rows).length = rows.length := by
  induction rows with
  | nil => cases h
  | cons first rest ih =>
    rw [Rows.get_cons] at h
    rw [Rows.put]
    split
    · rfl
    · rename_i hOther
      rw [if_neg hOther] at h
      rw [List.length_cons, List.length_cons, ih h]

omit h in
theorem get_none_iff : Rows.get key k rows = none ↔ ∀ row ∈ rows, key row ≠ k := by
  rw [Rows.get, List.find?_eq_none]
  simp

omit [DecidableEq κ] in
theorem Keyed.length_le {β : Type*} {key' : β → κ} {rows' : List β}
    (hKeys : ∀ row ∈ rows, ∃ row' ∈ rows', key' row' = key row) : rows.length ≤ rows'.length := by
  have hSubset : rows.map key ⊆ rows'.map key' := by
    intro k hK
    obtain ⟨row, hRow, rfl⟩ := List.mem_map.mp hK
    obtain ⟨row', hRow', hSame⟩ := hKeys row hRow
    exact hSame ▸ List.mem_map_of_mem hRow'
  have hLength := (List.Nodup.subperm h hSubset).length_le
  rwa [List.length_map, List.length_map] at hLength

omit [DecidableEq κ] in
theorem Keyed.map {f : α → α} (hKey : ∀ row, key (f row) = key row) : Keyed key (rows.map f) := by
  have hSame : (rows.map f).map key = rows.map key := by
    rw [List.map_map]
    exact List.map_congr_left fun row _ => hKey row
  rw [Keyed, hSame]
  exact h

end

end FamilyConnect.Lib.Rows
