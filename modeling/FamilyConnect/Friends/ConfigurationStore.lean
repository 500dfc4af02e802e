import FamilyConnect.Friends.Routing

/-!
# The catalogs that a client has accepted

Source: `FriendsConfigurationStore` of `provisioning/friends_store.py`. A reply counts
here for its catalog; every write replaces one file.
-/

namespace FamilyConnect.Friends

open Lib Transaction

/-- `friends.configuration.json` and `friends.catalog-floor.json`. -/
structure Store where
  cache : List (Country × Catalog) := []
  saved : Option Catalog := none

inductive StoreFailure where
  | invalid
  deriving DecidableEq

namespace Store

def entries (store : Store) (additional : Option Catalog) : List Catalog :=
  store.cache.map Prod.snd ++ store.saved.toList ++ additional.toList

def floorOf (catalogs : List Catalog) : Nat := (catalogs.map Catalog.sequence).foldr max 0

def current (signed : Catalog → Bool) (store : Store) (additional : Option Catalog) :
    Except StoreFailure (Option Catalog) := do
  let catalogs := store.entries additional
  demand (∀ catalog ∈ catalogs, catalog.Verified signed) .invalid
  let highest := catalogs.filter fun catalog => decide (catalog.sequence = floorOf catalogs)
  demand (∀ a ∈ highest, ∀ b ∈ highest, a.payload = b.payload) .invalid
  pure highest.head?

/-- `accept`, when `fetch` returns `response`. -/
def accept (signed : Catalog → Bool) (store : Store) (country : Country) (response : Catalog) :
    Except StoreFailure Store := do
  let highest ← store.current signed none
  let floor := (highest.map Catalog.sequence).getD 0
  demand (response.Verified signed ∧ floor ≤ response.sequence) .invalid
  demand (∀ previous ∈ highest, response.sequence = floor →
    response.payload = previous.payload) .invalid
  pure { store with cache := Rows.put Prod.fst (country, response) store.cache }

/-- `merge_catalog_floor` -/
def merge (signed : Catalog → Bool) (store : Store) (envelope : Catalog) :
    Except StoreFailure Store := do
  let highest ← store.current signed (some envelope)
  pure (if highest = none ∨ store.saved = highest then store else { store with saved := highest })

end Store

/-! ## The floor -/

def Catalog.Precedes (a b : Catalog) : Prop :=
  a.sequence ≤ b.sequence ∧ (a.sequence = b.sequence → a.payload = b.payload)

structure Store.Coherent (signed : Catalog → Bool) (catalogs : List Catalog) : Prop where
  verified : ∀ a ∈ catalogs, a.Verified signed
  same : ∀ a ∈ catalogs, ∀ b ∈ catalogs, a.sequence = b.sequence → a.payload = b.payload

variable {signed : Catalog → Bool} {store store' : Store} {catalog response : Catalog}
  {catalogs : List Catalog} {additional : Option Catalog}

namespace Store

theorem Coherent.subset {catalogs' : List Catalog} (h : Coherent signed catalogs)
    (hSubset : catalogs' ⊆ catalogs) : Coherent signed catalogs' :=
  ⟨fun a hA => h.verified a (hSubset hA), fun a hA b hB => h.same a (hSubset hA) b (hSubset hB)⟩

theorem current_mem (h : store.current signed additional = .ok (some catalog)) :
    catalog ∈ store.entries additional := by
  obtain ⟨_, -, h⟩ := bind_ok h
  obtain ⟨_, -, h⟩ := bind_ok h
  exact List.mem_of_mem_filter (List.mem_of_mem_head? (Except.ok.inj h))

theorem current_ok (h : Coherent signed (store.entries additional)) :
    ∃ highest, store.current signed additional = .ok highest := by
  have hSame : ∀ a ∈ (store.entries additional).filter fun catalog =>
      decide (catalog.sequence = floorOf (store.entries additional)),
        ∀ b ∈ (store.entries additional).filter fun catalog =>
        decide (catalog.sequence = floorOf (store.entries additional)), a.payload = b.payload := by
    intro a hA b hB
    obtain ⟨hA, hFloorA⟩ := List.mem_filter.mp hA
    obtain ⟨hB, hFloorB⟩ := List.mem_filter.mp hB
    exact h.same a hA b hB ((of_decide_eq_true hFloorA).trans (of_decide_eq_true hFloorB).symm)
  exact ⟨_, both_ok_iff.mpr ⟨demand_iff.mpr h.verified, both_ok_iff.mpr ⟨demand_iff.mpr hSame, rfl⟩⟩⟩

theorem accept_ok (h : Coherent signed (store.entries none)) (hResponse : response.Verified signed)
    (hNext : ∀ a ∈ store.entries none, a.Precedes response) (country : Country) :
    store.accept signed country response = .ok { store with
      cache := Rows.put Prod.fst (country, response) store.cache } := by
  obtain ⟨highest, hCurrent⟩ := current_ok h
  unfold accept
  rw [hCurrent]
  refine both_ok_iff.mpr ⟨demand_iff.mpr ⟨hResponse, ?_⟩, both_ok_iff.mpr ⟨demand_iff.mpr ?_, rfl⟩⟩
  · cases highest with
    | none => exact Nat.zero_le _
    | some found => exact (hNext found (current_mem hCurrent)).1
  · intro previous hPrevious hSequence
    cases hPrevious
    exact ((hNext previous (current_mem hCurrent)).2 hSequence.symm).symm

theorem mem_entries : catalog ∈ store.entries additional ↔
    (∃ country, (country, catalog) ∈ store.cache) ∨ store.saved = some catalog ∨
    additional = some catalog := by
  simp [entries]

theorem entries_accept {country : Country} (h : store.accept signed country response = .ok store') :
    store'.entries none ⊆ response :: store.entries none := by
  obtain ⟨_, -, h⟩ := bind_ok h
  obtain ⟨_, -, h⟩ := bind_ok h
  obtain ⟨_, -, h⟩ := bind_ok h
  cases h
  intro a hA
  rw [List.mem_cons, mem_entries]
  rcases mem_entries.mp hA with ⟨target, hCache⟩ | hOther
  · rcases Rows.mem_put hCache with hNew | hOld
    · cases hNew
      exact .inl rfl
    · exact .inr (.inl ⟨target, hOld⟩)
  · exact .inr (.inr hOther)

theorem entries_merge (h : store.merge signed catalog = .ok store') :
    store'.entries none ⊆ catalog :: store.entries none := by
  obtain ⟨highest, hCurrent, h⟩ := bind_ok h
  have h := Except.ok.inj h
  split at h
  · subst h
    exact List.subset_cons_self _ _
  · subst h
    intro a hA
    rw [List.mem_cons, mem_entries]
    rcases mem_entries.mp hA with hCache | hSaved | hNone
    · exact .inr (.inl hCache)
    · change highest = some a at hSaved
      rw [hSaved] at hCurrent
      rcases mem_entries.mp (current_mem hCurrent) with hCache | hOld | hNew
      · exact .inr (.inl hCache)
      · exact .inr (.inr (.inl hOld))
      · exact .inl (Option.some.inj hNew).symm
    · cases hNone

end Store

end FamilyConnect.Friends
