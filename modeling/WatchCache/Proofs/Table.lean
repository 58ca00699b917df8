import Mathlib.Data.List.Nodup
import WatchCache.Table

set_option autoImplicit false

/-!
# Tables with distinct keys

A table is a list of pairs.  As long as no key occurs twice, its pairs are exactly what `find?`
finds, and every operation of `WatchCache.Table` keeps the keys distinct.
-/

namespace WatchCache.Table

variable {κ α β : Type}

/-- No key occurs twice. -/
def Distinct (t : Table κ α) : Prop := (keys t).Nodup

theorem distinct_nil : Distinct ([] : Table κ α) := List.nodup_nil

/-- A change of every value leaves the keys as they are. -/
@[simp] theorem keys_map (t : Table κ α) (f : α → β) :
    keys (t.map fun (k, v) => (k, f v)) = t.keys := by
  simp [keys, Function.comp_def]

theorem Distinct.map {t : Table κ α} (ht : t.Distinct) (f : α → β) :
    Distinct (t.map fun (k, v) => (k, f v)) := by
  rw [Distinct, keys_map]
  exact ht

/-- The table with every value changed. -/
def mapValues (f : α → β) (t : Table κ α) : Table κ β := t.map fun (k, v) => (k, f v)

@[simp] theorem length_mapValues (f : α → β) (t : Table κ α) : (t.mapValues f).length = t.length :=
  List.length_map _

@[simp] theorem values_mapValues (f : α → β) (t : Table κ α) :
    (t.mapValues f).values = t.values.map f := by
  simp [mapValues, values, Function.comp_def]

variable [DecidableEq κ]

/-! ## Lookups after each operation -/

theorem find?_insert (t : Table κ α) (key other : κ) (value : α) :
    (t.insert key value).find? other = if other = key then some value else t.find? other := by
  by_cases h : other = key
  · subst h
    simp
  · rw [if_neg h, find?_insert_of_ne t value h]

theorem find?_erase (t : Table κ α) (key other : κ) :
    (t.erase key).find? other = if other = key then none else t.find? other := by
  by_cases h : other = key
  · subst h
    simp
  · rw [if_neg h, find?_erase_of_ne t h]

/-- A change of every value changes what is found. -/
theorem find?_map (t : Table κ α) (f : α → β) (key : κ) :
    find? (t.map fun (k, v) => (k, f v)) key = (t.find? key).map f := by
  induction t with
  | nil => rfl
  | cons p rest ih =>
    obtain ⟨k, v⟩ := p
    simp only [List.map_cons, find?_cons, ih]
    split <;> rfl

/-- Inserting pairs one after the other lets the last pair of a key win. -/
theorem find?_foldl_insert (pairs : List (κ × α)) (t : Table κ α) (key : κ) :
    find? (pairs.foldl (fun t (k, v) => t.insert k v) t) key =
      ((pairs.reverse.find? fun p => p.1 = key).map Prod.snd).or (t.find? key) := by
  induction pairs generalizing t with
  | nil => rfl
  | cons p rest ih =>
    obtain ⟨k, v⟩ := p
    rw [List.foldl_cons, ih, List.reverse_cons, List.find?_append, find?_insert]
    by_cases h : key = k
    · subst h
      cases hrest : rest.reverse.find? fun p => p.1 = key <;> simp
    · cases hrest : rest.reverse.find? fun p => p.1 = key <;> simp [h, Ne.symm h]

/-- A table of pairs holds the last value of every key. -/
theorem find?_ofPairs (pairs : List (κ × α)) (key : κ) :
    (ofPairs pairs).find? key = (pairs.reverse.find? fun p => p.1 = key).map Prod.snd := by
  rw [ofPairs, find?_foldl_insert]
  simp

/-! ## Distinct keys -/

theorem has_iff_mem_keys (t : Table κ α) (key : κ) : t.has key = true ↔ key ∈ t.keys := by
  induction t with
  | nil => simp [has, keys]
  | cons p rest ih =>
    obtain ⟨k, v⟩ := p
    simp only [has, keys, find?_cons, List.map_cons, List.mem_cons] at ih ⊢
    by_cases h : k = key
    · simp [h]
    · rw [if_neg h, ih]
      exact ⟨Or.inr, fun hmem => hmem.resolve_left (Ne.symm h)⟩

theorem find?_eq_none_iff (t : Table κ α) (key : κ) : t.find? key = none ↔ key ∉ t.keys := by
  rw [← has_iff_mem_keys, has]
  cases t.find? key <;> simp

theorem mem_of_find? {t : Table κ α} {key : κ} {value : α} (h : t.find? key = some value) :
    (key, value) ∈ t := by
  induction t with
  | nil => simp at h
  | cons p rest ih =>
    obtain ⟨k, v⟩ := p
    rw [find?_cons] at h
    split at h
    · next hk =>
      cases h
      simp [hk]
    · exact List.mem_cons_of_mem _ (ih h)

/-- With distinct keys, a pair of the table is found under its key. -/
theorem Distinct.find?_of_mem {t : Table κ α} (ht : t.Distinct) {key : κ} {value : α}
    (h : (key, value) ∈ t) : t.find? key = some value := by
  induction t with
  | nil => simp at h
  | cons p rest ih =>
    obtain ⟨k, v⟩ := p
    have hcons : k ∉ keys rest ∧ Distinct rest := List.nodup_cons.mp ht
    rcases List.mem_cons.mp h with hhead | hrest
    · cases hhead
      simp
    · have hkey : key ∈ keys rest := List.mem_map_of_mem (f := Prod.fst) hrest
      have hne : k ≠ key := fun heq => hcons.1 (heq ▸ hkey)
      rw [find?_cons, if_neg hne]
      exact ih hcons.2 hrest

theorem Distinct.mem_iff {t : Table κ α} (ht : t.Distinct) (key : κ) (value : α) :
    (key, value) ∈ t ↔ t.find? key = some value :=
  ⟨ht.find?_of_mem, mem_of_find?⟩

/-- With distinct keys, what is found decides which pairs there are. -/
theorem Distinct.perm {t u : Table κ α} (ht : t.Distinct) (hu : u.Distinct)
    (hfind : t.find? = u.find?) : t.Perm u := by
  have hnodup {t : Table κ α} (ht : t.Distinct) : t.Nodup := List.Nodup.of_map Prod.fst ht
  refine (List.perm_ext_iff_of_nodup (hnodup ht) (hnodup hu)).mpr fun p => ?_
  rw [ht.mem_iff, hu.mem_iff, hfind]

/-- With distinct keys, it is enough to know where something is found for the keys. -/
theorem Distinct.keys_perm {t : Table κ α} {u : Table κ β} (ht : t.Distinct) (hu : u.Distinct)
    (hhas : ∀ key, t.has key = u.has key) : t.keys.Perm u.keys := by
  refine (List.perm_ext_iff_of_nodup ht hu).mpr fun key => ?_
  rw [← has_iff_mem_keys, ← has_iff_mem_keys, hhas]

/-- A new key goes to the end. -/
theorem insert_of_find?_eq_none {t : Table κ α} {key : κ} (h : t.find? key = none) (value : α) :
    t.insert key value = t ++ [(key, value)] := by
  induction t with
  | nil => rfl
  | cons p rest ih =>
    obtain ⟨k, v⟩ := p
    rw [find?_cons] at h
    split at h
    · cases h
    · next hk => rw [Table.insert, if_neg hk, ih h, List.cons_append]

theorem mem_keys_insert (t : Table κ α) (key other : κ) (value : α) :
    other ∈ (t.insert key value).keys ↔ other = key ∨ other ∈ t.keys := by
  rw [← has_iff_mem_keys, ← has_iff_mem_keys, has, has, find?_insert]
  by_cases h : other = key <;> simp [h]

theorem Distinct.insert {t : Table κ α} (ht : t.Distinct) (key : κ) (value : α) :
    (t.insert key value).Distinct := by
  induction t with
  | nil => simp [Distinct, Table.insert, keys]
  | cons p rest ih =>
    obtain ⟨k, v⟩ := p
    have hcons : k ∉ keys rest ∧ Distinct rest := List.nodup_cons.mp ht
    rw [Table.insert]
    split
    · next hk => exact hk ▸ ht
    · next hk =>
      refine List.nodup_cons.mpr ⟨fun hmem => ?_, ih hcons.2⟩
      rcases (mem_keys_insert rest key k value).mp hmem with heq | hmem
      · exact hk heq
      · exact hcons.1 hmem

theorem Distinct.erase {t : Table κ α} (ht : t.Distinct) (key : κ) : (t.erase key).Distinct :=
  (List.filter_sublist.map Prod.fst).nodup ht

theorem distinct_ofPairs (pairs : List (κ × α)) : (ofPairs pairs).Distinct := by
  have hfold : ∀ (pairs : List (κ × α)) (t : Table κ α), t.Distinct →
      Distinct (pairs.foldl (fun t (k, v) => t.insert k v) t) := by
    intro pairs
    induction pairs with
    | nil => exact fun t ht => ht
    | cons p rest ih => exact fun t ht => ih _ (ht.insert p.1 p.2)
  exact hfold pairs [] distinct_nil

theorem mem_keys_ofPairs (pairs : List (κ × α)) (key : κ) :
    key ∈ (ofPairs pairs).keys ↔ key ∈ pairs.map Prod.fst := by
  rw [← has_iff_mem_keys, has, find?_ofPairs]
  simp

/-- A value in a table of pairs stands in one of the pairs. -/
theorem mem_of_find?_ofPairs {pairs : List (κ × α)} {key : κ} {value : α}
    (h : (ofPairs pairs).find? key = some value) : (key, value) ∈ pairs := by
  rw [find?_ofPairs, Option.map_eq_some_iff] at h
  obtain ⟨⟨k, v⟩, hfind, hv⟩ := h
  have hmem : (k, v) ∈ pairs := List.mem_reverse.mp (List.mem_of_find?_eq_some hfind)
  have hkey : k = key := by simpa using List.find?_some hfind
  subst hkey hv
  exact hmem

/-! ## Changing every value -/

@[simp] theorem find?_mapValues (f : α → β) (t : Table κ α) (key : κ) :
    (t.mapValues f).find? key = (t.find? key).map f := find?_map t f key

@[simp] theorem has_mapValues (f : α → β) (t : Table κ α) (key : κ) :
    (t.mapValues f).has key = t.has key := by
  simp [has]

theorem mapValues_insert (f : α → β) (t : Table κ α) (key : κ) (value : α) :
    (t.insert key value).mapValues f = (t.mapValues f).insert key (f value) := by
  induction t with
  | nil => rfl
  | cons p rest ih =>
    obtain ⟨k, v⟩ := p
    simp only [insert, mapValues, List.map_cons] at ih ⊢
    split
    · rfl
    · simp only [List.map_cons, ih]

theorem mapValues_erase (f : α → β) (t : Table κ α) (key : κ) :
    (t.erase key).mapValues f = (t.mapValues f).erase key := by
  simp only [mapValues, erase, List.filter_map, Function.comp_def]

theorem mapValues_ofPairs (f : α → β) (pairs : List (κ × α)) :
    (ofPairs pairs).mapValues f = ofPairs (pairs.map fun (k, v) => (k, f v)) := by
  have hfold (t : Table κ α) : (pairs.foldl (fun t (k, v) => t.insert k v) t).mapValues f =
      (pairs.map fun (k, v) => (k, f v)).foldl (fun t (k, v) => t.insert k v) (t.mapValues f) := by
    induction pairs generalizing t with
    | nil => rfl
    | cons p rest ih => rw [List.foldl_cons, ih, List.map_cons, List.foldl_cons, mapValues_insert]
  exact hfold []

end WatchCache.Table
