import WatchCache.Proofs.Table
import WatchCache.Store.Indexer

set_option autoImplicit false

/-!
# Indices cover their table

An index covers a table when the bucket of every value holds exactly the keys of the objects that
yield the value.  The buckets are kept in two ways, by entering and leaving single objects and by
building anew; both are traced back to what adding and dropping one key does to one bucket.
`Indexer.Consistent` says that every index of an indexer covers its table, and every operation
keeps it.
-/

namespace WatchCache

/-! ## One bucket -/

namespace Buckets

theorem keysOf_insert (b : Buckets) (value other : String) (keys : List String) :
    keysOf (Table.insert b value keys) other = if other = value then keys else b.keysOf other := by
  unfold keysOf
  rw [Table.find?_insert]
  split <;> rfl

theorem keysOf_erase (b : Buckets) (value other : String) :
    keysOf (Table.erase b value) other = if other = value then [] else b.keysOf other := by
  unfold keysOf
  rw [Table.find?_erase]
  split <;> rfl

/-- The buckets after a key was dropped from one: that bucket has lost the key. -/
theorem keysOf_drop (key : String) (b : Buckets) (value other : String) :
    (drop key b value).keysOf other =
      if other = value then (b.keysOf value).filter (· ≠ key) else b.keysOf other := by
  unfold drop
  cases hfind : b.find? value with
  | none =>
    have hempty : b.keysOf value = [] := by simp [keysOf, hfind]
    by_cases h : other = value
    · subst h
      simp [hempty]
    · simp [h]
  | some keys =>
    have hkeys : b.keysOf value = keys := by simp [keysOf, hfind]
    rw [hkeys]
    dsimp only
    cases hrest : keys.filter (· ≠ key) with
    | nil => exact keysOf_erase b value other
    | cons first rest => exact keysOf_insert b value other (first :: rest)

theorem mem_keysOf_add (key : String) (b : Buckets) (value other k : String) :
    k ∈ (add key b value).keysOf other ↔ other = value ∧ k = key ∨ k ∈ b.keysOf other := by
  unfold add
  rw [keysOf_insert]
  by_cases h : other = value
  · subst h
    by_cases hkey : b.keysOf other |>.contains key
    · have hmem : key ∈ b.keysOf other := by simpa using hkey
      simp only [hkey, if_true, true_and]
      exact ⟨Or.inr, fun hk => hk.elim (fun heq => heq ▸ hmem) id⟩
    · simp only [hkey, if_true, true_and]
      simp [or_comm]
  · simp [h]

theorem mem_keysOf_drop (key : String) (b : Buckets) (value other k : String) :
    k ∈ (drop key b value).keysOf other ↔ k ∈ b.keysOf other ∧ ¬(other = value ∧ k = key) := by
  rw [keysOf_drop]
  by_cases h : other = value
  · subst h
    simp
  · simp [h]

/-- Each value has one bucket, which is not empty and holds no key twice. -/
structure Sound (b : Buckets) : Prop where
  distinct : Table.Distinct b
  keys_nodup : ∀ value, (b.keysOf value).Nodup
  not_empty : ∀ value, b.find? value ≠ some []

theorem sound_nil : Sound [] where
  distinct := Table.distinct_nil
  keys_nodup := fun _ => List.nodup_nil
  not_empty := by simp

/-- Replacing a bucket by one that is not empty keeps the buckets sound. -/
theorem Sound.insert {b : Buckets} (hb : b.Sound) (value : String) {keys : List String}
    (hkeys : keys.Nodup) (hne : keys ≠ []) : Sound (Table.insert b value keys) where
  distinct := hb.distinct.insert value keys
  keys_nodup := by
    intro other
    rw [keysOf_insert]
    split
    · exact hkeys
    · exact hb.keys_nodup other
  not_empty := by
    intro other
    rw [Table.find?_insert]
    split
    · simpa using hne
    · exact hb.not_empty other

theorem Sound.erase {b : Buckets} (hb : b.Sound) (value : String) :
    Sound (Table.erase b value) where
  distinct := hb.distinct.erase value
  keys_nodup := by
    intro other
    rw [keysOf_erase]
    split
    · exact List.nodup_nil
    · exact hb.keys_nodup other
  not_empty := by
    intro other
    rw [Table.find?_erase]
    split
    · simp
    · exact hb.not_empty other

theorem Sound.add {b : Buckets} (hb : b.Sound) (key value : String) :
    (Buckets.add key b value).Sound := by
  have hold := hb.keys_nodup value
  unfold Buckets.add
  by_cases hkey : b.keysOf value |>.contains key
  · have hmem : key ∈ b.keysOf value := by simpa using hkey
    simp only [hkey, if_true]
    exact hb.insert value hold (List.ne_nil_of_mem hmem)
  · have hmem : key ∉ b.keysOf value := by simpa using hkey
    simp only [hkey]
    refine hb.insert value ?_ (by simp)
    exact List.nodup_append.mpr ⟨hold, by simp, by
      intro k hk other hother
      rw [List.mem_singleton.mp hother]
      exact fun heq => hmem (heq ▸ hk)⟩

theorem Sound.drop {b : Buckets} (hb : b.Sound) (key value : String) :
    (Buckets.drop key b value).Sound := by
  unfold Buckets.drop
  cases hfind : b.find? value with
  | none => exact hb
  | some keys =>
    have hkeys : b.keysOf value = keys := by simp [keysOf, hfind]
    have hold : (keys.filter (· ≠ key)).Nodup := (hkeys ▸ hb.keys_nodup value).filter _
    dsimp only
    cases hrest : keys.filter (· ≠ key) with
    | nil => exact hb.erase value
    | cons first rest => exact hb.insert value (hrest ▸ hold) (by simp)

/-! ## The buckets of all values of an object -/

theorem mem_keysOf_foldl_add (key : String) (values : List String) (b : Buckets)
    (value k : String) :
    k ∈ keysOf (values.foldl (add key) b) value ↔
      value ∈ values ∧ k = key ∨ k ∈ b.keysOf value := by
  induction values generalizing b with
  | nil => simp
  | cons v rest ih =>
    rw [List.foldl_cons, ih, mem_keysOf_add, List.mem_cons]
    tauto

theorem mem_keysOf_foldl_drop (key : String) (values : List String) (b : Buckets)
    (value k : String) :
    k ∈ keysOf (values.foldl (drop key) b) value ↔
      k ∈ b.keysOf value ∧ ¬(value ∈ values ∧ k = key) := by
  induction values generalizing b with
  | nil => simp
  | cons v rest ih =>
    rw [List.foldl_cons, ih, mem_keysOf_drop, List.mem_cons]
    tauto

theorem Sound.foldl_add {b : Buckets} (hb : b.Sound) (key : String) (values : List String) :
    Sound (values.foldl (Buckets.add key) b) := by
  induction values generalizing b with
  | nil => exact hb
  | cons v rest ih => exact ih (hb.add key v)

theorem Sound.foldl_drop {b : Buckets} (hb : b.Sound) (key : String) (values : List String) :
    Sound (values.foldl (Buckets.drop key) b) := by
  induction values generalizing b with
  | nil => exact hb
  | cons v rest ih => exact ih (hb.drop key v)

end Buckets

/-! ## One index -/

namespace Index

@[simp] theorem extract_enter (i : Index) (key : String) (o : Object) :
    (i.enter key o).extract = i.extract := rfl

@[simp] theorem extract_leave (i : Index) (key : String) (o : Object) :
    (i.leave key o).extract = i.extract := rfl

@[simp] theorem extract_build (extract : Extractor) (items : Table String Object) :
    (build extract items).extract = extract := by
  have hfold : ∀ (items : Table String Object) (i : Index),
      (items.foldl (fun i p => i.enter p.1 p.2) i).extract = i.extract := by
    intro items
    induction items with
    | nil => exact fun _ => rfl
    | cons p rest ih => exact fun i => ih (i.enter p.1 p.2)
  exact hfold items ⟨extract, []⟩

/-- The bucket of a value holds exactly the keys whose objects yield the value; the table is
given by its lookup. -/
structure Covers (i : Index) (lookup : String → Option Object) : Prop where
  sound : i.buckets.Sound
  mem_iff : ∀ value key,
    key ∈ i.buckets.keysOf value ↔ ∃ o, lookup key = some o ∧ value ∈ i.extract o

theorem covers_empty (extract : Extractor) : Covers ⟨extract, []⟩ fun _ => none where
  sound := Buckets.sound_nil
  mem_iff := by simp [Buckets.keysOf]

/-- Entering an object under a new key. -/
theorem Covers.enter {i : Index} {lookup : String → Option Object} (hi : i.Covers lookup)
    {key : String} (hnew : lookup key = none) (o : Object) :
    (i.enter key o).Covers fun k => if k = key then some o else lookup k where
  sound := hi.sound.foldl_add key (i.extract o)
  mem_iff := by
    intro value k
    refine (Buckets.mem_keysOf_foldl_add key (i.extract o) i.buckets value k).trans ?_
    rw [hi.mem_iff]
    by_cases h : k = key
    · subst h
      simp [hnew]
    · simp [h]

/-- Leaving with the object that stands under a key. -/
theorem Covers.leave {i : Index} {lookup : String → Option Object} (hi : i.Covers lookup)
    {key : String} {old : Object} (hold : lookup key = some old) :
    (i.leave key old).Covers fun k => if k = key then none else lookup k where
  sound := hi.sound.foldl_drop key (i.extract old)
  mem_iff := by
    intro value k
    refine (Buckets.mem_keysOf_foldl_drop key (i.extract old) i.buckets value k).trans ?_
    rw [hi.mem_iff]
    by_cases h : k = key
    · subst h
      simp [hold]
    · simp [h]

/-- Entering the objects of a table under keys that are all new. -/
theorem Covers.foldl_enter {i : Index} {lookup : String → Option Object} (hi : i.Covers lookup)
    {items : Table String Object} (hitems : items.Distinct)
    (hnew : ∀ key ∈ items.keys, lookup key = none) :
    Covers (items.foldl (fun i (key, o) => i.enter key o) i)
      fun k => (items.find? k).or (lookup k) := by
  induction items generalizing i lookup with
  | nil => simpa using hi
  | cons p rest ih =>
    obtain ⟨key, o⟩ := p
    have hcons : key ∉ Table.keys rest ∧ Table.Distinct rest := List.nodup_cons.mp hitems
    have hkey : lookup key = none := hnew key (by simp [Table.keys])
    have hrest : ∀ k ∈ Table.keys rest, (if k = key then some o else lookup k) = none := by
      intro k hk
      rw [if_neg fun heq : k = key => hcons.1 (heq ▸ hk)]
      exact hnew k (List.mem_cons_of_mem _ hk)
    have hfold := ih (hi.enter hkey o) hcons.2 hrest
    have hlookup : (fun k => (Table.find? ((key, o) :: rest) k).or (lookup k)) =
        fun k => (Table.find? rest k).or (if k = key then some o else lookup k) := by
      funext k
      by_cases h : key = k
      · subst h
        simp [(Table.find?_eq_none_iff rest key).mpr hcons.1]
      · simp [h, Ne.symm h]
    rw [hlookup]
    exact hfold

/-- An index that is built over a table covers it. -/
theorem covers_build (extract : Extractor) {items : Table String Object}
    (hitems : items.Distinct) : (build extract items).Covers items.find? := by
  have hfold := (covers_empty extract).foldl_enter hitems fun _ _ => rfl
  have hlookup : (fun k => (items.find? k).or none) = items.find? := by
    funext k
    exact Option.or_none
  exact hlookup ▸ hfold

end Index

/-! ## All indices of an indexer -/

namespace Indexer

theorem get?_upsert (x : Indexer) (key k : String) (o : Object) :
    (x.upsert key o).get? k = if k = key then some o else x.get? k :=
  Table.find?_insert x.items key k o

theorem get?_remove (x : Indexer) (key k : String) :
    (x.remove key).get? k = if k = key then none else x.get? k := by
  unfold remove
  cases hold : x.get? key with
  | none =>
    by_cases h : k = key
    · simp [h, hold]
    · simp [h]
  | some old => exact Table.find?_erase x.items key k

/-- A table with distinct keys whose indices all cover it. -/
structure Consistent (x : Indexer) : Prop where
  items_distinct : x.items.Distinct
  indices_distinct : x.indices.Distinct
  covers : ∀ name i, x.indices.find? name = some i → i.Covers x.get?

theorem consistent_empty : Consistent {} where
  items_distinct := Table.distinct_nil
  indices_distinct := Table.distinct_nil
  covers := by simp

/-- A change of the table together with every index keeps an indexer consistent, if it does so
for each index. -/
theorem Consistent.mapIndices {x : Indexer} (hx : x.Consistent) {items : Table String Object}
    (hitems : items.Distinct) (f : Index → Index)
    (hf : ∀ i : Index, i.Covers x.get? → (f i).Covers items.find?) :
    (({ x with items := items } : Indexer).mapIndices f).Consistent where
  items_distinct := hitems
  indices_distinct := hx.indices_distinct.map f
  covers := by
    intro name i hfind
    have hmap := (Table.find?_map x.indices f name).symm.trans hfind
    obtain ⟨old, hold, rfl⟩ := Option.map_eq_some_iff.mp hmap
    exact hf old (hx.covers name old hold)

theorem Consistent.addIndex {x y : Indexer} (hx : x.Consistent) {name : String}
    {extract : Extractor} (h : x.addIndex name extract = .ok y) : y.Consistent := by
  unfold Indexer.addIndex at h
  split at h
  · cases h
  · cases h
    refine ⟨hx.items_distinct, hx.indices_distinct.insert _ _, ?_⟩
    intro other i hfind
    rw [Table.find?_insert] at hfind
    split at hfind
    · cases hfind
      exact Index.covers_build extract hx.items_distinct
    · exact hx.covers other i hfind

/-- Where an object stood before, each index is left with it and entered with the new one. -/
theorem Consistent.upsert {x : Indexer} (hx : x.Consistent) (key : String) (o : Object) :
    (x.upsert key o).Consistent := by
  unfold Indexer.upsert
  refine hx.mapIndices (hx.items_distinct.insert key o) _ fun i hi => ?_
  have hlookup : Table.find? (x.items.insert key o) =
      fun k => if k = key then some o else x.get? k := by
    funext k
    exact get?_upsert x key k o
  rw [hlookup]
  cases hold : x.get? key with
  | none => exact hi.enter hold o
  | some old =>
    have hgone : (if key = key then none else x.get? key) = none := if_pos rfl
    have hleft := (hi.leave hold).enter hgone o
    have hsame : (fun k => if k = key then some o else if k = key then none else x.get? k) =
        fun k => if k = key then some o else x.get? k := by
      funext k
      split <;> rfl
    rw [hsame] at hleft
    exact hleft

theorem Consistent.remove {x : Indexer} (hx : x.Consistent) (key : String) :
    (x.remove key).Consistent := by
  unfold Indexer.remove
  cases hold : x.get? key with
  | none => exact hx
  | some old =>
    refine hx.mapIndices (hx.items_distinct.erase key) _ fun i hi => ?_
    have hlookup : Table.find? (x.items.erase key) =
        fun k => if k = key then none else x.get? k := by
      funext k
      exact Table.find?_erase x.items key k
    rw [hlookup]
    exact hi.leave hold

theorem Consistent.replace {x : Indexer} (hx : x.Consistent) {items : Table String Object}
    (hitems : items.Distinct) : (x.replace items).Consistent :=
  hx.mapIndices hitems _ fun i _ => Index.covers_build i.extract hitems

end Indexer

end WatchCache
