import WatchCache.Proofs.ObjectKey
import WatchCache.Proofs.Store.Told

set_option autoImplicit false

/-!
# Objects without their types

An object claims to have a type, or it does not.  What a store does with an object never depends
on that claim: taking the types off everything that a store was told takes the types off what it
holds, and changes nothing else.  Only an index whose extractor looks at types can tell the
difference; such an index is emptied here, so that everything else can be compared.

Readers receive copies that are stamped with the kind of the store, and so the same objects.
-/

namespace WatchCache

/-! ## Objects and events -/

/-- The object without the type that it claims to have. -/
def Object.bare (o : Object) : Object := { o with types := none }

namespace Object

@[simp] theorem stamp_bare (o : Object) (k : Kind) : o.bare.stamp k = o.stamp k := rfl

@[simp] theorem key_bare (o : Object) : o.bare.key = o.key := rfl

@[simp] theorem nsText_bare (o : Object) : o.bare.nsText = o.nsText := rfl

end Object

/-- The event without the types of its objects. -/
def Event.bare : Event → Event
  | .applied o => .applied o.bare
  | .deleted o => .deleted o.bare
  | .restarted objects => .restarted (objects.map Object.bare)

@[simp] theorem Event.word_bare (e : Event) : e.bare.word = e.word := by cases e <;> rfl

/-- The change without the types of its objects. -/
def Change.bare : Change → Change
  | .added o => .added o.bare
  | .updated old new => .updated old.bare new.bare
  | .deleted o => .deleted o.bare

/-! ## Extractors -/

namespace Extractor

/-- The extractor finds the same in an object whatever type that claims to have. -/
def Blind (extract : Extractor) : Prop := ∀ o : Object, extract o.bare = extract o

/-- What an extractor reads by a path is the metadata or the body. -/
theorem blind_field (path : String) : Blind (Object.field path) := fun _ => rfl

theorem blind_extractNamespace : Blind Store.extractNamespace := fun _ => rfl

/-- The values are doubled by the namespace alone. -/
theorem blind_doubled {extract : Extractor} : Blind (Store.doubled extract) ↔ Blind extract := by
  constructor
  · intro hblind o
    have hsame := hblind o
    have hinj : Function.Injective (List.map (partitioned "")) :=
      List.map_injective_iff.mpr fun _ _ => partitioned_inj
    by_cases hns : o.nsText = ""
    · simp only [Store.doubled, Object.nsText_bare, hns, if_true] at hsame
      exact hinj hsame
    · -- both halves are as long as the values
      simp only [Store.doubled, Object.nsText_bare, hns, if_false] at hsame
      have hlength := congrArg List.length hsame
      simp only [List.length_append, List.length_map] at hlength
      exact hinj (List.append_inj hsame (by simp only [List.length_map]; omega)).2
  · intro hblind o
    simp only [Store.doubled, hblind o, Object.nsText_bare]

open Classical in
/-- The extractor itself, or one that finds nothing in the place of one that looks at types. -/
noncomputable def bare (extract : Extractor) : Extractor :=
  if Blind extract then extract else fun _ => []

theorem bare_of_blind {extract : Extractor} (hblind : Blind extract) : bare extract = extract :=
  if_pos hblind

end Extractor

/-! ## Indices -/

namespace Index

open Classical in
/-- The index, or an empty one in the place of one whose extractor looks at types. -/
noncomputable def bare (i : Index) : Index :=
  if Extractor.Blind i.extract then i else ⟨fun _ => [], []⟩

theorem bare_of_blind {i : Index} (hblind : Extractor.Blind i.extract) : i.bare = i := if_pos hblind

@[simp] theorem extract_bare (i : Index) : i.bare.extract = Extractor.bare i.extract := by
  unfold bare Extractor.bare
  split <;> rfl

theorem bare_enter (i : Index) (key : String) (o : Object) :
    (i.enter key o).bare = i.bare.enter key o.bare := by
  by_cases hblind : Extractor.Blind i.extract
  · have hentered : Extractor.Blind (i.enter key o).extract := hblind
    rw [bare_of_blind hblind, bare_of_blind hentered, enter, enter, hblind o]
  · have hentered : ¬Extractor.Blind (i.enter key o).extract := hblind
    rw [bare, bare, if_neg hblind, if_neg hentered]
    rfl

theorem bare_leave (i : Index) (key : String) (o : Object) :
    (i.leave key o).bare = i.bare.leave key o.bare := by
  by_cases hblind : Extractor.Blind i.extract
  · have hleft : Extractor.Blind (i.leave key o).extract := hblind
    rw [bare_of_blind hblind, bare_of_blind hleft, leave, leave, hblind o]
  · have hleft : ¬Extractor.Blind (i.leave key o).extract := hblind
    rw [bare, bare, if_neg hblind, if_neg hleft]
    rfl

theorem bare_build (extract : Extractor) (items : Table String Object) :
    (build extract items).bare = build (Extractor.bare extract) (items.mapValues Object.bare) := by
  have hempty : (⟨extract, []⟩ : Index).bare = ⟨Extractor.bare extract, []⟩ := by
    unfold bare Extractor.bare
    split <;> rfl
  have hfold (i : Index) : (items.foldl (fun i p => i.enter p.1 p.2) i).bare =
      (items.mapValues Object.bare).foldl (fun i p => i.enter p.1 p.2) i.bare := by
    induction items generalizing i with
    | nil => rfl
    | cons p rest ih =>
      simp only [List.foldl_cons, Table.mapValues, List.map_cons] at ih ⊢
      rw [ih, bare_enter]
  refine (hfold ⟨extract, []⟩).trans ?_
  rw [hempty]
  rfl

end Index

namespace Indexer

/-- The objects without their types, with the indices that do not look at them. -/
noncomputable def bare (x : Indexer) : Indexer :=
  { items := x.items.mapValues Object.bare, indices := x.indices.mapValues Index.bare }

@[simp] theorem size_bare (x : Indexer) : x.bare.size = x.size := x.items.length_mapValues _

@[simp] theorem get?_bare (x : Indexer) (key : String) :
    x.bare.get? key = (x.get? key).map Object.bare := x.items.find?_mapValues _ key

@[simp] theorem all_bare (x : Indexer) : x.bare.all = x.all.map Object.bare :=
  x.items.values_mapValues _

/-- Two indexers that hold the same without types, and whose indices become the same, are the same
without types. -/
theorem bare_mapIndices {x y : Indexer} {f g : Index → Index} (hbare : x.bare = y)
    (hf : ∀ i : Index, (f i).bare = g i.bare) : (x.mapIndices f).bare = y.mapIndices g := by
  subst hbare
  simp only [bare, mapIndices, Table.mapValues, List.map_map, Function.comp_def, hf]

theorem bare_upsert (x : Indexer) (key : String) (o : Object) :
    (x.upsert key o).bare = x.bare.upsert key o.bare := by
  have hitems : ({ x with items := x.items.insert key o } : Indexer).bare =
      { x.bare with items := x.bare.items.insert key o.bare } := by
    simp only [bare, Table.mapValues_insert]
  simp only [upsert]
  refine bare_mapIndices hitems fun i => ?_
  rw [Index.bare_enter, get?_bare]
  cases x.get? key with
  | none => rfl
  | some old => simp only [Option.map_some, Index.bare_leave]

theorem bare_remove (x : Indexer) (key : String) : (x.remove key).bare = x.bare.remove key := by
  simp only [remove, get?_bare]
  cases x.get? key with
  | none => rfl
  | some old =>
    have hitems : ({ x with items := x.items.erase key } : Indexer).bare =
        { x.bare with items := x.bare.items.erase key } := by
      simp only [bare, Table.mapValues_erase]
    exact bare_mapIndices hitems fun i => i.bare_leave key old

theorem bare_replace (x : Indexer) (items : Table String Object) :
    (x.replace items).bare = x.bare.replace (items.mapValues Object.bare) := by
  refine bare_mapIndices rfl fun i => ?_
  rw [Index.bare_build, Index.extract_bare]

theorem bare_addIndex (x : Indexer) (name : String) (extract : Extractor) :
    (x.addIndex name extract).map bare = x.bare.addIndex name (Extractor.bare extract) := by
  have hhas : x.bare.hasIndex name = x.hasIndex name := x.indices.has_mapValues _ name
  rw [addIndex, addIndex, hhas]
  split
  · rfl
  · simp only [Except.map, bare, Table.mapValues_insert, Index.bare_build]

/-- A lookup in an index that does not look at types finds the same objects. -/
theorem byIndex_bare {x : Indexer} {name : String}
    (hblind : ∀ extract, x.extractor? name = some extract → Extractor.Blind extract)
    (value : String) :
    x.bare.byIndex name value = (x.byIndex name value).map (List.map Object.bare) := by
  have hfind : x.bare.indices.find? name = (x.indices.find? name).map Index.bare :=
    x.indices.find?_mapValues _ name
  rw [byIndex, byIndex, hfind]
  cases hindex : x.indices.find? name with
  | none => rfl
  | some i =>
    have hi : Extractor.Blind i.extract := hblind i.extract (by rw [extractor?, hindex]; rfl)
    have hget : x.bare.get? = fun key => (x.get? key).map Object.bare := funext x.get?_bare
    simp only [Option.map_some, Index.bare_of_blind hi, hget, Except.map, List.map_filterMap]

/-- A lookup fails in either case if there is no index of its name. -/
theorem byIndex_bare_eq_error_iff (x : Indexer) (name value : String) (e : CacheError) :
    x.bare.byIndex name value = .error e ↔ x.byIndex name value = .error e := by
  have hfind : x.bare.indices.find? name = (x.indices.find? name).map Index.bare :=
    x.indices.find?_mapValues _ name
  rw [byIndex, byIndex, hfind]
  cases x.indices.find? name <;> simp

end Indexer

/-! ## Stores -/

/-- If a call asks by the field of an index, the index does not look at types. -/
def ListOptions.BlindAt (o : ListOptions) (name : String) (extract : Extractor) : Prop :=
  ∀ fields field value, o.fields = some fields → fields.oneEqual? = some (field, value) →
    name = fieldIndex field → Extractor.Blind extract

theorem ListOptions.blindAt_of_blind (o : ListOptions) (name : String) {extract : Extractor}
    (hblind : Extractor.Blind extract) : o.BlindAt name extract := fun _ _ _ _ _ _ => hblind

/-- The store has its index of namespaces, and no index that a call asks by looks at types. -/
structure Store.Blind (s : Store) (o : ListOptions) : Prop where
  namespaces : s.indexer.extractor? namespaceIndex = some extractNamespace
  fields : ∀ name extract, s.indexer.extractor? name = some extract → o.BlindAt name extract

namespace Store

/-- The store with its objects without their types. -/
noncomputable def bare (s : Store) : Store := { s with indexer := s.indexer.bare }

@[simp] theorem size_bare (s : Store) : s.bare.size = s.size := s.indexer.size_bare

theorem bare_new (kind : Kind) : (new kind).bare = new kind := by
  have hindex : (Index.build extractNamespace []).bare = Index.build extractNamespace [] := by
    rw [Index.bare_build, Extractor.bare_of_blind Extractor.blind_extractNamespace]
    rfl
  simp [bare, new, Indexer.bare, Table.mapValues, hindex]

/-- Readers receive the same copy. -/
@[simp] theorem get?_bare (s : Store) (key : ObjectKey) : s.bare.get? key = s.get? key := by
  simp only [get?, bare, Indexer.get?_bare, Option.map_map]
  rfl

theorem bare_addIndex (s : Store) (name : String) (extract : Extractor) :
    (s.addIndex name extract).map bare = s.bare.addIndex name (Extractor.bare extract) := by
  simp only [addIndex, bare, ← s.indexer.bare_addIndex]
  cases s.indexer.addIndex name extract <;> rfl

theorem mapValues_listing (objects : List Object) :
    (listing objects).mapValues Object.bare = listing (objects.map Object.bare) := by
  simp only [listing, Table.mapValues_ofPairs, List.map_map, Function.comp_def, Object.key_bare]

theorem bare_apply (s : Store) (e : Event) : (s.apply e).bare = s.bare.apply e.bare := by
  cases e with
  | applied o => simp only [apply, bare, Event.bare, Indexer.bare_upsert, Object.key_bare]
  | deleted o => simp only [apply, bare, Event.bare, Indexer.bare_remove, Object.key_bare]
  | restarted objects =>
    simp only [apply, bare, Event.bare, Indexer.bare_replace, mapValues_listing]

theorem bare_changeTo (old : Option Object) (new : Object) :
    (changeTo old new).bare = changeTo (old.map Object.bare) new.bare := by
  cases old <;> rfl

theorem bare_changes (s : Store) (e : Event) :
    (s.changes e).map Change.bare = s.bare.changes e.bare := by
  cases e with
  | applied o =>
    simp only [changes, Event.bare, bare, List.map_singleton, bare_changeTo, Object.key_bare,
      Indexer.get?_bare]
  | deleted o =>
    simp only [changes, Event.bare, bare, Object.key_bare, Indexer.get?_bare]
    cases s.indexer.get? o.key <;> rfl
  | restarted objects =>
    have hitems : s.bare.indexer.items = s.indexer.items.mapValues Object.bare := rfl
    simp only [changes, Event.bare, ← mapValues_listing, hitems, List.map_append]
    congr 1
    · simp only [Table.mapValues, List.map_map]
      refine List.map_congr_left fun p _ => ?_
      simp [bare_changeTo, bare]
    · simp only [Table.has_mapValues]
      simp only [Table.mapValues, List.filter_map, List.map_map]
      rfl

/-! ## Indices that calls ask by -/

theorem blind_new (kind : Kind) (o : ListOptions) : (new kind).Blind o where
  namespaces := by
    rw [(told_new kind).extractors_eq]
    rfl
  fields := by
    intro name extract hextract
    rw [(told_new kind).extractors_eq, firstExtractors, Extractors.add] at hextract
    split at hextract
    · cases hextract
      exact o.blindAt_of_blind _ Extractor.blind_extractNamespace
    · cases hextract

theorem Blind.apply {s : Store} {o : ListOptions} (hs : s.Blind o) (e : Event) :
    (s.apply e).Blind o := by
  refine ⟨?_, ?_⟩
  · rw [extractor?_apply]
    exact hs.namespaces
  · rw [extractor?_apply]
    exact hs.fields

/-- An index that a call does not ask by may look at types, but no other one. -/
theorem Blind.addIndex {s t : Store} {o : ListOptions} (hs : s.Blind o) {name : String}
    {extract : Extractor} (hindex : o.BlindAt name extract)
    (hadd : s.addIndex name extract = .ok t) : t.Blind o := by
  rw [addIndex_eq] at hadd
  cases hindexer : s.indexer.addIndex name extract with
  | error e =>
    rw [hindexer] at hadd
    cases hadd
  | ok x =>
    rw [hindexer] at hadd
    cases hadd
    have hafter := Indexer.extractor?_after s.indexer (.addIndex name extract)
    rw [Indexer.after_addIndex_of_ok hindexer] at hafter
    refine ⟨(hafter _ _).mpr (Or.inl hs.namespaces), fun other found hfound => ?_⟩
    rcases (hafter other found).mp hfound with hold | ⟨hcall, -⟩
    · exact hs.fields other found hold
    · cases hcall
      exact hindex

/-! ## Lists -/

theorem candidates_bare {s : Store} {o : ListOptions} (hs : s.Blind o) :
    s.bare.candidates o = (s.candidates o).map (List.map Object.bare) := by
  unfold candidates
  split
  · next fields hfields =>
    split
    · next field value hone =>
      refine Indexer.byIndex_bare (fun extract hextract => ?_) _
      exact hs.fields _ extract hextract fields field value hfields hone rfl
    · rfl
  · refine Indexer.byIndex_bare (fun extract hextract => ?_) _
    rw [← Option.some.inj (hs.namespaces.symm.trans hextract)]
    exact Extractor.blind_extractNamespace
  · exact congrArg Except.ok s.indexer.all_bare

/-- Readers receive the same copies. -/
theorem list_bare {s : Store} {o : ListOptions} (hs : s.Blind o) : s.bare.list o = s.list o := by
  rw [list, list, candidates_bare hs]
  cases s.candidates o with
  | error e => rfl
  | ok found =>
    have hadmits : admits o ∘ Object.bare = admits o := rfl
    show Except.ok _ = Except.ok _
    rw [List.filter_map, hadmits, List.map_map]
    rfl

/-- A list fails in either case for the same reason. -/
theorem list_bare_eq_error_iff (s : Store) (o : ListOptions) (e : CacheError) :
    s.bare.list o = .error e ↔ s.list o = .error e := by
  have hlist (t : Store) : t.list o = .error e ↔ t.candidates o = .error e := by
    rw [list]
    cases t.candidates o <;> simp [bind, Except.bind]
  rw [hlist, hlist, candidates, candidates]
  split
  · split
    · exact s.indexer.byIndex_bare_eq_error_iff _ _ e
    · exact Iff.rfl
  · exact s.indexer.byIndex_bare_eq_error_iff _ _ e
  · simp

end Store

end WatchCache
