import WatchCache.Proofs.Store.Run

set_option autoImplicit false

/-!
# What a store has been told

A store is determined, as far as its readers can see, by the events that it was given and by its
indices: `Told` says which ones these were.  Whether an index is accepted depends on the indices
alone, so stores with the same indices accept the same ones.
-/

namespace WatchCache

/-- Whether an event is a full listing. -/
def Event.isListing : Event → Bool
  | .restarted _ => true
  | _ => false

/-- The objects under the keys after events on an empty table. -/
def Event.tableOf (events : List Event) : String → Option Object :=
  events.foldl (fun lookup e => e.effect lookup) fun _ => none

theorem Event.tableOf_concat (events : List Event) (e : Event) :
    tableOf (events ++ [e]) = e.effect (tableOf events) := by
  simp [tableOf]

namespace Store

/-- The indices of a store, by their names. -/
abbrev Extractors := String → Option Extractor

/-- The indices after one more was added. -/
def Extractors.add (extractors : Extractors) (name : String) (extract : Extractor) :
    Extractors :=
  fun other => if other = name then some extract else extractors other

/-- The indices of a new store. -/
def firstExtractors : Extractors := Extractors.add (fun _ => none) namespaceIndex extractNamespace

/-- A store of a kind that has these indices and was given these events. -/
structure Told (s : Store) (kind : Kind) (extractors : Extractors) (events : List Event) :
    Prop where
  reached : ∃ calls, s = run kind calls
  table : s.indexer.get? = Event.tableOf events
  extractors_eq : s.indexer.extractor? = extractors
  synced_iff : s.synced = events.any Event.isListing

theorem told_new (kind : Kind) : (Store.new kind).Told kind firstExtractors [] where
  reached := ⟨[], rfl⟩
  table := rfl
  extractors_eq := by
    funext name
    show Option.map Index.extract (if namespaceIndex = name then _ else none) = _
    by_cases heq : namespaceIndex = name
    · simp [firstExtractors, Extractors.add, ← heq, Index.extract_build]
    · simp [firstExtractors, Extractors.add, heq, Ne.symm heq]
  synced_iff := rfl

section

variable {s : Store} {kind : Kind} {extractors : Extractors} {events : List Event}

/-- Events leave the indices alone. -/
theorem extractor?_apply (s : Store) (e : Event) :
    (s.apply e).indexer.extractor? = s.indexer.extractor? := by
  funext name
  refine Option.ext fun f => ?_
  have hcall := Indexer.extractor?_after s.indexer (Call.apply e).onIndexer name f
  rw [← indexer_after] at hcall
  refine hcall.trans ⟨fun h => h.resolve_right ?_, Or.inl⟩
  rintro ⟨hadd, -⟩
  cases e <;> cases hadd

theorem Told.apply (hs : s.Told kind extractors events) (e : Event) :
    (s.apply e).Told kind extractors (events ++ [e]) where
  reached := by
    obtain ⟨calls, rfl⟩ := hs.reached
    refine ⟨calls ++ [.apply e], ?_⟩
    rw [run_concat]
    rfl
  table := by
    rw [get?_apply, hs.table, Event.tableOf_concat]
  extractors_eq := (extractor?_apply s e).trans hs.extractors_eq
  synced_iff := by
    rw [List.any_append, ← hs.synced_iff]
    cases e <;> simp [Store.apply, Event.isListing]

theorem Told.applyAll (hs : s.Told kind extractors events) (more : List Event) :
    (more.foldl Store.apply s).Told kind extractors (events ++ more) := by
  induction more generalizing s events with
  | nil =>
    rw [List.append_nil]
    exact hs
  | cons e rest ih =>
    have hrest := ih (hs.apply e)
    rwa [List.append_assoc, List.singleton_append] at hrest

/-- An index is accepted if there is none of its name. -/
theorem Told.addIndex (hs : s.Told kind extractors events) {name : String}
    (hnew : extractors name = none) (extract : Extractor) :
    ∃ t, s.addIndex name extract = .ok t ∧
      t.Told kind (extractors.add name extract) events := by
  have hnone : s.indexer.indices.find? name = none := by
    rw [← hs.extractors_eq] at hnew
    exact Option.map_eq_none_iff.mp hnew
  have hok := (Indexer.addIndex_eq_ok_iff s.indexer _ name extract).mpr ⟨hnone, rfl⟩
  let added : Store :=
    { s with indexer :=
      { s.indexer with indices := s.indexer.indices.insert name (.build extract s.indexer.items) } }
  have hadded : s.addIndex name extract = .ok added := by
    rw [addIndex_eq, hok]
    rfl
  refine ⟨added, hadded, ?_⟩
  exact
    { reached := by
        obtain ⟨calls, rfl⟩ := hs.reached
        refine ⟨calls ++ [.addIndex name extract], ?_⟩
        simp only [run_concat, after, perform, hadded]
      table := hs.table
      extractors_eq := by
        funext other
        show Option.map Index.extract ((s.indexer.indices.insert name _).find? other) = _
        rw [Table.find?_insert, Extractors.add, ← hs.extractors_eq]
        split
        · exact congrArg some (Index.extract_build extract s.indexer.items)
        · rfl
      synced_iff := hs.synced_iff }

/-- An index is refused if there is one of its name. -/
theorem Told.addIndex_of_some (hs : s.Told kind extractors events) {name : String}
    {old : Extractor} (hold : extractors name = some old) (extract : Extractor) :
    s.addIndex name extract = .error (.indexConflict name) := by
  have hconflict := (Indexer.addIndex_eq_error_iff s.indexer name extract _).mpr
    ⟨rfl, old, (congrFun hs.extractors_eq name).trans hold⟩
  rw [addIndex_eq, hconflict]
  rfl

end

end Store

end WatchCache
