import Mathlib.Data.List.Induction
import WatchCache.Proofs.Store.Coverage

set_option autoImplicit false

/-!
# Indexers after any calls

An indexer begins empty and is changed by calls: indices are added, objects are put and removed,
and whole listings are swapped in.  `Indexer.run` is the indexer after a list of calls; a call
that fails leaves it as it was.  `Registers` says from the calls alone which indices there must
be, and the main statement is that buckets and lookups are those of a plain scan of the table.
-/

namespace WatchCache.Indexer

/-- A call that changes an indexer.  A listing is given by its pairs, of which the last under
each key counts. -/
inductive Call where
  | addIndex (name : String) (extract : Extractor)
  | upsert (key : String) (object : Object)
  | remove (key : String)
  | replace (pairs : List (String × Object))

/-- The outcome of a call. -/
def perform (x : Indexer) : Call → Answer Indexer
  | .addIndex name extract => x.addIndex name extract
  | .upsert key o => .ok (x.upsert key o)
  | .remove key => .ok (x.remove key)
  | .replace pairs => .ok (x.replace (Table.ofPairs pairs))

/-- The indexer after a call. -/
def after (x : Indexer) (call : Call) : Indexer :=
  match x.perform call with
  | .ok y => y
  | .error _ => x

theorem after_addIndex_of_ok {x y : Indexer} {name : String} {extract : Extractor}
    (h : x.addIndex name extract = .ok y) : x.after (.addIndex name extract) = y := by
  simp [after, perform, h]

theorem after_addIndex_of_error {x : Indexer} {name : String} {extract : Extractor}
    {e : CacheError} (h : x.addIndex name extract = .error e) :
    x.after (.addIndex name extract) = x := by
  simp [after, perform, h]

/-- The indexer after calls on an empty one. -/
def run (calls : List Call) : Indexer := calls.foldl after {}

@[simp] theorem run_nil : run [] = {} := rfl

@[simp] theorem run_concat (calls : List Call) (call : Call) :
    run (calls ++ [call]) = (run calls).after call := by
  simp [run]

/-! ## Consistency -/

theorem Consistent.after {x : Indexer} (hx : x.Consistent) (call : Call) :
    (x.after call).Consistent := by
  cases call with
  | addIndex name extract =>
    cases hadd : x.addIndex name extract with
    | error e =>
      rw [after_addIndex_of_error hadd]
      exact hx
    | ok y =>
      rw [after_addIndex_of_ok hadd]
      exact hx.addIndex hadd
  | upsert key o => exact hx.upsert key o
  | remove key => exact hx.remove key
  | replace pairs => exact hx.replace (Table.distinct_ofPairs pairs)

theorem run_consistent (calls : List Call) : (run calls).Consistent := by
  induction calls using List.reverseRecOn with
  | nil => exact consistent_empty
  | append_singleton calls call ih =>
    rw [run_concat]
    exact ih.after call

/-! ## Registered indices -/

/-- Some call added an index successfully. -/
def Registers (calls : List Call) (name : String) (extract : Extractor) : Prop :=
  ∃ before rest y, calls = before ++ .addIndex name extract :: rest ∧
    (run before).addIndex name extract = .ok y

/-- The extractor of an index. -/
def extractor? (x : Indexer) (name : String) : Option Extractor :=
  (x.indices.find? name).map Index.extract

theorem extractor?_mapIndices (x : Indexer) (f : Index → Index)
    (hf : ∀ i, (f i).extract = i.extract) (name : String) :
    (x.mapIndices f).extractor? name = x.extractor? name := by
  unfold extractor? mapIndices
  rw [Table.find?_map, Option.map_map]
  congr 1
  funext i
  exact hf i

theorem addIndex_eq_ok_iff (x y : Indexer) (name : String) (extract : Extractor) :
    x.addIndex name extract = .ok y ↔ x.indices.find? name = none ∧
      y = { x with indices := x.indices.insert name (Index.build extract x.items) } := by
  unfold addIndex hasIndex Table.has
  cases hfind : x.indices.find? name with
  | none => simp [eq_comm]
  | some i => simp

theorem addIndex_eq_error_iff (x : Indexer) (name : String) (extract : Extractor)
    (e : CacheError) :
    x.addIndex name extract = .error e ↔
      e = .indexConflict name ∧ ∃ f, x.extractor? name = some f := by
  unfold addIndex hasIndex Table.has extractor?
  cases hfind : x.indices.find? name with
  | none => simp
  | some i => simp [eq_comm]

/-- A call leaves the extractors alone, or it adds one. -/
theorem extractor?_after (x : Indexer) (call : Call) (name : String) (f : Extractor) :
    (x.after call).extractor? name = some f ↔
      x.extractor? name = some f ∨
        call = .addIndex name f ∧ ∃ y, x.addIndex name f = .ok y := by
  cases call with
  | addIndex other g =>
    cases hadd : x.addIndex other g with
    | error e =>
      rw [after_addIndex_of_error hadd]
      refine ⟨Or.inl, fun h => h.resolve_right ?_⟩
      rintro ⟨hcall, y, hy⟩
      cases hcall
      rw [hadd] at hy
      cases hy
    | ok y =>
      rw [after_addIndex_of_ok hadd]
      obtain ⟨hnone, rfl⟩ := (addIndex_eq_ok_iff x y other g).mp hadd
      unfold extractor?
      rw [Table.find?_insert]
      by_cases h : name = other
      · subst h
        simp only [if_true, Option.map_some, Index.extract_build, hnone, Option.map_none,
          Call.addIndex.injEq, true_and, reduceCtorEq, false_or, Option.some.injEq]
        exact ⟨fun hg => ⟨hg, _, hg ▸ hadd⟩, And.left⟩
      · simp [h, Ne.symm h]
  | upsert key o =>
    have hsame : (x.after (.upsert key o)).extractor? name = x.extractor? name := by
      refine extractor?_mapIndices _ _ (fun i => ?_) name
      cases x.get? key <;> rfl
    simp [hsame]
  | remove key =>
    have hsame : (x.after (.remove key)).extractor? name = x.extractor? name := by
      show (x.remove key).extractor? name = x.extractor? name
      unfold remove
      cases x.get? key with
      | none => rfl
      | some old =>
        exact extractor?_mapIndices { x with items := x.items.erase key }
          (fun i => i.leave key old) (fun _ => rfl) name
    simp [hsame]
  | replace pairs =>
    have hsame : (x.after (.replace pairs)).extractor? name = x.extractor? name :=
      extractor?_mapIndices _ _ (fun i => Index.extract_build i.extract _) name
    simp [hsame]

theorem registers_nil (name : String) (f : Extractor) : ¬Registers [] name f := by
  rintro ⟨before, rest, y, hcalls, -⟩
  simp at hcalls

theorem registers_concat (calls : List Call) (call : Call) (name : String) (f : Extractor) :
    Registers (calls ++ [call]) name f ↔
      Registers calls name f ∨
        call = .addIndex name f ∧ ∃ y, (run calls).addIndex name f = .ok y := by
  constructor
  · rintro ⟨before, rest, y, hcalls, hadd⟩
    rcases List.eq_nil_or_concat rest with rfl | ⟨init, last, rfl⟩
    · obtain ⟨rfl, hlast⟩ := List.append_inj' hcalls rfl
      exact Or.inr ⟨List.head_eq_of_cons_eq hlast, y, hadd⟩
    · have hsplit : calls ++ [call] = (before ++ .addIndex name f :: init) ++ [last] := by
        simpa using hcalls
      exact Or.inl ⟨before, init, y, (List.append_inj' hsplit rfl).1, hadd⟩
  · rintro (⟨before, rest, y, rfl, hadd⟩ | ⟨rfl, y, hadd⟩)
    · exact ⟨before, rest ++ [call], y, by simp, hadd⟩
    · exact ⟨calls, [], y, rfl, hadd⟩

/-- The indices that an indexer has are those that its calls registered. -/
theorem extractor?_run (calls : List Call) (name : String) (f : Extractor) :
    (run calls).extractor? name = some f ↔ Registers calls name f := by
  induction calls using List.reverseRecOn with
  | nil => simp [extractor?, registers_nil]
  | append_singleton calls call ih =>
    rw [run_concat, extractor?_after, registers_concat, ih]

theorem Registers.exists_index {calls : List Call} {name : String} {f : Extractor}
    (h : Registers calls name f) :
    ∃ i, (run calls).indices.find? name = some i ∧ i.extract = f :=
  Option.map_eq_some_iff.mp ((extractor?_run calls name f).mpr h)

/-! ## Lookups -/

/-- The objects under a value of an index are those that a scan of the table finds, each once. -/
theorem Consistent.byIndex_perm {x : Indexer} (hx : x.Consistent) {name : String} {i : Index}
    (hi : x.indices.find? name = some i) (value : String) :
    ∃ found, x.byIndex name value = .ok found ∧
      found.Perm (x.all.filter fun o => value ∈ i.extract o) := by
  have hcovers := hx.covers name i hi
  let hits := x.items.filter fun p => decide (value ∈ i.extract p.2)
  -- The bucket and the keys of the scan have the same members, and neither repeats one.
  have hkeys : (i.buckets.keysOf value).Perm (hits.map Prod.fst) := by
    refine (List.perm_ext_iff_of_nodup (hcovers.sound.keys_nodup value) ?_).mpr fun key => ?_
    · exact (List.filter_sublist.map Prod.fst).nodup hx.items_distinct
    · rw [hcovers.mem_iff]
      simp only [hits, List.mem_map, List.mem_filter, decide_eq_true_eq, Prod.exists,
        exists_and_right, exists_eq_right, hx.items_distinct.mem_iff]
      rfl
  have hobjects : (hits.map Prod.fst).filterMap x.get? = hits.map Prod.snd := by
    rw [List.filterMap_map, ← List.filterMap_eq_map]
    refine List.filterMap_congr fun p hp => ?_
    exact hx.items_distinct.find?_of_mem (List.mem_of_mem_filter hp)
  have hscan : hits.map Prod.snd = x.all.filter fun o => value ∈ i.extract o := by
    rw [all, Table.values, List.filter_map]
    rfl
  refine ⟨(i.buckets.keysOf value).filterMap x.get?, by simp [byIndex, hi], ?_⟩
  rw [← hscan, ← hobjects]
  exact hkeys.filterMap x.get?

theorem Consistent.mem_all_iff {x : Indexer} (hx : x.Consistent) (o : Object) :
    o ∈ x.all ↔ ∃ key, x.get? key = some o := by
  simp only [all, Table.values, List.mem_map, Prod.exists, exists_eq_right,
    hx.items_distinct.mem_iff]
  rfl

/-- The values of an index are those that some object of the table yields. -/
theorem Consistent.mem_indexValues_iff {x : Indexer} (hx : x.Consistent) {name : String}
    {i : Index} (hi : x.indices.find? name = some i) (value : String) :
    value ∈ x.indexValues name ↔ ∃ o ∈ x.all, value ∈ i.extract o := by
  have hcovers := hx.covers name i hi
  have hbucket : value ∈ i.buckets.keys ↔ ∃ key, key ∈ i.buckets.keysOf value := by
    rw [← Table.has_iff_mem_keys]
    have hne := hcovers.sound.not_empty value
    unfold Table.has Buckets.keysOf
    cases hfind : i.buckets.find? value with
    | none => simp
    | some keys =>
      have hkeys : keys ≠ [] := by simpa [hfind] using hne
      simpa using List.exists_mem_of_ne_nil keys hkeys
  simp only [indexValues, hi, hbucket, hcovers.mem_iff, hx.mem_all_iff]
  constructor
  · rintro ⟨key, o, ho, hv⟩
    exact ⟨o, ⟨key, ho⟩, hv⟩
  · rintro ⟨o, ⟨key, ho⟩, hv⟩
    exact ⟨key, o, ho, hv⟩

theorem byIndex_eq_error_iff (x : Indexer) (name value : String) (e : CacheError) :
    x.byIndex name value = .error e ↔
      e = .missingIndex name ∧ ∀ f, x.extractor? name ≠ some f := by
  unfold byIndex extractor?
  cases x.indices.find? name with
  | none => simp [eq_comm]
  | some i => simp

/-- After any calls, the indices are those that were registered, their buckets hold exactly the
keys whose objects yield a value, and every lookup is a scan of the table.  A name that was never
registered has no index, and a name that was is refused without a trace. -/
theorem indices_agree_with_scan (calls : List Call) :
    (run calls).items.Distinct ∧
    (∀ name, name ∈ (run calls).indices.keys ↔ ∃ f, Registers calls name f) ∧
    (∀ name f, Registers calls name f → ∃ i, (run calls).indices.find? name = some i ∧
      (∀ value key, key ∈ i.buckets.keysOf value ↔
        ∃ o, (run calls).get? key = some o ∧ value ∈ f o) ∧
      ∀ value, i.buckets.find? value ≠ some []) ∧
    (∀ name f, Registers calls name f → ∀ value,
      ∃ found, (run calls).byIndex name value = .ok found ∧
        found.Perm ((run calls).all.filter fun o => value ∈ f o)) ∧
    (∀ name f, Registers calls name f → ((run calls).indexValues name).Nodup ∧
      ∀ value, value ∈ (run calls).indexValues name ↔ ∃ o ∈ (run calls).all, value ∈ f o) ∧
    (∀ name value e, (run calls).byIndex name value = .error e ↔
      e = .missingIndex name ∧ ∀ f, ¬Registers calls name f) ∧
    (∀ name f e, (run calls).addIndex name f = .error e ↔
      e = .indexConflict name ∧ ∃ g, Registers calls name g) ∧
    ∀ name f e, (run calls).addIndex name f = .error e →
      run (calls ++ [.addIndex name f]) = run calls := by
  have hrun := run_consistent calls
  refine ⟨hrun.items_distinct, ?_, ?_, ?_, ?_, ?_, ?_, ?_⟩
  · intro name
    simp only [← extractor?_run, ← Table.has_iff_mem_keys, Table.has, extractor?]
    cases (run calls).indices.find? name <;> simp
  · intro name f hreg
    obtain ⟨i, hi, rfl⟩ := hreg.exists_index
    have hcovers := hrun.covers name i hi
    exact ⟨i, hi, hcovers.mem_iff, hcovers.sound.not_empty⟩
  · intro name f hreg value
    obtain ⟨i, hi, rfl⟩ := hreg.exists_index
    exact hrun.byIndex_perm hi value
  · intro name f hreg
    obtain ⟨i, hi, rfl⟩ := hreg.exists_index
    have hdistinct : (Table.keys i.buckets).Nodup := (hrun.covers name i hi).sound.distinct
    refine ⟨?_, hrun.mem_indexValues_iff hi⟩
    simpa [indexValues, hi] using hdistinct
  · intro name value e
    simp only [byIndex_eq_error_iff, ← extractor?_run, ne_eq]
  · intro name f e
    simp only [addIndex_eq_error_iff, extractor?_run]
  · intro name f e hadd
    rw [run_concat, after_addIndex_of_error hadd]

/-- An index that is added between two changes of one object finds the object by both of its new
values, one of which it yields twice, and no longer by the old one. -/
theorem indices_agree_with_scan_late_index :
    let names : Extractor := fun o => o.metadata.name.toList ++ o.metadata.name.toList ++ [o.nsText]
    let old : Object := { metadata := { name := some "w1", ns := some "ops" } }
    let new : Object := { metadata := { name := some "w2", ns := some "dev" } }
    let calls := [.upsert "k" old, .addIndex "names" names, .upsert "k" new]
    Registers calls "names" names ∧
    (∃ found, (run calls).byIndex "names" "w2" = .ok found ∧ found.Perm [new]) ∧
    ∃ found, (run calls).byIndex "names" "w1" = .ok found ∧ found.Perm [] := by
  intro names old new calls
  have hreg : Registers calls "names" names := ⟨[.upsert "k" old], [.upsert "k" new], _, rfl, rfl⟩
  have hscan := (indices_agree_with_scan calls).2.2.2.1 "names" names hreg
  exact ⟨hreg, hscan "w2", hscan "w1"⟩

end WatchCache.Indexer
