import WatchCache.Proofs.Store.Scan
import WatchCache.Proofs.Store.Told

set_option autoImplicit false

/-!
# Lists by the indices of a store

Which objects a list returns depends on the table of the store and on its indices, and on nothing
else that happened to it: `Selects` says what an index contributes, whatever its extractor is.
-/

namespace WatchCache

namespace ListOptions

/-- A call without field selector, or with one for a single value of a field that has an index. -/
def Answerable (o : ListOptions) (extractors : Store.Extractors) : Prop :=
  o.fields = none ∨
    ∃ r f, o.fields = some ⟨[r]⟩ ∧ (r.operator = .equals ∨ r.operator = .doubleEquals) ∧
      extractors (fieldIndex r.field) = some f

/-- What the index of a field asks of an object. -/
def Selects (o : ListOptions) (extractors : Store.Extractors) (object : Object) : Prop :=
  ∀ r f, o.fields = some ⟨[r]⟩ → extractors (fieldIndex r.field) = some f →
    partitioned (o.namespace?.getD "") r.value ∈ f object

theorem selects_of_none {o : ListOptions} (hfields : o.fields = none)
    (extractors : Store.Extractors) (object : Object) : o.Selects extractors object := by
  intro r f hsome
  cases hfields.symm.trans hsome

theorem selects_iff {o : ListOptions} {extractors : Store.Extractors} {r : FieldRequirement}
    {f : Extractor} (hfields : o.fields = some ⟨[r]⟩)
    (hindex : extractors (fieldIndex r.field) = some f) (object : Object) :
    o.Selects extractors object ↔ partitioned (o.namespace?.getD "") r.value ∈ f object := by
  refine ⟨fun h => h r f hfields hindex, fun h r' f' hfields' hindex' => ?_⟩
  cases hfields.symm.trans hfields'
  cases hindex.symm.trans hindex'
  exact h

end ListOptions

namespace Store

/-- The objects of a store are those that are in its table under their keys. -/
theorem mem_all_run (kind : Kind) (calls : List Call) (object : Object) :
    object ∈ (run kind calls).indexer.all ↔
      (run kind calls).indexer.get? object.key = some object := by
  rw [(run_consistent kind calls).mem_all_iff]
  exact ⟨fun ⟨key, hkey⟩ => run_keyed kind calls key object hkey ▸ hkey, fun hkey => ⟨_, hkey⟩⟩

/-- A list that the indices can answer returns the objects of the table that it asks for, each
once and with the kind of the store stamped on it. -/
theorem list_run (kind : Kind) (calls : List Call) {o : ListOptions}
    (hanswer : o.Answerable (run kind calls).indexer.extractor?) :
    ∃ listed : List Object,
      (run kind calls).list o = .ok (listed.map fun object => object.stamp kind) ∧
      listed.Nodup ∧
      ∀ object, object ∈ listed ↔ (run kind calls).indexer.get? object.key = some object ∧
        o.Wants object ∧ o.Selects (run kind calls).indexer.extractor? object := by
  have hx := run_consistent kind calls
  have hkeyed := run_keyed kind calls
  have hkind := kind_run kind calls
  have hlist (found : List Object) (hcandidates : (run kind calls).candidates o = .ok found)
      (hfound : found.Nodup) (hmem : ∀ object, o.Wants object → (object ∈ found ↔
        object ∈ (run kind calls).indexer.all ∧
          o.Selects (run kind calls).indexer.extractor? object)) := by
    have hscan := list_of_candidates hcandidates hfound hmem
    simp only [hkind, mem_all_run] at hscan
    exact hscan
  rcases hanswer with hfields | ⟨r, f, hfields, hequality, hindex⟩
  · have hselects := ListOptions.selects_of_none hfields (run kind calls).indexer.extractor?
    cases hns : o.namespace? with
    | none =>
      refine hlist (run kind calls).indexer.all ?_ (all_nodup hx hkeyed) ?_
      · simp only [candidates, hfields, hns]
      · exact fun object _ => (and_iff_left (hselects object)).symm
    | some ns =>
      obtain ⟨found, hfound, hnodup, hmem⟩ :=
        byIndex_scan hx hkeyed (extractor?_namespaceIndex kind calls) ns
      refine hlist found ?_ hnodup fun object hwants => ?_
      · simp only [candidates, hfields, hns, hfound]
      · rw [hmem]
        simp [extractNamespace, hwants.nsText_eq hns, hselects object]
  · obtain ⟨found, hfound, hnodup, hmem⟩ :=
      byIndex_scan hx hkeyed hindex (partitioned (o.namespace?.getD "") r.value)
    refine hlist found ?_ hnodup fun object _ => ?_
    · rw [candidates_of_field _ hfields hequality, hfound]
    · rw [hmem, ListOptions.selects_iff hfields hindex]

end Store

end WatchCache
