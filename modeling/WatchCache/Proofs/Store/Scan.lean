import WatchCache.Proofs.ObjectKey
import WatchCache.Proofs.Store.Run

set_option autoImplicit false

/-!
# Lists are scans

A list is answered from the smallest index that can, yet it always returns what a scan of the
whole table would.  An index holds every value of a field twice, under the namespace of the
object and in the partition of all namespaces; `mem_doubled_iff` says that the two cannot be
mistaken for each other by an object that passes the filter on namespaces.
-/

namespace WatchCache

namespace ListOptions

/-- What a call asks of an object, its field selector apart. -/
def Wants (o : ListOptions) (object : Object) : Prop :=
  (∀ ns, o.ns = some ns → ns ≠ "" → object.nsText = ns) ∧
    ∀ selector, o.labels = some selector → object.meets selector = true

theorem namespace?_eq_some_iff (o : ListOptions) (ns : String) :
    o.namespace? = some ns ↔ o.ns = some ns ∧ ns ≠ "" := by
  unfold namespace? nonEmpty
  rw [Option.filter_eq_some_iff]
  simp

theorem Wants.nsText_eq {o : ListOptions} {object : Object} (h : o.Wants object) {ns : String}
    (hns : o.namespace? = some ns) : object.nsText = ns := by
  obtain ⟨hsome, hne⟩ := (o.namespace?_eq_some_iff ns).mp hns
  exact h.1 ns hsome hne

/-- A call looks in all namespaces, which the empty text stands for, or in that of the object. -/
theorem Wants.lookup_ns {o : ListOptions} {object : Object} (h : o.Wants object) :
    o.namespace?.getD "" = "" ∨ o.namespace?.getD "" = object.nsText := by
  cases hns : o.namespace? with
  | none => exact Or.inl rfl
  | some ns => exact Or.inr (h.nsText_eq hns).symm

end ListOptions

namespace Store

theorem admits_iff (o : ListOptions) (object : Object) :
    admits o object = true ↔ o.Wants object := by
  unfold admits ListOptions.Wants
  rw [Bool.and_eq_true]
  refine and_congr ?_ ?_
  · rw [Option.all_eq_true]
    simp only [decide_eq_true_eq, ListOptions.namespace?_eq_some_iff, and_imp]
    exact forall_congr' fun ns => forall_congr' fun _ => forall_congr' fun _ => eq_comm
  · simp [Option.all_eq_true]

/-! ## Values that are stored twice -/

/-- Looked up where the object is, a stored value is one of its values. -/
theorem mem_doubled_iff (extract : Extractor) (object : Object) {ns : String}
    (hns : ns = "" ∨ ns = object.nsText) (hreserved : ¬IsReserved object.nsText)
    (value : String) :
    partitioned ns value ∈ doubled extract object ↔ value ∈ extract object := by
  -- The same partition gives the value back; different ones cannot hold the same text.
  have hsame : partitioned ns value ∈ (extract object).map (partitioned ns) ↔
      value ∈ extract object := by
    refine List.mem_map.trans ⟨?_, fun h => ⟨value, h, rfl⟩⟩
    rintro ⟨other, hother, heq⟩
    exact partitioned_inj heq ▸ hother
  unfold doubled
  by_cases hempty : object.nsText = ""
  · have hall : ns = "" := hns.elim id fun h => h.trans hempty
    subst hall
    simpa only [hempty, if_true] using hsame
  · simp only [hempty, if_false, List.mem_append]
    rcases hns with rfl | rfl
    · refine ⟨fun h => h.elim (fun hmem => ?_) hsame.mp, fun h => Or.inr (hsame.mpr h)⟩
      obtain ⟨other, hother, heq⟩ := List.mem_map.mp hmem
      exact eq_of_partitioned_everywhere hreserved hempty heq.symm ▸ hother
    · refine ⟨fun h => h.elim hsame.mp fun hmem => ?_, fun h => Or.inl (hsame.mpr h)⟩
      obtain ⟨other, hother, heq⟩ := List.mem_map.mp hmem
      exact eq_of_partitioned_everywhere hreserved hempty heq ▸ hother

/-! ## From candidates to the list -/

/-- Objects of a table under distinct keys of their own are distinct. -/
theorem all_nodup {x : Indexer} (hx : x.Consistent) (hkeyed : Keyed x.get?) : x.all.Nodup := by
  have hkeys : x.all.map Object.key = x.items.keys := by
    rw [Indexer.all, Table.values, Table.keys, List.map_map]
    refine List.map_congr_left fun p hp => ?_
    exact hkeyed p.1 p.2 (hx.items_distinct.find?_of_mem hp)
  exact List.Nodup.of_map Object.key (hkeys ▸ hx.items_distinct)

/-- The candidates of a call leave only the filter to do. -/
theorem list_of_candidates {s : Store} {o : ListOptions} {found : List Object}
    (hcandidates : s.candidates o = .ok found) (hfound : found.Nodup) {p : Object → Prop}
    (hp : ∀ object, o.Wants object → (object ∈ found ↔ object ∈ s.indexer.all ∧ p object)) :
    ∃ listed : List Object, s.list o = .ok (listed.map fun object => object.stamp s.kind) ∧
      listed.Nodup ∧
      ∀ object, object ∈ listed ↔ object ∈ s.indexer.all ∧ o.Wants object ∧ p object := by
  refine ⟨found.filter (admits o), ?_, hfound.filter _, fun object => ?_⟩
  · rw [list, hcandidates]
    rfl
  · rw [List.mem_filter, admits_iff]
    constructor
    · rintro ⟨hmem, hwants⟩
      obtain ⟨hall, hpred⟩ := (hp object hwants).mp hmem
      exact ⟨hall, hwants, hpred⟩
    · rintro ⟨hall, hwants, hpred⟩
      exact ⟨(hp object hwants).mpr ⟨hall, hpred⟩, hwants⟩

/-- An index that a store has finds what a scan finds. -/
theorem byIndex_scan {x : Indexer} (hx : x.Consistent) (hkeyed : Keyed x.get?) {name : String}
    {extract : Extractor} (hindex : x.extractor? name = some extract) (value : String) :
    ∃ found, x.byIndex name value = .ok found ∧ found.Nodup ∧
      ∀ object, object ∈ found ↔ object ∈ x.all ∧ value ∈ extract object := by
  obtain ⟨i, hi, rfl⟩ := Option.map_eq_some_iff.mp hindex
  obtain ⟨found, hfound, hperm⟩ := hx.byIndex_perm hi value
  refine ⟨found, hfound, hperm.nodup_iff.mpr ((all_nodup hx hkeyed).filter _), fun object => ?_⟩
  rw [hperm.mem_iff, List.mem_filter, decide_eq_true_eq]

/-! ## Lists of a store -/

/-- The call that adds the index of a field succeeded. -/
def Indexes (kind : Kind) (calls : List Call) (field : String) (extract : Extractor) : Prop :=
  ∃ before rest t, calls = before ++ .indexField field extract :: rest ∧
    (run kind before).indexField field extract = .ok t

theorem Indexes.extractor? {kind : Kind} {calls : List Call} {field : String}
    {extract : Extractor} (h : Indexes kind calls field extract) :
    (run kind calls).indexer.extractor? (fieldIndex field) = some (doubled extract) := by
  obtain ⟨before, rest, t, rfl, hadd⟩ := h
  rw [indexField, addIndex_eq, indexer_run] at hadd
  rw [indexer_run, Indexer.extractor?_run]
  cases hx : (Indexer.run (indexerCalls before)).addIndex (fieldIndex field) (doubled extract) with
  | error e =>
    rw [hx] at hadd
    cases hadd
  | ok x =>
    refine ⟨indexerCalls before, rest.map Call.onIndexer, x, ?_, hx⟩
    simp [indexerCalls, Call.onIndexer]

/-- Every store has the index of namespaces. -/
theorem extractor?_namespaceIndex (kind : Kind) (calls : List Call) :
    (run kind calls).indexer.extractor? namespaceIndex = some extractNamespace := by
  rw [indexer_run, Indexer.extractor?_run]
  exact ⟨[], calls.map Call.onIndexer, _, rfl, rfl⟩

theorem candidates_of_field (s : Store) {o : ListOptions} {r : FieldRequirement}
    (hfields : o.fields = some ⟨[r]⟩) (hr : r.operator = .equals ∨ r.operator = .doubleEquals) :
    s.candidates o = s.indexer.byIndex (fieldIndex r.field)
      (partitioned (o.namespace?.getD "") r.value) := by
  rcases hr with hr | hr <;>
    simp [candidates, hfields, FieldSelector.oneEqual?, hr, Selector.Operator.isEquality]

/-- A list without field selector returns the objects in its namespace that meet its label
selector, and one for a single value of an indexed field those of them that yield the value: each
object of the table once and as it is there, but for its type, which is that of the kind of the
store whatever the object came with. -/
theorem list_agrees_with_scan (kind : Kind) (calls : List Call)
    (hreserved : ∀ object ∈ (run kind calls).indexer.all, ¬IsReserved object.nsText)
    (o : ListOptions) :
    (o.fields = none →
      ∃ listed : List Object,
        (run kind calls).list o = .ok (listed.map fun object =>
          { object with types := some ⟨kind.apiVersion, kind.name⟩ }) ∧
        listed.Nodup ∧
        ∀ object, object ∈ listed ↔ object ∈ (run kind calls).indexer.all ∧ o.Wants object) ∧
    ∀ (r : FieldRequirement) (extract : Extractor), o.fields = some ⟨[r]⟩ →
      r.operator = .equals ∨ r.operator = .doubleEquals →
      Indexes kind calls r.field extract →
      ∃ listed : List Object,
        (run kind calls).list o = .ok (listed.map fun object =>
          { object with types := some ⟨kind.apiVersion, kind.name⟩ }) ∧
        listed.Nodup ∧
        ∀ object, object ∈ listed ↔ object ∈ (run kind calls).indexer.all ∧ o.Wants object ∧
          r.value ∈ extract object := by
  have hx := run_consistent kind calls
  have hkeyed := run_keyed kind calls
  have hkind := kind_run kind calls
  constructor
  · intro hfields
    cases hns : o.namespace? with
    | none =>
      have hcandidates : (run kind calls).candidates o = .ok (run kind calls).indexer.all := by
        simp [candidates, hfields, hns]
      have hscan := list_of_candidates hcandidates (all_nodup hx hkeyed) (p := fun _ => True)
        fun _ _ => by simp
      simpa [hkind, Object.stamp] using hscan
    | some ns =>
      obtain ⟨found, hfound, hnodup, hmem⟩ :=
        byIndex_scan hx hkeyed (extractor?_namespaceIndex kind calls) ns
      have hcandidates : (run kind calls).candidates o = .ok found := by
        simp [candidates, hfields, hns, hfound]
      have hscan := list_of_candidates hcandidates hnodup (p := fun _ => True) ?_
      · simpa [hkind, Object.stamp] using hscan
      · intro object hwants
        simp [hmem, extractNamespace, hwants.nsText_eq hns]
  · intro r extract hfields hr hindexes
    obtain ⟨found, hfound, hnodup, hmem⟩ := byIndex_scan hx hkeyed hindexes.extractor?
      (partitioned (o.namespace?.getD "") r.value)
    have hcandidates : (run kind calls).candidates o = .ok found := by
      rw [candidates_of_field _ hfields hr, hfound]
    have hscan := list_of_candidates hcandidates hnodup
      (p := fun object => r.value ∈ extract object)
      fun object hwants => ?_
    · rw [hkind] at hscan
      exact hscan
    · rw [hmem]
      refine and_congr_right fun hall => ?_
      exact mem_doubled_iff extract object hwants.lookup_ns (hreserved object hall) r.value

/-- An index that is added between two events, over an object whose values hold a slash and over
one outside all namespaces. -/
theorem list_agrees_with_scan_late_index :
    let kind : Kind := ⟨"example.io", "v1", "Widget"⟩
    let inside : Object := { metadata := { name := some "w1", ns := some "ops" } }
    let outside : Object := { metadata := { name := some "w2" } }
    let color : Extractor := fun _ => ["red", "ops/red"]
    let calls : List Call := [.apply (.applied inside), .indexField "spec.color" color,
      .apply (.restarted [outside, inside])]
    let r : FieldRequirement := ⟨"spec.color", .doubleEquals, "ops/red"⟩
    let o : ListOptions := { ns := some "ops", fields := some ⟨[r]⟩ }
    (∀ object ∈ (run kind calls).indexer.all, ¬IsReserved object.nsText) ∧
      Indexes kind calls r.field color ∧
      ∃ listed : List Object,
        (run kind calls).list o = .ok (listed.map fun object =>
          { object with types := some ⟨kind.apiVersion, kind.name⟩ }) ∧
        listed.Nodup ∧
        ∀ object, object ∈ listed ↔ object ∈ (run kind calls).indexer.all ∧ o.Wants object ∧
          r.value ∈ color object := by
  intro kind inside outside color calls r o
  have hall : (run kind calls).indexer.all = [outside, inside] := rfl
  have hreserved : ∀ object ∈ (run kind calls).indexer.all, ¬IsReserved object.nsText := by
    rintro object hobject ⟨rest, hns⟩
    have hprefix : (allNamespaces ++ "/").length = 17 := by decide
    have hlength := congrArg String.length hns
    rw [String.length_append, hprefix] at hlength
    have hshort : object.nsText.length ≤ 3 := by
      rw [hall] at hobject
      rcases List.mem_pair.mp hobject with rfl | rfl <;> decide
    omega
  have hindexes : Indexes kind calls r.field color :=
    ⟨[.apply (.applied inside)], [.apply (.restarted [outside, inside])], _, rfl, rfl⟩
  have hscan := list_agrees_with_scan kind calls hreserved o
  exact ⟨hreserved, hindexes, hscan.2 r color rfl (Or.inr rfl) hindexes⟩

end Store

end WatchCache
