import WatchCache.Proofs.Object.Field
import WatchCache.Proofs.Store.Select

set_option autoImplicit false

/-!
# Indices over metadata

Labels and namespaces can be asked for in two ways: with restrictions of their own, and with a field
selector once a store has an index over the field.  Both ways return the same objects, whatever the
history of the store.
-/

namespace WatchCache

namespace Object

/-- The points before a path are dropped, and no others. -/
theorem field_of_head {path : String} (hhead : path.toList.head? ≠ some '.') :
    field path = fieldAt path := by
  have hrest : path.toList.dropWhile (· == '.') = path.toList :=
    dropWhile_eq_iff.mpr ⟨0, rfl, hhead⟩
  rw [field, hrest, String.ofList_toList]

theorem meets_ofPairs_iff {k v : String} {o : Object} :
    o.meets (.ofPairs [(k, v)]) = true ↔
      ∃ labels, o.metadata.labels = some labels ∧ labels.get? k = some v := by
  rw [meets, LabelSelector.matchesOption]
  cases o.metadata.labels with
  | none => simp [LabelSelector.ofPairs, LabelSelector.matches_, Selector.Requirement.matches_,
      Selector.Labels.get?]
  | some labels =>
    cases hget : Selector.Labels.get? labels k <;>
      simp [LabelSelector.ofPairs, LabelSelector.matches_, Selector.Requirement.matches_, hget]

/-- A label has a value if the selector for this one value is met; an object without labels has
none, and meets no such selector. -/
theorem mem_field_label_iff {k v : String} {o : Object} :
    v ∈ field ("metadata.labels." ++ k) o ↔
      ∃ labels, o.metadata.labels = some labels ∧ labels.get? k = some v := by
  have hhead : ("metadata.labels." ++ k).toList.head? ≠ some '.' := by simp
  rw [field_of_head hhead, fieldAt_label, Option.mem_toList, Option.bind_eq_some_iff]

theorem mem_field_namespace_iff {n : String} {o : Object} :
    n ∈ field "metadata.namespace" o ↔ o.metadata.ns = some n := by
  have hfield : field "metadata.namespace" o = o.metadata.ns.toList := rfl
  rw [hfield, Option.mem_toList]

/-- A namespace that is not empty is one that the object has. -/
theorem nsText_eq_iff {n : String} (hn : n ≠ "") {o : Object} :
    o.nsText = n ↔ o.metadata.ns = some n := by
  rw [nsText, Metadata.nsText]
  cases o.metadata.ns with
  | none => simp [hn.symm]
  | some ns => simp

end Object

namespace Store

variable {kind : Kind} {calls : List Call}

/-- Two calls that ask the same of every object of the store return the same copies, which are
those of the objects that the second call asks for. -/
theorem list_perm {o o' : ListOptions} {p : Object → Prop}
    (hanswer : o.Answerable (run kind calls).indexer.extractor?)
    (hanswer' : o'.Answerable (run kind calls).indexer.extractor?)
    (hp : ∀ object ∈ (run kind calls).indexer.all,
      (o.Wants object ∧ o.Selects (run kind calls).indexer.extractor? object ↔ p object))
    (hp' : ∀ object ∈ (run kind calls).indexer.all,
      (o'.Wants object ∧ o'.Selects (run kind calls).indexer.extractor? object ↔ p object)) :
    ∃ listed listed', (run kind calls).list o = .ok listed ∧
      (run kind calls).list o' = .ok listed' ∧ listed.Perm listed' ∧
      ∃ found : List Object, listed = found.map (fun object =>
          { object with types := some ⟨kind.apiVersion, kind.name⟩ }) ∧
        found.Nodup ∧
        ∀ object, object ∈ found ↔ object ∈ (run kind calls).indexer.all ∧ p object := by
  obtain ⟨found, hlist, hnodup, hmem⟩ := list_run kind calls hanswer
  obtain ⟨found', hlist', hnodup', hmem'⟩ := list_run kind calls hanswer'
  have hasked (object : Object) :
      object ∈ found ↔ object ∈ (run kind calls).indexer.all ∧ p object := by
    rw [hmem, ← mem_all_run]
    exact and_congr_right (hp object)
  have hasked' (object : Object) :
      object ∈ found' ↔ object ∈ (run kind calls).indexer.all ∧ p object := by
    rw [hmem', ← mem_all_run]
    exact and_congr_right (hp' object)
  refine ⟨_, _, hlist, hlist', List.Perm.map _ ?_, found, rfl, hnodup, hasked⟩
  rw [List.perm_ext_iff_of_nodup hnodup hnodup']
  exact fun object => (hasked object).trans (hasked' object).symm

/-- A field selector for one value asks for the objects that yield the value. -/
theorem selects_oneEqual {field : String} {extract : Extractor}
    (hindexes : Indexes kind calls field extract) {o : ListOptions} {value : String}
    (hfields : o.fields = some (.oneEqual field value)) {object : Object} (hwants : o.Wants object)
    (hreserved : ¬IsReserved object.nsText) :
    o.Selects (run kind calls).indexer.extractor? object ↔ value ∈ extract object := by
  rw [ListOptions.selects_iff hfields hindexes.extractor?]
  exact mem_doubled_iff extract object hwants.lookup_ns hreserved value

theorem answerable_oneEqual {field : String} {extract : Extractor}
    (hindexes : Indexes kind calls field extract) {o : ListOptions} {value : String}
    (hfields : o.fields = some (.oneEqual field value)) :
    o.Answerable (run kind calls).indexer.extractor? :=
  Or.inr ⟨_, _, hfields, Or.inl rfl, hindexes.extractor?⟩

/-- Indices over metadata answer as the restrictions of their own do.

With an index over a label, a list by the field of this label returns what a list by the label
selector for it does, in whatever namespace: a copy of every object of the store that is there and
has this value under the label.  With an index over the namespace, an unrestricted list by the field
of the namespace returns what a list in this namespace does: a copy of every object in it. -/
theorem metadata_indices_agree (kind : Kind) (calls : List Call)
    (hreserved : ∀ object ∈ (run kind calls).indexer.all, ¬IsReserved object.nsText) :
    (∀ (k v : String) (ns : Option String),
      Indexes kind calls ("metadata.labels." ++ k) (Object.field ("metadata.labels." ++ k)) →
      ∃ listed listed',
        (run kind calls).list
          { ns := ns, fields := some (.oneEqual ("metadata.labels." ++ k) v) } = .ok listed ∧
        (run kind calls).list { ns := ns, labels := some (.ofPairs [(k, v)]) } = .ok listed' ∧
        listed.Perm listed' ∧
        ∃ found : List Object, listed = found.map (fun object =>
            { object with types := some ⟨kind.apiVersion, kind.name⟩ }) ∧
          found.Nodup ∧
          ∀ object, object ∈ found ↔ object ∈ (run kind calls).indexer.all ∧
            (∀ n, ns = some n → n ≠ "" → object.metadata.ns.getD "" = n) ∧
            ∃ labels, object.metadata.labels = some labels ∧ labels.get? k = some v) ∧
    ∀ (n : String) (everywhere : Option String), n ≠ "" →
      everywhere = none ∨ everywhere = some "" →
      Indexes kind calls "metadata.namespace" (Object.field "metadata.namespace") →
      ∃ listed listed',
        (run kind calls).list
          { ns := everywhere, fields := some (.oneEqual "metadata.namespace" n) } = .ok listed ∧
        (run kind calls).list { ns := some n } = .ok listed' ∧
        listed.Perm listed' ∧
        ∃ found : List Object, listed = found.map (fun object =>
            { object with types := some ⟨kind.apiVersion, kind.name⟩ }) ∧
          found.Nodup ∧
          ∀ object, object ∈ found ↔
            object ∈ (run kind calls).indexer.all ∧ object.metadata.ns = some n := by
  constructor
  · intro k v ns hindexes
    refine list_perm (answerable_oneEqual hindexes rfl) (Or.inl rfl) (fun object hobject => ?_)
      fun object _ => ?_
    · rw [and_congr_right fun hwants => selects_oneEqual hindexes rfl hwants
        (hreserved object hobject), Object.mem_field_label_iff]
      simp [ListOptions.Wants, Object.nsText, Metadata.nsText]
    · rw [and_iff_left (ListOptions.selects_of_none rfl _ _), ← Object.meets_ofPairs_iff]
      simp [ListOptions.Wants, Object.nsText, Metadata.nsText]
  · intro n everywhere hn heverywhere hindexes
    have hunrestricted (ns : String) (hns : everywhere = some ns) : ns = "" := by
      rcases heverywhere with rfl | rfl
      · cases hns
      · exact (Option.some.inj hns).symm
    refine list_perm (answerable_oneEqual hindexes rfl) (Or.inl rfl) (fun object hobject => ?_)
      fun object _ => ?_
    · rw [and_congr_right fun hwants => selects_oneEqual hindexes rfl hwants
        (hreserved object hobject), Object.mem_field_namespace_iff]
      refine and_iff_right ⟨fun ns hns hne => absurd (hunrestricted ns hns) hne, ?_⟩
      intro selector hselector
      cases hselector
    · rw [and_iff_left (ListOptions.selects_of_none rfl _ _), ← Object.nsText_eq_iff hn]
      simp [ListOptions.Wants, hn]

/-- A label whose key holds points and a slash, an object without labels and one outside all
namespaces; the index over the label is added between two events. -/
theorem metadata_indices_agree_late_index :
    let kind : Kind := ⟨"example.io", "v1", "Widget"⟩
    let label := "app.kubernetes.io/name"
    let labelled (name : String) (ns : Option String) : Object :=
      ⟨none, { name := some name, ns := ns, labels := some [(label, "kcache")] }, []⟩
    let plain : Object := ⟨none, { name := some "w3", ns := some "ops" }, []⟩
    let calls : List Call := [
      .indexField "metadata.namespace" (Object.field "metadata.namespace"),
      .apply (.applied (labelled "w1" (some "ops"))),
      .indexField ("metadata.labels." ++ label) (Object.field ("metadata.labels." ++ label)),
      .apply (.restarted [plain, labelled "w1" (some "ops"), labelled "w2" none])]
    (∀ object ∈ (run kind calls).indexer.all, ¬IsReserved object.nsText) ∧
      Indexes kind calls ("metadata.labels." ++ label)
        (Object.field ("metadata.labels." ++ label)) ∧
      Indexes kind calls "metadata.namespace" (Object.field "metadata.namespace") ∧
      (∃ listed listed',
        (run kind calls).list
          { fields := some (.oneEqual ("metadata.labels." ++ label) "kcache") } = .ok listed ∧
        (run kind calls).list { labels := some (.ofPairs [(label, "kcache")]) } = .ok listed' ∧
        listed.Perm listed' ∧
        ∃ found : List Object, listed = found.map (fun object =>
            { object with types := some ⟨kind.apiVersion, kind.name⟩ }) ∧
          found.Nodup ∧
          ∀ object, object ∈ found ↔ object ∈ (run kind calls).indexer.all ∧
            (∀ n, (none : Option String) = some n → n ≠ "" → object.metadata.ns.getD "" = n) ∧
            ∃ labels, object.metadata.labels = some labels ∧ labels.get? label = some "kcache") ∧
      ∃ listed listed',
        (run kind calls).list
          { ns := some "", fields := some (.oneEqual "metadata.namespace" "ops") } = .ok listed ∧
        (run kind calls).list { ns := some "ops" } = .ok listed' ∧
        listed.Perm listed' ∧
        ∃ found : List Object, listed = found.map (fun object =>
            { object with types := some ⟨kind.apiVersion, kind.name⟩ }) ∧
          found.Nodup ∧
          ∀ object, object ∈ found ↔
            object ∈ (run kind calls).indexer.all ∧ object.metadata.ns = some "ops" := by
  intro kind label labelled plain calls
  have hall : (run kind calls).indexer.all =
      [plain, labelled "w1" (some "ops"), labelled "w2" none] := rfl
  have hreserved : ∀ object ∈ (run kind calls).indexer.all, ¬IsReserved object.nsText := by
    intro object hobject
    refine not_isReserved_of_length_lt ?_
    rw [hall] at hobject
    simp only [List.mem_cons, List.not_mem_nil, or_false] at hobject
    rcases hobject with rfl | rfl | rfl <;> decide
  have hlabel : Indexes kind calls ("metadata.labels." ++ label)
      (Object.field ("metadata.labels." ++ label)) := by
    refine ⟨calls.take 2, calls.drop 3, _, rfl, rfl⟩
  have hns : Indexes kind calls "metadata.namespace" (Object.field "metadata.namespace") :=
    ⟨[], calls.drop 1, _, rfl, rfl⟩
  obtain ⟨hlabels, hnamespaces⟩ := metadata_indices_agree kind calls hreserved
  exact ⟨hreserved, hlabel, hns, hlabels label "kcache" none hlabel,
    hnamespaces "ops" (some "") (by decide) (Or.inr rfl) hns⟩

end Store

end WatchCache
