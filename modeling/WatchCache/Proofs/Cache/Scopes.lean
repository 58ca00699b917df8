import WatchCache.Proofs.Cache.Stores

set_option autoImplicit false

/-!
# The scopes of an informer

An informer has one store for each configured namespace, or a single one for all of them.  If the
store of a namespace was given only objects of it, and names and namespaces have no slash, then
each key is in one store at most, and the key of an object says in which one.
-/

namespace WatchCache

/-! ## Keys without slashes -/

/-- Neither the name nor the namespace of the object has a slash. -/
def Object.Plain (o : Object) : Prop :=
  '/' ∉ o.nsText.toList ∧ '/' ∉ (o.metadata.name.getD "").toList

/-- The key of a plain object begins with no other namespace than its own. -/
theorem Object.Plain.ns_eq {o : Object} (hplain : o.Plain) {ns name : String}
    (hns : o.nsText ≠ "") (hother : ns ≠ "") (hkey : o.key = tableKey ns name) :
    o.nsText = ns := by
  have hlist := congrArg String.toList hkey
  rw [show o.key = tableKey o.nsText (o.metadata.name.getD "") from rfl, tableKey_of_ne hns,
    tableKey_of_ne hother, toList_append_slash, toList_append_slash] at hlist
  -- if the other namespace went on past the slash, the slash would be in the name of the object
  refine String.toList_inj.mp (append_sep_inj hplain.1 (fun rest hrest => ?_) hlist).1
  rw [hrest, List.append_assoc] at hlist
  have hname := (List.cons.inj (List.append_cancel_left hlist)).2
  exact hplain.2 (by simp [hname])

/-! ## What was brought to a table -/

/-- Every object of a table was brought by some event. -/
theorem Event.mem_brings_of_tableOf {events : List Event} {key : String} {o : Object}
    (ho : tableOf events key = some o) : ∃ e ∈ events, o ∈ e.brings := by
  induction events using List.reverseRecOn with
  | nil => cases ho
  | append_singleton events e ih =>
    rw [tableOf_concat] at ho
    rcases effect_eq_some ho with hold | ⟨hnew, -⟩
    · obtain ⟨e', he', hmem⟩ := ih hold
      exact ⟨e', List.mem_append_left _ he', hmem⟩
    · exact ⟨e, List.mem_append_right _ (List.mem_singleton.mpr rfl), hnew⟩

/-! ## Scopes -/

namespace Informer

/-- The stores of an informer are one for each of these names, which count only if they are not
empty, or a single one for all namespaces. -/
structure Scoped (i : Informer) (names : List String) : Prop where
  watched_ne_nil : i.watched ≠ []
  inj : ∀ w ∈ i.watched, ∀ v ∈ i.watched, w.ns = v.ns → w = v
  named : i.perNamespace = true →
    ∀ w ∈ i.watched, ∃ ns ∈ names, w.ns = some ns ∧ ns ≠ ""
  exists_of_mem : i.perNamespace = true →
    ∀ ns ∈ names, ns ≠ "" → ∃ w ∈ i.watched, w.ns = some ns
  single : i.perNamespace = false → ∃ w, i.watched = [w] ∧ w.ns = none

theorem scoped_of_buildInformer {c built : Cache} {k : Kind} {i : Informer} {names : List String}
    (hbuild : (c.withNamespaces names).buildInformer k = (.ok i, built)) : i.Scoped names := by
  obtain ⟨-, -, -, -, hscopes⟩ := Cache.buildInformer_ok hbuild
  obtain ⟨-, -, ⟨namespaced, -, hper, -⟩, -⟩ := Cache.buildInformer_asked hbuild
  refine ⟨fun hnil => ?_, fun w hw v hv => inj_ns_of_buildInformer hbuild hw hv,
    fun hper w hw => ?_, fun hper ns hns hne => ?_, fun hsingle => ?_⟩
  · rw [hnil, List.map_nil] at hscopes
    split at hscopes
    · next hpartitioned =>
      rw [hper, List.map_eq_nil_iff.mp hscopes.symm] at hpartitioned
      simp at hpartitioned
    · cases hscopes
  · rw [if_pos hper] at hscopes
    have hmem : w.ns ∈ i.watched.map Watched.ns := List.mem_map_of_mem hw
    rw [hscopes] at hmem
    obtain ⟨ns, hns, heq⟩ := List.mem_map.mp hmem
    obtain ⟨hname, hne⟩ := (Cache.mem_namespaces c names ns).mp hns
    exact ⟨ns, hname, heq.symm, hne⟩
  · rw [if_pos hper] at hscopes
    have hmem : some ns ∈ i.watched.map Watched.ns := by
      rw [hscopes]
      exact List.mem_map_of_mem ((Cache.mem_namespaces c names ns).mpr ⟨hns, hne⟩)
    exact List.mem_map.mp hmem
  · rw [if_neg (by simp [hsingle])] at hscopes
    obtain ⟨w, hw, hns⟩ := List.map_eq_singleton_iff.mp hscopes
    exact ⟨w, hw, hns⟩

/-- The store of a namespace that is watched. -/
theorem Scoped.storeFor_of_mem {i : Informer} {names : List String} (hi : i.Scoped names)
    (hper : i.perNamespace = true) {w : Watched} (hw : w ∈ i.watched) {ns : String}
    (hns : w.ns = some ns) : i.storeFor (some ns) = some w.store := by
  have hfind : i.watched.find? (fun v => v.ns = some ns) = some w := by
    cases hv : i.watched.find? (fun v => v.ns = some ns) with
    | none => exact absurd hns (by simpa using List.find?_eq_none.mp hv w hw)
    | some v =>
      have hsame : v.ns = w.ns :=
        (by simpa using List.find?_some hv : v.ns = some ns).trans hns.symm
      rw [hi.inj v (List.mem_of_find?_eq_some hv) w hw hsame]
  rw [storeFor, if_pos hper, Option.bind_some, hfind]
  rfl

/-- The store for a namespace is one of the informer. -/
theorem mem_of_storeFor {i : Informer} {ns : Option String} {id : Nat}
    (hid : i.storeFor ns = some id) : id ∈ i.stores := by
  unfold storeFor at hid
  split at hid
  · obtain ⟨name, -, hid⟩ := Option.bind_eq_some_iff.mp hid
    obtain ⟨w, hw, rfl⟩ := Option.map_eq_some_iff.mp hid
    exact List.mem_map_of_mem (List.mem_of_find?_eq_some hw)
  · obtain ⟨w, hw, rfl⟩ := Option.map_eq_some_iff.mp hid
    exact List.mem_map_of_mem (List.mem_of_head? hw)

/-- There is no store for a namespace that is not watched. -/
theorem storeFor_of_forall_ne {i : Informer} (hper : i.perNamespace = true) {ns : Option String}
    (hns : ∀ w ∈ i.watched, w.ns ≠ ns) : i.storeFor ns = none := by
  rw [storeFor, if_pos hper, Option.bind_eq_none_iff]
  rintro name rfl
  rw [Option.map_eq_none_iff, List.find?_eq_none]
  exact fun w hw hsame => hns w hw (of_decide_eq_true hsame)

/-! ## Objects in their stores -/

/-- The ledger brings plain objects to the stores of an informer, and to the store of a namespace
only objects of it. -/
def Fed (i : Informer) (ledger : List Hub.Delivery) : Prop :=
  ∀ w ∈ i.watched, ∀ e ∈ Hub.eventsFor w.store ledger, ∀ o ∈ e.brings,
    o.Plain ∧ ∀ ns, w.ns = some ns → o.nsText = ns

section

variable {i : Informer} {names : List String} {h : Hub} {ledger : List Hub.Delivery} {k : Kind}
  {extractors : Store.Extractors}

theorem Fed.of_table (hfed : i.Fed ledger) (htold : h.Told ledger k i.stores extractors)
    {w : Watched} (hw : w ∈ i.watched) {key : String} {o : Object}
    (ho : h.table w.store key = some o) :
    o.Plain ∧ o.key = key ∧ ∀ ns, w.ns = some ns → o.nsText = ns := by
  have hkey := htold.key_eq (List.mem_map_of_mem hw) ho
  obtain ⟨s, hs, hstore⟩ := htold w.store (List.mem_map_of_mem hw)
  rw [Hub.table_of_store? hs, hstore.table] at ho
  obtain ⟨e, he, hmem⟩ := Event.mem_brings_of_tableOf ho
  obtain ⟨hplain, hns⟩ := hfed w hw e he o hmem
  exact ⟨hplain, hkey, hns⟩

/-- A key that begins with a namespace is in no store but that of the namespace. -/
theorem Fed.ns_of_table (hfed : i.Fed ledger) (hi : i.Scoped names)
    (htold : h.Told ledger k i.stores extractors) (hper : i.perNamespace = true) {w : Watched}
    (hw : w ∈ i.watched) {ns name : String} (hns : ns ≠ "")
    (hfound : h.table w.store (tableKey ns name) ≠ none) : w.ns = some ns := by
  obtain ⟨o, ho⟩ := Option.ne_none_iff_exists'.mp hfound
  obtain ⟨hplain, hkey, hown⟩ := hfed.of_table htold hw ho
  obtain ⟨own, -, hscope, hne⟩ := hi.named hper w hw
  have hsame := hown own hscope
  rw [hscope, ← hsame, hplain.ns_eq (hsame ▸ hne) hns hkey]

/-- No key is in two stores of an informer. -/
theorem Fed.apart (hfed : i.Fed ledger) (hi : i.Scoped names)
    (htold : h.Told ledger k i.stores extractors) :
    ∀ id ∈ i.stores, ∀ other ∈ i.stores, ∀ key, h.table id key ≠ none →
      h.table other key ≠ none → id = other := by
  intro id hid other hother key hfound hfound'
  obtain ⟨w, hw, rfl⟩ := List.mem_map.mp hid
  obtain ⟨v, hv, rfl⟩ := List.mem_map.mp hother
  refine congrArg Watched.store (hi.inj w hw v hv ?_)
  cases hper : i.perNamespace with
  | true =>
    obtain ⟨ns, -, hns, hne⟩ := hi.named hper w hw
    obtain ⟨o, ho⟩ := Option.ne_none_iff_exists'.mp hfound
    obtain ⟨-, hkey, hown⟩ := hfed.of_table htold hw ho
    have hkey' : key = tableKey ns (o.metadata.name.getD "") := hown ns hns ▸ hkey.symm
    rw [hkey'] at hfound'
    exact hns.trans (hfed.ns_of_table hi htold hper hv hne hfound').symm
  | false =>
    obtain ⟨u, hu, -⟩ := hi.single hper
    rw [hu, List.mem_singleton] at hw hv
    rw [hw, hv]

end

end Informer

/-! ## Informers of a run -/

namespace Cache

/-- Every informer was made with the namespaces that were configured. -/
theorem exists_buildInformer {c : Cache} (hfresh : c.Fresh) (names : List String)
    {acts : List Act} {k : Kind} {i : Informer}
    (hfind : ((c.withNamespaces names).run acts).informers.find? k = some i) :
    ∃ maker built : Cache, (maker.withNamespaces names).buildInformer k = (.ok i, built) := by
  have hbase := hfresh.withNamespaces names
  have hnone : (c.withNamespaces names).informers.find? k = none := by
    rw [hbase.informers]
    rfl
  obtain ⟨before, r, goal, later, built, -, -, -, hbuild, -⟩ :=
    exists_making hbase.sound hnone hfind
  have hnames : (((c.withNamespaces names).run before).counted r).namespaces =
      (names.filter (· ≠ "")).eraseDups :=
    (congrArg Setup.namespaces (setup_counted _ r)).trans
      (congrArg (·.2.1) (given_run hbase.sound before))
  refine ⟨((c.withNamespaces names).run before).counted r, built, ?_⟩
  rw [withNamespaces, ← hnames]
  exact hbuild

/-- An informer has one store for each configured namespace, or a single one, and at least one. -/
theorem scopes_of_find? {c : Cache} (hfresh : c.Fresh) {acts : List Act} {k : Kind} {i : Informer}
    (hfind : (c.run acts).informers.find? k = some i) :
    i.watched ≠ [] ∧
      i.watched.map Watched.ns = (if i.perNamespace then c.namespaces.map some else [none]) ∧
      (c.namespaces = [] → i.perNamespace = false) := by
  have hnone : c.informers.find? k = none := by
    rw [hfresh.informers]
    rfl
  obtain ⟨before, r, goal, later, built, -, -, -, hbuild, -⟩ :=
    exists_making hfresh.sound hnone hfind
  obtain ⟨-, -, -, -, hscopes⟩ := buildInformer_ok hbuild
  obtain ⟨-, -, ⟨namespaced, -, hper, -⟩, -⟩ := buildInformer_asked hbuild
  have hnames : ((c.run before).counted r).namespaces = c.namespaces :=
    (congrArg Setup.namespaces ((c.run before).setup_counted r)).trans
      (congrArg (·.2.1) (given_run hfresh.sound before))
  rw [hnames] at hscopes hper
  have hsingle : c.namespaces = [] → i.perNamespace = false := by
    intro hempty
    rw [hper, hempty]
    exact Bool.and_false _
  refine ⟨fun hnil => ?_, hscopes, hsingle⟩
  rw [hnil, List.map_nil] at hscopes
  split at hscopes
  · next hyes => cases hyes.symm.trans (hsingle (List.map_eq_nil_iff.mp hscopes.symm))
  · cases hscopes

end Cache

end WatchCache
