import WatchCache.Proofs.Cache.Entries
import WatchCache.Proofs.Cache.Union

set_option autoImplicit false

/-!
# Which object an address finds

In a table the object of an address stands under one text, in which a slash is between the
namespace and the name.  If the objects have no slashes of their own, an address with a namespace
finds the object that has its namespace and its name, and no other.  An address without a
namespace is its bare name: if somebody asks for a name that has a slash, it may be the text of an
object in a namespace.
-/

namespace WatchCache

/-! ## Texts of addresses -/

/-- The object has the namespace of an address, if any, and its name. -/
def Object.At (o : Object) (key : ObjectKey) : Prop :=
  o.nsText = key.namespace?.getD "" ∧ o.metadata.name.getD "" = key.name

/-- The address has no namespace, and its name spells out the namespace and the name of the
object. -/
def Object.SpelledBy (o : Object) (key : ObjectKey) : Prop :=
  key.namespace? = none ∧ o.nsText ≠ "" ∧ key.name = o.nsText ++ "/" ++ o.metadata.name.getD ""

section

variable {o : Object} {key : ObjectKey}

theorem Object.key_eq (o : Object) : o.key = tableKey o.nsText (o.metadata.name.getD "") := rfl

theorem ObjectKey.namespace?_ne_some_empty (key : ObjectKey) : key.namespace? ≠ some "" := by
  intro heq
  have hfilter := (Option.filter_eq_some_iff.mp heq).2
  simp at hfilter

/-- An address with a namespace, or with a name that has no slash, spells out no object. -/
theorem Object.not_spelledBy (o : Object)
    (hkey : key.namespace? ≠ none ∨ '/' ∉ key.name.toList) : ¬o.SpelledBy key := by
  rintro ⟨hnone, -, hname⟩
  rcases hkey with hsome | hslash
  · exact hsome hnone
  · rw [hname, toList_append_slash] at hslash
    exact hslash (by simp)

/-- The text of an address is the key of a plain object in two cases only. -/
theorem Object.Plain.text_eq_iff (hplain : o.Plain) (key : ObjectKey) :
    key.text = o.key ↔ o.At key ∨ o.SpelledBy key := by
  rw [ObjectKey.text, o.key_eq]
  cases hns : key.namespace? with
  | none =>
    have htext : tableKey ((none : Option String).getD "") key.name = key.name := rfl
    rw [htext]
    constructor
    · intro heq
      by_cases hempty : o.nsText = ""
      · refine Or.inl ⟨by rw [hempty, hns]; rfl, ?_⟩
        rw [hempty] at heq
        exact heq.symm
      · refine Or.inr ⟨hns, hempty, ?_⟩
        rw [heq, tableKey_of_ne hempty]
    · rintro (⟨hsame, hname⟩ | ⟨-, hne, hname⟩)
      · rw [hns] at hsame
        rw [hsame, hname]
        rfl
      · rw [tableKey_of_ne hne, hname]
  | some ns =>
    have hne : ns ≠ "" := fun hempty => key.namespace?_ne_some_empty (hempty ▸ hns)
    have htext : tableKey ((some ns).getD "") key.name = ns ++ "/" ++ key.name :=
      tableKey_of_ne hne key.name
    rw [htext]
    constructor
    · intro heq
      have hown : o.nsText ≠ "" := by
        -- the key of an object outside all namespaces is its name, which has no slash
        intro hempty
        have hname : ns ++ "/" ++ key.name = o.metadata.name.getD "" := by
          rw [heq, hempty]
          rfl
        refine hplain.2 ?_
        rw [← hname, toList_append_slash]
        simp
      have hkey : o.key = tableKey ns key.name := by
        rw [o.key_eq, ← heq, tableKey_of_ne hne]
      have hsame : o.nsText = ns := hplain.ns_eq hown hne hkey
      refine Or.inl ⟨by rw [hns]; exact hsame, ?_⟩
      rw [tableKey_of_ne hown, hsame] at heq
      have hlist := congrArg String.toList heq
      rw [toList_append_slash, toList_append_slash] at hlist
      exact (String.toList_inj.mp (List.cons.inj (List.append_cancel_left hlist)).2).symm
    · rintro (⟨hsame, hname⟩ | ⟨hnone, -⟩)
      · have hown : o.nsText = ns := by
          rw [hsame, hns]
          rfl
        rw [hown, hname, tableKey_of_ne hne]
      · cases hns.symm.trans hnone

end

/-! ## Stores -/

/-- A store of plain objects has for an address the objects at it, and besides those that it
spells out. -/
theorem Store.get?_eq_some_iff {kind : Kind} {calls : List Store.Call}
    (hplain : ∀ o ∈ (run kind calls).indexer.all, o.Plain) (key : ObjectKey) (copy : Object) :
    (run kind calls).get? key = some copy ↔
      ∃ o ∈ (run kind calls).indexer.all, copy = o.stamp kind ∧ (o.At key ∨ o.SpelledBy key) := by
  rw [get?, kind_run, Option.map_eq_some_iff]
  constructor
  · rintro ⟨o, ho, rfl⟩
    have hkey : o.key = key.text := run_keyed kind calls key.text o ho
    have hmem : o ∈ (run kind calls).indexer.all := by
      rw [mem_all_run, hkey]
      exact ho
    exact ⟨o, hmem, rfl, ((hplain o hmem).text_eq_iff key).mp hkey.symm⟩
  · rintro ⟨o, hmem, rfl, hwhich⟩
    refine ⟨o, ?_, rfl⟩
    rw [((hplain o hmem).text_eq_iff key).mpr hwhich]
    exact (mem_all_run kind calls o).mp hmem

/-- All objects in the stores of a hub are plain. -/
def Hub.Plain (h : Hub) : Prop :=
  ∀ id s, h.store? id = some s → ∀ o ∈ s.indexer.all, o.Plain

/-- What a store that was told something has for an address. -/
theorem Hub.Plain.at_or_spelledBy {h : Hub} (hplain : h.Plain) {id : Nat} {s : Store} {kind : Kind}
    {extractors : Store.Extractors} {events : List Event} (hs : h.store? id = some s)
    (hstore : s.Told kind extractors events) {key : ObjectKey} {copy : Object}
    (hget : s.get? key = some copy) : copy.At key ∨ copy.SpelledBy key := by
  have hobjects := hplain id s hs
  obtain ⟨calls, rfl⟩ := hstore.reached
  obtain ⟨o, -, rfl, hwhich⟩ := (Store.get?_eq_some_iff hobjects key copy).mp hget
  exact hwhich

namespace Cache

/-! ## Caches -/

section

variable {c : Cache} {before later : List Act} {k : Kind} {key : ObjectKey} {copy : Object}

/-- The answer of an informer comes from one of its stores, and from that of the namespace of the
address if it has several. -/
theorem informerGet_ok {c : Cache} {i : Informer} (hget : c.informerGet i key = .ok copy) :
    ∃ id ∈ i.stores, (∃ s, c.hub.store? id = some s ∧ s.get? key = some copy) ∧
      (i.perNamespace = true → key.namespace? ≠ none) := by
  have hfound : ((i.storeFor key.namespace?).bind c.hub.store?).bind (·.get? key) =
      some copy := by
    unfold informerGet at hget
    split at hget
    · next found =>
      cases hget
      exact found
    · cases hget
  obtain ⟨s, hs, hcopy⟩ := Option.bind_eq_some_iff.mp hfound
  obtain ⟨id, hid, hs⟩ := Option.bind_eq_some_iff.mp hs
  refine ⟨id, Informer.mem_of_storeFor hid, ⟨s, hs, hcopy⟩, fun hper hnone => ?_⟩
  rw [hnone, Informer.storeFor, if_pos hper] at hid
  cases hid

/-- What the store of a dedicated kind has is returned at once. -/
theorem endsWith_get_dedicated {e : Entry} (hlookup : (c.run before).registry.lookup k = some e)
    (hends : c.EndsWith (before ++ .request (.get k key) :: later) (c.run before).calls.length
      (.object copy))
    (hlog : ((c.run before).act (.request (.get k key))).fetchLog = (c.run before).fetchLog) :
    later = [] ∧ ∃ s, (c.run before).hub.store? e.store = some s ∧ s.get? key = some copy := by
  cases hfound : ((c.run before).hub.store? e.store).bind (·.get? key) with
  | none =>
    have hfetched : ((c.run before).act (.request (.get k key))).fetchLog =
        (c.run before).fetchLog ++ [⟨e.kind, key⟩] := by
      show ((c.run before).beginGet k key none).2.fetchLog = _
      simp only [beginGet, hlookup, hfound]
      rfl
    have hlength := congrArg List.length (hfetched.symm.trans hlog)
    rw [List.length_append, List.length_singleton] at hlength
    omega
  | some o =>
    have hbegin : ((c.run before).begin (.get k key)).1 = .finished (.object o) := by
      simp only [begin, beginGet, hlookup, hfound]
      rfl
    obtain ⟨rfl, hanswer⟩ := hends.at_once hbegin
    cases hanswer
    exact ⟨rfl, Option.bind_eq_some_iff.mp hfound⟩

/-- A read that is answered without a fetch returns an object that the address finds, and one
from the store of a namespace only if the address has a namespace. -/
theorem found_of_endsWith (hunused : c.Unused)
    (hends : c.EndsWith (before ++ .request (.get k key) :: later) (c.run before).calls.length
      (.object copy))
    (hlog : ((c.run before).act (.request (.get k key))).fetchLog = (c.run before).fetchLog)
    (hplain : (c.run (before ++ .request (.get k key) :: later)).hub.Plain) :
    (copy.At key ∨ copy.SpelledBy key) ∧
      ∀ i, c.registry.contains k = false →
        (c.run (before ++ .request (.get k key) :: later)).informers.find? k = some i →
        i.perNamespace = true → key.namespace? ≠ none := by
  have hregistry := registry_run hunused.sound before
  cases hlookup : c.registry.lookup k with
  | some e =>
    obtain ⟨rfl, s, hs, hget⟩ := endsWith_get_dedicated (hregistry.symm ▸ hlookup) hends hlog
    obtain ⟨hmem, -⟩ := hunused.registry_sound.found k e hlookup
    obtain ⟨t, extractors, ht, hstore⟩ := store_of_entry hunused before hmem
    cases hs.symm.trans ht
    rw [run_concat] at hplain
    have hspared := spared_act (a := .request (.get k key)) (sound_run hunused.sound before) trivial
    have hkept := hspared.store?_eq (hunused.dedicated.entries e hmem)
    refine ⟨hplain.at_or_spelledBy (hkept.trans hs) hstore hget, fun i hno => ?_⟩
    cases hno.symm.trans ((c.registry.contains_iff k).mpr ⟨e, hlookup⟩)
  | none =>
    have hasks : (c.run before).asks (.get k key) = some (k, .get key none) := by
      rw [asks_congr hregistry, asks, (c.registry.contains_eq_false_iff k).mpr hlookup]
      rfl
    rcases hends.answers hasks with ⟨-, -, e, hfailed⟩ | hstopped | ⟨i, hfind, hanswers⟩
    · cases hfailed
    · cases hstopped
    · obtain ⟨extractors, htold⟩ := told_run hunused.toFresh _ k i hfind
      have hreply := hanswers.get
      cases hget : (c.run (before ++ .request (.get k key) :: later)).informerGet i key with
      | error e =>
        rw [hget] at hreply
        cases hreply
      | ok o =>
        rw [hget] at hreply
        cases hreply
        obtain ⟨id, hid, ⟨s, hs, hcopy⟩, hnamed⟩ := informerGet_ok hget
        obtain ⟨t, ht, hstore⟩ := htold id hid
        cases hs.symm.trans ht
        refine ⟨hplain.at_or_spelledBy hs hstore hcopy, fun j _ hj hper => ?_⟩
        cases hfind.symm.trans hj
        exact hnamed hper

end

/-- Addresses find the objects that have their namespaces and names, if these have no slashes.

A store that any calls were made on, and whose objects are all plain, returns for an address the
copies of exactly those objects that are at it or that it spells out; for an address with a
namespace, or with a name that has no slash, these are the objects at it.  The same is true of
what a read of a cache returns without a fetch, from the store of a dedicated kind or from an
informer; and an informer with one store for each namespace only returns objects at the
address. -/
theorem addresses_find_their_objects (c : Cache) (hunused : c.Unused) :
    (∀ kind calls, (∀ o ∈ (Store.run kind calls).indexer.all, o.Plain) → ∀ key copy,
      ((Store.run kind calls).get? key = some copy ↔
        ∃ o ∈ (Store.run kind calls).indexer.all, copy = o.stamp kind ∧
          (o.At key ∨ o.SpelledBy key)) ∧
      ((key.namespace? ≠ none ∨ '/' ∉ key.name.toList) →
        ((Store.run kind calls).get? key = some copy ↔
          ∃ o ∈ (Store.run kind calls).indexer.all, copy = o.stamp kind ∧ o.At key))) ∧
    ∀ before later k key copy,
      let read : Act := .request (.get k key)
      let last := c.run (before ++ read :: later)
      c.EndsWith (before ++ read :: later) (c.run before).calls.length (.object copy) →
      ((c.run before).act read).fetchLog = (c.run before).fetchLog →
      last.hub.Plain →
      (copy.At key ∨ copy.SpelledBy key) ∧
        ((key.namespace? ≠ none ∨ '/' ∉ key.name.toList) → copy.At key) ∧
        ∀ i, c.registry.contains k = false → last.informers.find? k = some i →
          i.perNamespace = true → copy.At key := by
  constructor
  · intro kind calls hplain key copy
    have hget := Store.get?_eq_some_iff hplain key copy
    refine ⟨hget, fun hkey => hget.trans ?_⟩
    refine exists_congr fun o => and_congr_right fun _ => and_congr_right fun _ => ?_
    exact or_iff_left (o.not_spelledBy hkey)
  · intro before later k key copy read last hends hlog hplain
    obtain ⟨hwhich, hnamed⟩ := found_of_endsWith hunused hends hlog hplain
    have hread (hkey : key.namespace? ≠ none ∨ '/' ∉ key.name.toList) : copy.At key :=
      hwhich.resolve_right (copy.not_spelledBy hkey)
    exact ⟨hwhich, hread, fun i hno hi hper => hread (Or.inl (hnamed i hno hi hper))⟩

/-- One name in a namespace and outside all of them, in a store and in an informer. -/
theorem addresses_find_their_objects_of_one_name :
    let widget : Kind := ⟨"example.io", "v1", "Widget"⟩
    let inside : Object := { metadata := { name := some "w1", ns := some "ops" } }
    let outside : Object := { metadata := { name := some "w1" } }
    let key : ObjectKey := ⟨some "ops", "w1"⟩
    let store := Store.run widget [.apply (.restarted [inside, outside])]
    let c : Cache := { connector := Script.connector { kinds := [(widget, true)] } }
    let before : List Act := [.request (.informer widget), .request (.start "main"), .step 0,
      .outside (.feed 0 (.restarted [inside, outside])), .step 0]
    let last := c.run (before ++ [.request (.get widget key)])
    (∀ o ∈ store.indexer.all, o.Plain) ∧ store.get? key = some (inside.stamp widget) ∧
      (∃ o ∈ store.indexer.all, inside.stamp widget = o.stamp widget ∧ o.At key) ∧
      c.Unused ∧ last.hub.Plain ∧
      c.EndsWith (before ++ [.request (.get widget key)]) 2 (.object (inside.stamp widget)) ∧
      (inside.stamp widget).At key := by
  intro widget inside outside key store c before last
  have hkey : key.namespace? ≠ none ∨ '/' ∉ key.name.toList := Or.inl (by decide)
  have hplain : ∀ o ∈ [inside, outside], o.Plain :=
    List.forall_mem_cons.mpr ⟨⟨by decide, by decide⟩,
      List.forall_mem_cons.mpr ⟨⟨by decide, by decide⟩, by simp⟩⟩
  have hstore : store.indexer.all = [inside, outside] := by decide +kernel
  have hget : store.get? key = some (inside.stamp widget) := by decide +kernel
  have hunused : c.Unused := unused_new _ {} {}
  have hhub : last.hub.Plain := by
    have hcells : last.hub.stores.map (fun cell => cell.store.indexer.all) =
        [[inside, outside]] := by decide +kernel
    intro id s hs o ho
    obtain ⟨cell, hcell, rfl⟩ := Option.map_eq_some_iff.mp hs
    have hmem := List.mem_map_of_mem (f := fun cell => cell.store.indexer.all)
      (List.mem_of_getElem? hcell)
    rw [hcells, List.mem_singleton] at hmem
    exact hplain o (hmem ▸ ho)
  have hends : c.EndsWith (before ++ [.request (.get widget key)]) 2
      (.object (inside.stamp widget)) := ⟨by decide +kernel, by decide +kernel⟩
  have hcount : (c.run before).calls.length = 2 := by decide +kernel
  have hlog : ((c.run before).act (.request (.get widget key))).fetchLog =
      (c.run before).fetchLog := by decide +kernel
  obtain ⟨hstores, hcaches⟩ := addresses_find_their_objects c hunused
  refine ⟨hstore ▸ hplain, hget, ?_, hunused, hhub, hends, ?_⟩
  · exact ((hstores widget [.apply (.restarted [inside, outside])] (hstore ▸ hplain) key
      (inside.stamp widget)).2 hkey).mp hget
  · exact (hcaches before [] widget key (inside.stamp widget) (hcount ▸ hends) hlog
      hhub).2.1 hkey

/-- An address without a namespace whose name has a slash: a store finds an object of a namespace,
which is not at the address. -/
theorem slash_in_name_finds_other_object :
    let widget : Kind := ⟨"example.io", "v1", "Widget"⟩
    let o : Object := { metadata := { name := some "w1", ns := some "ops" } }
    let store := Store.run widget [.apply (.applied o)]
    (∀ o ∈ store.indexer.all, o.Plain) ∧
      store.get? (.cluster "ops/w1") = some (o.stamp widget) ∧
      ¬(o.stamp widget).At (.cluster "ops/w1") := by
  intro widget o store
  have hall : store.indexer.all = [o] := by decide +kernel
  refine ⟨fun other hother => ?_, by decide +kernel, fun hat => ?_⟩
  · rw [hall, List.mem_singleton] at hother
    rw [hother]
    exact ⟨by decide, by decide⟩
  · exact absurd hat.1 (by decide)

end Cache

end WatchCache
