import WatchCache.Proofs.Cache.Ending
import WatchCache.Proofs.Cache.Indices
import WatchCache.Proofs.Cache.Union

set_option autoImplicit false

/-!
# Lists that no index can answer

A store refuses a list whose field selector is not one single comparison for equality, or that
compares a field without an index.  It is the stores that look at the selector: a list that is
restricted to a namespace for which its informer has no store is answered before any of them is
asked, and is empty instead of being refused.
-/

namespace WatchCache

/-- The error for a list by fields that a store cannot answer, where some fields are indexed. -/
inductive ListOptions.Refusal (o : ListOptions) (indexed : String → Prop) : CacheError → Prop
  | unsupported {s : FieldSelector} (hfields : o.fields = some s)
      (hmany : ∀ r, s.requirements = [r] → r.operator ≠ .equals ∧ r.operator ≠ .doubleEquals) :
      Refusal o indexed (.unsupportedSelector
        ("non-exact field matches are not supported by the cache: " ++ Text.quote s.text))
  | missing {r : FieldRequirement} (hfields : o.fields = some ⟨[r]⟩)
      (hequal : r.operator = .equals ∨ r.operator = .doubleEquals) (hmissing : ¬indexed r.field) :
      Refusal o indexed (.missingIndex (fieldIndex r.field))

/-- A field selector that is not one comparison for equality is not taken for one. -/
theorem FieldSelector.oneEqual?_eq_none {s : FieldSelector}
    (hmany : ∀ r, s.requirements = [r] → r.operator ≠ .equals ∧ r.operator ≠ .doubleEquals) :
    s.oneEqual? = none := by
  unfold oneEqual?
  split
  · next r hone =>
    obtain ⟨hequals, hdouble⟩ := hmany r hone
    cases hr : r.operator <;> simp_all [Selector.Operator.isEquality]
  · rfl

section

variable {o : ListOptions} {indexed : String → Prop} {e : CacheError}

/-- A store that has no other indices on fields refuses the list. -/
theorem Store.list_refused (hrefusal : o.Refusal indexed e) {s : Store}
    (hindices : ∀ field, ¬indexed field → s.indexer.extractor? (fieldIndex field) = none) :
    s.list o = .error e := by
  have hcandidates : s.candidates o = .error e := by
    cases hrefusal with
    | unsupported hfields hmany =>
      simp only [candidates, hfields, FieldSelector.oneEqual?_eq_none hmany]
    | @missing r hfields hequal hmissing =>
      rw [candidates_of_field s hfields hequal, Indexer.byIndex_eq_error_iff]
      exact ⟨rfl, fun f hf => by cases (hindices r.field hmissing).symm.trans hf⟩
  rw [list, hcandidates]
  rfl

/-- A store is there, and has an index on no other fields than these. -/
def Hub.IndexedOnly (h : Hub) (indexed : String → Prop) (id : Nat) : Prop :=
  ∃ s, h.store? id = some s ∧
    ∀ field, ¬indexed field → s.indexer.extractor? (fieldIndex field) = none

theorem Hub.IndexedOnly.list_refused {h : Hub} {id : Nat} (hid : h.IndexedOnly indexed id)
    (hrefusal : o.Refusal indexed e) : h.list id o = (.error e, h) := by
  obtain ⟨s, hs, hindices⟩ := hid
  simp only [Hub.list, hs, Store.list_refused hrefusal hindices]

/-- A list of several stores is refused by the first of them. -/
theorem Cache.listStores_refused (hrefusal : o.Refusal indexed e) {h : Hub} {stores : List Nat}
    (hstores : stores ≠ []) (hall : ∀ id ∈ stores, h.IndexedOnly indexed id) :
    (Cache.listStores o h stores).1 = .error e := by
  obtain ⟨id, rest, rfl⟩ := List.exists_cons_of_ne_nil hstores
  simp only [Cache.listStores, (hall id List.mem_cons_self).list_refused hrefusal]

/-- An informer has a store for what a list is restricted to. -/
def Informer.Covers (i : Informer) (o : ListOptions) : Prop :=
  i.perNamespace = true → ∀ ns, o.namespace? = some ns → ∃ w ∈ i.watched, w.ns = some ns

namespace Cache

/-- An informer that covers a list asks at least one of its stores, and any other one asks none. -/
theorem informerList_refused {c : Cache} {i : Informer} (hrefusal : o.Refusal indexed e)
    (hwatched : i.watched ≠ []) (hall : ∀ id ∈ i.stores, c.hub.IndexedOnly indexed id) :
    (i.Covers o → (c.informerList i o).1 = .error e) ∧
      (¬i.Covers o → (c.informerList i o).1 = .ok []) := by
  have hstores : i.stores ≠ [] := fun hnil => hwatched (List.map_eq_nil_iff.mp hnil)
  cases hper : i.perNamespace with
  | false =>
    refine ⟨fun _ => ?_, fun hmisses => ?_⟩
    · simp only [informerList, hper]
      exact listStores_refused hrefusal hstores hall
    · exact absurd (fun hyes => by cases hper.symm.trans hyes) hmisses
  | true =>
    cases hns : o.namespace? with
    | none =>
      refine ⟨fun _ => ?_, fun hmisses => ?_⟩
      · simp only [informerList, hper, hns]
        exact listStores_refused hrefusal hstores hall
      · exact absurd (fun _ ns hsome => by cases hns.symm.trans hsome) hmisses
    | some ns =>
      refine ⟨fun hcovers => ?_, fun hmisses => ?_⟩
      · obtain ⟨w, hw, hscope⟩ := hcovers hper ns hns
        obtain ⟨v, hfind⟩ : ∃ v, i.watched.find? (fun w => w.ns = some ns) = some v :=
          Option.isSome_iff_exists.mp (List.find?_isSome.mpr ⟨w, hw, by simpa using hscope⟩)
        have hstore : i.storeFor (some ns) = some v.store := by
          rw [Informer.storeFor, if_pos hper, Option.bind_some, hfind]
          rfl
        have hmem : v.store ∈ i.stores := List.mem_map_of_mem (List.mem_of_find?_eq_some hfind)
        simp only [informerList, hper, hns, hstore, Option.toList_some]
        refine listStores_refused hrefusal (List.cons_ne_nil _ _) fun id hid => ?_
        exact hall id (List.mem_singleton.mp hid ▸ hmem)
      · have hnowhere : i.storeFor (some ns) = none := by
          refine Informer.storeFor_of_forall_ne hper fun w hw hscope => hmisses fun _ ns' hns' => ?_
          cases hns.symm.trans hns'
          exact ⟨w, hw, hscope⟩
        simp only [informerList, hper, hns, hnowhere, Option.toList_none]
        rfl

/-- A list of a dedicated kind is refused at once, whatever state the cache is in. -/
theorem begin_list_refused {c : Cache} {kind : Kind} {entry : Entry}
    (hentry : c.registry.lookup kind = some entry) (hrefusal : o.Refusal indexed e)
    (hstore : c.hub.IndexedOnly indexed entry.store) :
    (c.begin (.list kind o)).1 = .finished (.failed e) := by
  have hcounted : (c.count (.reads "store")).hub.IndexedOnly indexed entry.store := hstore
  simp only [begin, beginList, hentry, hcounted.list_refused hrefusal]
  rfl

/-! ## Runs -/

section

variable {c : Cache} {acts : List Act} {k : Kind} {i : Informer}

/-- An informer covers every list whose namespace is configured. -/
theorem covers_of_find? (hfresh : c.Fresh) (hfind : (c.run acts).informers.find? k = some i)
    (hconfigured : ∀ ns, o.namespace? = some ns → c.namespaces = [] ∨ ns ∈ c.namespaces) :
    i.Covers o := by
  obtain ⟨-, hscopes, hsingle⟩ := scopes_of_find? hfresh hfind
  intro hper ns hns
  rw [if_pos hper] at hscopes
  rcases hconfigured ns hns with hempty | hmem
  · cases hper.symm.trans (hsingle hempty)
  · have hscope : some ns ∈ i.watched.map Watched.ns := by
      rw [hscopes]
      exact List.mem_map_of_mem hmem
    exact List.mem_map.mp hscope

theorem indexedOnly_informer (hfresh : c.Fresh)
    (hfind : (c.run acts).informers.find? k = some i) :
    ∀ id ∈ i.stores,
      (c.run acts).hub.IndexedOnly (fun field => c.Indexed acts k (fieldIndex field)) id := by
  intro id hid
  obtain ⟨extractors, hhub⟩ := told_run hfresh acts k i hfind
  obtain ⟨s, hs, -⟩ := hhub id hid
  refine ⟨s, hs, fun field hnever => ?_⟩
  exact lacks_informer hfresh (fieldIndex_ne_namespaceIndex field) hnever hfind id hid s hs

theorem indexedOnly_entry (hunused : c.Unused) {entry : Entry}
    (hentry : c.registry.lookup k = some entry) :
    (c.run acts).hub.IndexedOnly (fun field => ∃ j, c.registry.lookup j = some entry ∧
      c.Indexed acts j (fieldIndex field)) entry.store := by
  have hs := sound_run hunused.sound acts
  have hregistry := registry_run hunused.sound acts
  have hlookup : (c.run acts).registry.lookup k = some entry := hregistry.symm ▸ hentry
  have hlt : entry.store < (c.run acts).hub.stores.length :=
    Nat.lt_of_lt_of_le (hs.dedicated.lookup k entry hlookup) hs.floor_le
  have hstore : (c.run acts).hub.store? entry.store =
      some ((c.run acts).hub.stores[entry.store]).store := by
    rw [Hub.store?, List.getElem?_eq_getElem hlt]
    rfl
  refine ⟨_, hstore, fun field hnever => ?_⟩
  exact lacks_entry hunused (fieldIndex_ne_namespaceIndex field) hentry
    (fun j hj hindexed => hnever ⟨j, hj, hindexed⟩) _ hstore

end

/-- Lists by fields that no index can answer.

The cache is one that was just constructed, with any dedicated kinds and any namespaces, and has
then been used in any way.  A field counts as indexed from the moment at which some act adds its
index to the kind.  A list of a dedicated kind is refused at once.  A list of any other kind whose
informer is there or can be made is refused if its namespace, where it has one, is among those
that the informer watches, which all configured namespaces are; otherwise it is empty.  The only
other reply is that of a cache that was stopped while the call waited for a listing, and a call
that stays without reply waits for one. -/
theorem lists_by_fields_are_refused {c : Cache} (hunused : c.Unused) (before later : List Act)
    (kind : Kind) (o : ListOptions) (e : CacheError) :
    let acts := before ++ .request (.list kind o) :: later
    let last := c.run acts
    let id := (c.run before).calls.length
    (∀ entry, c.registry.lookup kind = some entry →
      o.Refusal (fun field => ∃ j, c.registry.lookup j = some entry ∧
        c.Indexed before j (fieldIndex field)) e →
      c.EndsWith (before ++ [.request (.list kind o)]) id (.failed e)) ∧
    (c.registry.lookup kind = none →
      (c.run before).informers.find? kind.item ≠ none ∨ (c.run before).Supplies kind.item →
      o.Refusal (fun field => c.Indexed acts kind.item (fieldIndex field)) e →
      (∀ reply, c.EndsWith acts id reply →
        ∃ i, last.informers.find? kind.item = some i ∧
          ((∀ ns, o.namespace? = some ns → c.namespaces = [] ∨ ns ∈ c.namespaces) → i.Covers o) ∧
          ((i.Covers o ∧ reply = .failed e) ∨ (¬i.Covers o ∧ reply = .objects []) ∨
            reply = .failed (stoppedError kind.item) ∧ ¬i.Listed (c.ledger before) ∧
              ∃ token, firstStart before = some token ∧ last.hub.isCancelled token = true)) ∧
      (last.AtRest → last.reply? id = none →
        ∃ i, last.informers.find? kind.item = some i ∧ ¬i.Listed (c.ledger acts))) := by
  intro acts last id
  have hregistry := registry_run hunused.sound before
  refine ⟨fun entry hentry hrefusal => ?_, fun hnone hbuild hrefusal => ?_⟩
  · have hstore := @indexedOnly_entry c before kind hunused entry hentry
    have hbegin := begin_list_refused (hregistry.symm ▸ hentry) hrefusal hstore
    refine ⟨?_, ?_⟩
    · rw [List.dropLast_concat, reply?, List.getElem?_eq_none (Nat.le_refl _)]
      rfl
    · rw [run_concat, reply?_of_calls (call_act_request _ _), hbegin]
      rfl
  · have hfallback : (c.run before).registry.contains kind = false := by
      rw [hregistry, Registry.contains_eq_false_iff]
      exact hnone
    have hasks := asks_list hfallback o
    refine ⟨fun reply hends => ?_, unlisted_of_pending hunused.toFresh hasks hbuild⟩
    cases ends_of_endsWith hunused.toFresh hasks hends with
    | refused _ hno habsent _ _ _ => exact absurd hbuild (not_or.mpr ⟨not_not.mpr habsent, hno⟩)
    | @stopped i token hstarted hfind hunlisted hcancelled hreply =>
      refine ⟨i, hfind, covers_of_find? hunused.toFresh hfind, Or.inr (Or.inr ?_)⟩
      exact ⟨hreply, hunlisted, token, hstarted, hcancelled⟩
    | @answered i hfind hanswers _ =>
      obtain ⟨hwatched, -, -⟩ := scopes_of_find? hunused.toFresh hfind
      obtain ⟨hyes, hno⟩ := informerList_refused (c := last) hrefusal hwatched
        (indexedOnly_informer hunused.toFresh hfind)
      refine ⟨i, hfind, covers_of_find? hunused.toFresh hfind, ?_⟩
      rw [hanswers.list]
      by_cases hcovered : i.Covers o
      · exact Or.inl ⟨hcovered, by rw [hyes hcovered]; rfl⟩
      · exact Or.inr (Or.inl ⟨hcovered, by rw [hno hcovered]; rfl⟩)

/-- A dedicated kind, and another one with an index on one field; the namespace is configured. -/
theorem lists_by_fields_are_refused_beside_an_index :
    let node : Kind := ⟨"", "v1", "Node"⟩
    let widget : Kind := ⟨"example.io", "v1", "Widget"⟩
    let new : Cache :=
      { connector := Script.connector { kinds := [(node, false), (widget, true)] } }
    let before : List Act := [.request (.index widget "spec.size" fun _ => ["big"])]
    let notRed : FieldSelector := ⟨[⟨"spec.color", .notEquals, "red"⟩]⟩
    let red : ListOptions := { ns := some "ops", fields := some (.oneEqual "spec.color" "red") }
    let last : List Act := before ++ [.request (.list widget red)]
    ∃ built, new.addDedicatedAll [node] = .ok built ∧ (built.withNamespaces ["ops"]).Unused ∧
      let c := built.withNamespaces ["ops"]
      c.EndsWith (before ++ [.request (.list node { fields := some notRed })]) 1
        (.failed (.unsupportedSelector
          ("non-exact field matches are not supported by the cache: " ++
            Text.quote notRed.text))) ∧
      c.EndsWith last 1 (.failed (.missingIndex (fieldIndex "spec.color"))) ∧
      ∃ i, (c.run last).informers.find? widget = some i ∧ i.Covers red := by
  intro node widget new before notRed red last
  obtain ⟨built, hbuilt, hnode, hwidget, hsupplies, hlength, hends⟩ : ∃ built,
      new.addDedicatedAll [node] = .ok built ∧
      (built.withNamespaces ["ops"]).registry.lookup node = some ⟨node, 0, 0, 0⟩ ∧
      (built.withNamespaces ["ops"]).registry.lookup widget = none ∧
      ((built.withNamespaces ["ops"]).run before).Supplies widget ∧
      ((built.withNamespaces ["ops"]).run before).calls.length = 1 ∧
      (built.withNamespaces ["ops"]).EndsWith last 1
        (.failed (.missingIndex (fieldIndex "spec.color"))) :=
    ⟨_, rfl, by decide +kernel, by decide +kernel, ⟨true, by decide +kernel, fun _ _ => ⟨_, rfl⟩⟩,
      by decide +kernel, by decide +kernel, by decide +kernel⟩
  have hunused : (built.withNamespaces ["ops"]).Unused :=
    ((unused_new _ {} {}).addDedicatedAll hbuilt).withNamespaces ["ops"]
  obtain ⟨hdedicated, -⟩ := lists_by_fields_are_refused hunused before [] node
    { fields := some notRed } (.unsupportedSelector
      ("non-exact field matches are not supported by the cache: " ++ Text.quote notRed.text))
  obtain ⟨-, hfallback⟩ := lists_by_fields_are_refused hunused before [] widget red
    (.missingIndex (fieldIndex "spec.color"))
  have hitem : widget.item = widget := by decide +kernel
  rw [hlength] at hdedicated hfallback
  rw [hitem] at hfallback
  have hnever : ¬(built.withNamespaces ["ops"]).Indexed last widget (fieldIndex "spec.color") := by
    rintro ⟨first, a, rest, hacts, ha⟩
    have hmem : a ∈ last := by simp [hacts]
    have hname : fieldIndex "spec.color" ≠ fieldIndex "spec.size" := by decide
    generalize fieldIndex "spec.color" = name at ha hname
    rcases List.mem_cons.mp hmem with rfl | hlist
    · rcases ha with ⟨extract, ha⟩ | ⟨field, extract, hrequest, rfl, -⟩
      · cases ha
        exact hname rfl
      · cases hrequest
        exact hname rfl
    · cases List.mem_singleton.mp hlist
      rcases ha with ⟨extract, ha⟩ | ⟨field, extract, hrequest, -⟩
      · cases ha
      · cases hrequest
  refine ⟨built, hbuilt, hunused, hdedicated _ hnode (.unsupported rfl ?_), hends, ?_⟩
  · rintro r hr
    cases hr
    simp
  · have hmissing : red.Refusal (fun field => (built.withNamespaces ["ops"]).Indexed last widget
        (fieldIndex field)) (.missingIndex (fieldIndex "spec.color")) :=
      .missing (r := ⟨"spec.color", .equals, "red"⟩) rfl (Or.inl rfl) hnever
    obtain ⟨hreply, -⟩ := hfallback hwidget (Or.inr hsupplies) hmissing
    obtain ⟨i, hfind, hcovers, -⟩ := hreply _ hends
    have hconfigured : "ops" ∈ (built.withNamespaces ["ops"]).namespaces :=
      List.mem_eraseDups.mpr (by decide)
    refine ⟨i, hfind, hcovers fun ns hns => Or.inr ?_⟩
    cases hns
    exact hconfigured

/-- A namespace that is not configured: lists in it are not refused for their field selectors,
whether these are of another form than an index can answer or compare a field without an index. -/
theorem unwatched_namespace_is_not_refused :
    let widget : Kind := ⟨"example.io", "v1", "Widget"⟩
    let c : Cache :=
      { connector := Script.connector { kinds := [(widget, true)] }, namespaces := ["ops"] }
    let notRed : FieldSelector := ⟨[⟨"spec.color", .notEquals, "red"⟩]⟩
    let unequal : ListOptions := { ns := some "prod", fields := some notRed }
    let red : ListOptions := { ns := some "prod", fields := some (.oneEqual "spec.color" "red") }
    c.Unused ∧ c.Supplies widget ∧
      unequal.Refusal (fun _ => False) (.unsupportedSelector
        ("non-exact field matches are not supported by the cache: " ++ Text.quote notRed.text)) ∧
      c.EndsWith [.request (.list widget unequal)] 0 (.objects []) ∧
      red.Refusal (fun _ => False) (.missingIndex (fieldIndex "spec.color")) ∧
      c.EndsWith [.request (.list widget red)] 0 (.objects []) := by
  intro widget c notRed unequal red
  have hunused : c.Unused := (unused_new _ {} {}).withNamespaces ["ops"]
  have hsupplies : c.Supplies widget := ⟨true, by decide +kernel, fun _ _ => ⟨_, rfl⟩⟩
  have hmissing : red.Refusal (fun _ => False) (.missingIndex (fieldIndex "spec.color")) :=
    .missing (r := ⟨"spec.color", .equals, "red"⟩) rfl (Or.inl rfl) not_false
  refine ⟨hunused, hsupplies, .unsupported rfl ?_, ⟨by decide +kernel, by decide +kernel⟩,
    hmissing, by decide +kernel, by decide +kernel⟩
  intro r hr
  cases hr
  simp

end Cache

end

end WatchCache
