import WatchCache.Proofs.Cache.Indexing
import WatchCache.Proofs.Cache.Union
import WatchCache.Proofs.Cache.Unseen

set_option autoImplicit false

/-!
# Calls for an index

What a call for an index is told, and what a list can rely on after one that ended well.
-/

namespace WatchCache

/-- A store answers a list by an indexed field, whatever else is asked for. -/
theorem Store.list_of_indexed {s : Store} {o : ListOptions} {fields : FieldSelector}
    {field value : String} (hfields : o.fields = some fields)
    (hequal : fields.oneEqual? = some (field, value)) {extract : Extractor}
    (hindex : s.indexer.extractor? (fieldIndex field) = some extract) :
    ∃ objects, s.list o = .ok objects := by
  have hcandidates : s.candidates o =
      s.indexer.byIndex (fieldIndex field) (partitioned (o.namespace?.getD "") value) := by
    simp only [candidates, hfields, hequal]
  cases hfound : s.candidates o with
  | ok found =>
    rw [list, hfound]
    exact ⟨_, rfl⟩
  | error e =>
    rw [hcandidates, Indexer.byIndex_eq_error_iff] at hfound
    exact absurd hindex (hfound.2 extract)

namespace Cache

/-- Stores that all have an index answer a list by its field. -/
theorem listStores_of_indexed {o : ListOptions} {fields : FieldSelector} {field value : String}
    (hfields : o.fields = some fields) (hequal : fields.oneEqual? = some (field, value))
    {extract : Extractor} {h : Hub} {stores : List Nat}
    (hall : ∀ id ∈ stores, ∃ s, h.store? id = some s ∧
      s.indexer.extractor? (fieldIndex field) = some extract) :
    ∃ objects, (listStores o h stores).1 = .ok objects := by
  induction stores generalizing h with
  | nil => exact ⟨[], rfl⟩
  | cons id rest ih =>
    obtain ⟨s, hs, hindex⟩ := hall id List.mem_cons_self
    obtain ⟨objects, hlist⟩ := Store.list_of_indexed hfields hequal hindex
    have hone : h.list id o = (.ok objects, { h with metrics := h.metrics.sample .lists }) := by
      simp only [Hub.list, hs, hlist]
    obtain ⟨more, hmore⟩ := @ih { h with metrics := h.metrics.sample .lists }
      fun other hother => hall other (List.mem_cons_of_mem id hother)
    refine ⟨objects ++ more, ?_⟩
    rw [listStores, hone]
    dsimp only
    split
    · next heq =>
      rw [heq] at hmore
      cases hmore
    · next heq =>
      rw [heq] at hmore
      cases hmore
      rfl

section

variable {c : Cache} {acts : List Act} {a : Act} {k : Kind} {name : String} {extract : Extractor}
  {reply : Reply}

/-- Nothing has to be made for a call whose kind has an informer. -/
theorem Decides.staged_eq {i : Informer} (hdecides : c.Decides a k name extract reply)
    (hfind : c.informers.find? k = some i) : c.staged a = c := by
  cases hdecides with
  | request hasks _ =>
    rw [staged_request hasks]
    exact congrArg Prod.snd (openInformer_of_find? hfind)
  | poll _ _ | handle _ => rfl

/-- An index on a field is not the one that every store is made with, so only a kind with an
informer can have it. -/
theorem Decides.find?_of_taken (hfresh : c.Fresh)
    (hdecides : (c.run acts).Decides a k name extract reply) (htaken : c.Taken acts k name)
    {i : Informer} (hfind : ((c.run acts).act a).informers.find? k = some i) :
    (c.run acts).informers.find? k = some i := by
  have hsome : (c.run acts).informers.find? k ≠ none := by
    rcases htaken with hname | ⟨f, hregistered⟩
    · cases hdecides with
      | request _ _ => exact absurd hname (fieldIndex_ne_namespaceIndex _)
      | poll _ _ => exact absurd hname (fieldIndex_ne_namespaceIndex _)
      | handle hthere => simp [hthere]
    · exact find?_of_registered hfresh hregistered
  obtain ⟨j, hj⟩ := Option.ne_none_iff_exists'.mp hsome
  cases hfind.symm.trans (find?_act (sound_run hfresh.sound acts) hj a)
  exact hj

/-- All stores of the informer of a kind have an index. -/
def AllIndex (c : Cache) (k : Kind) (name : String) (extract : Extractor) : Prop :=
  ∃ i, c.informers.find? k = some i ∧ ∀ id ∈ i.stores, ∃ s, c.hub.store? id = some s ∧
    s.indexer.extractor? name = some extract

/-- What a call for an index is told: it was added to all stores, its name was taken and nothing
was done, the cache was stopped while the call waited, or the informer cannot be made. -/
inductive Outcome (c : Cache) (acts : List Act) (a : Act) (k : Kind) (name : String)
    (extract : Extractor) : Reply → Prop
  | added (hfree : ¬c.Taken acts k name) (hall : (c.run (acts ++ [a])).AllIndex k name extract) :
      Outcome c acts a k name extract .done
  | conflict (htaken : c.Taken acts k name)
      (hstores : (c.run (acts ++ [a])).hub.stores = (c.run acts).hub.stores) :
      Outcome c acts a k name extract (.failed (.indexConflict name))
  | stopped {id : Nat} {token : Token} (hpoll : a = .poll id)
      (hcancelled : (c.run acts).hub.isCancelled token = true)
      (hstores : (c.run (acts ++ [a])).hub.stores = (c.run acts).hub.stores) :
      Outcome c acts a k name extract (.failed (stoppedError k))
  | refused {e : CacheError} (habsent : (c.run acts).informers.find? k = none)
      (hno : ¬(c.run acts).Supplies k)
      (hinformers : (c.run (acts ++ [a])).informers = (c.run acts).informers) :
      Outcome c acts a k name extract (.failed e)

theorem Decides.outcome (hfresh : c.Fresh)
    (hdecides : (c.run acts).Decides a k name extract reply) :
    Outcome c acts a k name extract reply := by
  have hs := sound_run hfresh.sound acts
  rcases hdecides.found_or_refused hs with
    ⟨i, hfind⟩ | ⟨habsent, hno, ⟨e, rfl⟩, hinformers⟩
  · obtain ⟨extractors, htold, haccounts⟩ :=
      exists_staged hfresh (exists_extractors hfresh acts) hfind
    have hnodup := (sound_act hs a).nodup_stores hfind
    rcases acts_of_find? hs hfind with ⟨name', extract', hasked, hhub⟩ | ⟨hnever, -⟩
    · obtain ⟨rfl, rfl, rfl⟩ := hdecides.unique hasked
      cases hname : extractors name' with
      | none =>
        obtain ⟨hok, hadded⟩ := indexStores_of_new htold hnodup hname extract'
        rw [hok]
        refine .added ?_ ⟨i, by rw [run_concat, hfind], fun id hid => ?_⟩
        · rw [haccounts.taken_iff, hname]
          simp
        · obtain ⟨s, hstore, hstold⟩ := hadded id hid
          rw [run_concat, hhub]
          refine ⟨s, hstore, ?_⟩
          rw [hstold.extractors_eq, Store.Extractors.add, if_pos rfl]
      | some old =>
        have hstores : i.stores ≠ [] := by
          rw [← run_concat] at hfind
          exact fun hnil => (scopes_of_find? hfresh hfind).1 (List.map_eq_nil_iff.mp hnil)
        have htaken := (haccounts.taken_iff name').mpr ⟨old, hname⟩
        have hthere := hdecides.find?_of_taken hfresh htaken hfind
        rw [htold.indexStores_refused hstores hname extract'] at hhub ⊢
        refine .conflict htaken ?_
        rw [run_concat, hhub, hdecides.staged_eq hthere]
    · obtain ⟨rfl, hhub, id, token, rfl, hcancelled⟩ := hnever name extract reply hdecides
      exact .stopped rfl hcancelled (by rw [run_concat, hhub])
  · exact .refused habsent hno (by rw [run_concat, hinformers])

/-- A call for an index that asks an informer is answered by the last act of its run. -/
theorem exists_decides {before later : List Act} {field : String}
    (hlookup : (c.run before).registry.lookup k = none)
    (hends : c.EndsWith (before ++ .request (.index k field extract) :: later)
      (c.run before).calls.length reply) :
    ∃ first a, before ++ .request (.index k field extract) :: later = first ++ [a] ∧
      (c.run first).Decides a k (fieldIndex field) (Store.doubled extract) reply := by
  have hasks : (c.run before).asks (.index k field extract) = some (k, .index field extract) := by
    rw [asks, (Registry.contains_eq_false_iff _ k).mpr hlookup]
    rfl
  rcases hends.cases hasks with ⟨rfl, hreply⟩ | ⟨middle, token, rfl, -, hcall, hreply⟩
  · exact ⟨before, _, rfl, .request hasks hreply⟩
  · exact ⟨before ++ .request (.index k field extract) :: middle, _, by simp, .poll hcall hreply⟩

/-- A list by a field whose index was added to the kind. -/
theorem list_of_registered (hfresh : c.Fresh) {before later : List Act} {kind : Kind}
    {o : ListOptions} {fields : FieldSelector} {field value : String}
    (hlookup : (c.run before).registry.lookup kind = none)
    (hfields : o.fields = some fields) (hequal : fields.oneEqual? = some (field, value))
    (hregistered : c.Registered (before ++ .request (.list kind o) :: later) kind.item
      (fieldIndex field) extract)
    (hends : c.EndsWith (before ++ .request (.list kind o) :: later)
      (c.run before).calls.length reply) :
    reply = .failed (stoppedError kind.item) ∨ ∃ objects, reply = .objects objects := by
  have hasks := asks_list ((Registry.contains_eq_false_iff _ kind).mpr hlookup) o
  cases ends_of_endsWith hfresh hasks hends with
  | refused _ _ _ hfind _ _ => exact absurd hfind (find?_of_registered hfresh hregistered)
  | stopped _ _ _ _ hreply => exact Or.inl hreply
  | @answered i hfind hanswers _ =>
    obtain ⟨extractors, htold, haccounts⟩ := exists_extractors hfresh _ kind.item i hfind
    have hsome := (haccounts _ _).mpr (Or.inr hregistered)
    obtain ⟨part, hpart, hlisted⟩ := exists_asked i o
    have hall : ∀ id ∈ part, ∃ s,
        (c.run (before ++ .request (.list kind o) :: later)).hub.store? id = some s ∧
          s.indexer.extractor? (fieldIndex field) = some extract := by
      intro id hid
      obtain ⟨s, hs, hstore⟩ := htold id (hpart id hid)
      exact ⟨s, hs, (congrFun hstore.extractors_eq _).trans hsome⟩
    obtain ⟨objects, hobjects⟩ := listStores_of_indexed hfields hequal hall
    refine Or.inr ⟨objects, ?_⟩
    rw [hanswers.list, hlisted, hobjects]
    rfl

end

/-- The stores of an informer are indexed as one.

Calls for indices come through the cache and through handles, at once or after a wait and in any
order with events, polls and starts.  A name is taken once a call for it ended well, or if it is
that of the index that every store is made with.  At any time the indices of each store of the
informer are those with the names that are taken, so all stores have the same ones, each with the
extractor of the call that added it.  A call that comes to the informer adds its index to every
store if the name was free, which it is for the first such call only; otherwise it fails with a
conflict and changes no store.  A call that does not come that far, since the cache was stopped
while it waited or since the informer cannot be made, fails with that error and changes no store
of the informer either.  A list by a field whose index was added is answered, under every
identifier of the kind, unless the cache is stopped while it waits. -/
theorem informers_index_as_one {c : Cache} (hfresh : c.Fresh) (acts : List Act) (k : Kind) :
    let last := c.run acts
    (∀ i, last.informers.find? k = some i → ∀ id ∈ i.stores, ∃ s, last.hub.store? id = some s ∧
      (∀ name, s.indexer.hasIndex name = true ↔ c.Taken acts k name) ∧
      ∀ name extract, c.Registered acts k name extract →
        s.indexer.extractor? name = some extract) ∧
    (∀ a name extract reply, last.Decides a k name extract reply →
      Outcome c acts a k name extract reply) ∧
    (∀ before later field extract reply,
      acts = before ++ .request (.index k field extract) :: later →
      c.registry.lookup k = none → c.EndsWith acts (c.run before).calls.length reply →
      ∃ first a, acts = first ++ [a] ∧
        (c.run first).Decides a k (fieldIndex field) (Store.doubled extract) reply) ∧
    (∀ before later kind o fields field value extract reply,
      acts = before ++ .request (.list kind o) :: later → kind.item = k →
      c.registry.lookup kind = none → o.fields = some fields →
      fields.oneEqual? = some (field, value) → c.Registered acts k (fieldIndex field) extract →
      c.EndsWith acts (c.run before).calls.length reply →
      reply = .failed (stoppedError k) ∨ ∃ objects, reply = .objects objects) ∧
    (k.name ≠ "" → k.list.item = k) := by
  intro last
  refine ⟨fun i hfind id hid => ?_, fun a name extract reply hdecides => hdecides.outcome hfresh,
    ?_, ?_, Kind.item_list⟩
  · obtain ⟨extractors, htold, haccounts⟩ := exists_extractors hfresh acts k i hfind
    obtain ⟨s, hs, hstore⟩ := htold id hid
    refine ⟨s, hs, fun name => ?_, fun name extract hregistered => ?_⟩
    · rw [haccounts.taken_iff, ← hstore.extractors_eq]
      simp [Indexer.hasIndex, Table.has, Indexer.extractor?, Option.isSome_iff_exists]
    · rw [hstore.extractors_eq]
      exact (haccounts name extract).mpr (Or.inr hregistered)
  · rintro before later field extract reply rfl hlookup hends
    exact exists_decides ((registry_run hfresh.sound before).symm ▸ hlookup) hends
  · rintro before later kind o fields field value extract reply rfl rfl hlookup hfields hequal
      hregistered hends
    have hlookup' := (registry_run hfresh.sound before).symm ▸ hlookup
    exact list_of_registered hfresh hlookup' hfields hequal hregistered hends

/-- Two namespaces, two calls for one field that wait for the listings, and a handle. -/
theorem informers_index_as_one_over_two_stores :
    let widget : Kind := ⟨"example.io", "v1", "Widget"⟩
    let listed : List (List Item) := [[.event (.restarted [])]]
    let c : Cache :=
      { connector := Script.connector
          { kinds := [(widget, true)]
            sessions := [(widget, some "ops", listed), (widget, some "prod", listed)] }
        namespaces := ["ops", "prod"] }
    let color : Extractor := fun _ => ["red"]
    let shade : Extractor := fun _ => ["dark"]
    let index (extract : Extractor) : Act := .request (.index widget "spec.color" extract)
    let synced : List Act :=
      [.request (.start "main"), index color, index shade] ++ [0, 0, 1, 1].map .step
    let acts : List Act := synced ++ [.poll 2]
    let byColor : ListOptions := { fields := some (.oneEqual "spec.color" "dark") }
    c.Fresh ∧
      (∃ i, (c.run acts).informers.find? widget = some i ∧ i.stores = [0, 1] ∧
        ∀ id ∈ i.stores, ∃ s, (c.run acts).hub.store? id = some s ∧
          s.indexer.extractor? (fieldIndex "spec.color") = some (Store.doubled shade)) ∧
      (c.run acts).Decides (.poll 1) widget (fieldIndex "spec.color") (Store.doubled color)
        (.failed (.indexConflict (fieldIndex "spec.color"))) ∧
      (c.run (acts ++ [.poll 1])).hub.stores = (c.run acts).hub.stores ∧
      (c.run (acts ++ [.addIndex widget "shade" shade])).AllIndex widget "shade" shade ∧
      c.EndsWith (acts ++ [.request (.list widget.list byColor)]) 3 (.objects []) := by
  intro widget listed c color shade index synced acts byColor
  have hfresh : c.Fresh := (fresh_new _ {} {}).withNamespaces ["ops", "prod"]
  have hfind : (c.run acts).informers.find? widget =
      some ⟨widget, true, 0, [⟨some "ops", 0, 0⟩, ⟨some "prod", 1, 1⟩]⟩ := by decide +kernel
  have hcalls : (c.run synced).calls = [.running "main",
      .syncing widget "main" (.index "spec.color" color),
      .syncing widget "main" (.index "spec.color" shade)] := by
    rw [run_append, run_steps]
    rfl
  have hcall (id : Nat) : (c.run synced).calls[id]? = [Call.running "main",
      .syncing widget "main" (.index "spec.color" color),
      .syncing widget "main" (.index "spec.color" shade)][id]? := by rw [hcalls]
  have hfirst : (c.run synced).Decides (.poll 2) widget (fieldIndex "spec.color")
      (Store.doubled shade) .done :=
    .poll (hcall 2) (eq_finished_of_reply? (by decide +kernel))
  have hregistered : c.Registered acts widget (fieldIndex "spec.color") (Store.doubled shade) :=
    registered_concat.mpr (Or.inr hfirst)
  have hsecond : (c.run acts).Decides (.poll 1) widget (fieldIndex "spec.color")
      (Store.doubled color) (.failed (.indexConflict (fieldIndex "spec.color"))) := by
    have hsame := ((getElem?_calls_act (hcall 1) (.poll 2)).resolve_left (by simp)).2
    rw [← run_concat] at hsame
    exact .poll hsame (eq_finished_of_reply? (by decide +kernel))
  have hthird :
      (c.run acts).Decides (.addIndex widget "shade" shade) widget "shade" shade .done := by
    have hreply : replyOf (fun _ => Reply.done) ((c.run acts).handleIndex (informerHandle
        ⟨widget, true, 0, [⟨some "ops", 0, 0⟩, ⟨some "prod", 1, 1⟩]⟩) "shade" shade).1 = .done := by
      decide +kernel
    exact hreply ▸ .handle hfind
  obtain ⟨hstores, houtcome, -⟩ := informers_index_as_one hfresh acts widget
  refine ⟨hfresh, ⟨_, hfind, rfl, fun id hid => ?_⟩, hsecond, ?_, ?_,
    by decide +kernel, by decide +kernel⟩
  · obtain ⟨s, hs, -, hindices⟩ := hstores _ hfind id hid
    exact ⟨s, hs, hindices _ _ hregistered⟩
  · cases houtcome _ _ _ _ hsecond with
    | conflict _ hsame => exact hsame
    | refused habsent _ _ => cases habsent.symm.trans hfind
  · cases houtcome _ _ _ _ hthird with
    | added _ hall => exact hall

/-- A call for an index that waits when the cache is stopped has neither added the index nor met a
conflict; and the list identifier of a kind without a name is that of another kind, whose informer
does not have the index. -/
theorem stopped_call_adds_no_index :
    let widget : Kind := ⟨"example.io", "v1", "Widget"⟩
    let nameless : Kind := ⟨"example.io", "v1", ""⟩
    let color : Extractor := fun _ => ["red"]
    let c : Cache :=
      { connector := Script.connector
          { kinds := [(widget, true), (nameless, true), (nameless.list, true)] } }
    let waits : List Act := [.request (.start "main"), .request (.index widget "spec.color" color)]
    let stopped : List Act := waits ++ [.outside (.cancel "main")]
    let red : ListOptions := { fields := some (.oneEqual "spec.color" "red") }
    let indexed : List Act := [.request (.index nameless "spec.color" color)]
    c.Fresh ∧
      (c.run stopped).Decides (.poll 1) widget (fieldIndex "spec.color") (Store.doubled color)
        (.failed (stoppedError widget)) ∧
      ¬(c.run (stopped ++ [.poll 1])).AllIndex widget (fieldIndex "spec.color")
        (Store.doubled color) ∧
      c.EndsWith indexed 0 .done ∧
      c.EndsWith (indexed ++ [.request (.list nameless.list red)]) 1
        (.failed (.missingIndex (fieldIndex "spec.color"))) := by
  intro widget nameless color c waits stopped red indexed
  have hcall : (c.run stopped).calls[1]? =
      some (.syncing widget "main" (.index "spec.color" color)) := rfl
  refine ⟨fresh_new _ {} {}, .poll hcall (eq_finished_of_reply? (by decide +kernel)), ?_,
    ⟨by decide +kernel, by decide +kernel⟩, by decide +kernel, by decide +kernel⟩
  rintro ⟨i, hfind, hall⟩
  obtain rfl : i = ⟨widget, false, 0, [⟨none, 0, 0⟩]⟩ := Option.some.inj (hfind.symm.trans rfl)
  obtain ⟨s, hs, hindex⟩ := hall 0 List.mem_cons_self
  cases hs
  cases hindex

end Cache

end WatchCache
