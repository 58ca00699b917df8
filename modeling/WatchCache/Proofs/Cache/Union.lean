import WatchCache.Proofs.Cache.Scopes
import WatchCache.Proofs.Store.Select

set_option autoImplicit false

/-!
# Reads as from one store

A read of an informer asks one of its stores, none, or all of them one after the other.  It finds
what it would find in a single store that holds the union of their tables and has the same
indices.
-/

namespace WatchCache

namespace Hub

/-- A store that holds the union of the tables of some stores, and has the same indices. -/
structure Unites (h : Hub) (stores : List Nat) (u : Store) : Prop where
  table : ∀ key o, u.indexer.get? key = some o ↔ ∃ id ∈ stores, h.table id key = some o
  extractors : ∀ id ∈ stores, ∀ s, h.store? id = some s →
    u.indexer.extractor? = s.indexer.extractor?

/-- No key is in two of the stores. -/
def Apart (h : Hub) (stores : List Nat) : Prop :=
  ∀ id ∈ stores, ∀ other ∈ stores, ∀ key, h.table id key ≠ none → h.table other key ≠ none →
    id = other

section

variable {h : Hub} {stores : List Nat} {ledger : List Delivery} {k : Kind}
  {extractors : Store.Extractors}

/-- Where a store is the only one that may have a key, the union has what it has. -/
theorem Unites.get?_eq {u : Store} (hunites : h.Unites stores u) {key : String} {id : Nat}
    (hid : id ∈ stores) (hunique : ∀ other ∈ stores, h.table other key ≠ none → other = id) :
    u.indexer.get? key = h.table id key := by
  refine Option.ext fun o => (hunites.table key o).trans ⟨?_, fun ho => ⟨id, hid, ho⟩⟩
  rintro ⟨other, hother, ho⟩
  exact hunique other hother (by simp [ho]) ▸ ho

/-- The objects of some stores, one store after the other. -/
def held (h : Hub) (stores : List Nat) : List Object :=
  stores.flatMap fun id => ((h.store? id).map fun s => s.indexer.all).getD []

theorem mem_held (htold : h.Told ledger k stores extractors) (o : Object) :
    o ∈ h.held stores ↔ ∃ id ∈ stores, h.table id o.key = some o := by
  rw [held, List.mem_flatMap]
  refine exists_congr fun id => and_congr_right fun hid => ?_
  obtain ⟨s, hs, hstore⟩ := htold id hid
  obtain ⟨calls, rfl⟩ := hstore.reached
  rw [hs, table_of_store? hs, Option.map_some, Option.getD_some]
  exact Store.mem_all_run k calls o

/-- Where no key is in two stores, the object of a key is the one that some table has for it. -/
theorem find?_held (htold : h.Told ledger k stores extractors) (hapart : h.Apart stores)
    (key : String) (o : Object) :
    ((h.held stores).reverse.find? fun o => o.key = key) = some o ↔
      ∃ id ∈ stores, h.table id key = some o := by
  have hholds {o : Object}
      (hfind : ((h.held stores).reverse.find? fun o => o.key = key) = some o) :
      ∃ id ∈ stores, h.table id key = some o := by
    have hkey : o.key = key := by simpa using List.find?_some hfind
    exact hkey ▸ (mem_held htold o).mp (List.mem_reverse.mp (List.mem_of_find?_eq_some hfind))
  refine ⟨hholds, ?_⟩
  rintro ⟨id, hid, ho⟩
  cases hfind : (h.held stores).reverse.find? fun o => o.key = key with
  | none =>
    have hkey := htold.key_eq hid ho
    have hmem := List.mem_reverse.mpr ((mem_held htold o).mpr ⟨id, hid, hkey.symm ▸ ho⟩)
    exact absurd hkey (by simpa using List.find?_eq_none.mp hfind o hmem)
  | some other =>
    obtain ⟨id', hid', ho'⟩ := hholds hfind
    obtain rfl := hapart id hid id' hid' key (by simp [ho]) (by simp [ho'])
    exact ho'.symm.trans ho

/-- The first of the stores becomes one that unites them all by a listing of all their objects. -/
theorem exists_unites (htold : h.Told ledger k stores extractors) (hapart : h.Apart stores)
    (hstores : stores ≠ []) : ∃ calls, h.Unites stores (Store.run k calls) := by
  obtain ⟨first, hfirst⟩ := List.exists_mem_of_ne_nil stores hstores
  obtain ⟨s, hs, hstore⟩ := htold first hfirst
  obtain ⟨calls, rfl⟩ := hstore.reached
  refine ⟨calls ++ [.apply (.restarted (h.held stores))], ?_, fun id hid t ht => ?_⟩
  · rw [Store.run_concat]
    intro key o
    have hget := congrFun (Store.get?_apply (Store.run k calls) (.restarted (h.held stores))) key
    exact (iff_of_eq (congrArg (· = some o) hget)).trans (find?_held htold hapart key o)
  · obtain ⟨t', ht', hstore'⟩ := htold id hid
    cases ht.symm.trans ht'
    rw [Store.run_concat, hstore'.extractors_eq, ← hstore.extractors_eq]
    exact Store.extractor?_apply (Store.run k calls) (.restarted (h.held stores))

end

end Hub

/-- What a get of an object from a single store answers. -/
def Store.answer (s : Store) (key : ObjectKey) : Answer Object :=
  match s.get? key with
  | some o => .ok o
  | none => .error (.notFound s.kind.key key.text)

namespace Cache

/-! ## Lists -/

/-- What a list of stores returns has nothing to do with measurements. -/
theorem listStores_metrics (o : ListOptions) (h : Hub) (metrics : Metrics) (stores : List Nat) :
    (listStores o { h with metrics := metrics } stores).1 = (listStores o h stores).1 := by
  have hone (h : Hub) (metrics : Metrics) (id : Nat) :
      (Hub.list { h with metrics := metrics } id o).1 = (h.list id o).1 := by
    have hsame : Hub.store? { h with metrics := metrics } id = h.store? id := rfl
    simp only [Hub.list, hsame]
    cases h.store? id with
    | none => rfl
    | some s =>
      dsimp only
      cases s.list o <;> rfl
  induction stores generalizing h metrics with
  | nil => rfl
  | cons id rest ih =>
    have hfirst := hone h metrics id
    obtain ⟨before, hbefore⟩ := exists_list o { h with metrics := metrics } id
    obtain ⟨after, hafter⟩ := exists_list o h id
    rcases hleft : Hub.list { h with metrics := metrics } id o with ⟨answer, left⟩
    rcases hright : h.list id o with ⟨answer', right⟩
    rw [hleft, hright] at hfirst
    rw [hleft] at hbefore
    rw [hright] at hafter
    obtain rfl : answer = answer' := hfirst
    obtain rfl : left = { h with metrics := before } := hbefore
    obtain rfl : right = { h with metrics := after } := hafter
    cases answer with
    | error e => simp only [listStores, hleft, hright]
    | ok objects =>
      have hrest := (ih h before).trans (ih h after).symm
      simp only [listStores, hleft, hright]
      rcases hlater : listStores o { h with metrics := before } rest with ⟨answer, left⟩
      rcases hlater' : listStores o { h with metrics := after } rest with ⟨answer', right⟩
      rw [hlater, hlater'] at hrest
      obtain rfl : answer = answer' := hrest
      cases answer <;> rfl

section

variable {h : Hub} {stores : List Nat} {ledger : List Hub.Delivery} {k : Kind}
  {extractors : Store.Extractors} {o : ListOptions}

/-- A list of several stores returns the objects of their tables that it asks for, each once. -/
theorem listStores_told (htold : h.Told ledger k stores extractors)
    (hanswer : o.Answerable extractors) (hnodup : stores.Nodup) (hapart : h.Apart stores) :
    ∃ listed : List Object,
      (listStores o h stores).1 = .ok (listed.map fun object => object.stamp k) ∧
      listed.Nodup ∧
      ∀ object, object ∈ listed ↔ (∃ id ∈ stores, h.table id object.key = some object) ∧
        o.Wants object ∧ o.Selects extractors object := by
  induction stores generalizing h with
  | nil => exact ⟨[], rfl, List.nodup_nil, by simp⟩
  | cons id rest ih =>
    obtain ⟨hnew, hrest⟩ := List.nodup_cons.mp hnodup
    obtain ⟨s, hs, hstore⟩ := htold id List.mem_cons_self
    have hextractors := hstore.extractors_eq
    obtain ⟨calls, rfl⟩ := hstore.reached
    obtain ⟨first, hfirst, hfirstNodup, hfirstMem⟩ :=
      Store.list_run k calls (hextractors.symm ▸ hanswer)
    rw [hextractors] at hfirstMem
    have hone : h.list id o = (.ok (first.map fun object => object.stamp k),
        { h with metrics := h.metrics.sample .lists }) := by
      simp only [Hub.list, hs, hfirst]
    obtain ⟨more, hmore, hmoreNodup, hmoreMem⟩ :=
      ih (fun other hother => htold other (List.mem_cons_of_mem id hother)) hrest
        fun a ha b hb => hapart a (List.mem_cons_of_mem id ha) b (List.mem_cons_of_mem id hb)
    refine ⟨first ++ more, ?_, ?_, fun object => ?_⟩
    · have hmore' := (listStores_metrics o h (h.metrics.sample .lists) rest).trans hmore
      simp only [listStores, hone]
      rcases hlater :
        listStores o { h with metrics := h.metrics.sample .lists } rest with ⟨answer, h'⟩
      rw [hlater] at hmore'
      cases hmore'
      rw [List.map_append]
    · refine List.nodup_append.mpr ⟨hfirstNodup, hmoreNodup, fun a ha b hb heq => ?_⟩
      subst heq
      obtain ⟨htable, -, -⟩ := (hfirstMem a).mp ha
      obtain ⟨⟨other, hother, htable'⟩, -, -⟩ := (hmoreMem a).mp hb
      have hsame := hapart id List.mem_cons_self other (List.mem_cons_of_mem id hother) a.key
        (by simp [Hub.table_of_store? hs, htable]) (by simp [htable'])
      exact hnew (hsame ▸ hother)
    · rw [List.mem_append, hfirstMem, hmoreMem, ← or_and_right, ← Hub.table_of_store? hs]
      simp only [List.mem_cons, exists_eq_or_imp]

end

/-! ## Informers -/

section

variable {c : Cache} {names : List String} {ledger : List Hub.Delivery} {k : Kind} {i : Informer}
  {extractors : Store.Extractors} {calls : List Store.Call}

/-- The indices of the store that unites others are theirs. -/
theorem extractors_of_unites (hi : i.Scoped names)
    (htold : c.hub.Told ledger k i.stores extractors)
    (hunites : c.hub.Unites i.stores (Store.run k calls)) :
    (Store.run k calls).indexer.extractor? = extractors := by
  obtain ⟨w, hw⟩ := List.exists_mem_of_ne_nil _ hi.watched_ne_nil
  obtain ⟨s, hs, hstore⟩ := htold w.store (List.mem_map_of_mem hw)
  exact (hunites.extractors w.store (List.mem_map_of_mem hw) s hs).trans hstore.extractors_eq

/-- A list of some of the stores returns what a list of the store that unites all of them
returns, if they hold all that is asked for. -/
theorem listStores_agrees (hi : i.Scoped names) (hfed : i.Fed ledger)
    (htold : c.hub.Told ledger k i.stores extractors) (hnodup : i.stores.Nodup)
    (hunites : c.hub.Unites i.stores (Store.run k calls)) {o : ListOptions}
    (hanswer : o.Answerable (Store.run k calls).indexer.extractor?) {part : List Nat}
    (hpart : part.Sublist i.stores)
    (hall : ∀ object, ∀ id ∈ i.stores, c.hub.table id object.key = some object →
      o.Wants object → id ∈ part) :
    ∃ listed scanned, (listStores o c.hub part).1 = .ok listed ∧
      (Store.run k calls).list o = .ok scanned ∧ listed.Perm scanned := by
  have hapart : c.hub.Apart i.stores := hfed.apart hi htold
  have hextractors := extractors_of_unites hi htold hunites
  obtain ⟨scanned, hscanned, hscannedNodup, hscannedMem⟩ := Store.list_run k calls hanswer
  rw [hextractors] at hanswer hscannedMem
  obtain ⟨listed, hlisted, hlistedNodup, hlistedMem⟩ := listStores_told
    (fun id hid => htold id (hpart.subset hid)) hanswer (hpart.nodup hnodup)
    fun id hid other hother => hapart id (hpart.subset hid) other (hpart.subset hother)
  have hperm : listed.Perm scanned := by
    refine (List.perm_ext_iff_of_nodup hlistedNodup hscannedNodup).mpr fun object => ?_
    rw [hlistedMem, hscannedMem, hunites.table]
    constructor
    · rintro ⟨⟨id, hid, htable⟩, hrest⟩
      exact ⟨⟨id, hpart.subset hid, htable⟩, hrest⟩
    · rintro ⟨⟨id, hid, htable⟩, hwants, hselects⟩
      exact ⟨⟨id, hall object id hid htable hwants, htable⟩, hwants, hselects⟩
  exact ⟨_, _, hlisted, hscanned, hperm.map _⟩

/-- A list of an informer reads a part of its stores that holds all that is asked for: all of
them, the one of a namespace, or none if the namespace is not watched. -/
theorem exists_part (hi : i.Scoped names) (hfed : i.Fed ledger)
    (htold : c.hub.Told ledger k i.stores extractors) (o : ListOptions) :
    ∃ part : List Nat, part.Sublist i.stores ∧
      (c.informerList i o).1 = (listStores o c.hub part).1 ∧
      (∀ object, ∀ id ∈ i.stores, c.hub.table id object.key = some object → o.Wants object →
        id ∈ part) ∧
      ∀ ns, i.perNamespace = true → o.namespace? = some ns → ns ∉ names → part = [] := by
  cases hper : i.perNamespace with
  | false =>
    refine ⟨i.stores, .refl _, ?_, fun _ _ hid _ _ => hid, by simp⟩
    simp only [informerList, hper]
  | true =>
    cases hns : o.namespace? with
    | none =>
      refine ⟨i.stores, .refl _, ?_, fun _ _ hid _ _ => hid, by simp⟩
      simp only [informerList, hper, hns]
    | some ns =>
      -- whoever holds an object that is asked for is the store of the namespace
      have howner {w : Watched} (hw : w ∈ i.watched) {object : Object}
          (htable : c.hub.table w.store object.key = some object) (hwants : o.Wants object) :
          w.ns = some ns := by
        obtain ⟨own, -, hscope, -⟩ := hi.named hper w hw
        rw [hscope, ← (hfed.of_table htold hw htable).2.2 own hscope, hwants.nsText_eq hns]
      by_cases hwatched : ∃ w ∈ i.watched, w.ns = some ns
      · obtain ⟨w, hw, hscope⟩ := hwatched
        obtain ⟨name, hname, hscope', -⟩ := hi.named hper w hw
        cases hscope.symm.trans hscope'
        refine ⟨[w.store], List.singleton_sublist.mpr (List.mem_map_of_mem hw), ?_,
          fun object id hid htable hwants => ?_, fun other _ hother hunwatched => ?_⟩
        · simp only [informerList, hper, hns, hi.storeFor_of_mem hper hw hscope, Option.toList_some]
        · obtain ⟨v, hv, rfl⟩ := List.mem_map.mp hid
          rw [hi.inj v hv w hw ((howner hv htable hwants).trans hscope.symm)]
          exact List.mem_singleton_self _
        · cases hother
          exact absurd hname hunwatched
      · have hnowhere : i.storeFor (some ns) = none :=
          Informer.storeFor_of_forall_ne hper fun w hw hscope => hwatched ⟨w, hw, hscope⟩
        refine ⟨[], List.nil_sublist _, ?_, fun object id hid htable hwants => ?_,
          fun _ _ _ _ => rfl⟩
        · simp only [informerList, hper, hns, hnowhere, Option.toList_none]
        · obtain ⟨v, hv, rfl⟩ := List.mem_map.mp hid
          exact absurd ⟨v, hv, howner hv htable hwants⟩ hwatched

/-- A list of an informer returns what a list of the store that unites its stores returns, and
nothing for a namespace that is not watched. -/
theorem informerList_agrees (hi : i.Scoped names) (hfed : i.Fed ledger)
    (htold : c.hub.Told ledger k i.stores extractors) (hnodup : i.stores.Nodup)
    (hunites : c.hub.Unites i.stores (Store.run k calls)) {o : ListOptions}
    (hanswer : o.Answerable (Store.run k calls).indexer.extractor?) :
    ∃ listed scanned, (c.informerList i o).1 = .ok listed ∧
      (Store.run k calls).list o = .ok scanned ∧ listed.Perm scanned ∧
      ∀ ns, i.perNamespace = true → o.namespace? = some ns → ns ∉ names → listed = [] := by
  obtain ⟨part, hpart, hreads, hall, hnothing⟩ := exists_part hi hfed htold o
  obtain ⟨listed, scanned, hlisted, hscanned, hperm⟩ :=
    listStores_agrees hi hfed htold hnodup hunites hanswer hpart hall
  refine ⟨listed, scanned, hreads.trans hlisted, hscanned, hperm, fun ns hper hns hunwatched => ?_⟩
  rw [hnothing ns hper hns hunwatched] at hlisted
  cases hlisted
  rfl

/-- A get of a key in a watched namespace finds what the store that unites the stores has. -/
theorem informerGet_agrees (hi : i.Scoped names) (hkind : i.kind = k) (hfed : i.Fed ledger)
    (htold : c.hub.Told ledger k i.stores extractors)
    (hunites : c.hub.Unites i.stores (Store.run k calls)) {key : ObjectKey}
    (hwatched : i.perNamespace = true → ∃ ns ∈ names, key.namespace? = some ns) :
    c.informerGet i key = (Store.run k calls).answer key := by
  have howner : ∃ w ∈ i.watched, i.storeFor key.namespace? = some w.store ∧
      ∀ id ∈ i.stores, c.hub.table id key.text ≠ none → id = w.store := by
    cases hper : i.perNamespace with
    | false =>
      obtain ⟨w, hw, -⟩ := hi.single hper
      refine ⟨w, by simp [hw], by simp [Informer.storeFor, hper, hw], fun id hid _ => ?_⟩
      simpa [Informer.stores, hw] using hid
    | true =>
      obtain ⟨ns, hname, hns⟩ := hwatched hper
      have hne : ns ≠ "" := by
        have hfilter := Option.filter_eq_some_iff.mp hns
        simpa using hfilter.2
      obtain ⟨w, hw, hscope⟩ := hi.exists_of_mem hper ns hname hne
      refine ⟨w, hw, hns ▸ hi.storeFor_of_mem hper hw hscope, fun id hid hfound => ?_⟩
      obtain ⟨v, hv, rfl⟩ := List.mem_map.mp hid
      have htext : key.text = tableKey ns key.name := by rw [ObjectKey.text, hns, Option.getD_some]
      rw [htext] at hfound
      rw [hi.inj v hv w hw ((hfed.ns_of_table hi htold hper hv hne hfound).trans hscope.symm)]
  obtain ⟨w, hw, hstore, hunique⟩ := howner
  obtain ⟨s, hs, hown⟩ := htold w.store (List.mem_map_of_mem hw)
  obtain ⟨own, rfl⟩ := hown.reached
  have hsame : (Store.run k own).get? key = (Store.run k calls).get? key := by
    rw [Store.get?, Store.get?, hunites.get?_eq (List.mem_map_of_mem hw) hunique,
      Hub.table_of_store? hs, Store.kind_run, Store.kind_run]
  rw [informerGet, hstore, Option.bind_some, hs, Option.bind_some, hsame, hkind]
  cases hget : (Store.run k calls).get? key <;> simp only [Store.answer, hget, Store.kind_run]

/-- A get of any other key finds nothing. -/
theorem informerGet_of_unwatched (hi : i.Scoped names) (hkind : i.kind = k)
    (hper : i.perNamespace = true) {key : ObjectKey}
    (hunwatched : ∀ ns ∈ names, key.namespace? ≠ some ns) :
    c.informerGet i key = .error (.notFound k.key key.text) := by
  have hnowhere : i.storeFor key.namespace? = none := by
    refine Informer.storeFor_of_forall_ne hper fun w hw hsame => ?_
    obtain ⟨ns, hname, hscope, -⟩ := hi.named hper w hw
    exact hunwatched ns hname (hsame.symm.trans hscope)
  rw [informerGet, hnowhere, hkind]
  rfl

end

/-! ## Replies -/

section

variable {last : Cache} {i : Informer} {reply : Reply}

theorem Answers.get {key : ObjectKey} (hanswers : Answers last i (.get key none) reply) :
    reply = replyOf .object (last.informerGet i key) := by
  obtain ⟨c, -, hreach⟩ := hanswers
  obtain ⟨rfl, hsame⟩ := Prod.mk.inj hreach
  have hhub : c.hub = last.hub := (congrArg Cache.hub hsame :)
  show replyOf .object (c.informerGet i key) = _
  rw [informerGet, informerGet, hhub]

theorem Answers.list {o : ListOptions} (hanswers : Answers last i (.list o none) reply) :
    reply = replyOf .objects (last.informerList i o).1 := by
  obtain ⟨c, -, hreach⟩ := hanswers
  obtain ⟨rfl, hsame⟩ := Prod.mk.inj hreach
  obtain ⟨metrics, hlisted⟩ := exists_informerList c i o
  have hhub : last.hub = { c.hub with metrics := metrics } :=
    congrArg Cache.hub (hsame.symm.trans hlisted)
  show replyOf .objects (c.informerList i o).1 = _
  refine congrArg (replyOf .objects) ?_
  simp only [informerList, hhub]
  exact (listStores_metrics o c.hub metrics _).symm

end

/-- A read of a kind that has an informer is answered by it, unless the cache was stopped. -/
theorem EndsWith.answers_of_find? {c : Cache} {before later : List Act} {r : Request} {k : Kind}
    {goal : Goal} {reply : Reply} {i : Informer} (hasks : (c.run before).asks r = some (k, goal))
    (hends : c.EndsWith (before ++ .request r :: later) (c.run before).calls.length reply)
    (hpast : reply ≠ .failed (stoppedError k))
    (hfind : (c.run (before ++ .request r :: later)).informers.find? k = some i) :
    Answers (c.run (before ++ .request r :: later)) i goal reply := by
  rcases hends.answers hasks with ⟨hno, hnone, -⟩ | hstopped | ⟨j, hj, hanswers⟩
  · -- a read that was refused has ended when it began, and its kind has no informer
    rcases request_outcome hasks hnone with ⟨hyes, -⟩ | ⟨-, ⟨e, hrefused, -⟩, hsame, -⟩
    · exact absurd hyes hno
    · rcases hends.cases hasks with ⟨rfl, -⟩ | ⟨middle, token, -, hsyncing, -, -⟩
      · rw [run_concat, hsame, hnone] at hfind
        cases hfind
      · rw [reply?_of_calls (call_act_request _ r), hsyncing] at hrefused
        cases hrefused
  · exact absurd hstopped hpast
  · cases hfind.symm.trans hj
    exact hanswers

/-- Reads find what they would find in a single store.

The namespaces of a cache are configured by any names; each store of a namespace is given only
objects of it, and no name or namespace of an object has a slash.  A read of a kind with an
informer that ends past its wait answers as a store would that holds the union of the tables of
the informer and has the same indices, and there is such a store.  A list without field selector,
or for one value of an indexed field, returns the same objects as often, and none for a namespace
that is not watched; a get answers the same for a key in a watched namespace, and finds nothing
for any other key.

A list over several stores is one act here.  Where the stores are visited one after the other and
events come in between, the list is that of another run, in which each store has been given what it
had when it was visited: the loops of the stores do not wait for each other. -/
theorem reads_agree_with_union {c : Cache} (hfresh : c.Fresh) (names : List String)
    {before later : List Act} {r : Request} {k : Kind} {goal : Goal} {reply : Reply} {i : Informer}
    (hasks : ((c.withNamespaces names).run before).asks r = some (k, goal))
    (hends : (c.withNamespaces names).EndsWith (before ++ .request r :: later)
      ((c.withNamespaces names).run before).calls.length reply)
    (hpast : reply ≠ .failed (stoppedError k))
    (hfind : ((c.withNamespaces names).run (before ++ .request r :: later)).informers.find? k =
      some i)
    (hfed : i.Fed ((c.withNamespaces names).ledger (before ++ .request r :: later))) :
    let last := (c.withNamespaces names).run (before ++ .request r :: later)
    (∃ calls, last.hub.Unites i.stores (Store.run k calls)) ∧
    ∀ calls, let union := Store.run k calls
      last.hub.Unites i.stores union →
      (∀ key, goal = .get key none →
        ((i.perNamespace = true → ∃ ns ∈ names, key.namespace? = some ns) →
          reply = replyOf .object (union.answer key)) ∧
        (i.perNamespace = true → (∀ ns ∈ names, key.namespace? ≠ some ns) →
          reply = .failed (.notFound k.key key.text))) ∧
      ∀ o, goal = .list o none → o.Answerable union.indexer.extractor? →
        ∃ listed scanned, reply = .objects listed ∧ union.list o = .ok scanned ∧
          listed.Perm scanned ∧
          ∀ ns, i.perNamespace = true → o.namespace? = some ns → ns ∉ names → listed = [] := by
  intro last
  have hbase := hfresh.withNamespaces names
  obtain ⟨maker, built, hbuild⟩ := exists_buildInformer hfresh names hfind
  have hi := Informer.scoped_of_buildInformer hbuild
  have hkind := (buildInformer_asked hbuild).1
  obtain ⟨extractors, htold⟩ := told_run hbase (before ++ .request r :: later) k i hfind
  have hnodup : i.stores.Nodup := (sound_run hbase.sound _).nodup_stores hfind
  have hanswers := hends.answers_of_find? hasks hpast hfind
  have hstores : i.stores ≠ [] := fun hnil => hi.watched_ne_nil (List.map_eq_nil_iff.mp hnil)
  refine ⟨Hub.exists_unites htold (hfed.apart hi htold) hstores, ?_⟩
  intro calls union hunites
  constructor
  · rintro key rfl
    rw [hanswers.get]
    refine ⟨fun hwatched => ?_, fun hper hunwatched => ?_⟩
    · rw [informerGet_agrees hi hkind hfed htold hunites hwatched]
    · rw [informerGet_of_unwatched hi hkind hper hunwatched]
      rfl
  · rintro o rfl hanswer
    obtain ⟨listed, scanned, hlisted, hscanned, hperm, hnothing⟩ :=
      informerList_agrees hi hfed htold hnodup hunites hanswer
    refine ⟨listed, scanned, ?_, hscanned, hperm, hnothing⟩
    rw [hanswers.list, hlisted]
    rfl

/-- Two namespaces, one of them named twice, with one red object each: a list by color finds both,
and a get finds the second one, as in a single store. -/
theorem reads_agree_with_union_two_namespaces :
    let widget : Kind := ⟨"example.io", "v1", "Widget"⟩
    let color : Extractor := fun _ => ["red"]
    let first : Object := { metadata := { name := some "w", ns := some "dev" } }
    let second : Object := { metadata := { name := some "w", ns := some "ops" } }
    let c : Cache := { connector := Script.connector { kinds := [(widget, true)] } }
    let names := ["dev", "", "ops", "dev"]
    let before : List Act := [.request (.index widget "spec.color" color),
      .request (.start "main"), .step 0, .step 1, .outside (.feed 0 (.restarted [first])), .step 0,
      .outside (.feed 1 (.restarted [second])), .step 1]
    let o : ListOptions := { fields := some ⟨[⟨"spec.color", .equals, "red"⟩]⟩ }
    let key : ObjectKey := ⟨some "ops", "w"⟩
    let i : Informer := ⟨widget, true, 0, [⟨some "dev", 0, 0⟩, ⟨some "ops", 1, 1⟩]⟩
    let last (r : Request) := (c.withNamespaces names).run (before ++ [.request r])
    let found := [first.stamp widget, second.stamp widget]
    c.Fresh ∧ (∀ r, i.Fed ((c.withNamespaces names).ledger (before ++ [.request r]))) ∧
      (last (.list widget o)).informers.find? widget = some i ∧
      (c.withNamespaces names).EndsWith (before ++ [.request (.list widget o)]) 2
        (.objects found) ∧
      (∃ calls scanned, (last (.list widget o)).hub.Unites i.stores (Store.run widget calls) ∧
        (Store.run widget calls).list o = .ok scanned ∧ found.Perm scanned) ∧
      (last (.get widget key)).informers.find? widget = some i ∧
      (c.withNamespaces names).EndsWith (before ++ [.request (.get widget key)]) 2
        (.object (second.stamp widget)) ∧
      ∃ calls, (last (.get widget key)).hub.Unites i.stores (Store.run widget calls) ∧
        (Store.run widget calls).answer key = .ok (second.stamp widget) := by
  intro widget color first second c names before o key i last found
  have hfresh : c.Fresh := fresh_new _ {} {}
  have hfed (r : Request) : i.Fed ((c.withNamespaces names).ledger (before ++ [.request r])) := by
    have hbefore : (c.withNamespaces names).ledger before =
        [⟨0, 0, 0, .restarted [first]⟩, ⟨1, 1, 1, .restarted [second]⟩] := by decide +kernel
    rw [(c.withNamespaces names).ledger_request before r, hbefore]
    have hplain : first.Plain ∧ second.Plain :=
      ⟨⟨by decide, by decide⟩, ⟨by decide, by decide⟩⟩
    intro w hw e he object hobject
    rcases List.mem_pair.mp hw with rfl | rfl
    · obtain rfl : e = .restarted [first] := by simpa [Hub.eventsFor] using he
      obtain rfl : object = first := by simpa [Event.brings] using hobject
      exact ⟨hplain.1, fun ns hns => by cases hns; rfl⟩
    · obtain rfl : e = .restarted [second] := by simpa [Hub.eventsFor] using he
      obtain rfl : object = second := by simpa [Event.brings] using hobject
      exact ⟨hplain.2, fun ns hns => by cases hns; rfl⟩
  have hlist : (last (.list widget o)).informers.find? widget = some i := by decide +kernel
  have hlistEnds : (c.withNamespaces names).EndsWith (before ++ [.request (.list widget o)]) 2
      (.objects found) := ⟨by decide +kernel, by decide +kernel⟩
  have hget : (last (.get widget key)).informers.find? widget = some i := by decide +kernel
  have hgetEnds : (c.withNamespaces names).EndsWith (before ++ [.request (.get widget key)]) 2
      (.object (second.stamp widget)) := ⟨by decide +kernel, by decide +kernel⟩
  have hindexed : (((last (.list widget o)).hub.store? 0).bind fun s =>
      s.indexer.extractor? (fieldIndex "spec.color")).isSome = true := by decide +kernel
  have hregistry : ((c.withNamespaces names).run before).registry = c.registry := by
    decide +kernel
  have hcount : ((c.withNamespaces names).run before).calls.length = 2 := by decide +kernel
  have hitem : widget.item = widget := by decide +kernel
  have hasksList : c.asks (.list widget o) = some (widget, .list o none) := by
    simp only [asks, hitem]
    rfl
  have hasksGet : c.asks (.get widget key) = some (widget, .get key none) := rfl
  have hlists := @reads_agree_with_union c hfresh names before [] (.list widget o) widget
    (.list o none) (.objects found) i ((asks_congr hregistry (.list widget o)).trans hasksList)
    (by rw [hcount]; exact hlistEnds) (by simp) hlist (hfed _)
  have hgets := @reads_agree_with_union c hfresh names before [] (.get widget key) widget
    (.get key none) (.object (second.stamp widget)) i
    ((asks_congr hregistry (.get widget key)).trans hasksGet) (by rw [hcount]; exact hgetEnds)
    (by simp) hget (hfed _)
  refine ⟨hfresh, hfed, hlist, hlistEnds, ?_, hget, hgetEnds, ?_⟩
  · obtain ⟨⟨calls, hunites⟩, hall⟩ := hlists
    obtain ⟨s, hs, hindex⟩ := Option.bind_eq_some_iff.mp (Option.some_get hindexed).symm
    have hanswer : o.Answerable (Store.run widget calls).indexer.extractor? := by
      rw [hunites.extractors 0 (by simp [i, Informer.stores]) s hs]
      exact Or.inr ⟨⟨"spec.color", .equals, "red"⟩, _, rfl, Or.inl rfl, hindex⟩
    obtain ⟨listed, scanned, hlisted, hscanned, hperm, -⟩ := (hall calls hunites).2 o rfl hanswer
    cases hlisted
    exact ⟨calls, scanned, hunites, hscanned, hperm⟩
  · obtain ⟨⟨calls, hunites⟩, hall⟩ := hgets
    have hreply := ((hall calls hunites).1 key rfl).1 fun _ => ⟨"ops", by simp [names], rfl⟩
    refine ⟨calls, hunites, ?_⟩
    cases hanswer : (Store.run widget calls).answer key with
    | error e =>
      rw [hanswer] at hreply
      cases hreply
    | ok object =>
      rw [hanswer] at hreply
      cases hreply
      rfl

end Cache

end WatchCache
