import WatchCache.Proofs.Cache.Dedicated
import WatchCache.Proofs.Cache.Stores

set_option autoImplicit false

/-!
# Who adds indices

A new store has the index of namespaces and no other one.  Every other index was added by an act
of the run: by a call that ends well, at once or when it is polled, or through a handle.  Such an
act adds the index to all stores of one kind, and to no others.
-/

namespace WatchCache

theorem fieldIndex_ne_namespaceIndex (field : String) : fieldIndex field ≠ namespaceIndex := by
  intro heq
  have hlist := congrArg String.toList heq
  simp [fieldIndex, namespaceIndex] at hlist

/-- A new store has the index of namespaces only. -/
theorem Store.extractor?_new (kind : Kind) {name : String} (hname : name ≠ namespaceIndex) :
    (Store.new kind).indexer.extractor? name = none := by
  rw [(Store.told_new kind).extractors_eq, firstExtractors, Extractors.add, if_neg hname]

/-- An index leaves those with other names alone. -/
theorem Store.extractor?_addIndex {s t : Store} {name other : String} {extract : Extractor}
    (hadd : s.addIndex other extract = .ok t) (hne : name ≠ other) :
    t.indexer.extractor? name = s.indexer.extractor? name := by
  rw [addIndex_eq] at hadd
  cases hindexer : s.indexer.addIndex other extract with
  | error e =>
    rw [hindexer] at hadd
    cases hadd
  | ok x =>
    rw [hindexer] at hadd
    cases hadd
    refine Option.ext fun f => ?_
    have hafter := Indexer.extractor?_after s.indexer (.addIndex other extract) name f
    rw [Indexer.after_addIndex_of_ok hindexer] at hafter
    refine hafter.trans ⟨fun h => h.resolve_right ?_, Or.inl⟩
    rintro ⟨hcall, -⟩
    cases hcall
    exact hne rfl

namespace Hub

/-- A store has no index with a name. -/
def Lacks (h : Hub) (id : Nat) (name : String) : Prop :=
  ∀ s, h.store? id = some s → s.indexer.extractor? name = none

section

variable {h h' : Hub} {id : Nat} {name : String}

theorem Lacks.congr (hlacks : h.Lacks id name) (hsame : h'.store? id = h.store? id) :
    h'.Lacks id name := fun s hs => hlacks s (hsame.symm.trans hs)

theorem Lacks.of_stores (hlacks : h.Lacks id name) (hstores : h'.stores = h.stores) :
    h'.Lacks id name := hlacks.congr (by rw [store?, store?, hstores])

/-- Events add no index. -/
theorem Lacks.deliver (hlacks : h.Lacks id name) {ds : List Delivery}
    (halike : Alike h' (h.deliverAll ds)) : h'.Lacks id name := by
  have hevents (events : List Event) (s : Store) :
      (events.foldl Store.apply s).indexer.extractor? name = s.indexer.extractor? name := by
    induction events generalizing s with
    | nil => rfl
    | cons e rest ih => rw [List.foldl_cons, ih, Store.extractor?_apply]
  intro t ht
  have hstore : h'.store? id =
      (h.store? id).map fun s => (eventsFor id ds).foldl Store.apply s := by
    rw [store?, halike.stores]
    exact store?_deliverAll h ds id
  rw [hstore, Option.map_eq_some_iff] at ht
  obtain ⟨s, hs, rfl⟩ := ht
  rw [hevents, hlacks s hs]

/-- An index that is added to one store. -/
theorem Lacks.addIndex (hlacks : h.Lacks id name) {store : Nat} {other : String}
    (extract : Extractor) (hnever : store = id → other = name →
      (h.tryStore store (·.addIndex other extract)).1 ≠ .ok ()) :
    (h.tryStore store (·.addIndex other extract)).2.Lacks id name := by
  intro t ht
  rw [store?_tryStore, Option.map_eq_some_iff] at ht
  obtain ⟨s, hs, rfl⟩ := ht
  split
  · next hsame =>
    cases hadd : s.addIndex other extract with
    | error e => exact hlacks s hs
    | ok t =>
      have hne : name ≠ other := by
        rintro rfl
        subst hsame
        refine hnever rfl rfl ?_
        simp only [tryStore, hs, hadd]
      exact (Store.extractor?_addIndex hadd hne).trans (hlacks s hs)
  · exact hlacks s hs

end

end Hub

namespace Cache

/-- An index that is added to the stores of a kind, all of which have the same ones. -/
theorem lacks_indexStores {h : Hub} {ledger : List Hub.Delivery} {kind : Kind} {stores : List Nat}
    {extractors : Store.Extractors} (htold : h.Told ledger kind stores extractors)
    (hnodup : stores.Nodup) {id : Nat} {name other : String} (extract : Extractor)
    (hlacks : h.Lacks id name) (hnever : id ∈ stores → other = name →
      (indexStores (·.addIndex other extract) h stores).1 ≠ .ok ()) :
    (indexStores (·.addIndex other extract) h stores).2.Lacks id name := by
  by_cases hid : id ∈ stores
  · obtain ⟨s, hs, hstore⟩ := htold id hid
    have hnone : extractors name = none := by
      rw [← hstore.extractors_eq]
      exact hlacks s hs
    cases hother : extractors other with
    | some old =>
      rw [indexStores_of_old htold hother]
      exact hlacks
    | none =>
      obtain ⟨hok, hadded⟩ := indexStores_of_new htold hnodup hother extract
      have hne : name ≠ other := fun heq => hnever hid heq.symm hok
      obtain ⟨t, ht, hstore'⟩ := hadded id hid
      intro t' ht'
      cases ht.symm.trans ht'
      rw [hstore'.extractors_eq, Store.Extractors.add, if_neg hne, hnone]
  · exact hlacks.congr (store?_indexStores_of_not_mem _ hid)

/-! ## Acts that add an index -/

/-- Some act of a run is as `P` says of it and of the cache that it finds. -/
def Performs (c : Cache) (acts : List Act) (P : Cache → Act → Prop) : Prop :=
  ∃ before a later, acts = before ++ a :: later ∧ P (c.run before) a

theorem performs_concat {c : Cache} {acts : List Act} {a : Act} {P : Cache → Act → Prop} :
    c.Performs (acts ++ [a]) P ↔ c.Performs acts P ∨ P (c.run acts) a := by
  constructor
  · rintro ⟨before, b, later, hacts, hb⟩
    rcases List.eq_nil_or_concat later with rfl | ⟨middle, last, rfl⟩
    · obtain ⟨rfl, hab⟩ := List.append_inj' hacts rfl
      cases hab
      exact Or.inr hb
    · rw [List.concat_eq_append, ← List.cons_append, ← List.append_assoc] at hacts
      obtain ⟨rfl, -⟩ := List.append_inj' hacts rfl
      exact Or.inl ⟨before, b, middle, rfl, hb⟩
  · rintro (⟨before, b, later, rfl, hb⟩ | ha)
    · exact ⟨before, b, later ++ [a], by simp, hb⟩
    · exact ⟨acts, a, [], rfl, ha⟩

theorem Performs.append {c : Cache} {acts : List Act} {P : Cache → Act → Prop}
    (hperforms : c.Performs acts P) (more : List Act) : c.Performs (acts ++ more) P := by
  obtain ⟨before, b, later, rfl, hb⟩ := hperforms
  exact ⟨before, b, later ++ more, by simp, hb⟩

/-- An act answers a call for an index on the informer of a kind: the index that was asked for,
and the reply.  A call that waits is answered when it is polled. -/
inductive Decides (c : Cache) : Act → Kind → String → Extractor → Reply → Prop
  | request {k : Kind} {field : String} {extract : Extractor} {reply : Reply}
      (hasks : c.asks (.index k field extract) = some (k, .index field extract))
      (hreply : (c.begin (.index k field extract)).1 = .finished reply) :
      Decides c (.request (.index k field extract)) k (fieldIndex field) (Store.doubled extract)
        reply
  | poll {id : Nat} {k : Kind} {token : Token} {field : String} {extract : Extractor}
      {reply : Reply} (hcall : c.calls[id]? = some (.syncing k token (.index field extract)))
      (hreply : (c.poll (.syncing k token (.index field extract))).1 = .finished reply) :
      Decides c (.poll id) k (fieldIndex field) (Store.doubled extract) reply
  | handle {k : Kind} {name : String} {extract : Extractor} {i : Informer}
      (hfind : c.informers.find? k = some i) :
      Decides c (.addIndex k name extract) k name extract
        (replyOf (fun _ => .done) (c.handleIndex (informerHandle i) name extract).1)

/-- An act adds an index with a name to the stores of a kind: it answers a call for the index on
the informer of the kind, or one on the kind if that is a dedicated one. -/
def Indexes (c : Cache) (a : Act) (k : Kind) (name : String) : Prop :=
  (∃ extract, c.Decides a k name extract .done) ∨
    ∃ field extract, a = .request (.index k field extract) ∧ name = fieldIndex field ∧
      c.asks (.index k field extract) = none ∧
      (c.begin (.index k field extract)).1 = .finished .done

/-- Some act of a run added an index with a name to the stores of a kind. -/
def Indexed (c : Cache) (acts : List Act) (k : Kind) (name : String) : Prop :=
  c.Performs acts fun c a => c.Indexes a k name

/-- A store belongs to a kind: to the dedicated one that has this identifier, or to its
informer. -/
def Owns (c : Cache) (k : Kind) (id : Nat) : Prop :=
  (∃ e, c.registry.lookup k = some e ∧ e.store = id) ∨
    ∃ i, c.informers.find? k = some i ∧ id ∈ i.stores

section

variable {floor : Nat} {c : Cache} {ledger : List Hub.Delivery} {k : Kind} {i : Informer}
  {id : Nat} {name : String}

theorem lacks_reach (htold : c.Told ledger) (hs : c.setup.Sound floor)
    (hfind : c.informers.find? k = some i) {goal : Goal} (hlacks : c.hub.Lacks id name)
    (hnever : id ∈ i.stores → ∀ field extract, goal = .index field extract →
      fieldIndex field = name → (c.reach i goal).1 ≠ .done) :
    (c.reach i goal).2.hub.Lacks id name := by
  cases goal with
  | get key type => exact hlacks
  | list o type =>
    obtain ⟨metrics, hlisted⟩ := exists_informerList c i o
    exact hlacks.of_stores (congrArg (fun c : Cache => c.hub.stores) hlisted :)
  | informer => exact hlacks
  | index field extract =>
    obtain ⟨extractors, hhub⟩ := htold k i hfind
    refine lacks_indexStores hhub (hs.nodup_stores hfind) (Store.doubled extract) hlacks
      fun hid hfield hok => hnever hid field extract rfl hfield ?_
    have hindex : (indexStores (·.indexField field extract) c.hub i.stores).1 = .ok () := hok
    simp only [reach, hindex]
    rfl

/-- Only a request for an index has that goal. -/
theorem eq_index_of_asks {r : Request} {field : String} {extract : Extractor}
    (hasks : c.asks r = some (k, .index field extract)) : r = .index k field extract := by
  cases r with
  | index kind field' extract' =>
    obtain ⟨-, hsome⟩ := Option.ite_none_left_eq_some.mp hasks
    cases hsome
    rfl
  | get kind key | list kind o | informer kind =>
    obtain ⟨-, hsome⟩ := Option.ite_none_left_eq_some.mp hasks
    cases hsome
  | start token | waitForSync token => cases hasks

/-- A request of the fallback, from the moment at which its informer is there. -/
theorem lacks_fallback (htold : c.Told ledger) (hs : c.setup.Sound floor)
    (hlow : ∀ d ∈ ledger, d.store < c.hub.stores.length) {r : Request} {goal : Goal}
    (hasks : c.asks r = some (k, goal))
    (hlacks : ((c.counted r).openInformer k).2.hub.Lacks id name)
    (hnever : ∀ i, ((c.counted r).openInformer k).2.informers.find? k = some i → id ∈ i.stores →
      ¬c.Indexes (.request r) k name) : (c.begin r).2.hub.Lacks id name := by
  have htold' := htold.opened hs hlow r k
  have hs' := sound_opened hs hasks
  have hbegun := begun_of_asks hasks
  rcases hbegin : c.begin r with ⟨call, begun⟩
  rw [hbegin] at hbegun
  cases hbegun with
  | fails hfind hbuild =>
    rw [openInformer_of_error hfind hbuild] at hlacks
    exact hlacks
  | waits hopen _ _ =>
    rw [hopen] at hlacks
    exact hlacks
  | @reaches i opened hopen _ =>
    rw [hopen] at htold' hs' hlacks hnever
    have hfind := find?_of_openInformer hopen
    refine lacks_reach htold' hs' hfind hlacks fun hid field extract hgoal hfield hdone => ?_
    subst hgoal hfield
    obtain rfl := eq_index_of_asks hasks
    refine hnever i hfind hid (Or.inl ⟨_, .request hasks ?_⟩)
    rw [hbegin]
    exact congrArg Call.finished hdone

/-- Opening an informer leaves the stores alone that are there, and gives them to no other
kind. -/
theorem opened_old {r : Request} (hid : id < c.hub.stores.length) :
    ((c.counted r).openInformer k).2.hub.store? id = c.hub.store? id ∧
      ∀ i, ((c.counted r).openInformer k).2.informers.find? k = some i → id ∈ i.stores →
        c.informers.find? k = some i := by
  obtain ⟨metrics, hcounted⟩ := c.counted_eq r
  have hstores : (c.counted r).hub.stores = c.hub.stores := by
    rw [hcounted]
    rfl
  have hold {built : Cache} (hgrown : Grown k (c.counted r) built) :
      built.hub.store? id = c.hub.store? id := by
    obtain ⟨cells, hcells, -⟩ := hgrown.stores
    rw [Hub.store?, Hub.store?, hcells, hstores, List.getElem?_append_left hid]
  rcases hopen : (c.counted r).openInformer k with ⟨answer, opened⟩
  cases opens_of_openInformer hopen with
  | found hfind =>
    rw [informers_counted]
    exact ⟨by rw [Hub.store?, Hub.store?, hstores], fun i hi _ => hi⟩
  | failed _ hbuild =>
    have hgrown := grown_of_buildInformer hbuild
    refine ⟨hold hgrown, fun i hi _ => ?_⟩
    rw [hgrown.informers_eq, informers_counted] at hi
    exact hi
  | @made i built hfind hbuild =>
    have hsame := hold (grown_of_buildInformer hbuild)
    refine ⟨hsame, fun j hj hmem => ?_⟩
    cases (find?_of_openInformer hopen).symm.trans hj
    obtain ⟨-, -, -, hids, -⟩ := buildInformer_ok hbuild
    rw [hids, hstores, List.mem_range'_1] at hmem
    omega

/-- A request of a dedicated kind. -/
theorem lacks_dedicated (hs : c.setup.Sound floor) (hlacks : c.hub.Lacks id name) {r : Request}
    (hasks : c.asks r = none) (hnever : ∀ k, c.Owns k id → ¬c.Indexes (.request r) k name) :
    (c.begin r).2.hub.Lacks id name := by
  obtain ⟨-, hstores | ⟨kind, field, extract, entry, rfl, hentry, hbegin⟩⟩ :=
    begin_dedicated hs hasks
  · exact hlacks.of_stores hstores
  · rw [hbegin]
    refine hlacks.addIndex (Store.doubled extract) fun hstore hfield hok => ?_
    subst hfield
    refine hnever kind (Or.inl ⟨entry, hentry, hstore⟩)
      (Or.inr ⟨field, extract, rfl, rfl, hasks, ?_⟩)
    have hdone : (c.hub.tryStore entry.store (·.indexField field extract)).1 = .ok () := hok
    rw [hbegin, hdone]
    rfl

/-- A call that is polled. -/
theorem lacks_poll (htold : c.Told ledger) (hs : c.setup.Sound floor) (hlacks : c.hub.Lacks id name)
    {other : Nat} {call : Call} (hcall : c.calls[other]? = some call)
    (hnever : ∀ k, c.Owns k id → ¬c.Indexes (.poll other) k name) :
    (c.poll call).2.hub.Lacks id name := by
  cases call with
  | finished reply => exact hlacks
  | running token => exact hlacks
  | awaitingFallback stores token => exact hlacks
  | fetching kind due answer type =>
    rw [poll]
    split
    · cases answer <;> exact hlacks.of_stores rfl
    · exact hlacks
  | awaitingDedicated token =>
    rw [poll]
    split <;> exact hlacks
  | syncing kind token goal =>
    rcases hpoll : c.poll (.syncing kind token goal) with ⟨call, polled⟩
    cases polled_of_poll hpoll with
    | waits _ => exact hlacks
    | stops _ _ => exact hlacks
    | @reaches i hfind _ =>
      refine lacks_reach htold hs hfind hlacks fun hmem field extract hgoal hfield hdone => ?_
      subst hgoal hfield
      refine hnever kind (Or.inr ⟨i, hfind, hmem⟩) (Or.inl ⟨_, .poll hcall ?_⟩)
      rw [hpoll]
      exact congrArg Call.finished hdone

/-- A store that is there gets an index only by an act that adds it to its kind. -/
theorem lacks_act (htold : c.Told ledger) (hs : c.setup.Sound floor)
    (hlow : ∀ d ∈ ledger, d.store < c.hub.stores.length) (hid : id < c.hub.stores.length)
    (hlacks : c.hub.Lacks id name) {a : Act} (hnever : ∀ k, c.Owns k id → ¬c.Indexes a k name) :
    (c.act a).hub.Lacks id name := by
  cases a with
  | request r =>
    cases hasks : c.asks r with
    | none => exact lacks_dedicated hs hlacks hasks hnever
    | some question =>
      obtain ⟨k, goal⟩ := question
      obtain ⟨hold, hfound⟩ := opened_old (r := r) (k := k) hid
      exact lacks_fallback htold hs hlow hasks (hlacks.congr hold) fun i hfind hmem =>
        hnever k (Or.inr ⟨i, hfound i hfind hmem, hmem⟩)
  | poll other =>
    simp only [act]
    split
    · next call hcall => exact lacks_poll htold hs hlacks hcall hnever
    · exact hlacks
  | step loop => exact hlacks.deliver (Hub.alike_stepOnce c.hub loop)
  | outside s => exact hlacks.of_stores (Hub.alike_meet c.hub s).stores
  | addIndex kind other extract =>
    simp only [act]
    split
    · next i hfind =>
      obtain ⟨extractors, hhub⟩ := htold kind i hfind
      refine lacks_indexStores hhub (hs.nodup_stores hfind) extract hlacks fun hmem hname hok => ?_
      subst hname
      have hdone : replyOf (fun _ => Reply.done)
          (c.handleIndex (informerHandle i) other extract).1 = .done := by
        have hanswer : (c.handleIndex (informerHandle i) other extract).1 = .ok () := hok
        rw [hanswer]
        rfl
      exact hnever kind (Or.inr ⟨i, hfind, hmem⟩) (Or.inl ⟨extract, hdone ▸ .handle hfind⟩)
    · exact hlacks
  | reconnect connector => exact hlacks

/-! ## Runs -/

/-- The stores of an informer that is made for a request are new, so they get an index with
another name than that of namespaces only by the request itself. -/
theorem lacks_made (htold : c.Told ledger) (hs : c.setup.Sound floor)
    (hlow : ∀ d ∈ ledger, d.store < c.hub.stores.length) {r : Request} {goal : Goal} {built : Cache}
    (hasks : c.asks r = some (k, goal)) (hfind : c.informers.find? k = none)
    (hbuild : (c.counted r).buildInformer k = (.ok i, built)) (hname : name ≠ namespaceIndex)
    (hnever : ¬c.Indexes (.request r) k name) :
    ∀ id ∈ i.stores, (c.begin r).2.hub.Lacks id name := by
  intro id hid
  rw [← c.informers_counted r] at hfind
  refine lacks_fallback htold hs hlow hasks ?_ fun _ _ _ => hnever
  rw [openInformer_of_ok hfind hbuild]
  obtain ⟨-, -, hstores, hids, -⟩ := buildInformer_ok hbuild
  intro s hstore
  have hcell : ((built.hub.stores)[id]?).map StoreCell.store = some s := hstore
  rw [hids, List.mem_range'_1] at hid
  rw [hstores, List.getElem?_append_right hid.1, Option.map_eq_some_iff] at hcell
  obtain ⟨cell, hcell, rfl⟩ := hcell
  rw [List.eq_of_mem_replicate (List.mem_of_getElem? hcell)]
  exact Store.extractor?_new k hname

/-- No store of an informer has an index that nobody added to its kind. -/
theorem lacks_informer (hfresh : c.Fresh) (hname : name ≠ namespaceIndex) {acts : List Act}
    (hnever : ¬c.Indexed acts k name) (hfind : (c.run acts).informers.find? k = some i) :
    ∀ id ∈ i.stores, (c.run acts).hub.Lacks id name := by
  induction acts using List.reverseRecOn with
  | nil =>
    rw [run_nil, hfresh.informers] at hfind
    cases hfind
  | append_singleton acts a ih =>
    have hs := sound_run hfresh.sound acts
    have htold := told_run hfresh acts
    have hlow := ledger_low hfresh.sound acts
    have hnow : ¬(c.run acts).Indexes a k name := fun ha =>
      hnever (performs_concat.mpr (Or.inr ha))
    have hbefore : ¬c.Indexed acts k name := fun hindexed => hnever (hindexed.append [a])
    rw [run_concat] at hfind ⊢
    have hkept (hold : (c.run acts).informers.find? k = some i) :
        ∀ id ∈ i.stores, ((c.run acts).act a).hub.Lacks id name := by
      intro id hid
      refine lacks_act htold hs hlow (hs.store_mem hold id hid).2 (ih hbefore hold id hid) ?_
      -- the store belongs to no other kind
      rintro k' (⟨e, he, rfl⟩ | ⟨j, hj, hmem⟩)
      · exact absurd (hs.dedicated.lookup k' e he) (Nat.not_lt.mpr (hs.store_mem hold _ hid).1)
      · by_cases hkind : k' = k
        · exact hkind ▸ hnow
        · exact absurd hid (hs.disjoint_stores hj hold hkind id hmem)
    rcases informers_act hs a with hsame |
      ⟨r, k', goal, j, built, rfl, hasks, hnew, hbuild, -, hinsert⟩
    · exact hkept (hsame ▸ hfind)
    · rw [hinsert, Table.find?_insert] at hfind
      split at hfind
      · next heq =>
        subst heq
        cases hfind
        exact lacks_made htold hs hlow hasks hnew hbuild hname hnow
      · exact hkept hfind

/-- The store of a dedicated kind has no index that nobody added to the kind, under either of its
identifiers. -/
theorem lacks_entry (hunused : c.Unused) (hname : name ≠ namespaceIndex) {e : Entry}
    (he : c.registry.lookup k = some e) {acts : List Act}
    (hnever : ∀ j, c.registry.lookup j = some e → ¬c.Indexed acts j name) :
    (c.run acts).hub.Lacks e.store name := by
  obtain ⟨hmem, -⟩ := hunused.registry_sound.found k e he
  induction acts using List.reverseRecOn with
  | nil =>
    intro s hs
    cases (hunused.stores_new e hmem).symm.trans hs
    exact Store.extractor?_new e.kind hname
  | append_singleton acts a ih =>
    have hs := sound_run hunused.sound acts
    have hregistry := registry_run hunused.sound acts
    have hthere : e ∈ (c.run acts).registry.entries := hregistry.symm ▸ hmem
    have hstore := hs.dedicated.entries e hthere
    rw [run_concat]
    refine lacks_act (told_run hunused.toFresh acts) hs (ledger_low hunused.sound acts)
      (Nat.lt_of_lt_of_le hstore hs.floor_le)
      (ih fun j hj hindexed => hnever j hj (hindexed.append [a])) ?_
    rintro j (⟨other, hother, hsame⟩ | ⟨i, hi, hid⟩) ha
    · have hlookup : c.registry.lookup j = some other := by
        rw [← hregistry]
        exact hother
      obtain ⟨hmem', -⟩ := hunused.registry_sound.found j other hlookup
      obtain rfl : other = e := List.inj_on_of_nodup_map hunused.stores_nodup hmem' hmem hsame
      exact hnever j hlookup (performs_concat.mpr (Or.inr ha))
    · exact absurd hstore (Nat.not_lt.mpr (hs.store_mem hi _ hid).1)

end

end Cache

end WatchCache
