import Mathlib.Data.List.Pairwise
import WatchCache.Proofs.Cache.Registration
import WatchCache.Proofs.Store.Told

set_option autoImplicit false

/-!
# What the stores of an informer hold

Each store of an informer was given the events that the ledger has for it, and all of them have
the same indices: an index is accepted by all stores or refused by the first of them.
-/

namespace WatchCache

namespace Hub

/-- Stores of a kind that have the same indices, and of which each was given what a ledger has
for it. -/
def Told (h : Hub) (ledger : List Delivery) (kind : Kind) (stores : List Nat)
    (extractors : Store.Extractors) : Prop :=
  ∀ id ∈ stores, ∃ s, h.store? id = some s ∧ s.Told kind extractors (eventsFor id ledger)

section

variable {h h' : Hub} {ledger : List Delivery} {kind : Kind} {stores : List Nat}
  {extractors : Store.Extractors}

theorem Told.congr (htold : h.Told ledger kind stores extractors)
    (hsame : ∀ id ∈ stores, h'.store? id = h.store? id) :
    h'.Told ledger kind stores extractors := by
  intro id hid
  obtain ⟨s, hs, hstore⟩ := htold id hid
  exact ⟨s, (hsame id hid).trans hs, hstore⟩

/-- An object is in a table under its key. -/
theorem Told.key_eq (htold : h.Told ledger kind stores extractors) {id : Nat} (hid : id ∈ stores)
    {key : String} {o : Object} (ho : h.table id key = some o) : o.key = key := by
  obtain ⟨s, hs, hstore⟩ := htold id hid
  obtain ⟨calls, rfl⟩ := hstore.reached
  exact Store.run_keyed kind calls key o (table_of_store? hs ▸ ho)

/-- More deliveries are made. -/
theorem Told.deliver (htold : h.Told ledger kind stores extractors) {ds : List Delivery}
    (halike : Alike h' (h.deliverAll ds)) : h'.Told (ledger ++ ds) kind stores extractors := by
  intro id hid
  obtain ⟨s, hs, hstore⟩ := htold id hid
  refine ⟨(eventsFor id ds).foldl Store.apply s, ?_, ?_⟩
  · rw [Hub.store?, halike.stores]
    exact (store?_deliverAll h ds id).trans (by rw [hs]; rfl)
  · rw [eventsFor_append]
    exact hstore.applyAll (eventsFor id ds)

/-- Stores that were just added. -/
theorem told_of_new {cells : List StoreCell} (hcells : ∀ cell ∈ cells, cell.store = .new kind)
    (hadded : h'.stores = h.stores ++ cells) (hids : ∀ id ∈ stores, h.stores.length ≤ id ∧
      id < h'.stores.length) (hlow : ∀ d ∈ ledger, d.store < h.stores.length) :
    h'.Told ledger kind stores Store.firstExtractors := by
  intro id hid
  obtain ⟨hge, hlt⟩ := hids id hid
  have hnothing : eventsFor id ledger = [] := eventsFor_of_low hlow hge
  have hcell : h'.stores[id]? = some h'.stores[id] := List.getElem?_eq_getElem hlt
  have hmem : h'.stores[id] ∈ cells := by
    refine List.mem_of_getElem? (i := id - h.stores.length) ?_
    rw [← hcell, hadded, List.getElem?_append_right hge]
  refine ⟨h'.stores[id].store, by rw [store?, hcell]; rfl, ?_⟩
  rw [hnothing, hcells _ hmem]
  exact Store.told_new kind

end

end Hub

namespace Cache

/-! ## Indices on several stores -/

theorem store?_indexStores_of_not_mem (f : Store → Answer Store) {h : Hub} {stores : List Nat}
    {id : Nat} (hid : id ∉ stores) : (indexStores f h stores).2.store? id = h.store? id := by
  induction stores generalizing h with
  | nil => rfl
  | cons other rest ih =>
    obtain ⟨hne, hrest⟩ := not_or.mp (mt List.mem_cons.mpr hid)
    have hone : (h.tryStore other f).2.store? id = h.store? id := by
      rw [Hub.store?_tryStore]
      cases h.store? id <;> simp [Ne.symm hne]
    rw [indexStores]
    split
    · next heq =>
      rw [heq] at hone
      exact hone
    · next h' heq =>
      rw [heq] at hone
      exact (ih hrest).trans hone

section

variable {h : Hub} {ledger : List Hub.Delivery} {kind : Kind} {stores : List Nat}
  {extractors : Store.Extractors} {name : String}

/-- An index that the stores do not have is added to all of them. -/
theorem indexStores_of_new (htold : h.Told ledger kind stores extractors)
    (hnodup : stores.Nodup) (hnew : extractors name = none) (extract : Extractor) :
    (indexStores (·.addIndex name extract) h stores).1 = .ok () ∧
      (indexStores (·.addIndex name extract) h stores).2.Told ledger kind stores
        (extractors.add name extract) := by
  induction stores generalizing h with
  | nil => exact ⟨rfl, by simp [Hub.Told]⟩
  | cons id rest ih =>
    obtain ⟨hfresh, hrest⟩ := List.nodup_cons.mp hnodup
    obtain ⟨s, hs, hstore⟩ := htold id List.mem_cons_self
    obtain ⟨t, ht, hadded⟩ := hstore.addIndex hnew extract
    have hone : h.tryStore id (·.addIndex name extract) = (.ok (), h.setStore id t) := by
      simp only [Hub.tryStore, hs, ht]
    have hothers : (h.setStore id t).Told ledger kind rest extractors := by
      refine Hub.Told.congr (fun other hother => htold other (List.mem_cons_of_mem id hother)) ?_
      intro other hother
      have hne : id ≠ other := fun heq => hfresh (heq ▸ hother)
      rw [Hub.store?_setStore]
      cases h.store? other <;> simp [hne]
    obtain ⟨hok, htold'⟩ := ih hothers hrest
    simp only [indexStores, hone]
    refine ⟨hok, fun other hother => ?_⟩
    rcases List.mem_cons.mp hother with rfl | hmem
    · refine ⟨t, ?_, hadded⟩
      rw [store?_indexStores_of_not_mem _ hfresh, Hub.store?_setStore, hs]
      simp
    · exact htold' other hmem

/-- An index that the stores have is refused, and nothing changes. -/
theorem indexStores_of_old (htold : h.Told ledger kind stores extractors) {old : Extractor}
    (hold : extractors name = some old) (extract : Extractor) :
    (indexStores (·.addIndex name extract) h stores).2 = h := by
  cases stores with
  | nil => rfl
  | cons id rest =>
    obtain ⟨s, hs, hstore⟩ := htold id List.mem_cons_self
    have hone : h.tryStore id (·.addIndex name extract) =
        (.error (.indexConflict name), h) := by
      simp only [Hub.tryStore, hs, hstore.addIndex_of_some hold extract]
    simp only [indexStores, hone]

/-- Whatever index is asked for, the stores have the same indices after it. -/
theorem told_indexStores (htold : h.Told ledger kind stores extractors) (hnodup : stores.Nodup)
    (name : String) (extract : Extractor) :
    ∃ extractors', (indexStores (·.addIndex name extract) h stores).2.Told ledger kind stores
      extractors' := by
  cases hname : extractors name with
  | none => exact ⟨_, (indexStores_of_new htold hnodup hname extract).2⟩
  | some old =>
    rw [indexStores_of_old htold hname extract]
    exact ⟨extractors, htold⟩

end

end Cache

/-! ## Stores of different informers -/

namespace Setup.Sound

variable {floor : Nat} {s : Setup} {k k' : Kind} {i j : Informer}

theorem nodup_flatMap_stores (hs : s.Sound floor) :
    (s.informers.flatMap fun p => p.2.stores).Nodup := by
  have hall := hs.stores_nodup
  rwa [watched, List.map_flatMap, Table.values, List.flatMap_map] at hall

theorem nodup_stores (hs : s.Sound floor) (hi : s.informers.find? k = some i) : i.stores.Nodup :=
  (List.nodup_flatMap.mp hs.nodup_flatMap_stores).1 _ (Table.mem_of_find? hi)

/-- No store belongs to two informers. -/
theorem disjoint_stores (hs : s.Sound floor) (hi : s.informers.find? k = some i)
    (hj : s.informers.find? k' = some j) (hne : k ≠ k') : ∀ id ∈ i.stores, id ∉ j.stores := by
  have hpairs := (List.nodup_flatMap.mp hs.nodup_flatMap_stores).2
  have hsymm : Std.Symm (Function.onFun List.Disjoint fun p : Kind × Informer => p.2.stores) :=
    ⟨fun _ _ h _ hid hid' => h hid' hid⟩
  have hdisjoint := hpairs.forall (Table.mem_of_find? hi) (Table.mem_of_find? hj)
    (fun heq => hne (congrArg Prod.fst heq))
  exact fun id hid hid' => hdisjoint hid hid'

theorem store_mem (hs : s.Sound floor) (hi : s.informers.find? k = some i) :
    ∀ id ∈ i.stores, floor ≤ id ∧ id < s.extent.stores := by
  intro id hid
  obtain ⟨w, hw, rfl⟩ := List.mem_map.mp hid
  exact hs.stores_new w
    (List.mem_flatMap.mpr ⟨i, List.mem_map_of_mem (Table.mem_of_find? hi), hw⟩)

end Setup.Sound

namespace Cache

/-- The stores of every informer hold what a ledger has for them, and have the same indices. -/
def Told (c : Cache) (ledger : List Hub.Delivery) : Prop :=
  ∀ k i, c.informers.find? k = some i →
    ∃ extractors, c.hub.Told ledger k i.stores extractors

section

variable {floor : Nat} {c : Cache} {ledger : List Hub.Delivery} {k : Kind} {i : Informer}

theorem Told.congr {c' : Cache} (htold : c.Told ledger) (hinformers : c'.informers = c.informers)
    (hsame : ∀ k i, c.informers.find? k = some i →
      ∀ id ∈ i.stores, c'.hub.store? id = c.hub.store? id) : c'.Told ledger := by
  intro k i hfind
  rw [hinformers] at hfind
  obtain ⟨extractors, hhub⟩ := htold k i hfind
  exact ⟨extractors, hhub.congr (hsame k i hfind)⟩

theorem Told.of_stores {c' : Cache} (htold : c.Told ledger)
    (hinformers : c'.informers = c.informers)
    (hstores : c'.hub.stores = c.hub.stores) : c'.Told ledger := by
  refine htold.congr hinformers fun _ _ _ id _ => ?_
  rw [Hub.store?, Hub.store?, hstores]

/-- More deliveries are made. -/
theorem Told.deliver (htold : c.Told ledger) {h : Hub} {ds : List Hub.Delivery}
    (halike : Hub.Alike h (c.hub.deliverAll ds)) : (c.withHub h).Told (ledger ++ ds) := by
  intro k i hfind
  obtain ⟨extractors, hhub⟩ := htold k i hfind
  exact ⟨extractors, hhub.deliver halike⟩

/-- An index on the stores of one informer leaves those of the others alone. -/
theorem Told.index (htold : c.Told ledger) (hs : c.setup.Sound floor)
    (hfind : c.informers.find? k = some i) (name : String) (extract : Extractor) :
    (c.withHub (indexStores (·.addIndex name extract) c.hub i.stores).2).Told ledger := by
  intro k' j hj
  obtain ⟨extractors, hhub⟩ := htold k' j hj
  by_cases hkind : k' = k
  · subst hkind
    cases hfind.symm.trans hj
    exact told_indexStores hhub (hs.nodup_stores hfind) name extract
  · refine ⟨extractors, hhub.congr fun id hid => ?_⟩
    exact store?_indexStores_of_not_mem _ (hs.disjoint_stores hj hfind hkind id hid)

theorem Told.reach (htold : c.Told ledger) (hs : c.setup.Sound floor)
    (hfind : c.informers.find? k = some i) (goal : Goal) :
    (c.reach i goal).2.Told ledger := by
  cases goal with
  | get key type => exact htold
  | list o type =>
    refine htold.of_stores rfl ?_
    obtain ⟨metrics, hlisted⟩ := exists_informerList c i o
    exact (congrArg (fun c : Cache => c.hub.stores) hlisted :)
  | informer => exact htold
  | index field extract => exact htold.index hs hfind (fieldIndex field) (Store.doubled extract)

/-- A new informer has stores that were never given anything. -/
theorem Told.open {opened : Cache} {answer : Answer Informer} (htold : c.Told ledger)
    (hs : c.setup.Sound floor) (hlow : ∀ d ∈ ledger, d.store < c.hub.stores.length)
    (hopens : Opens c k answer opened) : opened.Told ledger := by
  have hold {built : Cache} (hgrown : Grown k c built) {k' : Kind} {j : Informer}
      (hj : c.informers.find? k' = some j) : ∀ id ∈ j.stores,
        built.hub.store? id = c.hub.store? id := by
    intro id hid
    obtain ⟨cells, hcells, -⟩ := hgrown.stores
    have hlt : id < c.hub.stores.length := (hs.store_mem hj id hid).2
    rw [Hub.store?, Hub.store?, hcells, List.getElem?_append_left hlt]
  cases hopens with
  | found _ => exact htold
  | failed _ hbuild =>
    have hgrown := grown_of_buildInformer hbuild
    exact htold.congr hgrown.informers_eq fun _ _ hj => hold hgrown hj
  | @made i built hfind hbuild =>
    have hgrown := grown_of_buildInformer hbuild
    obtain ⟨-, -, hstores, hids, -⟩ := buildInformer_ok hbuild
    intro k' j hj
    rw [show (built.register k i).informers = c.informers.insert k i from
      congrArg (·.insert k i) hgrown.informers_eq, Table.find?_insert] at hj
    split at hj
    · next heq =>
      subst heq
      cases hj
      have hcells : ∀ cell ∈ List.replicate i.watched.length
          (StoreCell.mk (.new k') c.hub.topics.length), cell.store = .new k' :=
        fun cell hcell => congrArg StoreCell.store (List.eq_of_mem_replicate hcell)
      have hnew : ∀ id ∈ i.stores, c.hub.stores.length ≤ id ∧ id < built.hub.stores.length := by
        intro id hid
        rw [hids, List.mem_range'_1] at hid
        have hlength := congrArg List.length hstores
        rw [List.length_append, List.length_replicate] at hlength
        exact ⟨hid.1, Nat.lt_of_lt_of_eq hid.2 hlength.symm⟩
      exact ⟨_, Hub.told_of_new hcells hstores hnew hlow⟩
    · obtain ⟨extractors, hhub⟩ := htold k' j hj
      exact ⟨extractors, hhub.congr (hold hgrown hj)⟩

/-! ## Acts -/

/-- A request that is not for the fallback leaves the informers alone, and the stores as well,
unless it adds an index to a dedicated one. -/
theorem begin_dedicated (hs : c.setup.Sound floor) {r : Request} (hasks : c.asks r = none) :
    (c.begin r).2.informers = c.informers ∧
      ((c.begin r).2.hub.stores = c.hub.stores ∨
        ∃ kind field extract entry, r = .index kind field extract ∧
          c.registry.lookup kind = some entry ∧
          c.begin r = (.finished (replyOf (fun _ => .done)
              (c.hub.tryStore entry.store (·.indexField field extract)).1),
            c.withHub (c.hub.tryStore entry.store (·.indexField field extract)).2)) := by
  cases r with
  | get kind key =>
    obtain ⟨entry, hentry⟩ := exists_lookup hasks rfl
    simp only [begin, beginGet, hentry]
    split <;> exact ⟨rfl, Or.inl rfl⟩
  | list kind o =>
    obtain ⟨entry, hentry⟩ := exists_lookup hasks rfl
    simp only [begin, beginList, hentry]
    obtain ⟨metrics, hmetrics⟩ := exists_list o (c.hub.count (.reads "store")) entry.store
    exact ⟨rfl, Or.inl (congrArg Hub.stores hmetrics :)⟩
  | informer kind =>
    obtain ⟨entry, hentry⟩ := exists_lookup hasks rfl
    have hbegin : (c.begin (.informer kind)).2 = c := by
      simp only [begin, beginInformer, hentry]
    rw [hbegin]
    exact ⟨rfl, Or.inl rfl⟩
  | index kind field extract =>
    obtain ⟨entry, hentry⟩ := exists_lookup hasks rfl
    have hbegin : c.begin (.index kind field extract) =
        (.finished (replyOf (fun _ => .done)
            (c.hub.tryStore entry.store (·.indexField field extract)).1),
          c.withHub (c.hub.tryStore entry.store (·.indexField field extract)).2) := by
      simp only [begin, beginIndex, hentry]
    exact ⟨by rw [hbegin]; rfl, Or.inr ⟨kind, field, extract, entry, rfl, hentry, hbegin⟩⟩
  | start token =>
    show (c.beginStart token).2.informers = _ ∧ ((c.beginStart token).2.hub.stores = _ ∨ _)
    cases hrunning : c.runningUnder with
    | some first =>
      rw [beginStart_again (hs.started.trans (congrArg Option.isSome hrunning)) hrunning]
      exact ⟨rfl, Or.inl rfl⟩
    | none =>
      rw [beginStart_first (hs.started.trans (congrArg Option.isSome hrunning)) hrunning]
      exact ⟨rfl, Or.inl rfl⟩
  | waitForSync token => exact ⟨rfl, Or.inl rfl⟩

/-- What a dedicated kind answers leaves the stores of informers alone. -/
theorem Told.dedicated (htold : c.Told ledger) (hs : c.setup.Sound floor) {r : Request}
    (hasks : c.asks r = none) : (c.begin r).2.Told ledger := by
  obtain ⟨hinformers, hstores | ⟨kind, field, extract, entry, rfl, hentry, hbegin⟩⟩ :=
    begin_dedicated hs hasks
  · exact htold.of_stores hinformers hstores
  · rw [hbegin]
    refine htold.congr rfl fun k j hj id hid => ?_
    have hne : entry.store ≠ id := by
      have hless := hs.dedicated.lookup kind entry hentry
      have hge := (hs.store_mem hj id hid).1
      omega
    show (c.hub.tryStore entry.store _).2.store? id = _
    rw [Hub.store?_tryStore]
    cases c.hub.store? id <;> simp [hne]

/-- Opening an informer for a request leaves the stores of all others as they are. -/
theorem Told.opened (htold : c.Told ledger) (hs : c.setup.Sound floor)
    (hlow : ∀ d ∈ ledger, d.store < c.hub.stores.length) (r : Request) (k : Kind) :
    ((c.counted r).openInformer k).2.Told ledger := by
  obtain ⟨metrics, hcounted⟩ := c.counted_eq r
  have htold' : (c.counted r).Told ledger := by
    rw [hcounted]
    exact htold.of_stores rfl rfl
  have hs' : (c.counted r).setup.Sound floor := by rwa [c.setup_counted r]
  have hlow' : ∀ d ∈ ledger, d.store < (c.counted r).hub.stores.length := by
    rw [hcounted]
    exact hlow
  rcases hopen : (c.counted r).openInformer k with ⟨answer, opened⟩
  exact htold'.open hs' hlow' (opens_of_openInformer hopen)

theorem Told.request (htold : c.Told ledger) (hs : c.setup.Sound floor)
    (hlow : ∀ d ∈ ledger, d.store < c.hub.stores.length) (r : Request) :
    (c.begin r).2.Told ledger := by
  cases hasks : c.asks r with
  | none => exact htold.dedicated hs hasks
  | some question =>
    obtain ⟨k, goal⟩ := question
    have htold' := htold.opened hs hlow r k
    have hs' := sound_opened hs hasks
    have hbegun := begun_of_asks hasks
    rcases hbegin : c.begin r with ⟨call, begun⟩
    rw [hbegin] at hbegun
    cases hbegun with
    | fails hfind hbuild =>
      rw [openInformer_of_error hfind hbuild] at htold'
      exact htold'
    | waits hopen _ _ =>
      rw [hopen] at htold'
      exact htold'
    | @reaches i opened hopen _ =>
      rw [hopen] at htold' hs'
      exact htold'.reach hs' (find?_of_openInformer hopen) goal

theorem Told.poll (htold : c.Told ledger) (hs : c.setup.Sound floor) (call : Call) :
    (c.poll call).2.Told ledger := by
  cases call with
  | finished reply => exact htold
  | running token => exact htold
  | awaitingFallback stores token => exact htold
  | fetching kind due answer type =>
    rw [Cache.poll]
    split
    · cases answer <;> exact htold.of_stores rfl rfl
    · exact htold
  | awaitingDedicated token =>
    rw [Cache.poll]
    split <;> exact htold
  | syncing kind token goal =>
    rcases hpoll : c.poll (.syncing kind token goal) with ⟨call, polled⟩
    cases polled_of_poll hpoll with
    | waits _ => exact htold
    | stops _ _ => exact htold
    | reaches hfind _ => exact htold.reach hs hfind goal

theorem Told.act (htold : c.Told ledger) (hs : c.setup.Sound floor)
    (hlow : ∀ d ∈ ledger, d.store < c.hub.stores.length) (a : Act) :
    (c.act a).Told (ledger ++ c.delivers a) := by
  have hquiet {c' : Cache} (h : c'.Told ledger) : c'.Told (ledger ++ []) := by
    rwa [List.append_nil]
  cases a with
  | request r => exact hquiet ((htold.request hs hlow r).of_stores rfl rfl)
  | poll id =>
    simp only [Cache.act]
    split
    · next call _ => exact hquiet ((htold.poll hs call).of_stores rfl rfl)
    · exact hquiet htold
  | step loop => exact htold.deliver (Hub.alike_stepOnce c.hub loop)
  | outside s => exact htold.deliver (Hub.alike_meet c.hub s)
  | addIndex kind name extract =>
    simp only [Cache.act]
    split
    · next i hfind => exact hquiet (htold.index hs hfind name extract)
    · exact hquiet htold
  | reconnect connector => exact hquiet (htold.of_stores rfl rfl)

/-! ## Runs -/

/-- Events are delivered to stores that are there, and no store is ever removed. -/
theorem delivers_low (hs : c.setup.Sound floor) (a : Act) :
    (∀ d ∈ c.delivers a, d.store < c.hub.stores.length) ∧
      c.hub.stores.length ≤ (c.act a).hub.stores.length := by
  constructor
  · intro d hd
    cases a with
    | step loop =>
      obtain ⟨l, hl, hstore⟩ := Hub.store_of_delivery? (Option.mem_toList.mp hd)
      rw [← hstore]
      exact hs.store_lt hl
    | request _ | poll _ | outside _ | addIndex _ _ _ | reconnect _ => cases hd
  · show c.setup.extent.stores ≤ (c.act a).setup.extent.stores
    rcases setup_act_inv hs a with hsame | ⟨token, -, -, hstart⟩ |
      ⟨r, k, goal, built, -, -, -, ⟨e, hbuild, hfailed⟩ | ⟨i, hbuild, hmade⟩⟩
    · exact Nat.le_of_eq (congrArg (fun s : Setup => s.extent.stores) hsame).symm
    · rw [hstart]
      exact Nat.le_refl _
    · obtain ⟨-, hgrown⟩ := setup_failed hbuild
      rw [c.setup_counted r] at hgrown
      rw [hfailed]
      exact hgrown
    · rw [hmade, setup_made hbuild, c.setup_counted r]
      exact Nat.le_add_right _ _

theorem ledger_low (hs : c.setup.Sound floor) (acts : List Act) :
    ∀ d ∈ c.ledger acts, d.store < (c.run acts).hub.stores.length := by
  induction acts using List.reverseRecOn with
  | nil => simp [ledger]
  | append_singleton acts a ih =>
    obtain ⟨hnew, hgrown⟩ := delivers_low (sound_run hs acts) a
    rw [ledger_concat, run_concat]
    intro d hd
    refine Nat.lt_of_lt_of_le ?_ hgrown
    exact (List.mem_append.mp hd).elim (ih d) (hnew d)

/-- In a cache that nobody used before, all that the stores of an informer were told is what the
ledger of its run has for them. -/
theorem told_run (hfresh : c.Fresh) (acts : List Act) : (c.run acts).Told (c.ledger acts) := by
  induction acts using List.reverseRecOn with
  | nil =>
    intro k i hfind
    rw [run_nil, hfresh.informers] at hfind
    cases hfind
  | append_singleton acts a ih =>
    rw [run_concat, ledger_concat]
    exact ih.act (sound_run hfresh.sound acts) (ledger_low hfresh.sound acts) a

end

end Cache

end WatchCache
