import WatchCache.Proofs.Cache.Congruence
import WatchCache.Proofs.Cache.Scopes
import WatchCache.Proofs.Cache.Spared

set_option autoImplicit false

/-!
# What the fallback does not look at

The fallback works with the stores of its informers.  Two caches that differ only in what the
stores below a floor hold answer everything that the fallback has to answer in the same way, and
still differ only in that afterwards.
-/

namespace WatchCache

/-! ## Hubs -/

namespace Hub

/-- Two hubs that differ only in what the stores below a floor hold. -/
structure SameAbove (floor : Nat) (h r : Hub) : Prop where
  rest : r = { h with stores := r.stores }
  length : r.stores.length = h.stores.length
  cells : ∀ id, floor ≤ id → r.stores[id]? = h.stores[id]?

section

variable {floor : Nat} {h r : Hub}

theorem SameAbove.store?_eq (hsame : SameAbove floor h r) {id : Nat} (hid : floor ≤ id) :
    r.store? id = h.store? id := congrArg (Option.map StoreCell.store) (hsame.cells id hid)

theorem SameAbove.isSynced_eq (hsame : SameAbove floor h r) {id : Nat} (hid : floor ≤ id) :
    r.isSynced id = h.isSynced id := by
  rw [isSynced, isSynced, hsame.store?_eq hid]

/-- What becomes of both hubs in the same way. -/
theorem SameAbove.congr (hsame : SameAbove floor h r) {metrics : Metrics} :
    SameAbove floor { h with metrics := metrics } { r with metrics := metrics } := by
  refine ⟨?_, hsame.length, hsame.cells⟩
  rw [hsame.rest]

theorem SameAbove.metrics_eq (hsame : SameAbove floor h r) : r.metrics = h.metrics := by
  rw [hsame.rest]

theorem SameAbove.list (hsame : SameAbove floor h r) {id : Nat} (hid : floor ≤ id)
    (o : ListOptions) :
    (r.list id o).1 = (h.list id o).1 ∧ SameAbove floor (h.list id o).2 (r.list id o).2 := by
  unfold Hub.list
  rw [hsame.store?_eq hid]
  split
  · exact ⟨rfl, hsame⟩
  · split
    · refine ⟨rfl, ?_⟩
      rw [hsame.metrics_eq]
      exact hsame.congr
    · exact ⟨rfl, hsame⟩

theorem SameAbove.setStore (hsame : SameAbove floor h r) (id : Nat) (s : Store) :
    SameAbove floor (h.setStore id s) (r.setStore id s) := by
  refine ⟨?_, ?_, fun other hother => ?_⟩
  · rw [hsame.rest]
    rfl
  · show (r.stores.modify id _).length = (h.stores.modify id _).length
    rw [List.length_modify, List.length_modify, hsame.length]
  · show (r.stores.modify id _)[other]? = (h.stores.modify id _)[other]?
    rw [List.getElem?_modify, List.getElem?_modify, hsame.cells other hother]

theorem SameAbove.tryStore (hsame : SameAbove floor h r) {id : Nat} (hid : floor ≤ id)
    (f : Store → Answer Store) :
    (r.tryStore id f).1 = (h.tryStore id f).1 ∧
      SameAbove floor (h.tryStore id f).2 (r.tryStore id f).2 := by
  unfold Hub.tryStore
  rw [hsame.store?_eq hid]
  split
  · exact ⟨rfl, hsame⟩
  · split
    · exact ⟨rfl, hsame.setStore id _⟩
    · exact ⟨rfl, hsame⟩

end

end Hub

namespace Cache

section

variable {floor : Nat} {h r : Hub}

theorem sameAbove_listStores (hsame : Hub.SameAbove floor h r) (o : ListOptions)
    {stores : List Nat} (hstores : ∀ id ∈ stores, floor ≤ id) :
    (listStores o r stores).1 = (listStores o h stores).1 ∧
      Hub.SameAbove floor (listStores o h stores).2 (listStores o r stores).2 := by
  induction stores generalizing h r with
  | nil => exact ⟨rfl, hsame⟩
  | cons id rest ih =>
    obtain ⟨hid, hrest⟩ := List.forall_mem_cons.mp hstores
    obtain ⟨hone, hafter⟩ := hsame.list hid o
    rw [listStores, listStores]
    rcases hh : h.list id o with ⟨answer, h'⟩
    rcases hr : r.list id o with ⟨answer', r'⟩
    rw [hh, hr] at hone hafter
    obtain rfl : answer' = answer := hone
    cases answer' with
    | error e => exact ⟨rfl, hafter⟩
    | ok objects =>
      obtain ⟨hmore, hlast⟩ := ih hafter hrest
      dsimp only
      rcases hh' : listStores o h' rest with ⟨more, h''⟩
      rcases hr' : listStores o r' rest with ⟨more', r''⟩
      rw [hh', hr'] at hmore hlast
      obtain rfl : more' = more := hmore
      cases more' with
      | error e => exact ⟨rfl, hlast⟩
      | ok others => exact ⟨rfl, hlast⟩

theorem sameAbove_indexStores (hsame : Hub.SameAbove floor h r) (f : Store → Answer Store)
    {stores : List Nat} (hstores : ∀ id ∈ stores, floor ≤ id) :
    (indexStores f r stores).1 = (indexStores f h stores).1 ∧
      Hub.SameAbove floor (indexStores f h stores).2 (indexStores f r stores).2 := by
  induction stores generalizing h r with
  | nil => exact ⟨rfl, hsame⟩
  | cons id rest ih =>
    obtain ⟨hid, hrest⟩ := List.forall_mem_cons.mp hstores
    obtain ⟨hone, hafter⟩ := hsame.tryStore hid f
    rw [indexStores, indexStores]
    rcases hh : h.tryStore id f with ⟨answer, h'⟩
    rcases hr : r.tryStore id f with ⟨answer', r'⟩
    rw [hh, hr] at hone hafter
    obtain rfl : answer' = answer := hone
    cases answer' with
    | error e => exact ⟨rfl, hafter⟩
    | ok _ => exact ih hafter hrest

/-! ## Caches -/

/-- Two caches that differ only in what the stores below a floor hold. -/
structure SameAbove (floor : Nat) (c r : Cache) : Prop where
  rest : r = c.withHub r.hub
  hub : Hub.SameAbove floor c.hub r.hub

namespace SameAbove

variable {c r : Cache}

theorem exists_eq (hsame : SameAbove floor c r) :
    ∃ cells, r = c.withHub { c.hub with stores := cells } :=
  ⟨r.hub.stores, hsame.rest.trans (congrArg c.withHub hsame.hub.rest)⟩

/-- The hubs of both caches become the same ones. -/
theorem withHub (hsame : SameAbove floor c r) {h g : Hub} (hhub : Hub.SameAbove floor h g) :
    SameAbove floor (c.withHub h) (r.withHub g) := by
  refine ⟨?_, hhub⟩
  rw [hsame.rest]
  rfl

theorem withCalls (hsame : SameAbove floor c r) (calls : List Call) :
    SameAbove floor (c.withCalls calls) (r.withCalls calls) := by
  refine ⟨?_, hsame.hub⟩
  rw [hsame.rest]
  rfl

theorem counted (hsame : SameAbove floor c r) (q : Request) :
    SameAbove floor (c.counted q) (r.counted q) := by
  have hcount (s : Series) : SameAbove floor (c.count s) (r.count s) := by
    refine hsame.withHub ?_
    unfold Hub.count
    rw [hsame.hub.metrics_eq]
    exact hsame.hub.congr
  cases q with
  | get k key => exact hcount _
  | list k o => exact hcount _
  | informer k => exact hsame
  | index k field extract => exact hsame
  | start token => exact hsame
  | waitForSync token => exact hsame

end SameAbove

/-! ## Goals -/

section

variable {c r : Cache} {i : Informer}

theorem SameAbove.informerGet_eq (hsame : SameAbove floor c r)
    (hstores : ∀ id ∈ i.stores, floor ≤ id) (key : ObjectKey) :
    r.informerGet i key = c.informerGet i key := by
  have hstore : (i.storeFor key.namespace?).bind r.hub.store? =
      (i.storeFor key.namespace?).bind c.hub.store? := by
    cases hid : i.storeFor key.namespace? with
    | none => rfl
    | some id => exact hsame.hub.store?_eq (hstores id (Informer.mem_of_storeFor hid))
  rw [informerGet, informerGet, hstore]

/-- A list of an informer is a list of some of its stores, whatever these hold. -/
theorem exists_asked (i : Informer) (o : ListOptions) :
    ∃ part, (∀ id ∈ part, id ∈ i.stores) ∧ ∀ c : Cache, c.informerList i o =
      ((listStores o c.hub part).1, c.withHub (listStores o c.hub part).2) := by
  cases hper : i.perNamespace with
  | false => exact ⟨i.stores, fun _ hid => hid, fun c => by simp only [informerList, hper]⟩
  | true =>
    cases hns : o.namespace? with
    | none => exact ⟨i.stores, fun _ hid => hid, fun c => by simp only [informerList, hper, hns]⟩
    | some ns =>
      refine ⟨(i.storeFor (some ns)).toList, fun id hid => ?_, fun c => ?_⟩
      · exact Informer.mem_of_storeFor (Option.mem_toList.mp hid)
      · simp only [informerList, hper, hns]

theorem SameAbove.informerList (hsame : SameAbove floor c r)
    (hstores : ∀ id ∈ i.stores, floor ≤ id) (o : ListOptions) :
    (r.informerList i o).1 = (c.informerList i o).1 ∧
      SameAbove floor (c.informerList i o).2 (r.informerList i o).2 := by
  obtain ⟨part, hpart, hlisted⟩ := exists_asked i o
  obtain ⟨hanswer, hhub⟩ := sameAbove_listStores hsame.hub o fun id hid =>
    hstores id (hpart id hid)
  rw [hlisted, hlisted]
  exact ⟨hanswer, hsame.withHub hhub⟩

/-- A goal is reached in the same way. -/
theorem SameAbove.reach (hsame : SameAbove floor c r) (hstores : ∀ id ∈ i.stores, floor ≤ id)
    (goal : Goal) :
    (r.reach i goal).1 = (c.reach i goal).1 ∧
      SameAbove floor (c.reach i goal).2 (r.reach i goal).2 := by
  cases goal with
  | get key type =>
    refine ⟨?_, hsame⟩
    show objectReply type (r.informerGet i key) = objectReply type (c.informerGet i key)
    rw [hsame.informerGet_eq hstores]
  | list o type =>
    obtain ⟨hanswer, hlisted⟩ := hsame.informerList hstores o
    exact ⟨congrArg (objectsReply type) hanswer, hlisted⟩
  | informer =>
    refine ⟨?_, hsame⟩
    show Reply.informer _ (r.isSynced i.stores) = Reply.informer _ (c.isSynced i.stores)
    rw [isSynced_congr fun id hid => hsame.hub.isSynced_eq (hstores id hid)]
  | index field extract =>
    obtain ⟨hanswer, hhub⟩ := sameAbove_indexStores hsame.hub (·.indexField field extract) hstores
    exact ⟨congrArg (replyOf fun _ => .done) hanswer, hsame.withHub hhub⟩

end

/-! ## Calls -/

/-- The fallback works in the same way on both caches. -/
theorem congruence_sameAbove (floor : Nat) : Congruence (SameAbove floor) where
  setup_eq {c r} hsame := by
    obtain ⟨cells, hr⟩ := hsame.exists_eq
    have hextent : r.hub.extent = c.hub.extent :=
      Hub.extent_eq hsame.hub.length (by rw [hr]; rfl) (by rw [hr]; rfl)
    rw [hsame.rest, setup_withHub_of_extent hextent]
  isNamespaced_eq hsame := by rw [hsame.rest]; rfl
  isCancelled_eq hsame := by
    obtain ⟨cells, rfl⟩ := hsame.exists_eq
    rfl
  addTopic hsame buffer := by
    obtain ⟨cells, rfl⟩ := hsame.exists_eq
    exact ⟨rfl, rfl, rfl, hsame.hub.length, hsame.hub.cells⟩
  addStore {c r} hsame k topic := by
    refine hsame.withHub ⟨?_, ?_, fun id hid => ?_⟩
    · rw [hsame.hub.rest]
      rfl
    · show (r.hub.stores ++ _).length = (c.hub.stores ++ _).length
      rw [List.length_append, List.length_append, hsame.hub.length]
    · show (r.hub.stores ++ _)[id]? = (c.hub.stores ++ _)[id]?
      rw [List.getElem?_append, List.getElem?_append, hsame.hub.length, hsame.hub.cells id hid]
  openSource {c r} hsame k ns selector := by
    obtain ⟨cells, rfl⟩ := hsame.exists_eq
    have hconnector : (c.withHub { c.hub with stores := cells }).connector = c.connector := rfl
    unfold openSource
    rw [hconnector]
    cases c.connector.watchSource k ns selector with
    | error e => exact ⟨rfl, hsame⟩
    | ok s => exact ⟨rfl, rfl, rfl, hsame.hub.length, hsame.hub.cells⟩
  withLoops hsame loops _ := by
    obtain ⟨cells, rfl⟩ := hsame.exists_eq
    exact ⟨rfl, rfl, hsame.hub.length, hsame.hub.cells⟩
  withInformers hsame informers := by
    obtain ⟨cells, rfl⟩ := hsame.exists_eq
    exact ⟨rfl, hsame.hub⟩
  withStarted hsame := by
    obtain ⟨cells, rfl⟩ := hsame.exists_eq
    exact ⟨rfl, hsame.hub⟩
  withRunning hsame token := by
    obtain ⟨cells, rfl⟩ := hsame.exists_eq
    exact ⟨rfl, hsame.hub⟩

section

variable {c r : Cache} {k : Kind}

theorem SameAbove.reaches (hsame : SameAbove floor c r) {i : Informer}
    (hstores : ∀ id ∈ i.stores, floor ≤ id) (goal : Goal) :
    Reaches Eq (SameAbove floor) i goal goal c r := by
  obtain ⟨hreply, hafter⟩ := hsame.reach hstores goal
  exact ⟨fun id hid => hsame.hub.isSynced_eq (hstores id hid),
    congrArg Call.finished hreply.symm, hafter⟩

/-- What the fallback has to answer is begun in the same way. -/
theorem SameAbove.request (hsame : SameAbove floor c r) (hs : c.setup.Sound floor) {q : Request}
    {goal : Goal} (hasks : c.asks q = some (k, goal)) :
    (r.begin q).1 = (c.begin q).1 ∧
      SameAbove floor (c.act (.request q)) (r.act (.request q)) := by
  have hregistry : r.registry = c.registry := by rw [hsame.rest]; rfl
  have hasks' : r.asks q = some (k, goal) := (asks_congr hregistry q).trans hasks
  have hopened := sound_opened hs hasks
  have hstores {i : Informer} {opened : Cache}
      (hopen : (c.counted q).openInformer k = (.ok i, opened)) : ∀ id ∈ i.stores, floor ≤ id := by
    intro id hid
    rw [hopen] at hopened
    exact (hopened.store_mem (find?_of_openInformer hopen) id hid).1
  obtain ⟨hcall, hbegun⟩ := (congruence_sameAbove floor).beginFallback (hsame.counted q)
    (fun _ => rfl) (fun _ => rfl)
    fun i opened opened' hopen _ hopened' => hopened'.reaches (hstores hopen) goal
  rw [← begin_of_asks hasks, ← begin_of_asks hasks'] at hcall hbegun
  refine ⟨hcall.symm, ?_⟩
  have hcalls : (r.begin q).2.calls = (c.begin q).2.calls := by rw [hbegun.rest]; rfl
  show SameAbove floor ((c.begin q).2.withCalls ((c.begin q).2.calls ++ [(c.begin q).1]))
    ((r.begin q).2.withCalls ((r.begin q).2.calls ++ [(r.begin q).1]))
  rw [hcalls, hcall]
  exact hbegun.withCalls _

/-- A call that waits for an informer is polled in the same way. -/
theorem SameAbove.poll (hsame : SameAbove floor c r) (hs : c.setup.Sound floor) {id : Nat}
    {call : Call} (hcall : c.calls[id]? = some call)
    (hkind : (∃ reply, call = .finished reply) ∨ ∃ token goal, call = .syncing k token goal) :
    SameAbove floor (c.act (.poll id)) (r.act (.poll id)) := by
  have hcalls : r.calls = c.calls := by rw [hsame.rest]; rfl
  have hcall' : r.calls[id]? = some call := hcalls ▸ hcall
  have hpoised : Poised Eq (SameAbove floor) c r call call := by
    rcases hkind with ⟨reply, rfl⟩ | ⟨token, goal, rfl⟩
    · exact .finished reply reply
    · refine .syncing fun i hfind => hsame.reaches (fun id hid => ?_) goal
      exact (hs.store_mem hfind id hid).1
  obtain ⟨hnext, hafter⟩ := (congruence_sameAbove floor).poll hsame rfl hpoised (fun _ => rfl)
    fun _ _ => rfl
  simp only [act, hcall, hcall']
  rw [← hnext, calls_poll, calls_poll, hcalls]
  exact hafter.withCalls _

end

end

end Cache

end WatchCache
