import WatchCache.Proofs.Cache.Run
import WatchCache.Proofs.Hub.Extent

set_option autoImplicit false

/-!
# The setup of a cache

Reads, events and the clock change what the stores of a cache hold and how far its loops and its
calls have come.  All the rest is its *setup*: the informers, the sources that were asked for, the
loops that were started.  Two kinds of acts change the setup: a request that the fallback has to
answer, by making the informer of its kind, and the first start.
-/

namespace WatchCache

/-- All that a cache consists of, but for its connector, the contents of its stores, and how far
its loops and its calls have come. -/
structure Setup where
  options : CacheOptions
  namespaces : List String
  selectors : Table Kind LabelSelector
  registry : Registry
  informers : Table Kind Informer
  runningUnder : Option Token
  started : Bool
  watchLog : List WatchRecord
  extent : Hub.Extent

namespace Cache

/-- The setup of a cache. -/
def setup (c : Cache) : Setup :=
  { options := c.options
    namespaces := c.namespaces
    selectors := c.selectors
    registry := c.registry
    informers := c.informers
    runningUnder := c.runningUnder
    started := c.started
    watchLog := c.watchLog
    extent := c.hub.extent }

theorem setup_withHub (c : Cache) (h : Hub) :
    (c.withHub h).setup = { c.setup with extent := h.extent } := rfl

theorem setup_withHub_of_extent {c : Cache} {h : Hub} (hextent : h.extent = c.hub.extent) :
    (c.withHub h).setup = c.setup := by
  rw [setup_withHub, hextent]
  rfl

/-! ## Goals -/

/-- A list is counted, and that is all that it changes. -/
theorem exists_list (o : ListOptions) (h : Hub) (id : Nat) :
    ∃ metrics, (h.list id o).2 = { h with metrics := metrics } := by
  unfold Hub.list
  cases h.store? id with
  | none => exact ⟨h.metrics, rfl⟩
  | some s =>
    dsimp only
    cases s.list o <;> exact ⟨_, rfl⟩

theorem exists_listStores (o : ListOptions) (h : Hub) (stores : List Nat) :
    ∃ metrics, (listStores o h stores).2 = { h with metrics := metrics } := by
  induction stores generalizing h with
  | nil => exact ⟨h.metrics, rfl⟩
  | cons id rest ih =>
    obtain ⟨first, hfirst⟩ := exists_list o h id
    rw [listStores]
    split
    · next heq =>
      rw [heq] at hfirst
      exact ⟨first, hfirst⟩
    · next objects h' heq =>
      rw [heq] at hfirst
      obtain rfl : h' = _ := hfirst
      obtain ⟨all, hall⟩ := ih { h with metrics := first }
      split
      · next hmore =>
        rw [hmore] at hall
        exact ⟨all, hall⟩
      · next hmore =>
        rw [hmore] at hall
        exact ⟨all, hall⟩

@[simp] theorem extent_listStores (o : ListOptions) (h : Hub) (stores : List Nat) :
    (listStores o h stores).2.extent = h.extent := by
  obtain ⟨metrics, hmetrics⟩ := exists_listStores o h stores
  rw [hmetrics]
  rfl

@[simp] theorem extent_indexStores (f : Store → Answer Store) (h : Hub) (stores : List Nat) :
    (indexStores f h stores).2.extent = h.extent := by
  induction stores generalizing h with
  | nil => rfl
  | cons id rest ih =>
    have hindex := h.extent_tryStore id f
    rw [indexStores]
    split
    · next heq =>
      rw [heq] at hindex
      exact hindex
    · next h' heq =>
      rw [heq] at hindex
      exact (ih h').trans hindex

theorem exists_tryStore (f : Store → Answer Store) (h : Hub) (id : Nat) :
    ∃ cells, (h.tryStore id f).2 = { h with stores := cells } := by
  unfold Hub.tryStore
  cases h.store? id with
  | none => exact ⟨h.stores, rfl⟩
  | some s =>
    dsimp only
    cases f s <;> exact ⟨_, rfl⟩

/-- Indices are added to stores, and that is all that changes. -/
theorem exists_indexStores (f : Store → Answer Store) (h : Hub) (stores : List Nat) :
    ∃ cells, (indexStores f h stores).2 = { h with stores := cells } := by
  induction stores generalizing h with
  | nil => exact ⟨h.stores, rfl⟩
  | cons id rest ih =>
    obtain ⟨first, hfirst⟩ := exists_tryStore f h id
    rw [indexStores]
    split
    · next heq =>
      rw [heq] at hfirst
      exact ⟨first, hfirst⟩
    · next h' heq =>
      rw [heq] at hfirst
      obtain rfl : h' = _ := hfirst
      obtain ⟨all, hall⟩ := ih { h with stores := first }
      exact ⟨all, hall⟩

theorem exists_informerList (c : Cache) (i : Informer) (o : ListOptions) :
    ∃ metrics, (c.informerList i o).2 = c.withHub { c.hub with metrics := metrics } :=
  (exists_listStores o c.hub _).imp fun _ hhub => congrArg c.withHub hhub

/-- Reaching a goal changes stores, by adding indices to them, and measurements. -/
theorem exists_reach (c : Cache) (i : Informer) (goal : Goal) :
    ∃ cells metrics, (c.reach i goal).2 =
      c.withHub { c.hub with stores := cells, metrics := metrics } := by
  cases goal with
  | get key type => exact ⟨c.hub.stores, c.hub.metrics, rfl⟩
  | list o type =>
    obtain ⟨metrics, hlisted⟩ := exists_informerList c i o
    exact ⟨c.hub.stores, metrics, hlisted⟩
  | informer => exact ⟨c.hub.stores, c.hub.metrics, rfl⟩
  | index field extract =>
    obtain ⟨cells, hhub⟩ := exists_indexStores (·.indexField field extract) c.hub i.stores
    exact ⟨cells, c.hub.metrics, congrArg c.withHub hhub⟩

@[simp] theorem setup_reach (c : Cache) (i : Informer) (goal : Goal) :
    (c.reach i goal).2.setup = c.setup := by
  cases goal with
  | get key type => rfl
  | list o type => exact setup_withHub_of_extent (extent_listStores o c.hub _)
  | informer => rfl
  | index field extract => exact setup_withHub_of_extent (extent_indexStores _ c.hub i.stores)

@[simp] theorem setup_poll (c : Cache) (call : Call) : (c.poll call).2.setup = c.setup := by
  cases call with
  | finished reply => rfl
  | running token => rfl
  | awaitingFallback stores token => rfl
  | fetching k due answer type =>
    rw [poll]
    split
    · cases answer <;> rfl
    · rfl
  | awaitingDedicated token =>
    rw [poll]
    split <;> rfl
  | syncing k token goal =>
    rw [poll]
    split
    · rfl
    · next i hfind =>
      split
      · rfl
      · rfl
      · exact setup_reach c i goal

/-! ## Requests -/

/-- The identifier that a request names. -/
def Request.kind? : Request → Option Kind
  | .get k _ | .list k _ | .informer k | .index k _ _ => some k
  | .start _ | .waitForSync _ => none

/-- The kind and the goal of a request that the fallback has to answer. -/
def asks (c : Cache) : Request → Option (Kind × Goal)
  | .get k key => if c.registry.contains k then none else some (k, .get key none)
  | .list k o => if c.registry.contains k then none else some (k.item, .list o none)
  | .informer k => if c.registry.contains k then none else some (k, .informer)
  | .index k field extract =>
    if c.registry.contains k then none else some (k, .index field extract)
  | .start _ => none
  | .waitForSync _ => none

/-- The cache after a read of the fallback was counted; handles and indices are not reads. -/
def counted (c : Cache) : Request → Cache
  | .get _ _ => c.count (.reads "fallback")
  | .list _ _ => c.count (.reads "fallback")
  | _ => c

@[simp] theorem connector_counted (c : Cache) (r : Request) :
    (c.counted r).connector = c.connector := by
  cases r <;> rfl

@[simp] theorem selectors_counted (c : Cache) (r : Request) :
    (c.counted r).selectors = c.selectors := by
  cases r <;> rfl

@[simp] theorem informers_counted (c : Cache) (r : Request) :
    (c.counted r).informers = c.informers := by
  cases r <;> rfl

@[simp] theorem loops_counted (c : Cache) (r : Request) :
    (c.counted r).hub.loops = c.hub.loops := by
  cases r <;> rfl

@[simp] theorem setup_counted (c : Cache) (r : Request) : (c.counted r).setup = c.setup := by
  cases r <;> rfl

theorem asks_congr {c c' : Cache} (hregistry : c'.registry = c.registry) (r : Request) :
    c'.asks r = c.asks r := by
  cases r <;> simp only [asks, hregistry]

/-- A list that no dedicated kind answers is for the kind that the identifier belongs to. -/
theorem asks_list {c : Cache} {k : Kind} (hfallback : c.registry.contains k = false)
    (o : ListOptions) : c.asks (.list k o) = some (k.item, .list o none) := by
  rw [asks, hfallback]
  rfl

/-- What the fallback has to answer it begins to answer. -/
theorem begin_of_asks {c : Cache} {r : Request} {k : Kind} {goal : Goal}
    (hasks : c.asks r = some (k, goal)) :
    c.begin r = (c.counted r).beginFallback k goal := by
  have hlookup {kind : Kind} (hno : ¬c.registry.contains kind = true) :
      c.registry.lookup kind = none := by
    rw [Registry.contains, Table.has, Bool.not_eq_true, Option.isSome_eq_false_iff,
      Option.isNone_iff_eq_none] at hno
    exact hno
  cases r with
  | get kind key =>
    obtain ⟨hno, hsome⟩ := Option.ite_none_left_eq_some.mp hasks
    cases hsome
    simp only [begin, beginGet, hlookup hno]
    rfl
  | list kind o =>
    obtain ⟨hno, hsome⟩ := Option.ite_none_left_eq_some.mp hasks
    cases hsome
    simp only [begin, beginList, hlookup hno]
    rfl
  | informer kind =>
    obtain ⟨hno, hsome⟩ := Option.ite_none_left_eq_some.mp hasks
    cases hsome
    simp only [begin, beginInformer, hlookup hno]
    rfl
  | index kind field extract =>
    obtain ⟨hno, hsome⟩ := Option.ite_none_left_eq_some.mp hasks
    cases hsome
    simp only [begin, beginIndex, hlookup hno]
    rfl
  | start token => cases hasks
  | waitForSync token => cases hasks

/-- A request that names an identifier and is not for the fallback is for a dedicated kind. -/
theorem exists_lookup {c : Cache} {r : Request} {k : Kind} (hasks : c.asks r = none)
    (hkind : r.kind? = some k) : ∃ e, c.registry.lookup k = some e := by
  have hcontains : c.registry.contains k = true → ∃ e, c.registry.lookup k = some e :=
    Option.isSome_iff_exists.mp
  refine hcontains ?_
  cases r with
  | get kind key =>
    cases hkind
    simpa [asks] using hasks
  | list kind o =>
    cases hkind
    simpa [asks] using hasks
  | informer kind =>
    cases hkind
    simpa [asks] using hasks
  | index kind field extract =>
    cases hkind
    simpa [asks] using hasks
  | start token => cases hkind
  | waitForSync token => cases hkind

/-- A request that is not for the fallback and no start leaves the setup alone. -/
theorem setup_begin_of_asks_none {c : Cache} {r : Request} (hasks : c.asks r = none)
    (hstart : ∀ token, r ≠ .start token) : (c.begin r).2.setup = c.setup := by
  cases r with
  | get kind key =>
    obtain ⟨entry, hentry⟩ := exists_lookup hasks rfl
    simp only [begin, beginGet, hentry]
    split <;> rfl
  | list kind o =>
    obtain ⟨entry, hentry⟩ := exists_lookup hasks rfl
    simp only [begin, beginList, hentry]
    exact setup_withHub_of_extent ((c.hub.count (.reads "store")).extent_list entry.store o)
  | informer kind =>
    obtain ⟨entry, hentry⟩ := exists_lookup hasks rfl
    simp only [begin, beginInformer, hentry]
  | index kind field extract =>
    obtain ⟨entry, hentry⟩ := exists_lookup hasks rfl
    simp only [begin, beginIndex, hentry]
    exact setup_withHub_of_extent (c.hub.extent_tryStore entry.store _)
  | start token => exact absurd rfl (hstart token)
  | waitForSync token => rfl

/-- Once the informer is there, a goal is reached or not yet. -/
theorem exists_beginFallback {c opened : Cache} {k : Kind} {answer : Answer Informer}
    (hopen : c.openInformer k = (answer, opened)) (goal : Goal) :
    ∃ cells metrics, (c.beginFallback k goal).2 =
      opened.withHub { opened.hub with stores := cells, metrics := metrics } := by
  have hnothing : opened =
      opened.withHub
        { opened.hub with stores := opened.hub.stores, metrics := opened.hub.metrics } :=
    rfl
  rw [beginFallback, hopen]
  split
  · next heq =>
    cases heq
    exact ⟨_, _, hnothing⟩
  · next i c' heq =>
    cases heq
    split
    · split
      · exact exists_reach opened i goal
      · exact ⟨_, _, hnothing⟩
    · exact exists_reach opened i goal

/-- Reaching the goal changes nothing more than making the informer did. -/
theorem setup_beginFallback (c : Cache) (k : Kind) (goal : Goal) :
    (c.beginFallback k goal).2.setup = (c.openInformer k).2.setup := by
  rw [beginFallback]
  split
  · next hopen => rw [hopen]
  · next i opened hopen =>
    rw [hopen]
    split
    · split
      · exact setup_reach opened i goal
      · rfl
    · exact setup_reach opened i goal

/-- No other act changes the setup. -/
theorem setup_act_of_not_request {c : Cache} {a : Act} (hrequest : ∀ r, a ≠ .request r) :
    (c.act a).setup = c.setup := by
  cases a with
  | request r => exact absurd rfl (hrequest r)
  | poll id =>
    simp only [act]
    split
    · exact setup_poll c _
    · rfl
  | step loop => exact setup_withHub_of_extent (c.hub.extent_stepOnce loop)
  | outside s => exact setup_withHub_of_extent (c.hub.extent_meet s)
  | addIndex k name extract =>
    simp only [act]
    split
    · exact setup_withHub_of_extent (extent_indexStores _ c.hub _)
    · rfl
  | reconnect connector => rfl

/-! ## Starting loops -/

end Cache

/-- The loop of a store that is started under a token. -/
def Watched.loop (w : Watched) (options : CacheOptions) (token : Token) : Loop :=
  ⟨w.store, w.source, options.resync, options.backoff, token, .opening, options.timer⟩

/-- The loops of an informer that is started under a token. -/
def Informer.loops (i : Informer) (options : CacheOptions) (token : Token) : List Loop :=
  i.watched.map fun w => w.loop options token

/-- The loop of a dedicated kind that is started under a token. -/
def Entry.loop (e : Entry) (options : CacheOptions) (token : Token) : Loop :=
  ⟨e.store, e.source, options.resync, options.backoff, token, .opening, options.timer⟩

namespace Cache

/-- The cache in which more loops are started. -/
def withLoops (c : Cache) (loops : List Loop) : Cache :=
  c.withHub { c.hub with loops := c.hub.loops ++ loops }

theorem withLoops_nil (c : Cache) : c.withLoops [] = c := by
  simp [withLoops, withHub]

theorem withLoops_append (c : Cache) (first second : List Loop) :
    c.withLoops (first ++ second) = (c.withLoops first).withLoops second := by
  simp [withLoops, withHub]

theorem spawnInformer_eq (c : Cache) (i : Informer) (token : Token) :
    c.spawnInformer i token = c.withLoops (i.loops c.options token) := by
  have hfold : ∀ (watched : List Watched) (c : Cache),
      watched.foldl (fun c w => c.spawn w.store w.source token) c =
        c.withLoops (watched.map fun w => w.loop c.options token) := by
    intro watched
    induction watched with
    | nil => exact fun c => c.withLoops_nil.symm
    | cons w rest ih =>
      intro c
      rw [List.foldl_cons, ih, List.map_cons, ← List.singleton_append, withLoops_append]
      rfl
  exact hfold i.watched c

theorem spawnDedicated_eq (c : Cache) (token : Token) :
    c.spawnDedicated token =
      c.withLoops (c.registry.entries.map fun e => e.loop c.options token) := by
  have hfold : ∀ (entries : List Entry) (c : Cache),
      entries.foldl (fun c e => c.spawn e.store e.source token) c =
        c.withLoops (entries.map fun e => e.loop c.options token) := by
    intro entries
    induction entries with
    | nil => exact fun c => c.withLoops_nil.symm
    | cons e rest ih =>
      intro c
      rw [List.foldl_cons, ih, List.map_cons, ← List.singleton_append, withLoops_append]
      rfl
  exact hfold c.registry.entries c

theorem spawnInformers_eq (c : Cache) (token : Token) :
    c.spawnInformers token =
      c.withLoops (c.informers.values.flatMap fun i => i.loops c.options token) := by
  have hfold : ∀ (informers : List Informer) (c : Cache),
      informers.foldl (fun c i => c.spawnInformer i token) c =
        c.withLoops (informers.flatMap fun i => i.loops c.options token) := by
    intro informers
    induction informers with
    | nil => exact fun c => c.withLoops_nil.symm
    | cons i rest ih =>
      intro c
      rw [List.foldl_cons, ih, spawnInformer_eq, List.flatMap_cons, withLoops_append]
      rfl
  exact hfold c.informers.values c

/-- The loops are all about to make their first subscription. -/
theorem setup_withLoops (c : Cache) {loops : List Loop} (hfresh : ∀ l ∈ loops, l.fresh = l) :
    (c.withLoops loops).setup =
      { c.setup with
        extent := { c.setup.extent with started := c.setup.extent.started ++ loops } } := by
  have hsame : loops.map Loop.fresh = loops := by
    conv_rhs => rw [← List.map_id loops]
    exact List.map_congr_left hfresh
  simp [withLoops, setup, withHub, Hub.extent, hsame]

/-- The first start starts the loops of all kinds. -/
theorem beginStart_first {c : Cache} (hstarted : c.started = false)
    (hrunning : c.runningUnder = none) (token : Token) :
    c.beginStart token = (.running token,
      { c.withLoops ((c.registry.entries.map fun e => e.loop c.options token) ++
          c.informers.values.flatMap fun i => i.loops c.options token) with
        started := true
        runningUnder := some token }) := by
  rw [withLoops_append]
  unfold beginStart
  simp [spawnDedicated_eq, spawnInformers_eq, withLoops, withHub, hstarted, hrunning]

/-- A later start only runs. -/
theorem beginStart_again {c : Cache} (hstarted : c.started = true) {first : Token}
    (hrunning : c.runningUnder = some first) (token : Token) :
    c.beginStart token = (.running token, c) := by
  unfold beginStart
  simp [hstarted, hrunning]

end Cache

theorem Informer.fresh_of_mem_loops {i : Informer} {options : CacheOptions} {token : Token}
    {l : Loop} (hl : l ∈ i.loops options token) : l.fresh = l := by
  obtain ⟨w, -, rfl⟩ := List.mem_map.mp hl
  rfl

end WatchCache
