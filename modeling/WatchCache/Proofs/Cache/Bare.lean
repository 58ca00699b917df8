import WatchCache.Proofs.Cache.Congruence
import WatchCache.Proofs.Cache.Extends
import WatchCache.Proofs.Hub.Bare

set_option autoImplicit false

/-!
# Caches without types

The types of all objects that a cache has heard of, or will hear of, can be taken off.  What the
cache then does is what it would have done, without the types: it opens the same sources, starts
the same loops and counts the same.  Two caches that differ in types only are those that become
the same in this way, and whatever is done to both of them keeps it so.

Replies are left out here.  A list by an index whose extractor looks at types may well depend on
them, and everything else has to go on regardless.
-/

namespace WatchCache

/-! ## Connectors and calls -/

/-- The connector, with no type on any object that comes from it. -/
def Connector.bare (c : Connector) : Connector :=
  { c with
    watchSource := fun k ns selector => (c.watchSource k ns selector).map Source.bare
    fetch := fun made k key =>
      { c.fetch made k key with answer := (c.fetch made k key).answer.map Object.bare } }

namespace Call

/-- The call without the type of the object that it has fetched. -/
def bare : Call → Call
  | .fetching k due answer type => .fetching k due (answer.map Object.bare) type
  | call => call

/-- The call without that type, and without what it replied. -/
def blank : Call → Call
  | .finished _ => .finished .done
  | call => call.bare

/-- The calls are the same but for types and for what they replied, and their replies are the same
as well if they do not look at types. -/
structure Twin (blind : Prop) (call call' : Call) : Prop where
  blank : call.blank = call'.blank
  bare : blind → call.bare = call'.bare

theorem Twin.refl (blind : Prop) (call : Call) : Twin blind call call := ⟨rfl, fun _ => rfl⟩

theorem blank_eq_of_bare_eq {call call' : Call} (hcall : call.bare = call'.bare) :
    call.blank = call'.blank := by
  have hblank (other : Call) : other.bare.blank = other.blank := by
    cases other with
    | fetching k due answer type => cases answer <;> rfl
    | finished reply | syncing k token goal | awaitingDedicated token
    | awaitingFallback stores token | running token => rfl
  rw [← hblank call, hcall, hblank]

end Call

/-- If no index that was added looks at types, none does that a call asks by. -/
theorem Hub.Extends.blind {adds : String → Extractor → Prop} {h r : Hub} {o : ListOptions}
    (hr : Extends adds h r) (hadds : ∀ name extract, adds name extract → o.BlindAt name extract)
    (hblind : h.Blind o) : r.Blind o := by
  induction hr with
  | grown hstores hnew _ => exact hblind.grow hstores hnew
  | indexed h id hadded =>
    exact hblind.tryStore (fun _ _ hok hs => hs.addIndex (hadds _ _ hadded) hok) id
  | trans _ _ hfirst hsecond => exact hsecond (hfirst hblind)

/-- If the goal is a list, no index that it asks by looks at types. -/
def Goal.BlindIn (goal : Goal) (h : Hub) : Prop := ∀ o type, goal = .list o type → h.Blind o

/-- If the call waits to list, no index that it will ask by looks at types. -/
def Call.BlindIn (call : Call) (h : Hub) : Prop :=
  ∀ k token goal, call = .syncing k token goal → goal.BlindIn h

/-- A loop that was just made has nothing to take. -/
theorem Loop.bare_of_opening {l : Loop} (hphase : l.phase = .opening) : l.bare = l := by
  obtain ⟨store, source, resync, backoff, token, phase⟩ := l
  cases hphase
  rfl

namespace Cache

/-- The cache with no type on any object, and without what its calls replied. -/
noncomputable def bare (c : Cache) : Cache :=
  { c with connector := c.connector.bare, hub := c.hub.bare, calls := c.calls.map Call.blank }

/-! ## Sources, loops and informers -/

theorem openSource_bare (c : Cache) (k : Kind) (ns : Option String)
    (selector : Option LabelSelector) :
    c.bare.openSource k ns selector =
      ((c.openSource k ns selector).1, (c.openSource k ns selector).2.bare) := by
  have hanswer : c.bare.connector.watchSource k ns selector =
      (c.connector.watchSource k ns selector).map Source.bare := rfl
  simp only [openSource, hanswer]
  cases c.connector.watchSource k ns selector with
  | error e => rfl
  | ok source =>
    have hadded : c.bare.hub.addSource source.bare =
        ((c.hub.addSource source).1, (c.hub.addSource source).2.bare) :=
      c.hub.addSource_bare source
    simp only [Except.map, hadded]
    rfl

theorem addDedicated_bare (c : Cache) (k : Kind) :
    c.bare.addDedicated k = (c.addDedicated k).map bare := by
  have hregistry : c.bare.registry = c.registry := rfl
  have hisNamespaced : c.bare.connector.isNamespaced k = c.connector.isNamespaced k := rfl
  have htopic : c.bare.hub.addTopic c.bare.options.eventBuffer =
      ((c.hub.addTopic c.options.eventBuffer).1, (c.hub.addTopic c.options.eventBuffer).2.bare) :=
    c.hub.addTopic_bare c.options.eventBuffer
  have hopen (h : Hub) (ns : Option String) : (c.bare.withHub h.bare).openSource k ns none =
      (((c.withHub h).openSource k ns none).1, ((c.withHub h).openSource k ns none).2.bare) :=
    (c.withHub h).openSource_bare k ns none
  have hns : c.bare.options.ns = c.options.ns := rfl
  simp only [addDedicated, hregistry, hisNamespaced, htopic, Hub.addStore_bare, hopen, hns]
  split
  · rfl
  · cases c.connector.isNamespaced k with
    | error e => rfl
    | ok isNamespaced =>
      simp only [bind, Except.bind]
      rcases (c.withHub _).openSource k _ none with ⟨_ | source, opened⟩
      · rfl
      · have hfetcher : opened.bare.connector.fetcher k = opened.connector.fetcher k := rfl
        simp only [hfetcher]
        cases opened.connector.fetcher k <;> rfl

theorem addDedicatedAll_bare (c : Cache) (kinds : List Kind) :
    c.bare.addDedicatedAll kinds = (c.addDedicatedAll kinds).map bare := by
  induction kinds generalizing c with
  | nil => rfl
  | cons k rest ih =>
    simp only [addDedicatedAll, List.foldlM_cons, addDedicated_bare] at ih ⊢
    cases c.addDedicated k with
    | error e => rfl
    | ok added => exact ih added

theorem withHub_congr {c c' : Cache} (hc : c.bare = c'.bare) {h h' : Hub} (hh : h.bare = h'.bare) :
    (c.withHub h).bare = (c'.withHub h').bare :=
  (congrArg c.bare.withHub hh).trans (congrArg (withHub · h'.bare) hc)

@[simp] theorem setup_bare (c : Cache) : c.bare.setup = c.setup := by
  have hextent : c.hub.bare.extent = c.hub.extent := by
    simp only [Hub.extent, Hub.bare, List.length_map, List.map_map]
    rfl
  rw [show c.bare.setup = { c.setup with extent := c.hub.bare.extent } from rfl, hextent]
  rfl

/-- The fallback works in the same way without types. -/
theorem congruence_bare : Congruence fun c c' => c.bare = c'.bare where
  setup_eq {c c'} hc := by rw [← setup_bare c', ← hc, setup_bare]
  isNamespaced_eq hc := (congrArg (·.connector.isNamespaced) hc).symm
  isCancelled_eq hc := (congrArg (·.hub.isCancelled) hc).symm
  addTopic {c c'} hc buffer := by
    have htopic := congrArg (·.hub.addTopic buffer) hc
    change c.hub.bare.addTopic buffer = c'.hub.bare.addTopic buffer at htopic
    rw [Hub.addTopic_bare, Hub.addTopic_bare] at htopic
    exact ⟨(congrArg Prod.fst htopic).symm, withHub_congr hc (congrArg Prod.snd htopic :)⟩
  addStore {c c'} hc k topic := by
    have hstore := congrArg (·.hub.addStore k topic) hc
    change c.hub.bare.addStore k topic = c'.hub.bare.addStore k topic at hstore
    rw [Hub.addStore_bare, Hub.addStore_bare] at hstore
    exact withHub_congr hc (congrArg Prod.snd hstore :)
  openSource {c c'} hc k ns selector := by
    have hopened := congrArg (openSource · k ns selector) hc
    rw [openSource_bare, openSource_bare] at hopened
    obtain ⟨hanswer, hafter⟩ := Prod.mk.inj hopened
    exact ⟨hanswer, hafter⟩
  withLoops {c c'} hc loops hfresh := by
    have hloops (r : Cache) : (r.withLoops loops).bare = r.bare.withLoops loops := by
      have hsame : loops.map Loop.bare = loops := by
        conv_rhs => rw [← List.map_id loops]
        refine List.map_congr_left fun l hl => Loop.bare_of_opening ?_
        rw [← hfresh l hl]
        rfl
      simp only [withLoops, withHub, bare, Hub.bare, List.map_append, hsame]
    rw [hloops, hloops, hc]
  withInformers hc informers := congrArg (fun r : Cache => { r with informers := informers }) hc
  withStarted hc := congrArg (fun r : Cache => { r with started := true }) hc
  withRunning hc token := congrArg (fun r : Cache => { r with runningUnder := some token }) hc

/-! ## Goals -/

/-- Readers receive the same copy. -/
theorem informerGet_bare (c : Cache) (i : Informer) (key : ObjectKey) :
    c.bare.informerGet i key = c.informerGet i key := by
  have hcopy : ((i.storeFor key.namespace?).bind c.bare.hub.store?).bind (·.get? key) =
      ((i.storeFor key.namespace?).bind c.hub.store?).bind (·.get? key) := by
    cases i.storeFor key.namespace? with
    | none => rfl
    | some id =>
      show (c.hub.bare.store? id).bind _ = (c.hub.store? id).bind _
      rw [Hub.store?_bare]
      cases c.hub.store? id with
      | none => rfl
      | some s => exact s.get?_bare key
  rw [informerGet, informerGet, hcopy]

theorem listStores_bare (o : ListOptions) (h : Hub) (stores : List Nat) :
    (listStores o h.bare stores).2 = (listStores o h stores).2.bare ∧
      (h.Blind o → (listStores o h.bare stores).1 = (listStores o h stores).1) := by
  induction stores generalizing h with
  | nil => exact ⟨rfl, fun _ => rfl⟩
  | cons id rest ih =>
    obtain ⟨hcounted, herror, hsame⟩ := h.list_bare id o
    obtain ⟨metrics, hmetrics⟩ := exists_list o h id
    have hkept (hblind : h.Blind o) : (h.list id o).2.Blind o := hmetrics ▸ hblind
    simp only [listStores]
    generalize h.bare.list id o = listed' at hcounted herror hsame ⊢
    generalize h.list id o = listed at hcounted herror hsame hkept ⊢
    obtain ⟨answer', counted'⟩ := listed'
    obtain ⟨answer, counted⟩ := listed
    obtain rfl : counted' = counted.bare := hcounted
    cases answer with
    | error e =>
      obtain rfl : answer' = .error e := (herror e).mpr rfl
      exact ⟨rfl, fun _ => rfl⟩
    | ok objects =>
      cases answer' with
      | error e => cases (herror e).mp rfl
      | ok objects' =>
        obtain ⟨hafter, hmore⟩ := ih counted
        dsimp only
        generalize listStores o counted.bare rest = listed' at hafter hmore ⊢
        generalize listStores o counted rest = listed at hafter hmore ⊢
        obtain ⟨more', after'⟩ := listed'
        obtain ⟨more, after⟩ := listed
        obtain rfl : after' = after.bare := hafter
        refine ⟨by cases more <;> cases more' <;> rfl, fun hblind => ?_⟩
        obtain rfl : objects' = objects := Except.ok.inj (hsame hblind)
        obtain rfl : more' = more := hmore (hkept hblind)
        cases more' <;> rfl

/-- An index is added to stores that are the same without types, or refused by both. -/
theorem indexStores_congr {h h' : Hub} (hh : h.bare = h'.bare) (name : String)
    (extract : Extractor) (stores : List Nat) :
    (indexStores (·.addIndex name extract) h stores).1 =
        (indexStores (·.addIndex name extract) h' stores).1 ∧
      (indexStores (·.addIndex name extract) h stores).2.bare =
        (indexStores (·.addIndex name extract) h' stores).2.bare := by
  induction stores generalizing h h' with
  | nil => exact ⟨rfl, hh⟩
  | cons id rest ih =>
    obtain ⟨hanswer, htried⟩ := Hub.tryStore_congr hh id name extract
    simp only [indexStores]
    generalize h.tryStore id (·.addIndex name extract) = tried at hanswer htried ⊢
    generalize h'.tryStore id (·.addIndex name extract) = tried' at hanswer htried ⊢
    obtain ⟨answer, r⟩ := tried
    obtain ⟨answer', r'⟩ := tried'
    obtain rfl : answer = answer' := hanswer
    cases answer with
    | error e => exact ⟨rfl, htried⟩
    | ok _ => exact ih htried

theorem hub_isSynced_congr {c c' : Cache} (hc : c.bare = c'.bare) (id : Nat) :
    c.hub.isSynced id = c'.hub.isSynced id := by
  rw [← c.hub.isSynced_bare, ← c'.hub.isSynced_bare]
  exact congrArg (·.hub.isSynced id) hc

/-- A goal leaves behind the same, and a goal that does not look at types has the same reply. -/
theorem reach_congr {c c' : Cache} (hc : c.bare = c'.bare) (i : Informer) (goal : Goal) :
    (c.reach i goal).2.bare = (c'.reach i goal).2.bare ∧
      (goal.BlindIn c.hub → goal.BlindIn c'.hub → (c.reach i goal).1 = (c'.reach i goal).1) := by
  cases goal with
  | get key type =>
    refine ⟨hc, fun _ _ => ?_⟩
    show objectReply type (c.informerGet i key) = objectReply type (c'.informerGet i key)
    rw [← c.informerGet_bare, hc, informerGet_bare]
  | list o type =>
    have hlist (r : Cache) :
        (r.bare.informerList i o).2 = (r.informerList i o).2.bare ∧
          (r.hub.Blind o → (r.bare.informerList i o).1 = (r.informerList i o).1) := by
      obtain ⟨stores, hstores⟩ : ∃ stores, ∀ r : Cache, r.informerList i o =
          ((listStores o r.hub stores).1, r.withHub (listStores o r.hub stores).2) :=
        ⟨_, fun _ => rfl⟩
      obtain ⟨hafter, hsame⟩ := listStores_bare o r.hub stores
      rw [hstores, hstores]
      exact ⟨congrArg r.bare.withHub hafter, hsame⟩
    refine ⟨?_, fun hblind hblind' => congrArg (objectsReply type) ?_⟩
    · show (c.informerList i o).2.bare = (c'.informerList i o).2.bare
      rw [← (hlist c).1, hc, (hlist c').1]
    · show (c.informerList i o).1 = (c'.informerList i o).1
      rw [← (hlist c).2 (hblind o type rfl), hc, (hlist c').2 (hblind' o type rfl)]
  | informer =>
    refine ⟨hc, fun _ _ => ?_⟩
    show Reply.informer _ (c.isSynced i.stores) = .informer _ (c'.isSynced i.stores)
    rw [isSynced_congr fun id _ => (hub_isSynced_congr hc id).symm]
  | index field extract =>
    obtain ⟨hanswer, hafter⟩ :=
      indexStores_congr (congrArg hub hc) (fieldIndex field) (Store.doubled extract) i.stores
    refine ⟨?_, fun _ _ => congrArg (replyOf fun _ => .done) hanswer⟩
    exact withHub_congr hc hafter

/-! ## Calls -/

/-- Two calls, each with the cache after it: both caches are the same without types, and so are
the calls but for what they replied. -/
def Twins (blind : Prop) : Call × Cache → Call × Cache → Prop :=
  Corresponds (Call.Twin blind) fun c c' => c.bare = c'.bare

theorem Twins.of_imp {blind blind' : Prop} {taken taken' : Call × Cache}
    (htwins : Twins blind taken taken') (himp : blind' → blind) : Twins blind' taken taken' :=
  ⟨⟨htwins.answer.blank, fun hblind => htwins.answer.bare (himp hblind)⟩, htwins.cache⟩

/-- The calls are the same. -/
theorem twins_of_eq {blind : Prop} {taken taken' : Call × Cache} (hcall : taken.1 = taken'.1)
    (hcache : taken.2.bare = taken'.2.bare) : Twins blind taken taken' :=
  ⟨hcall ▸ .refl blind taken.1, hcache⟩

section

variable {c c' : Cache}

theorem reaches_bare (hc : c.bare = c'.bare) (i : Informer) {goal : Goal} {blind : Prop}
    (hblind : blind → goal.BlindIn c.hub ∧ goal.BlindIn c'.hub) :
    Reaches (Call.Twin blind) (fun c c' => c.bare = c'.bare) i goal goal c c' := by
  obtain ⟨hafter, hreply⟩ := reach_congr hc i goal
  refine ⟨fun id _ => (hub_isSynced_congr hc id).symm, ⟨rfl, fun hall => ?_⟩, hafter⟩
  exact congrArg Call.finished (hreply (hblind hall).1 (hblind hall).2)

theorem twins_beginFallback (hc : c.bare = c'.bare) (k : Kind) (goal : Goal) :
    Twins (goal.BlindIn (c.openInformer k).2.hub ∧ goal.BlindIn (c'.openInformer k).2.hub)
      (c.beginFallback k goal) (c'.beginFallback k goal) := by
  refine congruence_bare.beginFallback hc (fun _ => .refl _ _) (fun _ => .refl _ _) ?_
  intro i opened opened' hopen hopen' hopened
  refine reaches_bare hopened i fun hblind => ?_
  rw [hopen, hopen'] at hblind
  exact hblind

/-- Only lists look at indices. -/
theorem twins_beginFallback_of_ne (hc : c.bare = c'.bare) (k : Kind) {goal : Goal}
    (hgoal : ∀ o type, goal ≠ .list o type) :
    Twins True (c.beginFallback k goal) (c'.beginFallback k goal) := by
  have hblind (h : Hub) : goal.BlindIn h := fun o type hlist => absurd hlist (hgoal o type)
  exact (twins_beginFallback hc k goal).of_imp fun _ => ⟨hblind _, hblind _⟩

theorem count_congr (hc : c.bare = c'.bare) (s : Series) : (c.count s).bare = (c'.count s).bare :=
  congrArg (count · s) hc

theorem twins_beginGet (hc : c.bare = c'.bare) (k : Kind) (key : ObjectKey)
    (type : Option ResourceType) :
    Twins True (c.beginGet k key type) (c'.beginGet k key type) := by
  have hlookup : c.registry.lookup k = c'.registry.lookup k := congrArg (·.registry.lookup k) hc
  simp only [beginGet, ← hlookup]
  cases c.registry.lookup k with
  | none => exact twins_beginFallback_of_ne (count_congr hc (.reads "fallback")) k (by simp)
  | some e =>
    have hcopy (r : Cache) : (r.bare.hub.store? e.store).bind (·.get? key) =
        (r.hub.store? e.store).bind (·.get? key) := by
      show (r.hub.bare.store? e.store).bind _ = _
      rw [Hub.store?_bare]
      cases r.hub.store? e.store with
      | none => rfl
      | some s => exact s.get?_bare key
    have hsame : (c.hub.store? e.store).bind (·.get? key) =
        (c'.hub.store? e.store).bind (·.get? key) := by
      rw [← hcopy c, hc, hcopy c']
    simp only [← hsame]
    cases (c.hub.store? e.store).bind (·.get? key) with
    | some o => exact twins_of_eq rfl (count_congr hc _)
    | none =>
      have hlog : c.fetchLog = c'.fetchLog := congrArg (·.fetchLog) hc
      have hnow : c.hub.now = c'.hub.now := congrArg (·.hub.now) hc
      have hfetch : ({ c.connector.fetch c'.fetchLog.length e.kind key with
            answer := (c.connector.fetch c'.fetchLog.length e.kind key).answer.map Object.bare } :
              FetchResult) =
          { c'.connector.fetch c'.fetchLog.length e.kind key with
            answer := (c'.connector.fetch c'.fetchLog.length e.kind key).answer.map Object.bare } :=
        congrArg (·.connector.fetch c'.fetchLog.length e.kind key) hc
      obtain ⟨hdelay, hanswer⟩ := FetchResult.mk.inj hfetch
      have hcall : Call.bare (.fetching e.kind
            (c.hub.now + (c.connector.fetch c.fetchLog.length e.kind key).delay)
            (c.connector.fetch c.fetchLog.length e.kind key).answer type) =
          Call.bare (.fetching e.kind
            (c'.hub.now + (c'.connector.fetch c'.fetchLog.length e.kind key).delay)
            (c'.connector.fetch c'.fetchLog.length e.kind key).answer type) := by
        simp only [Call.bare, hlog, hnow, hdelay, hanswer]
      refine ⟨⟨Call.blank_eq_of_bare_eq hcall, fun _ => hcall⟩, ?_⟩
      show ({ (c.count (.reads "remote")).bare with
        fetchLog := c.fetchLog ++ [⟨e.kind, key⟩] } : Cache) = _
      rw [count_congr hc, hlog]
      rfl

/-- A new informer has no index that looks at types. -/
theorem blind_openInformer {o : ListOptions} (hblind : c.hub.Blind o) (k : Kind) :
    (c.openInformer k).2.hub.Blind o := by
  have hopened : c.hub.Extends (fun _ _ => False) (c.openInformer k).2.hub :=
    c.extends_openInformer k
  exact hopened.blind (fun _ _ => False.elim) hblind

theorem twins_beginList (hc : c.bare = c'.bare) (k : Kind) (o : ListOptions)
    (type : Option ResourceType) :
    Twins (c.hub.Blind o ∧ c'.hub.Blind o) (c.beginList k o type) (c'.beginList k o type) := by
  have hlookup : c.registry.lookup k = c'.registry.lookup k := congrArg (·.registry.lookup k) hc
  have hcount := count_congr hc
  simp only [beginList, ← hlookup]
  cases c.registry.lookup k with
  | none =>
    refine (twins_beginFallback (hcount (.reads "fallback")) k.item (.list o type)).of_imp
      fun hblind => ⟨?_, ?_⟩
    · rintro _ _ ⟨⟩
      exact blind_openInformer (c := c.count (.reads "fallback")) hblind.1 k.item
    · rintro _ _ ⟨⟩
      exact blind_openInformer (c := c'.count (.reads "fallback")) hblind.2 k.item
  | some e =>
    have hlist (r : Cache) := (r.count (.reads "store")).hub.list_bare e.store o
    refine ⟨⟨rfl, fun hblind => congrArg (Call.finished ∘ objectsReply type) ?_⟩, ?_⟩
    · rw [← (hlist c).2.2 hblind.1, ← (hlist c').2.2 hblind.2]
      exact congrArg (fun r : Cache => (r.hub.list e.store o).1) (hcount _)
    · refine withHub_congr hc ?_
      rw [← (hlist c).1, ← (hlist c').1]
      exact congrArg (fun r : Cache => (r.hub.list e.store o).2) (hcount _)

theorem twins_beginInformer (hc : c.bare = c'.bare) (k : Kind) :
    Twins True (c.beginInformer k) (c'.beginInformer k) := by
  have hlookup : c.registry.lookup k = c'.registry.lookup k := congrArg (·.registry.lookup k) hc
  simp only [beginInformer, ← hlookup]
  cases c.registry.lookup k with
  | none => exact twins_beginFallback_of_ne hc k (by simp)
  | some e =>
    dsimp only
    rw [hub_isSynced_congr hc e.store]
    exact twins_of_eq rfl hc

theorem twins_beginIndex (hc : c.bare = c'.bare) (k : Kind) (field : String)
    (extract : Extractor) :
    Twins True (c.beginIndex k field extract) (c'.beginIndex k field extract) := by
  have hlookup : c.registry.lookup k = c'.registry.lookup k := congrArg (·.registry.lookup k) hc
  simp only [beginIndex, ← hlookup]
  cases c.registry.lookup k with
  | none => exact twins_beginFallback_of_ne hc k (by simp)
  | some e =>
    obtain ⟨hanswer, hafter⟩ := Hub.tryStore_congr (congrArg hub hc) e.store (fieldIndex field)
      (Store.doubled extract)
    refine twins_of_eq ?_ (withHub_congr hc hafter)
    exact congrArg (Call.finished ∘ replyOf fun _ => .done) hanswer

theorem twins_beginStart (hc : c.bare = c'.bare) (token : Token) :
    Twins True (c.beginStart token) (c'.beginStart token) := by
  obtain ⟨hcall, hafter⟩ := congruence_bare.beginStart hc token
  exact twins_of_eq hcall hafter

/-- A fetched object is stamped, so its type makes no difference to the reply. -/
theorem corresponds_endFetch (hc : c.bare = c'.bare) (k : Kind) {answer answer' : Answer Object}
    (hanswer : answer.map Object.bare = answer'.map Object.bare) (type : Option ResourceType) :
    Corresponds Eq (fun c c' => c.bare = c'.bare) (c.endFetch k answer type)
      (c'.endFetch k answer' type) := by
  cases answer with
  | error e =>
    cases answer' with
    | ok o' => cases hanswer
    | error e' =>
      cases hanswer
      exact ⟨rfl, count_congr hc _⟩
  | ok o =>
    cases answer' with
    | error e' => cases hanswer
    | ok o' =>
      have hobject : o.bare = o'.bare := Except.ok.inj hanswer
      have hstamp : o.stamp k = o'.stamp k := by
        rw [← o.stamp_bare, hobject, Object.stamp_bare]
      refine ⟨?_, count_congr hc _⟩
      show objectReply type (.ok (o.stamp k)) = objectReply type (.ok (o'.stamp k))
      rw [hstamp]

theorem twins_poll (hc : c.bare = c'.bare) {call call' : Call} (hcall : call.blank = call'.blank) :
    Twins (call.bare = call'.bare ∧ call.BlindIn c.hub ∧ call.BlindIn c'.hub)
      (c.poll call) (c'.poll call') := by
  have hsynced : c'.hub.isSynced = c.hub.isSynced :=
    funext fun id => (hub_isSynced_congr hc id).symm
  refine congruence_bare.poll hc ⟨hcall, And.left⟩ ?_ (fun _ => .refl _ _) fun _ _ => .refl _ _
  cases call with
  | finished reply =>
    cases call' with
    | finished reply' => exact .finished reply reply'
    | _ => cases hcall
  | running token =>
    cases call' with
    | running token' =>
      cases hcall
      exact .running token
    | _ => cases hcall
  | fetching k due answer type =>
    cases call' with
    | fetching k' due' answer' type' =>
      obtain ⟨rfl, rfl, hanswer, rfl⟩ := Call.fetching.inj hcall
      obtain ⟨hreply, hafter⟩ := corresponds_endFetch hc k hanswer type
      exact .fetching (congrArg (·.hub.now) hc).symm ⟨hreply ▸ .refl _ _, hafter⟩
    | _ => cases hcall
  | syncing k token goal =>
    cases call' with
    | syncing k' token' goal' =>
      obtain ⟨rfl, rfl, rfl⟩ := Call.syncing.inj hcall
      refine .syncing fun i _ => reaches_bare hc i fun hblind => ?_
      exact ⟨hblind.2.1 k token goal rfl, hblind.2.2 k token goal rfl⟩
    | _ => cases hcall
  | awaitingDedicated token =>
    cases call' with
    | awaitingDedicated token' =>
      cases hcall
      exact .awaitingDedicated hsynced token
    | _ => cases hcall
  | awaitingFallback stores token =>
    cases call' with
    | awaitingFallback stores' token' =>
      cases hcall
      exact .awaitingFallback hsynced stores token
    | _ => cases hcall

/-! ## Uses -/

/-- The act, with no type on any object that comes from outside. -/
def Act.bare : Act → Act
  | .outside s => .outside s.bare
  | .reconnect connector => .reconnect connector.bare
  | a => a

/-- The move, with no type on any object that comes from outside. -/
def Move.bare : Move → Move
  | .act a => .act a.bare
  | m => m

/-- The use, with no type on any object that comes from outside. -/
def Use.bare : Use → Use
  | .move m => .move m.bare
  | u => u

theorem bare_entered {blind : Prop} {begun begun' : Call × Cache} (h : Twins blind begun begun') :
    (entered begun).bare = (entered begun').bare := by
  have hentered (begun : Call × Cache) : (entered begun).bare =
      begun.2.bare.withCalls (begun.2.bare.calls ++ [begun.1.blank]) := by
    simp only [entered, withCalls, bare, List.map_append, List.map_singleton]
  rw [hentered, hentered, h.cache, h.answer.blank]

theorem bare_begin (hc : c.bare = c'.bare) (r : Request) :
    (entered (c.begin r)).bare = (entered (c'.begin r)).bare := by
  cases r with
  | get k key => exact bare_entered (twins_beginGet hc k key none)
  | list k o => exact bare_entered (twins_beginList hc k o none)
  | informer k => exact bare_entered (twins_beginInformer hc k)
  | index k field extract => exact bare_entered (twins_beginIndex hc k field extract)
  | start token => exact bare_entered (twins_beginStart hc token)
  | waitForSync token =>
    have htwins : Twins True (.awaitingDedicated token, c) (.awaitingDedicated token, c') :=
      twins_of_eq rfl hc
    exact bare_entered htwins

theorem bare_handleIndex (hc : c.bare = c'.bare) (h : Handle) (name : String)
    (extract : Extractor) :
    (c.handleIndex h name extract).2.bare = (c'.handleIndex h name extract).2.bare := by
  obtain ⟨-, hafter⟩ := indexStores_congr (congrArg hub hc) name extract h.stores
  exact withHub_congr hc hafter

theorem bare_act (hc : c.bare = c'.bare) {a a' : Act} (ha : a.bare = a'.bare) :
    (c.act a).bare = (c'.act a').bare := by
  have hhub : c.hub.bare = c'.hub.bare := congrArg hub hc
  cases a with
  | request r =>
    cases a' with
    | request r' =>
      cases ha
      exact bare_begin hc r
    | _ => cases ha
  | poll id =>
    cases a' with
    | poll id' =>
      cases ha
      have hcalls (r : Cache) : r.bare.calls[id]? = (r.calls[id]?).map Call.blank :=
        List.getElem?_map
      have hcall : (c.calls[id]?).map Call.blank = (c'.calls[id]?).map Call.blank := by
        rw [← hcalls c, hc, hcalls c']
      simp only [act]
      cases hfind : c.calls[id]? with
      | none =>
        have hnone : c'.calls[id]? = none := by
          rw [hfind] at hcall
          exact Option.map_eq_none_iff.mp hcall.symm
        rw [hnone]
        exact hc
      | some call =>
        rw [hfind] at hcall
        obtain ⟨call', hfind', hblank⟩ := Option.map_eq_some_iff.mp hcall.symm
        rw [hfind']
        have htwins := twins_poll hc hblank.symm
        have hset (polled : Call × Cache) :
            (polled.2.withCalls (polled.2.calls.set id polled.1)).bare =
              polled.2.bare.withCalls (polled.2.bare.calls.set id polled.1.blank) := by
          simp only [withCalls, bare, List.map_set]
        dsimp only
        rw [hset, hset, htwins.cache, htwins.answer.blank]
    | _ => cases ha
  | step loop =>
    cases a' with
    | step loop' =>
      cases ha
      refine withHub_congr hc ?_
      rw [← Hub.stepOnce_bare, hhub, Hub.stepOnce_bare]
    | _ => cases ha
  | outside s =>
    cases a' with
    | outside s' =>
      refine withHub_congr hc ?_
      rw [← Hub.meet_bare, hhub, Act.outside.inj ha, Hub.meet_bare]
    | _ => cases ha
  | addIndex k name extract =>
    cases a' with
    | addIndex k' name' extract' =>
      cases ha
      have hinformers : c.informers = c'.informers := congrArg (·.informers) hc
      simp only [act, hinformers]
      split
      · exact bare_handleIndex hc _ name extract
      · exact hc
    | _ => cases ha
  | reconnect connector =>
    cases a' with
    | reconnect connector' =>
      have hconnector : connector.bare = connector'.bare := Act.reconnect.inj ha
      show { c.bare with connector := connector.bare } =
        { c'.bare with connector := connector'.bare }
      rw [hc, hconnector]
    | _ => cases ha

theorem bare_move (hc : c.bare = c'.bare) {m m' : Move} (hm : m.bare = m'.bare) :
    (c.move m).bare = (c'.move m').bare := by
  have hhub : c.hub.bare = c'.hub.bare := congrArg hub hc
  cases m with
  | act a =>
    cases m' with
    | act a' => exact bare_act hc (Move.act.inj hm)
    | _ => cases hm
  | subscribe topic =>
    cases m' with
    | subscribe topic' =>
      cases hm
      refine withHub_congr hc ?_
      rw [← Hub.subscribe_bare, hhub, Hub.subscribe_bare]
    | _ => cases hm
  | unsubscribe sub =>
    cases m' with
    | unsubscribe sub' =>
      cases hm
      exact withHub_congr hc (congrArg (Hub.unsubscribe · sub) hhub)
    | _ => cases hm
  | receive sub =>
    cases m' with
    | receive sub' =>
      cases hm
      refine withHub_congr hc ?_
      rw [← Hub.receive_bare, hhub, Hub.receive_bare]
    | _ => cases hm
  | addIndex k name extract =>
    cases m' with
    | addIndex k' name' extract' =>
      cases hm
      have hlookup : c.registry.lookup k = c'.registry.lookup k := congrArg (·.registry.lookup k) hc
      simp only [move, hlookup]
      split
      · exact bare_handleIndex hc _ name extract
      · exact hc
    | _ => cases hm

/-- Calls for a type fail alike or are made for the same kind. -/
theorem twins_ofType (hc : c.bare = c'.bare) (t : ResourceType) {blind : Prop}
    {begin_ begin_' : Kind → Call × Cache} (hbegin : ∀ k, Twins blind (begin_ k) (begin_' k)) :
    Twins blind (c.ofType t begin_) (c'.ofType t begin_') := by
  have hscheme : c.scheme = c'.scheme := congrArg (·.scheme) hc
  simp only [ofType, hscheme]
  split
  · exact twins_of_eq rfl hc
  · exact hbegin _

/-- The same uses of caches that differ in types only, which themselves may differ in types, leave
caches behind that differ in types only. -/
theorem bare_use (hc : c.bare = c'.bare) {u u' : Use} (hu : u.bare = u'.bare) :
    (c.use u).bare = (c'.use u').bare := by
  cases u with
  | move m =>
    cases u' with
    | move m' => exact bare_move hc (Use.move.inj hu)
    | _ => cases hu
  | get t key =>
    cases u' with
    | get t' key' =>
      cases hu
      exact bare_entered (twins_ofType hc t fun k => twins_beginGet hc k key (some t))
    | _ => cases hu
  | list t o =>
    cases u' with
    | list t' o' =>
      cases hu
      exact bare_entered (twins_ofType hc t fun k => twins_beginList hc k.list o (some t))
    | _ => cases hu
  | informer t =>
    cases u' with
    | informer t' =>
      cases hu
      exact bare_entered (twins_ofType hc t (twins_beginInformer hc))
    | _ => cases hu
  | index t field extract =>
    cases u' with
    | index t' field' extract' =>
      cases hu
      exact bare_entered (twins_ofType hc t fun k => twins_beginIndex hc k field extract)
    | _ => cases hu

theorem bare_useAll (hc : c.bare = c'.bare) {uses uses' : List Use}
    (huses : uses.map Use.bare = uses'.map Use.bare) :
    (c.useAll uses).bare = (c'.useAll uses').bare := by
  induction uses generalizing c c' uses' with
  | nil =>
    obtain rfl : uses' = [] := List.map_eq_nil_iff.mp huses.symm
    exact hc
  | cons u rest ih =>
    obtain ⟨u', rest', rfl, hu, hrest⟩ := List.map_eq_cons_iff.mp huses.symm
    exact ih (bare_use hc hu.symm) hrest.symm

end

end Cache

end WatchCache
