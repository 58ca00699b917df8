import WatchCache.Cache.Remote
import WatchCache.Proofs.Cache.Congruence
import WatchCache.Proofs.Cache.Connected

set_option autoImplicit false

/-!
# Empty namespaces and absent ones

A caller may write down that there is no namespace in two ways: by an empty one, or by none.  In
the *canonical* form it is none.  Every address and every list that a cache was asked for can be
put into this form, in the calls that wait and in the record of fetches; whatever happens to the
cache, it happens to the cache in canonical form as well.  So nobody can tell which of the two ways
a caller chose.
-/

namespace WatchCache

/-! ## Canonical forms -/

theorem nonEmpty_nonEmpty (ns : Option String) : nonEmpty (nonEmpty ns) = nonEmpty ns := by
  simp [nonEmpty]

namespace ObjectKey

/-- The address whose namespace is not empty. -/
def canonical (key : ObjectKey) : ObjectKey := .normal key.ns key.name

@[simp] theorem namespace?_canonical (key : ObjectKey) :
    key.canonical.namespace? = key.namespace? :=
  nonEmpty_nonEmpty key.ns

@[simp] theorem text_canonical (key : ObjectKey) : key.canonical.text = key.text := by
  rw [text, namespace?_canonical]
  rfl

end ObjectKey

namespace ListOptions

/-- The options whose namespace is not empty. -/
def canonical (o : ListOptions) : ListOptions := { o with ns := o.namespace? }

@[simp] theorem namespace?_canonical (o : ListOptions) : o.canonical.namespace? = o.namespace? :=
  nonEmpty_nonEmpty o.ns

end ListOptions

/-- The goal with its address or its options in canonical form. -/
def Goal.canonical : Goal → Goal
  | .get key type => .get key.canonical type
  | .list o type => .list o.canonical type
  | goal => goal

/-- The call with what it waits for in canonical form. -/
def Call.canonical : Call → Call
  | .syncing k token goal => .syncing k token goal.canonical
  | call => call

theorem Call.reply?_canonical (call : Call) : call.canonical.reply? = call.reply? := by
  cases call <;> rfl

/-- The fetch with its address in canonical form. -/
def FetchRecord.canonical (r : FetchRecord) : FetchRecord := ⟨r.kind, r.key.canonical⟩

/-! ## Stores -/

theorem Store.get?_canonical (s : Store) (key : ObjectKey) : s.get? key.canonical = s.get? key := by
  rw [get?, ObjectKey.text_canonical, get?]

theorem Store.list_canonical (s : Store) (o : ListOptions) : s.list o.canonical = s.list o := by
  have hcandidates : s.candidates o.canonical = s.candidates o := by
    rw [candidates, ListOptions.namespace?_canonical]
    rfl
  have hadmits : admits o.canonical = admits o := by
    funext object
    rw [admits, ListOptions.namespace?_canonical]
    rfl
  rw [list, hcandidates, hadmits, list]

theorem Hub.list_canonical (h : Hub) (id : Nat) (o : ListOptions) :
    h.list id o.canonical = h.list id o := by
  simp only [Hub.list, Store.list_canonical]

/-! ## Fetches -/

/-- The server is asked for the same and a failure is told in the same words. -/
theorem fetchObject_canonical (r : Resource) (key : ObjectKey) :
    fetchObject r key.canonical = fetchObject r key := by
  have herror : fetchError r key.canonical = fetchError r key := by
    funext f
    simp only [fetchError, ObjectKey.text_canonical]
  rw [fetchObject, ObjectKey.namespace?_canonical, herror]
  rfl

/-- A fetch does not depend on how its address is written. -/
def Connector.ReadsCanonical (c : Connector) : Prop :=
  ∀ made k key, c.fetch made k key.canonical = c.fetch made k key

theorem ApiServer.readsCanonical_connector (a : ApiServer) : a.connector.ReadsCanonical := by
  intro made k key
  simp only [connector, Endpoint.fetch, fetchObject_canonical]

theorem Script.readsCanonical_connector (s : Script) : s.connector.ReadsCanonical := by
  intro made k key
  simp only [connector, fetch, remoteEntry?, ObjectKey.text_canonical]

namespace Cache

/-- The cache with all calls and all fetches in canonical form. -/
def canonical (c : Cache) : Cache :=
  { c with calls := c.calls.map Call.canonical, fetchLog := c.fetchLog.map FetchRecord.canonical }

/-- The fallback works in the same way on a cache in canonical form. -/
theorem congruence_canonical : Congruence fun c r => r = c.canonical where
  setup_eq := by rintro c _ rfl; rfl
  isNamespaced_eq := by rintro c _ rfl; rfl
  isCancelled_eq := by rintro c _ rfl; rfl
  addTopic := by rintro c _ rfl buffer; exact ⟨rfl, rfl⟩
  addStore := by rintro c _ rfl k topic; rfl
  openSource := by
    rintro c _ rfl k ns selector
    have hanswer : c.canonical.connector.watchSource = c.connector.watchSource := rfl
    rw [openSource, openSource, hanswer]
    cases c.connector.watchSource k ns selector <;> exact ⟨rfl, rfl⟩
  withLoops := by rintro c _ rfl loops -; rfl
  withInformers := by rintro c _ rfl informers; rfl
  withStarted := by rintro c _ rfl; rfl
  withRunning := by rintro c _ rfl token; rfl

/-! ## Goals -/

theorem informerGet_canonical (c : Cache) (i : Informer) (key : ObjectKey) :
    c.canonical.informerGet i key.canonical = c.informerGet i key := by
  simp only [informerGet, ObjectKey.namespace?_canonical, ObjectKey.text_canonical,
    Store.get?_canonical]
  rfl

theorem listStores_canonical (o : ListOptions) (h : Hub) (stores : List Nat) :
    listStores o.canonical h stores = listStores o h stores := by
  induction stores generalizing h with
  | nil => rfl
  | cons id rest ih => simp only [listStores, Hub.list_canonical, ih]

theorem informerList_canonical (c : Cache) (i : Informer) (o : ListOptions) :
    c.canonical.informerList i o.canonical =
      ((c.informerList i o).1, (c.informerList i o).2.canonical) := by
  simp only [informerList, ListOptions.namespace?_canonical, listStores_canonical]
  rfl

theorem reach_canonical (c : Cache) (i : Informer) (goal : Goal) :
    c.canonical.reach i goal.canonical = ((c.reach i goal).1, (c.reach i goal).2.canonical) := by
  cases goal with
  | get key type =>
    simp only [Goal.canonical, reach, informerGet_canonical]
  | list o type =>
    simp only [Goal.canonical, reach, informerList_canonical]
  | informer => rfl
  | index field extract => rfl

theorem reaches_canonical (c : Cache) (i : Informer) (goal : Goal) :
    Reaches (fun call call' => call' = call.canonical) (fun c r => r = c.canonical) i goal
      goal.canonical c c.canonical := by
  refine ⟨fun _ _ => rfl, ?_, ?_⟩
  · rw [reach_canonical]
    rfl
  · rw [reach_canonical]

theorem beginFallback_canonical (c : Cache) (k : Kind) (goal : Goal) :
    c.canonical.beginFallback k goal.canonical =
      ((c.beginFallback k goal).1.canonical, (c.beginFallback k goal).2.canonical) := by
  have hbegun : Corresponds (fun call call' => call' = call.canonical) (fun c r => r = c.canonical)
      (c.beginFallback k goal) (c.canonical.beginFallback k goal.canonical) :=
    congruence_canonical.beginFallback rfl (fun _ => rfl) (fun _ => rfl)
      fun i opened _ _ _ hopened => hopened ▸ opened.reaches_canonical i goal
  exact Prod.ext hbegun.answer hbegun.cache

theorem beginStart_canonical (c : Cache) (token : Token) :
    c.canonical.beginStart token =
      ((c.beginStart token).1.canonical, (c.beginStart token).2.canonical) :=
  Prod.ext rfl (congruence_canonical.beginStart rfl token).cache

/-! ## Calls -/

theorem beginGet_canonical {c : Cache} (hc : c.connector.ReadsCanonical) (k : Kind)
    (key : ObjectKey) (type : Option ResourceType) :
    c.canonical.beginGet k key.canonical type =
      ((c.beginGet k key type).1.canonical, (c.beginGet k key type).2.canonical) := by
  have hsame : c.canonical.registry = c.registry ∧ c.canonical.hub = c.hub := ⟨rfl, rfl⟩
  have hfetch (r : Cache) (hr : r.connector = c.connector) (k : Kind) :
      r.canonical.connector.fetch r.canonical.fetchLog.length k key.canonical =
        r.connector.fetch r.fetchLog.length k key := by
    rw [show r.canonical.fetchLog.length = r.fetchLog.length from List.length_map _, hr]
    exact hr ▸ hc _ k key
  have hcount (series : Series) : c.canonical.count series = (c.count series).canonical := rfl
  simp only [beginGet, hsame, Store.get?_canonical, hcount, hfetch (c.count _) rfl]
  cases c.registry.lookup k with
  | none => exact (c.count (.reads "fallback")).beginFallback_canonical k (.get key type)
  | some e =>
    dsimp only
    split
    · rfl
    · refine congrArg (Prod.mk _) ?_
      simp only [canonical, List.map_append, List.map_singleton, FetchRecord.canonical]

theorem beginList_canonical (c : Cache) (k : Kind) (o : ListOptions) (type : Option ResourceType) :
    c.canonical.beginList k o.canonical type =
      ((c.beginList k o type).1.canonical, (c.beginList k o type).2.canonical) := by
  have hregistry : c.canonical.registry = c.registry := rfl
  simp only [beginList, hregistry, Hub.list_canonical]
  cases c.registry.lookup k with
  | none => exact (c.count (.reads "fallback")).beginFallback_canonical k.item (.list o type)
  | some e => rfl

theorem beginInformer_canonical (c : Cache) (k : Kind) :
    c.canonical.beginInformer k =
      ((c.beginInformer k).1.canonical, (c.beginInformer k).2.canonical) := by
  have hregistry : c.canonical.registry = c.registry := rfl
  simp only [beginInformer, hregistry]
  cases c.registry.lookup k with
  | none => exact c.beginFallback_canonical k .informer
  | some e => rfl

theorem beginIndex_canonical (c : Cache) (k : Kind) (field : String) (extract : Extractor) :
    c.canonical.beginIndex k field extract =
      ((c.beginIndex k field extract).1.canonical, (c.beginIndex k field extract).2.canonical) := by
  have hregistry : c.canonical.registry = c.registry := rfl
  simp only [beginIndex, hregistry]
  cases c.registry.lookup k with
  | none => exact c.beginFallback_canonical k (.index field extract)
  | some e => rfl

theorem poll_canonical (c : Cache) (call : Call) :
    c.canonical.poll call.canonical = ((c.poll call).1.canonical, (c.poll call).2.canonical) := by
  have hsynced : c.canonical.hub.isSynced = c.hub.isSynced := rfl
  have hpoised : Poised (fun call call' => call' = call.canonical) (fun c r => r = c.canonical) c
      c.canonical call call.canonical := by
    cases call with
    | finished reply => exact .finished reply reply
    | running token => exact .running token
    | fetching k due answer type => exact .fetching rfl (by cases answer <;> exact ⟨rfl, rfl⟩)
    | syncing k token goal => exact .syncing fun i _ => c.reaches_canonical i goal
    | awaitingDedicated token => exact .awaitingDedicated hsynced token
    | awaitingFallback stores token => exact .awaitingFallback hsynced stores token
  have hpolled : Corresponds (fun call call' => call' = call.canonical) (fun c r => r = c.canonical)
      (c.poll call) (c.canonical.poll call.canonical) :=
    congruence_canonical.poll rfl rfl hpoised (fun _ => rfl) fun _ _ => rfl
  exact Prod.ext hpolled.answer hpolled.cache

/-! ## Uses -/

/-- The request in canonical form. -/
def Request.canonical : Request → Request
  | .get k key => .get k key.canonical
  | .list k o => .list k o.canonical
  | r => r

/-- The act in canonical form. -/
def Act.canonical : Act → Act
  | .request r => .request r.canonical
  | a => a

/-- The move in canonical form. -/
def Move.canonical : Move → Move
  | .act a => .act a.canonical
  | m => m

/-- The use in canonical form. -/
def Use.canonical : Use → Use
  | .move m => .move m.canonical
  | .get t key => .get t key.canonical
  | .list t o => .list t o.canonical
  | u => u

section

variable {c : Cache} (hc : c.connector.ReadsCanonical)

include hc

theorem begin_canonical (r : Request) :
    c.canonical.begin r.canonical = ((c.begin r).1.canonical, (c.begin r).2.canonical) := by
  cases r with
  | get k key => exact beginGet_canonical hc k key none
  | list k o => exact c.beginList_canonical k o none
  | informer k => exact c.beginInformer_canonical k
  | index k field extract => exact c.beginIndex_canonical k field extract
  | start token => exact c.beginStart_canonical token
  | waitForSync token => rfl

omit hc in
theorem entered_canonical (begun : Call × Cache) :
    entered (begun.1.canonical, begun.2.canonical) = (entered begun).canonical := by
  simp only [entered, withCalls, canonical, List.map_append, List.map_singleton]

theorem act_canonical (a : Act) : c.canonical.act a.canonical = (c.act a).canonical := by
  cases a with
  | request r =>
    show entered (c.canonical.begin r.canonical) = (entered (c.begin r)).canonical
    rw [begin_canonical hc, entered_canonical]
  | poll id =>
    have hcalls : c.canonical.calls[id]? = (c.calls[id]?).map Call.canonical := List.getElem?_map
    simp only [Act.canonical, act, hcalls]
    cases c.calls[id]? with
    | none => rfl
    | some call =>
      simp only [Option.map_some, poll_canonical]
      simp only [withCalls, canonical, List.map_set]
  | step loop => rfl
  | outside s => rfl
  | addIndex k name extract =>
    simp only [Act.canonical, act, show c.canonical.informers = c.informers from rfl]
    split <;> rfl
  | reconnect connector => rfl

theorem move_canonical (m : Move) : c.canonical.move m.canonical = (c.move m).canonical := by
  cases m with
  | act a => exact act_canonical hc a
  | subscribe topic => rfl
  | unsubscribe sub => rfl
  | receive sub => rfl
  | addIndex k name extract =>
    simp only [Move.canonical, move, show c.canonical.registry = c.registry from rfl]
    split <;> rfl

/-- A use in canonical form of a cache in canonical form leaves it in canonical form. -/
theorem use_canonical (u : Use) : c.canonical.use u.canonical = (c.use u).canonical := by
  have hofType (t : ResourceType) (begin_ begin' : Kind → Call × Cache)
      (hbegin : ∀ k, begin' k = ((begin_ k).1.canonical, (begin_ k).2.canonical)) :
      entered (c.canonical.ofType t begin') = (entered (c.ofType t begin_)).canonical := by
    rw [← entered_canonical]
    refine congrArg entered ?_
    simp only [ofType, show c.canonical.scheme = c.scheme from rfl, hbegin]
    cases c.scheme.kindOf t <;> rfl
  cases u with
  | move m => exact move_canonical hc m
  | get t key => exact hofType t _ _ fun k => beginGet_canonical hc k key (some t)
  | list t o => exact hofType t _ _ fun k => c.beginList_canonical k.list o (some t)
  | informer t => exact hofType t _ _ c.beginInformer_canonical
  | index t field extract => exact hofType t _ _ fun k => c.beginIndex_canonical k field extract

theorem useAll_canonical {uses : List Use}
    (huses : ∀ u ∈ uses, u.Connects Connector.ReadsCanonical) :
    c.canonical.useAll (uses.map Use.canonical) = (c.useAll uses).canonical := by
  induction uses generalizing c with
  | nil => rfl
  | cons u rest ih =>
    obtain ⟨hu, hrest⟩ := List.forall_mem_cons.mp huses
    show (c.canonical.use u.canonical).useAll (rest.map Use.canonical) = _
    rw [use_canonical hc]
    exact ih (hu.use hc) hrest

end

/-! ## Readers -/

/-- Nobody can tell two caches apart: their stores, subscribers and measurements are the same, and
so are the sources that they asked for and, in canonical form, their calls and their fetches. -/
structure Indistinct (c c' : Cache) : Prop where
  hub : c.hub = c'.hub
  watchLog : c.watchLog = c'.watchLog
  fetchLog : c.fetchLog.map FetchRecord.canonical = c'.fetchLog.map FetchRecord.canonical
  calls : c.calls.map Call.canonical = c'.calls.map Call.canonical
  replies : ∀ id, c.reply? id = c'.reply? id

theorem indistinct_of_canonical {c c' : Cache} (hsame : c.canonical = c'.canonical) :
    Indistinct c c' where
  hub := (congrArg hub hsame :)
  watchLog := (congrArg watchLog hsame :)
  fetchLog := congrArg fetchLog hsame
  calls := congrArg calls hsame
  replies := by
    intro id
    have hreply (r : Cache) : r.canonical.reply? id = r.reply? id := by
      have hcall : r.canonical.calls[id]? = (r.calls[id]?).map Call.canonical := List.getElem?_map
      rw [reply?, reply?, hcall]
      cases r.calls[id]? with
      | none => rfl
      | some call => exact call.reply?_canonical
    rw [← hreply c, hsame, hreply c']

/-- An empty namespace and an absent one are the same to readers.

A cache is used in any way; then an object is got, or objects are listed, by kind or by type, with
no namespace, which is written down either as an empty one or as none; then the cache is used in
any way again.  Nobody can tell which of the two it was: the same path was taken and counted, the
same sources and the same object were asked for, and all calls have the same replies.  All this is
so for dedicated kinds and for the fallback, with one store for all namespaces or one for each.
What the connector fetches must not depend on the two forms, and a server is indeed asked for the
same object in both, and its failures are told in the same words. -/
theorem empty_namespace_reads_as_absent {c : Cache} (hc : c.connector.ReadsCanonical)
    {before later : List Use}
    (huses : ∀ u ∈ before ++ later, u.Connects Connector.ReadsCanonical) :
    let after (u : Use) : Cache := c.useAll (before ++ u :: later)
    (∀ k name, Indistinct (after (.move (.act (.request (.get k ⟨some "", name⟩)))))
      (after (.move (.act (.request (.get k ⟨none, name⟩)))))) ∧
    (∀ t name, Indistinct (after (.get t ⟨some "", name⟩)) (after (.get t ⟨none, name⟩))) ∧
    (∀ k (o : ListOptions), Indistinct
      (after (.move (.act (.request (.list k { o with ns := some "" })))))
      (after (.move (.act (.request (.list k { o with ns := none })))))) ∧
    (∀ t (o : ListOptions), Indistinct (after (.list t { o with ns := some "" }))
      (after (.list t { o with ns := none }))) ∧
    ∀ r name, fetchObject r ⟨some "", name⟩ = fetchObject r ⟨none, name⟩ := by
  intro after
  have hall {u : Use} (hu : u.Connects Connector.ReadsCanonical) :
      ∀ v ∈ before ++ u :: later, v.Connects Connector.ReadsCanonical := by
    intro v hv
    rcases List.mem_append.mp hv with hbefore | hrest
    · exact huses v (List.mem_append_left later hbefore)
    · rcases List.mem_cons.mp hrest with rfl | hlater
      · exact hu
      · exact huses v (List.mem_append_right before hlater)
  have hsame {u u' : Use} (hu : u.Connects Connector.ReadsCanonical)
      (hu' : u'.Connects Connector.ReadsCanonical) (heq : u.canonical = u'.canonical) :
      Indistinct (after u) (after u') := by
    refine indistinct_of_canonical ?_
    rw [← useAll_canonical hc (hall hu), ← useAll_canonical hc (hall hu')]
    simp only [List.map_append, List.map_cons, heq]
  refine ⟨fun k name => hsame (fun _ => nofun) (fun _ => nofun) rfl,
    fun t name => hsame (fun _ => nofun) (fun _ => nofun) rfl,
    fun k o => hsame (fun _ => nofun) (fun _ => nofun) rfl,
    fun t o => hsame (fun _ => nofun) (fun _ => nofun) rfl, fun r name => ?_⟩
  rw [← fetchObject_canonical r ⟨some "", name⟩, ← fetchObject_canonical r ⟨none, name⟩]
  rfl

/-- A dedicated kind without namespaces, whose object has to be fetched, and a kind of the fallback
with a store for one namespace. -/
theorem empty_namespace_reads_as_absent_on_each_path :
    let node : Kind := ⟨"", "v1", "Node"⟩
    let widget : Kind := ⟨"example.io", "v1", "Widget"⟩
    let n1 : Object := { metadata := { name := some "n1" } }
    let w1 : Object := { metadata := { name := some "w1", ns := some "ops" } }
    let script : Script :=
      { kinds := [(node, false), (widget, true)], remote := [⟨node.key, "n1", 0, .ok n1⟩] }
    let new : Cache := { connector := script.connector }
    let get (k : Kind) (key : ObjectKey) : Use := .move (.act (.request (.get k key)))
    let list (o : ListOptions) : Use := .move (.act (.request (.list widget o)))
    let fed : List Use :=
      [.move (.act (.request (.informer widget))),
        .move (.act (.outside (.feed 1 (.restarted [w1])))),
        .move (.act (.request (.start "main"))), .move (.act (.step 1)), .move (.act (.step 1))]
    ∃ c, (new.withNamespaces ["ops"]).addDedicatedAll [node] = .ok c ∧
      (c.useAll [get node ⟨some "", "n1"⟩, .move (.act (.poll 0))]).reply? 0 =
        some (.object (n1.stamp node)) ∧
      (c.useAll [get widget ⟨some "", "w1"⟩]).reply? 0 =
        some (.failed (.notFound widget.key "w1")) ∧
      (c.useAll (fed ++ [list { ns := some "" }])).reply? 2 =
        some (.objects [w1.stamp widget]) := by
  intro node widget n1 w1 script new get list fed
  obtain ⟨c, hbuild, hconnector, hfetched, hmissing, hlisted⟩ :
      ∃ c, (new.withNamespaces ["ops"]).addDedicatedAll [node] = .ok c ∧
        c.connector = script.connector ∧
        (c.useAll [get node ⟨none, "n1"⟩, .move (.act (.poll 0))]).reply? 0 =
          some (.object (n1.stamp node)) ∧
        (c.useAll [get widget ⟨none, "w1"⟩]).reply? 0 =
          some (.failed (.notFound widget.key "w1")) ∧
        (c.useAll (fed ++ [list {}])).reply? 2 = some (.objects [w1.stamp widget]) :=
    ⟨_, rfl, rfl, by decide +kernel, by decide +kernel, by decide +kernel⟩
  have hc : c.connector.ReadsCanonical := hconnector ▸ script.readsCanonical_connector
  have hnone : ∀ u ∈ ([] ++ [] : List Use), u.Connects Connector.ReadsCanonical := by simp
  have hpoll : ∀ u ∈ [] ++ [Use.move (.act (.poll 0))], u.Connects Connector.ReadsCanonical := by
    simp [Use.Connects]
  have hfed : ∀ u ∈ fed ++ [], u.Connects Connector.ReadsCanonical := by
    simp [fed, Use.Connects]
  obtain ⟨hget, -⟩ := empty_namespace_reads_as_absent hc hpoll
  obtain ⟨hget', -⟩ := empty_namespace_reads_as_absent hc hnone
  obtain ⟨-, -, hlist, -⟩ := empty_namespace_reads_as_absent hc hfed
  exact ⟨c, hbuild, ((hget node "n1").replies 0).trans hfetched,
    ((hget' widget "w1").replies 0).trans hmissing, ((hlist widget {}).replies 2).trans hlisted⟩

end Cache

end WatchCache
