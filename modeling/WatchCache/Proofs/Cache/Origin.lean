import WatchCache.Proofs.Cache.Links
import WatchCache.Proofs.Hub.Subscription
import WatchCache.Proofs.Selector.Reading

set_option autoImplicit false

/-!
# Where objects come from

A cache makes no objects.  What its stores hold was delivered to them; what it publishes is in a
table before or after the event that is published; what it returns to a reader was in a table or
was fetched, and is stamped with the kind it was read as.  So a property that all objects have
which the connector has for a kind is one of all objects that anybody receives.
-/

namespace WatchCache

section

variable {P : Kind → Object → Prop}

/-! ## Stores -/

/-- All objects of a store have a property. -/
def Store.Holds (P : Kind → Object → Prop) (s : Store) : Prop := ∀ o ∈ s.indexer.all, P s.kind o

/-- An object as readers receive it. -/
def Stamped (P : Kind → Object → Prop) (o : Object) : Prop := ∃ k raw, P k raw ∧ o = raw.stamp k

/-- The objects that a change tells of have a property. -/
def Change.About (p : Object → Prop) (ch : Change) : Prop :=
  ∀ o, ch.before = some o ∨ ch.after = some o → p o

theorem Event.exists_of_tableOf {told : List Event} {key : String} {o : Object}
    (h : tableOf told key = some o) : ∃ e ∈ told, o ∈ e.brings := by
  induction told using List.reverseRecOn with
  | nil => cases h
  | append_singleton told e ih =>
    rw [tableOf_concat] at h
    rcases effect_eq_some h with hold | ⟨hbrings, -⟩
    · obtain ⟨e', he', ho⟩ := ih hold
      exact ⟨e', List.mem_append_left _ he', ho⟩
    · exact ⟨e, List.mem_append_right _ (List.mem_singleton_self e), hbrings⟩

namespace Store

variable {s : Store}

theorem Holds.of_get? (hs : s.Holds P) {key : String} {o : Object}
    (ho : s.indexer.get? key = some o) : P s.kind o :=
  hs o (List.mem_map_of_mem (Table.mem_of_find? ho))

theorem Holds.get (hs : s.Holds P) {key : ObjectKey} {o : Object} (ho : s.get? key = some o) :
    Stamped P o := by
  obtain ⟨raw, hraw, rfl⟩ := Option.map_eq_some_iff.mp ho
  exact ⟨s.kind, raw, hs.of_get? hraw, rfl⟩

theorem Holds.byIndex (hs : s.Holds P) {name value : String} {found : List Object}
    (hfound : s.indexer.byIndex name value = .ok found) : ∀ o ∈ found, P s.kind o := by
  unfold Indexer.byIndex at hfound
  split at hfound
  · cases hfound
  · cases hfound
    intro o ho
    obtain ⟨key, -, hkey⟩ := List.mem_filterMap.mp ho
    exact hs.of_get? hkey

theorem Holds.list (hs : s.Holds P) {o : ListOptions} {objects : List Object}
    (hlist : s.list o = .ok objects) : ∀ object ∈ objects, Stamped P object := by
  have hcandidates {found : List Object} (hfound : s.candidates o = .ok found) :
      ∀ raw ∈ found, P s.kind raw := by
    unfold candidates at hfound
    split at hfound
    · split at hfound
      · exact hs.byIndex hfound
      · cases hfound
    · exact hs.byIndex hfound
    · cases hfound
      exact hs
  unfold Store.list at hlist
  obtain ⟨found, hfound, hstamped⟩ := LabelSelector.bind_eq_ok_iff.mp hlist
  cases hstamped
  intro object hobject
  obtain ⟨raw, hraw, rfl⟩ := List.mem_map.mp hobject
  exact ⟨s.kind, raw, hcandidates hfound raw (List.mem_filter.mp hraw).1, rfl⟩

/-- What an event changes was in the table, or the event brings it. -/
theorem Holds.changes (hs : s.Holds P) {e : Event} (he : ∀ o ∈ e.brings, P s.kind o) :
    ∀ ch ∈ s.changes e, ch.About (P s.kind) := by
  have hchangeTo {key : String} {new : Object} (hnew : P s.kind new) :
      (changeTo (s.indexer.get? key) new).About (P s.kind) := by
    intro o ho
    rw [before_changeTo, after_changeTo] at ho
    exact ho.elim hs.of_get? fun hsame => Option.some.inj hsame ▸ hnew
  have hdeleted {old : Object} (hold : P s.kind old) : (Change.deleted old).About (P s.kind) := by
    intro o ho
    exact ho.elim (fun hsame => Option.some.inj hsame ▸ hold) nofun
  intro ch hch
  cases e with
  | applied new =>
    obtain rfl := List.mem_singleton.mp hch
    exact hchangeTo (he new (List.mem_singleton_self new))
  | deleted o =>
    obtain ⟨old, hold, rfl⟩ := Option.map_eq_some_iff.mp (Option.mem_toList.mp hch)
    exact hdeleted (hs.of_get? hold)
  | restarted objects =>
    rw [changes_restarted] at hch
    rcases List.mem_append.mp hch with hlisted | hvanished
    · obtain ⟨⟨key, new⟩, hnew, rfl⟩ := List.mem_map.mp hlisted
      exact hchangeTo (he new (mem_listing hnew).1)
    · obtain ⟨⟨key, old⟩, hold, rfl⟩ := List.mem_map.mp hvanished
      exact hdeleted (hs old (List.mem_map_of_mem (List.mem_filter.mp hold).1))

variable {scripts : Kind → List (List Item) → Prop} {told : List Event}

/-- What a store was told has the property that the scripts ensure. -/
theorem Follows.brings (hs : s.Follows scripts told)
    (hP : ∀ k script, scripts k script → ∀ e ∈ eventsOf script, ∀ o ∈ e.brings, P k o) :
    ∀ e ∈ told, ∀ o ∈ e.brings, P s.kind o := by
  intro e he
  rcases hs.order with rfl | ⟨script, hscript, hfirst⟩
  · cases he
  · exact hP s.kind script hscript e (hfirst.subset he)

theorem Follows.holds (hs : s.Follows scripts told)
    (hP : ∀ k script, scripts k script → ∀ e ∈ eventsOf script, ∀ o ∈ e.brings, P k o) :
    s.Holds P := by
  intro o ho
  obtain ⟨⟨key, o⟩, hmem, rfl⟩ := List.mem_map.mp ho
  have hfind : s.indexer.get? key = some o := hs.distinct.find?_of_mem hmem
  rw [hs.table] at hfind
  obtain ⟨e, he, hbrings⟩ := Event.exists_of_tableOf hfind
  exact hs.brings hP e he o hbrings

end Store

/-! ## Hubs -/

namespace Hub

/-- All objects of all stores have a property. -/
def Holds (P : Kind → Object → Prop) (h : Hub) : Prop :=
  ∀ id s, h.store? id = some s → s.Holds P

/-- All that was published on a topic has a property, for the kind of a store that publishes
there. -/
def Published (P : Kind → Object → Prop) (h : Hub) : Prop :=
  ∀ topic t, h.topics[topic]? = some t → ∀ ch ∈ t.log, ∃ id s,
    h.wiring.1[id]? = some topic ∧ h.store? id = some s ∧ ch.About (P s.kind)

/-- The stores publish where they did, and what was published is what it was; on new topics that
is nothing. -/
structure KeepsPublished (h r : Hub) : Prop where
  wiring : h.wiring.1 <+: r.wiring.1
  topics : ∀ (topic : Nat) (t : Topic), r.topics[topic]? = some t →
    h.topics[topic]? = some t ∨ t.log = []

variable {h r : Hub}

theorem keepsPublished_of_eq (hwiring : r.wiring.1 = h.wiring.1) (htopics : r.topics = h.topics) :
    KeepsPublished h r :=
  ⟨hwiring ▸ List.prefix_rfl, fun _ _ ht => Or.inl (htopics ▸ ht)⟩

theorem Alike.keepsPublished (halike : Alike r h) : KeepsPublished h r :=
  keepsPublished_of_eq (congrArg (List.map StoreCell.topic) halike.stores) halike.topics

theorem Holds.unfed (hh : h.Holds P) (hr : Unfed h r) : r.Holds P := by
  intro id t ht
  rcases hr.store_cases ht with ⟨s, hs, hkind, hitems⟩ | ⟨-, hempty⟩
  · intro o ho
    rw [Indexer.all, hitems] at ho
    rw [hkind]
    exact hh id s hs o ho
  · intro o ho
    rw [Indexer.all, hempty] at ho
    cases ho

theorem Published.keeps (hh : h.Published P) (hr : KeepsPublished h r)
    (hkinds : ∀ id s, h.store? id = some s → ∃ t, r.store? id = some t ∧ t.kind = s.kind) :
    r.Published P := by
  intro topic t ht ch hch
  rcases hr.topics topic t ht with hold | hsilent
  · obtain ⟨id, s, hwired, hs, habout⟩ := hh topic t hold ch hch
    obtain ⟨s', hs', hkind⟩ := hkinds id s hs
    obtain ⟨hlt, hsome⟩ := List.getElem?_eq_some_iff.mp hwired
    exact ⟨id, s', hsome ▸ List.prefix_iff_getElem?.mp hr.wiring id hlt, hs', hkind ▸ habout⟩
  · rw [hsilent] at hch
    cases hch

/-- What was published by the time that an event was applied was published before, or the store
published it with the event. -/
theorem mem_log_apply {store topic : Nat} {e : Event} {t : Topic} {ch : Change}
    (ht : (h.apply store e).topics[topic]? = some t) (hch : ch ∈ t.log) :
    (∃ old, h.topics[topic]? = some old ∧ ch ∈ old.log) ∨
      ∃ s, h.store? store = some s ∧ h.wiring.1[store]? = some topic ∧ ch ∈ s.changes e := by
  cases hcell : h.stores[store]? with
  | none =>
    have hnothing : h.apply store e = h := by simp only [apply, hcell]
    rw [hnothing] at ht
    exact Or.inl ⟨t, ht, hch⟩
  | some cell =>
    rw [topics_apply hcell] at ht
    split at ht
    · rw [List.getElem?_modify] at ht
      obtain ⟨old, hold, rfl⟩ := Option.map_eq_some_iff.mp ht
      split at hch
      · next htopic =>
        rcases List.mem_append.mp hch with hbefore | hnew
        · exact Or.inl ⟨old, hold, hbefore⟩
        · have hs : h.store? store = some cell.store := by rw [store?, hcell]; rfl
          have hwired : h.wiring.1[store]? = some topic := by
            show (h.stores.map StoreCell.topic)[store]? = some topic
            rw [List.getElem?_map, hcell, ← htopic]
            rfl
          exact Or.inr ⟨cell.store, hs, hwired, hnew⟩
      · exact Or.inl ⟨old, hold, hch⟩
    · exact Or.inl ⟨t, ht, hch⟩

/-- What is published with an event was in a table, or the event brings it. -/
theorem Published.deliver (hh : h.Published P) (hheld : h.Holds P) {d : Delivery}
    (hd : ∀ s, h.store? d.store = some s → ∀ o ∈ d.event.brings, P s.kind o) :
    (h.apply d.store d.event).Published P := by
  intro topic t ht ch hch
  have hpublisher : ∃ id s, h.wiring.1[id]? = some topic ∧ h.store? id = some s ∧
      ch.About (P s.kind) := by
    rcases mem_log_apply ht hch with ⟨old, hold, hbefore⟩ | ⟨s, hs, hwired, hnew⟩
    · exact hh topic old hold ch hbefore
    · exact ⟨d.store, s, hwired, hs, (hheld d.store s hs).changes (hd s hs) ch hnew⟩
  obtain ⟨id, s, hwired, hs, habout⟩ := hpublisher
  have hkind : (if d.store = id then s.apply d.event else s).kind = s.kind := by
    split
    · exact Store.kind_apply s d.event
    · rfl
  refine ⟨id, if d.store = id then s.apply d.event else s, ?_, ?_, hkind.symm ▸ habout⟩
  · rw [wiring_apply]
    exact hwired
  · rw [store?_apply, hs]
    rfl

end Hub

/-! ## Replies -/

/-- A resource that was decoded from an object as readers receive it. -/
def DecodedFrom (P : Kind → Object → Prop) (resource : Json) : Prop :=
  ∃ (type : ResourceType) (o : Object), Stamped P o ∧ type.decode o = .ok resource

/-- All objects of a reply, and all that its resources were decoded from, have a property. -/
def Reply.From (P : Kind → Object → Prop) : Reply → Prop
  | .object o => Stamped P o
  | .objects found => ∀ o ∈ found, Stamped P o
  | .resource j => DecodedFrom P j
  | .resources found => ∀ j ∈ found, DecodedFrom P j
  | _ => True

/-- All objects that a call has or waits for have a property. -/
def Call.From (P : Kind → Object → Prop) : Call → Prop
  | .finished reply => reply.From P
  | .fetching k _ answer _ => ∀ o, answer = .ok o → P k o
  | _ => True

/-- All objects that are fetched have a property. -/
def Connector.Fetches (P : Kind → Object → Prop) (connector : Connector) : Prop :=
  ∀ made k key o, (connector.fetch made k key).answer = .ok o → P k o

namespace Cache

theorem from_objectReply (type : Option ResourceType) {answer : Answer Object}
    (hanswer : ∀ o, answer = .ok o → Stamped P o) : (objectReply type answer).From P := by
  cases answer with
  | error e => cases type <;> trivial
  | ok o =>
    cases type with
    | none => exact hanswer o rfl
    | some t =>
      cases hdecode : t.decode o with
      | error e =>
        simp only [objectReply, Except.bind, hdecode]
        trivial
      | ok resource =>
        simp only [objectReply, Except.bind, hdecode]
        exact ⟨t, o, hanswer o rfl, hdecode⟩

theorem from_objectsReply (type : Option ResourceType) {answer : Answer (List Object)}
    (hanswer : ∀ objects, answer = .ok objects → ∀ o ∈ objects, Stamped P o) :
    (objectsReply type answer).From P := by
  cases answer with
  | error e => cases type <;> trivial
  | ok objects =>
    cases type with
    | none => exact hanswer objects rfl
    | some t =>
      cases hdecode : objects.mapM t.decode with
      | error e =>
        simp only [objectsReply, Except.bind, hdecode]
        trivial
      | ok resources =>
        simp only [objectsReply, Except.bind, hdecode]
        intro resource hresource
        obtain ⟨o, ho, hok⟩ := LabelSelector.exists_of_mapM_eq_ok hdecode resource hresource
        exact ⟨t, o, hanswer objects rfl o ho, hok⟩

theorem stamped_list {h : Hub} (hh : h.Holds P) {id : Nat} {o : ListOptions}
    {objects : List Object} (hlist : (h.list id o).1 = .ok objects) :
    ∀ object ∈ objects, Stamped P object := by
  unfold Hub.list at hlist
  split at hlist
  · cases hlist
    exact fun object hobject => absurd hobject List.not_mem_nil
  · next s hs =>
    split at hlist
    · next found hfound =>
      cases hlist
      exact (hh id s hs).list hfound
    · cases hlist

theorem stamped_listStores {h : Hub} (hh : h.Holds P) {o : ListOptions} {stores : List Nat}
    {objects : List Object} (hlist : (listStores o h stores).1 = .ok objects) :
    ∀ object ∈ objects, Stamped P object := by
  induction stores generalizing h objects with
  | nil =>
    cases hlist
    exact fun object hobject => absurd hobject List.not_mem_nil
  | cons id rest ih =>
    obtain ⟨metrics, hmetrics⟩ := exists_list o h id
    have hfirst {found : List Object} (hfound : (h.list id o).1 = .ok found) :
        ∀ object ∈ found, Stamped P object := stamped_list hh hfound
    rw [listStores] at hlist
    split at hlist
    · cases hlist
    · next found counted hfound =>
      rw [hfound] at hmetrics hfirst
      obtain rfl : counted = _ := hmetrics
      split at hlist
      · cases hlist
      · next more _ hmore =>
        cases hlist
        have hrest : ∀ object ∈ more, Stamped P object :=
          ih (h := { h with metrics := metrics }) hh (by rw [hmore])
        intro object hobject
        exact (List.mem_append.mp hobject).elim (hfirst rfl object) (hrest object)

section

variable {c : Cache} (hh : c.hub.Holds P)

include hh

theorem stamped_informerGet {i : Informer} {key : ObjectKey} {o : Object}
    (hget : c.informerGet i key = .ok o) : Stamped P o := by
  unfold informerGet at hget
  split at hget
  · next found hfound =>
    cases hget
    obtain ⟨s, hs, ho⟩ := Option.bind_eq_some_iff.mp hfound
    obtain ⟨id, -, hs⟩ := Option.bind_eq_some_iff.mp hs
    exact (hh id s hs).get ho
  · cases hget

theorem from_reach (i : Informer) (goal : Goal) : (c.reach i goal).1.From P := by
  cases goal with
  | get key type => exact from_objectReply type fun o ho => stamped_informerGet hh ho
  | list o type => exact from_objectsReply type fun objects ho => stamped_listStores hh ho
  | informer => trivial
  | index field extract =>
    simp only [reach, replyOf]
    split <;> trivial

theorem from_beginFallback (k : Kind) (goal : Goal) : (c.beginFallback k goal).1.From P := by
  rcases hbegin : c.beginFallback k goal with ⟨call, begun⟩
  cases begun_of_beginFallback hbegin with
  | fails _ _ => trivial
  | waits _ _ _ => trivial
  | @reaches i opened hopen _ =>
    have hopened : Hub.Unfed c.hub opened.hub := by
      have hextends : c.hub.Extends (fun _ _ => True) (c.openInformer k).2.hub :=
        c.extends_openInformer k
      rw [hopen] at hextends
      exact hextends.unfed
    exact from_reach (hh.unfed hopened) i goal

theorem from_beginGet (hf : c.connector.Fetches P) (k : Kind) (key : ObjectKey)
    (type : Option ResourceType) : (c.beginGet k key type).1.From P := by
  simp only [beginGet]
  split
  · exact from_beginFallback (c := c.count _) hh k _
  · split
    · next o ho =>
      obtain ⟨s, hs, ho⟩ := Option.bind_eq_some_iff.mp ho
      refine from_objectReply type fun o' ho' => ?_
      cases ho'
      exact (hh _ s hs).get ho
    · exact fun o ho => hf _ _ key o ho

theorem from_beginList (k : Kind) (o : ListOptions) (type : Option ResourceType) :
    (c.beginList k o type).1.From P := by
  simp only [beginList]
  split
  · exact from_objectsReply type fun objects ho =>
      stamped_list (h := (c.count (.reads "store")).hub) hh ho
  · exact from_beginFallback (c := c.count _) hh _ _

theorem from_beginInformer (k : Kind) : (c.beginInformer k).1.From P := by
  simp only [beginInformer]
  split
  · trivial
  · exact from_beginFallback hh k _

theorem from_beginIndex (k : Kind) (field : String) (extract : Extractor) :
    (c.beginIndex k field extract).1.From P := by
  simp only [beginIndex]
  split
  · simp only [replyOf]
    split <;> trivial
  · exact from_beginFallback hh k _

theorem from_begin (hf : c.connector.Fetches P) (r : Request) : (c.begin r).1.From P := by
  cases r with
  | get k key => exact from_beginGet hh hf k key none
  | list k o => exact from_beginList hh k o none
  | informer k => exact from_beginInformer hh k
  | index k field extract => exact from_beginIndex hh k field extract
  | start token => trivial
  | waitForSync token => trivial

theorem from_poll {call : Call} (hcall : call.From P) : (c.poll call).1.From P := by
  have hfallback (stores : List Nat) (token : Token) : (c.pollFallback stores token).From P := by
    unfold pollFallback
    split <;> trivial
  cases call with
  | finished reply => exact hcall
  | running token =>
    rw [poll]
    split <;> trivial
  | fetching k due answer type =>
    rw [poll]
    split
    · cases answer with
      | error e => trivial
      | ok o =>
        refine from_objectReply type fun o' ho' => ?_
        cases ho'
        exact ⟨k, o, hcall o rfl, rfl⟩
    · exact hcall
  | awaitingFallback stores token => exact hfallback stores token
  | awaitingDedicated token =>
    rw [poll]
    split
    · trivial
    · trivial
    · exact hfallback _ token
  | syncing k token goal =>
    rcases hpoll : c.poll (.syncing k token goal) with ⟨next, polled⟩
    cases polled_of_poll hpoll with
    | waits _ => trivial
    | stops _ _ => trivial
    | reaches _ _ => exact from_reach hh _ goal

/-! ## Uses -/

theorem from_use (hf : c.connector.Fetches P) (hcalls : ∀ call ∈ c.calls, call.From P) (u : Use) :
    ∀ call ∈ (c.use u).calls, call.From P := by
  have hentered {begun : Call × Cache} (hsame : begun.2.calls = c.calls)
      (hbegun : begun.1.From P) : ∀ call ∈ (entered begun).calls, call.From P := by
    intro call hcall
    rcases List.mem_append.mp hcall with hold | hnew
    · exact hcalls call (hsame ▸ hold)
    · exact List.mem_singleton.mp hnew ▸ hbegun
  have hofType {t : ResourceType} {begin_ : Kind → Call × Cache}
      (hbegin : ∀ k, (begin_ k).1.From P) : (c.ofType t begin_).1.From P := by
    unfold ofType
    split
    · trivial
    · exact hbegin _
  cases u with
  | move m =>
    cases m with
    | act a =>
      cases a with
      | request r => exact hentered (c.calls_begin r) (from_begin hh hf r)
      | poll id =>
        simp only [use, move, act]
        split
        · next call hfound =>
          intro other hother
          rcases List.mem_or_eq_of_mem_set hother with hold | rfl
          · exact hcalls other (c.calls_poll call ▸ hold)
          · exact from_poll hh (hcalls call (List.mem_of_getElem? hfound))
        · exact hcalls
      | addIndex k name extract =>
        simp only [use, move, act]
        split <;> exact hcalls
      | step loop | outside s | reconnect connector => exact hcalls
    | addIndex k name extract =>
      simp only [use, move]
      split <;> exact hcalls
    | subscribe topic | unsubscribe sub | receive sub => exact hcalls
  | get t key =>
    exact hentered (c.calls_ofType t fun k => c.calls_beginGet k key (some t))
      (hofType fun k => from_beginGet hh hf k key (some t))
  | list t o =>
    exact hentered (c.calls_ofType t fun k => c.calls_beginList k.list o (some t))
      (hofType fun k => from_beginList hh k.list o (some t))
  | informer t =>
    exact hentered (c.calls_ofType t fun k => c.calls_begin (.informer k))
      (hofType fun k => from_beginInformer hh k)
  | index t field extract =>
    exact hentered (c.calls_ofType t fun k => c.calls_begin (.index k field extract))
      (hofType fun k => from_beginIndex hh k field extract)

end

section

variable {floor : Nat} {c : Cache}

theorem keepsPublished_tryStore (f : Store → Answer Store) (h : Hub) (id : Nat) :
    Hub.KeepsPublished h (h.tryStore id f).2 := by
  have hwiring := h.wiring_tryStore id f
  obtain ⟨cells, hcells⟩ := exists_tryStore f h id
  rw [hcells] at hwiring ⊢
  exact Hub.keepsPublished_of_eq (congrArg Prod.fst hwiring) rfl

/-- An act publishes with what it delivers, and nothing else. -/
theorem keepsPublished_act (hs : c.setup.Sound floor) (a : Act) :
    Hub.KeepsPublished (c.hub.deliverAll (c.delivers a)) (c.act a).hub := by
  rcases spares_or_stirs hs a with hspares | hstirs
  · have hspared := spared_act hs hspares
    rw [delivers_of_spares hspares]
    refine ⟨?_, fun topic t ht => ?_⟩
    · obtain ⟨added, hadded, -⟩ := hspared.publishers
      exact ⟨added, hadded.symm⟩
    · exact (Spared.added_cases hspared.topics ht).imp_right (hspared.silent topic t ht)
  · generalize hact : (c.act a).hub = h at hstirs
    cases hstirs with
    | step loop => exact (c.hub.alike_stepOnce loop).keepsPublished
    | outside s => exact (c.hub.alike_meet s).keepsPublished
    | first _ => exact Hub.keepsPublished_of_eq rfl rfl
    | again _ => exact Hub.keepsPublished_of_eq rfl rfl
    | @index k field extract entry _ =>
      exact keepsPublished_tryStore (·.indexField field extract) c.hub entry.store

theorem keepsPublished_use (hs : c.setup.Sound floor) (u : Use) :
    Hub.KeepsPublished (c.hub.deliverAll (c.gives u)) (c.use u).hub := by
  rcases c.use_cases u with ⟨m, rfl⟩ | ⟨hmove, hcases⟩
  · cases m with
    | act a => exact keepsPublished_act hs a
    | subscribe topic => exact Hub.keepsPublished_of_eq rfl rfl
    | unsubscribe sub => exact Hub.keepsPublished_of_eq rfl rfl
    | receive sub =>
      refine Hub.keepsPublished_of_eq (congrArg Prod.fst (c.hub.wiring_receive sub)) ?_
      show (c.hub.receive sub).2.topics = c.hub.topics
      unfold Hub.receive
      split
      · split <;> rfl
      · rfl
    | addIndex k name extract =>
      show Hub.KeepsPublished c.hub (c.move (.addIndex k name extract)).hub
      cases hlookup : c.registry.lookup k with
      | none =>
        rw [move_addIndex_of_none hlookup]
        exact Hub.keepsPublished_of_eq rfl rfl
      | some e =>
        rw [move_addIndex hlookup]
        exact keepsPublished_tryStore (·.addIndex name extract) c.hub e.store
  · rw [gives_of_not_act fun a => hmove (.act a)]
    rcases hcases with ⟨calls, hsame⟩ | ⟨r, calls, hsame⟩
    · rw [hsame]
      exact Hub.keepsPublished_of_eq rfl rfl
    · rw [hsame]
      exact keepsPublished_act hs (.request r)

/-- All that was published, that is being fetched and that was returned has a property. -/
structure Sourced (P : Kind → Object → Prop) (c : Cache) : Prop where
  published : c.hub.Published P
  calls : ∀ call ∈ c.calls, call.From P

theorem Sourced.reply {c : Cache} (hc : Sourced P c) {id : Nat} {reply : Reply}
    (hreply : c.reply? id = some reply) : reply.From P := by
  obtain ⟨call, hcall, hfinished⟩ := Option.bind_eq_some_iff.mp hreply
  have hfrom : call.From P := hc.calls call (List.mem_of_getElem? hcall)
  rw [eq_finished_of_reply? hfinished] at hfrom
  exact hfrom

theorem Sourced.use {base : Cache} (hc : Sourced P c) (hfenced : Fenced base c)
    (hheld : c.hub.Holds P) (hf : c.connector.Fetches P) {u : Use}
    (hgives : ∀ d ∈ c.gives u, ∀ s, c.hub.store? d.store = some s →
      ∀ o ∈ d.event.brings, P s.kind o) : Sourced P (c.use u) where
  published := by
    have hdelivered : (c.hub.deliverAll (c.gives u)).Published P := by
      rcases gives_low hfenced u with hnothing | ⟨d, hone, -⟩
      · rw [hnothing]
        exact hc.published
      · rw [hone]
        exact hc.published.deliver hheld (hgives d (hone ▸ List.mem_singleton_self d))
    refine hdelivered.keeps (keepsPublished_use hfenced.sound u) fun id s hs => ?_
    obtain ⟨t, ht, hkind, -⟩ := (c.unfed_use u).exists_store hs
    exact ⟨t, ht, hkind⟩
  calls := from_use hheld hf hc.calls u

end

section

variable {scripts : Kind → List (List Item) → Prop} {c : Cache}

theorem Wired.holds (hc : Wired scripts c)
    (hP : ∀ k script, scripts k script → ∀ e ∈ eventsOf script, ∀ o ∈ e.brings, P k o)
    {uses : List Use} (huses : ∀ u ∈ uses, u.Connects (Connector.Scripted scripts)) :
    (c.useAll uses).hub.Holds P :=
  fun _ _ hs => (hc.follows huses hs).holds hP

/-- What a use delivers is something that its store was told by the end of it. -/
theorem Wired.gives (hc : Wired scripts c)
    (hP : ∀ k script, scripts k script → ∀ e ∈ eventsOf script, ∀ o ∈ e.brings, P k o)
    {uses : List Use} {u : Use}
    (huses : ∀ v ∈ uses ++ [u], v.Connects (Connector.Scripted scripts)) :
    ∀ d ∈ (c.useAll uses).gives u, ∀ s, (c.useAll uses).hub.store? d.store = some s →
      ∀ o ∈ d.event.brings, P s.kind o := by
  intro d hd s hs o ho
  obtain ⟨t, ht, hkind⟩ := (c.useAll uses).exists_kind_use u d.store s hs
  have hfollows := hc.follows huses (by rw [useAll_concat]; exact ht)
  have htold : d.event ∈ Hub.eventsFor d.store (c.deliveries (uses ++ [u])) := by
    rw [deliveries_concat, Hub.eventsFor_append]
    refine List.mem_append_right _ (List.mem_map_of_mem (List.mem_filter.mpr ⟨hd, ?_⟩))
    exact decide_eq_true rfl
  exact hkind ▸ hfollows.brings hP d.event htold o ho

theorem Wired.sourced (hc : Wired scripts c)
    (hP : ∀ k script, scripts k script → ∀ e ∈ eventsOf script, ∀ o ∈ e.brings, P k o)
    (hf : c.connector.Fetches P) {uses : List Use}
    (huses : ∀ u ∈ uses, u.Connects (Connector.Scripted scripts))
    (hfetches : ∀ u ∈ uses, u.Connects (Connector.Fetches P)) : Sourced P (c.useAll uses) := by
  induction uses using List.reverseRecOn with
  | nil =>
    refine ⟨fun topic t ht ch hch => ?_, fun call hcall => ?_⟩
    · rw [hc.silent t (List.mem_of_getElem? ht)] at hch
      cases hch
    · rw [useAll_nil, hc.calls] at hcall
      cases hcall
  | append_singleton uses u ih =>
    have hbefore {Q : Connector → Prop} (hall : ∀ v ∈ uses ++ [u], v.Connects Q) :
        ∀ v ∈ uses, v.Connects Q :=
      fun v hv => hall v (List.mem_append_left _ hv)
    rw [useAll_concat]
    exact (ih (hbefore huses) (hbefore hfetches)).use (hc.toAssembled.fenced_useAll uses)
      (hc.holds hP (hbefore huses)) (connects_useAll hf (hbefore hfetches)) (hc.gives hP huses)

end

end Cache

/-- A subscriber receives what was published. -/
theorem Hub.Published.about {h : Hub} (hh : h.Published P) {sub : Nat} {ch : Change}
    (hreceived : .change ch ∈ (h.receive sub).1) : ∃ k, ch.About (P k) := by
  unfold Hub.receive at hreceived
  split at hreceived
  · next s _ =>
    split at hreceived
    · next t ht =>
      have hlogged : ch ∈ t.log := by
        unfold Topic.receive at hreceived
        dsimp only at hreceived
        split at hreceived
        · rcases List.mem_cons.mp hreceived with hlost | hchange
          · cases hlost
          · obtain ⟨ch', hmem, heq⟩ := List.mem_map.mp hchange
            cases heq
            exact List.mem_of_mem_drop hmem
        · obtain ⟨ch', hmem, heq⟩ := List.mem_map.mp hreceived
          cases heq
          exact List.mem_of_mem_drop hmem
      obtain ⟨id, st, -, -, habout⟩ := hh s.topic t ht ch hlogged
      exact ⟨st.kind, habout⟩
    · cases hreceived
  · cases hreceived

end

end WatchCache
