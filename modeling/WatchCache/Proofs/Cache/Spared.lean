import WatchCache.Proofs.Cache.Dedicated
import WatchCache.Proofs.Cache.Stores

set_option autoImplicit false

/-!
# What the fallback leaves alone

The stores below a floor belong to dedicated kinds.  What the fallback does for its own kinds
leaves these stores alone, and only adds to the topics, the sources and the loops that are there;
neither the clock, nor the tokens, nor the subscribers have to do with it.  `Spares` lists the acts
of which this can be said: reads are among them, and so are the polls of all calls.
-/

namespace WatchCache

namespace Cache

/-- The stores below a floor are as they were, and nothing that was there was changed but the
other stores and the measurements; whatever stores were added publish on topics that were added.
Nothing was published on a new topic, and no new loop has begun. -/
structure Spared (floor : Nat) (c r : Cache) : Prop where
  now : r.hub.now = c.hub.now
  cancelled : r.hub.cancelled = c.hub.cancelled
  subscribers : r.hub.subscribers = c.hub.subscribers
  cells : ∀ id < floor, r.hub.stores[id]? = c.hub.stores[id]?
  publishers : ∃ added, r.hub.wiring.1 = c.hub.wiring.1 ++ added ∧
    ∀ topic ∈ added, c.hub.topics.length ≤ topic
  topics : c.hub.topics <+: r.hub.topics
  silent : ∀ topic t, r.hub.topics[topic]? = some t → c.hub.topics.length ≤ topic → t.log = []
  sources : c.hub.sources <+: r.hub.sources
  loops : c.hub.loops <+: r.hub.loops
  idle : ∀ (id : Nat) (l : Loop), r.hub.loops[id]? = some l → c.hub.loops.length ≤ id →
    l.phase = .opening

namespace Spared

variable {floor : Nat} {c r q : Cache}

/-- What is added in two steps is added in the first or in the second. -/
theorem added_cases {α : Type} {second third : List α} (hlonger : second <+: third) {i : Nat}
    {a : α} (ha : third[i]? = some a) : second[i]? = some a ∨ second.length ≤ i := by
  rcases Nat.lt_or_ge i second.length with hlt | hge
  · have hsame := List.prefix_iff_getElem?.mp hlonger i hlt
    exact Or.inl ((List.getElem?_eq_getElem hlt).trans (hsame.symm.trans ha))
  · exact Or.inr hge

theorem refl (floor : Nat) (c : Cache) : Spared floor c c where
  now := rfl
  cancelled := rfl
  subscribers := rfl
  cells := fun _ _ => rfl
  publishers := ⟨[], by simp⟩
  topics := List.prefix_rfl
  silent := fun _ _ htopic hge =>
    absurd (List.getElem?_eq_some_iff.mp htopic).1 (Nat.not_lt.mpr hge)
  sources := List.prefix_rfl
  loops := List.prefix_rfl
  idle := fun _ _ hl hge => absurd (List.getElem?_eq_some_iff.mp hl).1 (Nat.not_lt.mpr hge)

theorem trans (hr : Spared floor c r) (hq : Spared floor r q) : Spared floor c q where
  now := hq.now.trans hr.now
  cancelled := hq.cancelled.trans hr.cancelled
  subscribers := hq.subscribers.trans hr.subscribers
  cells := fun id hid => (hq.cells id hid).trans (hr.cells id hid)
  publishers := by
    obtain ⟨added, hadded, hnew⟩ := hr.publishers
    obtain ⟨more, hmore, hnew'⟩ := hq.publishers
    refine ⟨added ++ more, by rw [hmore, hadded, List.append_assoc], fun topic htopic => ?_⟩
    rcases List.mem_append.mp htopic with hfirst | hsecond
    · exact hnew topic hfirst
    · exact Nat.le_trans hr.topics.length_le (hnew' topic hsecond)
  topics := hr.topics.trans hq.topics
  silent := by
    intro topic t htopic hge
    rcases added_cases hq.topics htopic with hfirst | hsecond
    · exact hr.silent topic t hfirst hge
    · exact hq.silent topic t htopic hsecond
  sources := hr.sources.trans hq.sources
  loops := hr.loops.trans hq.loops
  idle := by
    intro id l hl hge
    rcases added_cases hq.loops hl with hfirst | hsecond
    · exact hr.idle id l hfirst hge
    · exact hq.idle id l hl hsecond

theorem store?_eq (hr : Spared floor c r) {id : Nat} (hid : id < floor) :
    r.hub.store? id = c.hub.store? id := congrArg (Option.map StoreCell.store) (hr.cells id hid)

/-- Measurements are not looked at. -/
theorem of_metrics (floor : Nat) (c : Cache) (metrics : Metrics) :
    Spared floor c (c.withHub { c.hub with metrics := metrics }) := { refl floor c with }

theorem withCalls (hr : Spared floor c r) (calls : List Call) :
    Spared floor c (r.withCalls calls) := { hr with }

end Spared

/-! ## Informers -/

/-- Opening scopes adds stores that publish on the topic of the informer, and sources that are
new. -/
theorem openScopes_adds (k : Kind) (topic : Nat) (c : Cache) (scopes : List (Option String)) :
    (openScopes k topic c scopes).2.hub.topics = c.hub.topics ∧
      (∃ cells, (openScopes k topic c scopes).2.hub.stores = c.hub.stores ++ cells ∧
        ∀ cell ∈ cells, cell.topic = topic) ∧
      ∀ watched, (openScopes k topic c scopes).1 = .ok watched →
        watched.map Watched.source = List.range' c.hub.sources.length watched.length := by
  induction scopes generalizing c with
  | nil =>
    refine ⟨rfl, ⟨[], by simp [openScopes]⟩, fun watched hok => ?_⟩
    cases hok
    rfl
  | cons ns rest ih =>
    cases hs : c.connector.watchSource k ns (c.selectors.find? k) with
    | error e =>
      rw [openScopes_cons_of_error hs]
      refine ⟨rfl, ⟨[⟨.new k, topic⟩], rfl, by simp⟩, fun watched hok => ?_⟩
      cases hok
    | ok s =>
      obtain ⟨htopics, ⟨cells, hcells, hpublish⟩, hsources⟩ := ih (c.withScope k topic ns s)
      rw [openScopes_cons_of_ok hs]
      refine ⟨htopics, ⟨⟨.new k, topic⟩ :: cells, ?_, ?_⟩, fun watched hok => ?_⟩
      · rw [hcells]
        exact List.append_assoc c.hub.stores [⟨.new k, topic⟩] cells
      · exact List.forall_mem_cons.mpr ⟨rfl, hpublish⟩
      · cases hothers : (openScopes k topic (c.withScope k topic ns s) rest).1 with
        | error e =>
          rw [hothers] at hok
          cases hok
        | ok others =>
          rw [hothers] at hok
          cases hok
          have hlength : (c.withScope k topic ns s).hub.sources.length =
              c.hub.sources.length + 1 := List.length_append
          rw [List.map_cons, hsources others hothers, hlength, List.length_cons, List.range'_succ]

theorem buildInformer_adds {c built : Cache} {k : Kind} {answer : Answer Informer}
    (hbuild : c.buildInformer k = (answer, built)) :
    (built.hub.topics = c.hub.topics ∨
        built.hub.topics = c.hub.topics ++ [.ofBuffer c.options.eventBuffer]) ∧
      (∃ cells, built.hub.stores = c.hub.stores ++ cells ∧
        ∀ cell ∈ cells, cell.topic = c.hub.topics.length) ∧
      ∀ i, answer = .ok i →
        i.watched.map Watched.source = List.range' c.hub.sources.length i.watched.length := by
  unfold buildInformer at hbuild
  split at hbuild
  · cases hbuild
    refine ⟨Or.inl rfl, ⟨[], by simp⟩, fun i hok => ?_⟩
    cases hok
  · next namespaced _ =>
    dsimp only at hbuild
    obtain ⟨htopics, hcells, hsources⟩ := openScopes_adds k
      (c.hub.addTopic c.options.eventBuffer).1 (c.withHub (c.hub.addTopic c.options.eventBuffer).2)
      (if namespaced && !c.namespaces.isEmpty then c.namespaces.map some else [none])
    split at hbuild
    · next hopen =>
      cases hbuild
      rw [hopen] at htopics hcells
      refine ⟨Or.inr htopics, hcells, fun i hok => ?_⟩
      cases hok
    · next watched _ hopen =>
      cases hbuild
      rw [hopen] at htopics hcells hsources
      refine ⟨Or.inr htopics, hcells, fun i hok => ?_⟩
      cases hok
      exact hsources watched rfl

theorem spared_of_buildInformer {floor : Nat} {c built : Cache} {k : Kind}
    {answer : Answer Informer} (hfloor : floor ≤ c.hub.stores.length)
    (hbuild : c.buildInformer k = (answer, built)) : Spared floor c built := by
  have hgrown := grown_of_buildInformer hbuild
  obtain ⟨opened, hopened⟩ := hgrown.sources
  obtain ⟨htopics, ⟨cells, hcells, hpublish⟩, -⟩ := buildInformer_adds hbuild
  have hhub := congrArg Cache.hub hgrown.rest
  refine ⟨(congrArg Hub.now hhub :), (congrArg Hub.cancelled hhub :),
    (congrArg Hub.subscribers hhub :), fun id hid => ?_, ⟨cells.map StoreCell.topic, ?_, ?_⟩,
    ?_, fun topic t ht hge => ?_, ⟨opened, hopened.symm⟩, ?_, fun id l hl hge => ?_⟩
  · have hlt : id < c.hub.stores.length := Nat.lt_of_lt_of_le hid hfloor
    rw [hcells, List.getElem?_append_left hlt]
  · show built.hub.stores.map StoreCell.topic = c.hub.stores.map StoreCell.topic ++ _
    rw [hcells, List.map_append]
  · intro topic htopic
    obtain ⟨cell, hcell, rfl⟩ := List.mem_map.mp htopic
    exact Nat.le_of_eq (hpublish cell hcell).symm
  · rcases htopics with hsame | hadded
    · exact ⟨[], by rw [hsame, List.append_nil]⟩
    · exact ⟨_, hadded.symm⟩
  · rcases htopics with hsame | hadded
    · rw [hsame] at ht
      exact (Spared.refl floor c).silent topic t ht hge
    · rw [hadded, List.getElem?_append_right hge] at ht
      rw [List.mem_singleton.mp (List.mem_of_getElem? ht)]
      rfl
  · have hloops : built.hub.loops = c.hub.loops := (congrArg Hub.loops hhub :)
    exact ⟨[], by rw [hloops, List.append_nil]⟩
  · rw [(congrArg Hub.loops hhub :)] at hl
    exact (Spared.refl floor c).idle id l hl hge

theorem spared_withLoops (floor : Nat) (c : Cache) {loops : List Loop}
    (hfresh : ∀ l ∈ loops, l.fresh = l) : Spared floor c (c.withLoops loops) :=
  { Spared.refl floor c with
    loops := ⟨loops, rfl⟩
    idle := by
      intro id l hl hge
      have hnew : (c.hub.loops ++ loops)[id]? = some l := hl
      rw [List.getElem?_append_right hge] at hnew
      rw [← hfresh l (List.mem_of_getElem? hnew)]
      rfl }

section

variable {floor : Nat} {c : Cache}

theorem spared_of_openInformer {opened : Cache} {k : Kind} {answer : Answer Informer}
    (hfloor : floor ≤ c.hub.stores.length) (hopen : c.openInformer k = (answer, opened)) :
    Spared floor c opened := by
  cases opens_of_openInformer hopen with
  | found _ => exact .refl floor c
  | failed _ hbuild => exact spared_of_buildInformer hfloor hbuild
  | @made i built _ hbuild =>
    have hbuilt := spared_of_buildInformer hfloor hbuild
    have hfresh := @fresh_of_mem_new_loops i built.options built.runningUnder
    have hstarted :=
      spared_withLoops floor { built with informers := built.informers.insert k i } hfresh
    exact hbuilt.trans { hstarted with }

/-! ## Goals -/

/-- Indices are added to these stores and to no others. -/
theorem cell_indexStores_of_not_mem (f : Store → Answer Store) {h : Hub} {stores : List Nat}
    {id : Nat} (hid : id ∉ stores) : (indexStores f h stores).2.stores[id]? = h.stores[id]? := by
  induction stores generalizing h with
  | nil => rfl
  | cons other rest ih =>
    obtain ⟨hne, hrest⟩ := not_or.mp (mt List.mem_cons.mpr hid)
    have hone : (h.tryStore other f).2.stores[id]? = h.stores[id]? := by
      unfold Hub.tryStore
      split
      · rfl
      · split
        · exact List.getElem?_modify_ne _ _ (Ne.symm hne)
        · rfl
    rw [indexStores]
    split
    · next heq =>
      rw [heq] at hone
      exact hone
    · next h' heq =>
      rw [heq] at hone
      exact (ih hrest).trans hone

/-- Indices have nothing to do with where stores publish. -/
theorem wiring_indexStores (f : Store → Answer Store) (h : Hub) (stores : List Nat) :
    (indexStores f h stores).2.wiring = h.wiring := by
  induction stores generalizing h with
  | nil => rfl
  | cons id rest ih =>
    have hone := h.wiring_tryStore id f
    rw [indexStores]
    split
    · next heq =>
      rw [heq] at hone
      exact hone
    · next h' heq =>
      rw [heq] at hone
      exact (ih h').trans hone

theorem spared_indexStores {stores : List Nat} (hstores : ∀ id ∈ stores, floor ≤ id)
    (f : Store → Answer Store) : Spared floor c (c.withHub (indexStores f c.hub stores).2) := by
  have hcells : ∀ id < floor, (indexStores f c.hub stores).2.stores[id]? = c.hub.stores[id]? := by
    intro id hid
    refine cell_indexStores_of_not_mem f fun hmem => ?_
    have hge := hstores id hmem
    omega
  have hwiring := wiring_indexStores f c.hub stores
  obtain ⟨cells, hhub⟩ := exists_indexStores f c.hub stores
  rw [hhub] at hcells hwiring ⊢
  exact { Spared.refl floor c with
    cells := hcells
    publishers := ⟨[], by rw [List.append_nil]; exact congrArg Prod.fst hwiring, by simp⟩ }

theorem spared_reach {i : Informer} (hstores : ∀ id ∈ i.stores, floor ≤ id) (goal : Goal) :
    Spared floor c (c.reach i goal).2 := by
  cases goal with
  | get key type => exact .refl floor c
  | list o type =>
    obtain ⟨metrics, hlisted⟩ := c.exists_informerList i o
    have hreach : (c.reach i (.list o type)).2 = c.withHub { c.hub with metrics := metrics } :=
      hlisted
    rw [hreach]
    exact .of_metrics floor c metrics
  | informer => exact .refl floor c
  | index field extract => exact spared_indexStores hstores _

/-! ## Acts -/

theorem spared_counted (floor : Nat) (c : Cache) (r : Request) : Spared floor c (c.counted r) := by
  obtain ⟨metrics, hcounted⟩ := c.counted_eq r
  rw [hcounted]
  exact .of_metrics floor c metrics

/-- What the fallback has to answer. -/
theorem spared_fallback {k : Kind} {goal : Goal} (hs : c.setup.Sound floor) {r : Request}
    (hasks : c.asks r = some (k, goal)) : Spared floor c (c.begin r).2 := by
  have hcounted := spared_counted floor c r
  have hfloor : floor ≤ (c.counted r).hub.stores.length := by
    have hsame : (c.counted r).setup.extent.stores = c.setup.extent.stores :=
      congrArg (fun s : Setup => s.extent.stores) (c.setup_counted r)
    exact Nat.le_trans hs.floor_le (Nat.le_of_eq hsame.symm)
  have hsound := sound_opened hs hasks
  have hbegun := begun_of_asks hasks
  rcases hbegin : c.begin r with ⟨call, begun⟩
  rw [hbegin] at hbegun
  cases hbegun with
  | fails hfind hbuild => exact hcounted.trans (spared_of_buildInformer hfloor hbuild)
  | waits hopen _ _ => exact hcounted.trans (spared_of_openInformer hfloor hopen)
  | @reaches i opened hopen _ =>
    rw [hopen] at hsound
    have hstores : ∀ id ∈ i.stores, floor ≤ id :=
      fun id hid => (hsound.store_mem (find?_of_openInformer hopen) id hid).1
    exact (hcounted.trans (spared_of_openInformer hfloor hopen)).trans (spared_reach hstores goal)

theorem spared_poll (hs : c.setup.Sound floor) (call : Call) : Spared floor c (c.poll call).2 := by
  cases call with
  | finished reply => exact .refl floor c
  | running token => exact .refl floor c
  | awaitingFallback stores token => exact .refl floor c
  | fetching kind due answer type =>
    rw [poll]
    split
    · cases answer <;> exact .of_metrics floor c _
    · exact .refl floor c
  | awaitingDedicated token =>
    rw [poll]
    split <;> exact .refl floor c
  | syncing kind token goal =>
    rcases hpoll : c.poll (.syncing kind token goal) with ⟨call, polled⟩
    cases polled_of_poll hpoll with
    | waits _ => exact .refl floor c
    | stops _ _ => exact .refl floor c
    | reaches hfind _ => exact spared_reach (fun id hid => (hs.store_mem hfind id hid).1) goal

/-- What a dedicated kind answers, unless it is asked for an index. -/
theorem spared_dedicated {r : Request} (hasks : c.asks r = none)
    (hstart : ∀ token, r ≠ .start token) (hindex : ∀ k field extract, r ≠ .index k field extract) :
    Spared floor c (c.begin r).2 := by
  cases r with
  | get kind key =>
    obtain ⟨entry, hentry⟩ := exists_lookup hasks rfl
    simp only [begin, beginGet, hentry]
    split
    · exact .of_metrics floor c _
    · exact { Spared.refl floor c with }
  | list kind o =>
    obtain ⟨entry, hentry⟩ := exists_lookup hasks rfl
    simp only [begin, beginList, hentry]
    obtain ⟨metrics, hlisted⟩ := exists_list o (c.hub.count (.reads "store")) entry.store
    show Spared floor c (c.withHub ((c.hub.count (.reads "store")).list entry.store o).2)
    rw [hlisted]
    exact .of_metrics floor c metrics
  | informer kind =>
    obtain ⟨entry, hentry⟩ := exists_lookup hasks rfl
    simp only [begin, beginInformer, hentry]
    exact .refl floor c
  | index kind field extract => exact absurd rfl (hindex kind field extract)
  | start token => exact absurd rfl (hstart token)
  | waitForSync token => exact .refl floor c

/-- Acts that leave the stores of dedicated kinds alone: reads, polls, and whatever only informers
have to do with. -/
def Spares (r : Registry) : Act → Prop
  | .request (.start _) | .step _ | .outside _ => False
  | .request (.index k _ _) => r.contains k = false
  | _ => True

theorem delivers_of_spares {a : Act} (ha : Spares c.registry a) : c.delivers a = [] := by
  cases a with
  | step loop => exact ha.elim
  | request _ | poll _ | outside _ | addIndex _ _ _ | reconnect _ => rfl

theorem spared_act (hs : c.setup.Sound floor) {a : Act} (ha : Spares c.registry a) :
    Spared floor c (c.act a) := by
  cases a with
  | request r =>
    refine Spared.withCalls ?_ _
    cases hasks : c.asks r with
    | some question => exact spared_fallback hs hasks
    | none =>
      refine spared_dedicated hasks (fun token heq => ?_) (fun k field extract heq => ?_)
      · rw [heq] at ha
        exact ha
      · subst heq
        have hno : c.registry.contains k = false := ha
        simp [asks, hno] at hasks
  | poll id =>
    simp only [act]
    split
    · exact (spared_poll hs _).withCalls _
    · exact .refl floor c
  | step loop => exact ha.elim
  | outside s => exact ha.elim
  | addIndex k name extract =>
    simp only [act]
    split
    · next i hfind => exact spared_indexStores (fun id hid => (hs.store_mem hfind id hid).1) _
    · exact .refl floor c
  | reconnect connector => exact { Spared.refl floor c with }

/-- The acts that need not leave the stores of dedicated kinds alone, and what becomes of the
hub. -/
inductive Stirs (c : Cache) : Act → Hub → Prop
  | step (loop : Nat) : Stirs c (.step loop) (c.hub.stepOnce loop)
  | outside (s : Hub.Stimulus) : Stirs c (.outside s) (c.hub.meet s)
  | first {token : Token} (hrunning : c.runningUnder = none) :
      Stirs c (.request (.start token)) { c.hub with
        loops := c.hub.loops ++ ((c.registry.entries.map fun e => e.loop c.options token) ++
          c.informers.values.flatMap fun i => i.loops c.options token) }
  | again {token other : Token} (hrunning : c.runningUnder = some other) :
      Stirs c (.request (.start token)) c.hub
  | index {k : Kind} {field : String} {extract : Extractor} {entry : Entry}
      (hlookup : c.registry.lookup k = some entry) :
      Stirs c (.request (.index k field extract))
        (c.hub.tryStore entry.store (·.indexField field extract)).2

/-- Every act is of one sort or of the other. -/
theorem spares_or_stirs (hs : c.setup.Sound floor) (a : Act) :
    Spares c.registry a ∨ Stirs c a (c.act a).hub := by
  cases a with
  | request r =>
    cases r with
    | get k key => exact Or.inl trivial
    | list k o => exact Or.inl trivial
    | informer k => exact Or.inl trivial
    | waitForSync token => exact Or.inl trivial
    | index k field extract =>
      cases hlookup : c.registry.lookup k with
      | none => exact Or.inl ((c.registry.contains_eq_false_iff k).mpr hlookup)
      | some entry =>
        have hbegin : (c.begin (.index k field extract)).2.hub =
            (c.hub.tryStore entry.store (·.indexField field extract)).2 := by
          simp only [begin, beginIndex, hlookup]
          rfl
        have hact : (c.act (.request (.index k field extract))).hub =
            (c.hub.tryStore entry.store (·.indexField field extract)).2 := hbegin
        rw [hact]
        exact Or.inr (.index hlookup)
    | start token =>
      have hact : (c.act (.request (.start token))).hub = (c.beginStart token).2.hub := rfl
      rw [hact]
      cases hrunning : c.runningUnder with
      | some first =>
        rw [beginStart_again (hs.started.trans (congrArg Option.isSome hrunning)) hrunning]
        exact Or.inr (.again hrunning)
      | none =>
        rw [beginStart_first (hs.started.trans (congrArg Option.isSome hrunning)) hrunning]
        exact Or.inr (.first hrunning)
  | poll id => exact Or.inl trivial
  | step loop => exact Or.inr (.step loop)
  | outside s => exact Or.inr (.outside s)
  | addIndex k name extract => exact Or.inl trivial
  | reconnect connector => exact Or.inl trivial

/-! ## Fetches -/

theorem Grown.fetchLog_eq {k : Kind} {r : Cache} (hgrown : Grown k c r) :
    r.fetchLog = c.fetchLog := by
  rw [hgrown.rest]

theorem fetchLog_reach (c : Cache) (i : Informer) (goal : Goal) :
    (c.reach i goal).2.fetchLog = c.fetchLog := by
  obtain ⟨cells, metrics, hframe⟩ := c.exists_reach i goal
  rw [hframe]
  rfl

theorem fetchLog_poll (c : Cache) (call : Call) : (c.poll call).2.fetchLog = c.fetchLog := by
  cases call with
  | finished reply => rfl
  | running token => rfl
  | awaitingFallback stores token => rfl
  | fetching kind due answer type =>
    rw [poll]
    split
    · cases answer <;> rfl
    · rfl
  | awaitingDedicated token =>
    rw [poll]
    split <;> rfl
  | syncing kind token goal =>
    rcases hpoll : c.poll (.syncing kind token goal) with ⟨call, polled⟩
    cases polled_of_poll hpoll with
    | waits _ => rfl
    | stops _ _ => rfl
    | reaches _ _ => exact c.fetchLog_reach _ goal

/-- The fallback fetches nothing. -/
theorem fetchLog_fallback {k : Kind} {goal : Goal} {r : Request}
    (hasks : c.asks r = some (k, goal)) : (c.begin r).2.fetchLog = c.fetchLog := by
  have hcounted : (c.counted r).fetchLog = c.fetchLog := by cases r <;> rfl
  rcases hopen : (c.counted r).openInformer k with ⟨answer, opened⟩
  have hopened : opened.fetchLog = (c.counted r).fetchLog := by
    cases opens_of_openInformer hopen with
    | found _ => rfl
    | failed _ hbuild => exact (grown_of_buildInformer hbuild).fetchLog_eq
    | made _ hbuild => exact (grown_of_buildInformer hbuild).fetchLog_eq
  obtain ⟨cells, metrics, hframe⟩ := exists_beginFallback hopen goal
  rw [begin_of_asks hasks, hframe, ← hcounted, ← hopened]
  rfl

/-- What is asked of a dedicated kind fetches something only if it is a read of an object that the
store does not have. -/
theorem fetchLog_dedicated {r : Request} (hasks : c.asks r = none) :
    (c.begin r).2.fetchLog = c.fetchLog ∨
      ∃ k key e, r = .get k key ∧ c.registry.lookup k = some e ∧
        (c.hub.store? e.store).bind (·.get? key) = none ∧
        (c.begin r).2.fetchLog = c.fetchLog ++ [⟨e.kind, key⟩] := by
  cases r with
  | get k key =>
    obtain ⟨e, he⟩ := exists_lookup hasks rfl
    cases hfound : (c.hub.store? e.store).bind (·.get? key) with
    | some o =>
      simp only [begin, beginGet, he, hfound]
      exact Or.inl rfl
    | none =>
      refine Or.inr ⟨k, key, e, rfl, he, hfound, ?_⟩
      simp only [begin, beginGet, he, hfound]
      rfl
  | list k o =>
    obtain ⟨e, he⟩ := exists_lookup hasks rfl
    left
    simp only [begin, beginList, he]
    rfl
  | informer k =>
    obtain ⟨e, he⟩ := exists_lookup hasks rfl
    left
    simp only [begin, beginInformer, he]
  | index k field extract =>
    obtain ⟨e, he⟩ := exists_lookup hasks rfl
    left
    simp only [begin, beginIndex, he]
    rfl
  | start token =>
    left
    show (c.beginStart token).2.fetchLog = c.fetchLog
    unfold beginStart
    cases hstarted : c.started <;> cases hrunning : c.runningUnder <;>
      simp [spawnDedicated_eq, spawnInformers_eq, withLoops, withHub, hstarted, hrunning]
  | waitForSync token => exact Or.inl rfl

/-- A fetch is made by a read of a dedicated kind whose store does not have the object, and by
nothing else. -/
theorem fetchLog_act (c : Cache) (a : Act) :
    (c.act a).fetchLog = c.fetchLog ∨
      ∃ k key e, a = .request (.get k key) ∧ c.registry.lookup k = some e ∧
        (c.hub.store? e.store).bind (·.get? key) = none ∧
        (c.act a).fetchLog = c.fetchLog ++ [⟨e.kind, key⟩] := by
  cases a with
  | request r =>
    cases hasks : c.asks r with
    | some question => exact Or.inl (fetchLog_fallback hasks)
    | none =>
      rcases fetchLog_dedicated hasks with hsame | ⟨k, key, e, rfl, he, hmissing, hfetched⟩
      · exact Or.inl hsame
      · exact Or.inr ⟨k, key, e, rfl, he, hmissing, hfetched⟩
  | poll id =>
    simp only [act]
    split
    · exact Or.inl (fetchLog_poll c _)
    · exact Or.inl rfl
  | step loop => exact Or.inl rfl
  | outside s => exact Or.inl rfl
  | addIndex k name extract =>
    simp only [act]
    split <;> exact Or.inl rfl
  | reconnect connector => exact Or.inl rfl

end

end Cache

end WatchCache
