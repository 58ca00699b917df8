import WatchCache.Proofs.Cache.Connected
import WatchCache.Proofs.Cache.Recorded
import WatchCache.Proofs.Hub.Script

set_option autoImplicit false

/-!
# Which source feeds which store

A store of a dedicated kind and a store of an informer are each fed from one source, by one loop,
and no two stores from the same source.  The connector made that source for the kind of the store,
so what the store was told is the beginning of what the connector has for its kind: nothing is
left out, nothing is told twice, and nothing comes from anywhere else.
-/

namespace WatchCache

/-- All sources of a connector are scripted, and their scripts are such as these for their
kinds. -/
def Connector.Scripted (scripts : Kind → List (List Item) → Prop) (connector : Connector) : Prop :=
  ∀ k ns selector source, connector.watchSource k ns selector = .ok source →
    ∃ script, source = .ofSessions script ∧ scripts k script

namespace Setup

/-- The stores that are fed, each with its source. -/
def links (s : Setup) : List (Nat × Nat) :=
  (s.registry.entries.map fun e => (e.store, e.source)) ++
    s.watched.map fun w => (w.store, w.source)

end Setup

namespace Cache

/-- The loops are those of the links, or there are none yet. -/
theorem links_of_loops {floor : Nat} {c : Cache} (hs : c.setup.Sound floor) :
    c.hub.loops = [] ∨ c.hub.loops.map (fun l => (l.store, l.source)) = c.setup.links := by
  have hloops : c.hub.loops.map Loop.fresh = c.setup.due := hs.loops
  cases hrunning : c.setup.runningUnder with
  | none =>
    rw [Setup.due, hrunning] at hloops
    exact Or.inl (List.map_eq_nil_iff.mp hloops)
  | some token =>
    rw [Setup.due, hrunning] at hloops
    have hsame : c.hub.loops.map (fun l => (l.store, l.source)) =
        (c.hub.loops.map Loop.fresh).map fun l => (l.store, l.source) := by
      rw [List.map_map]
      rfl
    refine Or.inr ?_
    rw [hsame, hloops]
    show (c.setup.loopsUnder token).map _ = c.setup.links
    rw [Setup.loopsUnder, List.map_append, List.map_map, List.map_map]
    rfl

theorem mem_links_of_loop {floor : Nat} {c : Cache} (hs : c.setup.Sound floor) {l : Loop}
    (hl : l ∈ c.hub.loops) : (l.store, l.source) ∈ c.setup.links := by
  rcases links_of_loops hs with hnone | hlinks
  · rw [hnone] at hl
    cases hl
  · rw [← hlinks]
    exact List.mem_map_of_mem hl

theorem oneReader_of_links {floor : Nat} {c : Cache} (hs : c.setup.Sound floor)
    (hnodup : (c.setup.links.map Prod.snd).Nodup) : c.hub.OneReader := by
  rcases links_of_loops hs with hnone | hlinks
  · rw [Hub.OneReader, hnone]
    exact List.nodup_nil
  · rw [← hlinks, List.map_map] at hnodup
    exact hnodup

/-- Each store that is fed holds the beginning of a script for its kind, and all that was ever
delivered came over these links. -/
structure Linked (scripts : Kind → List (List Item) → Prop) (c : Cache)
    (ledger : List Hub.Delivery) : Prop where
  sources_nodup : (c.setup.links.map Prod.snd).Nodup
  fed : ∀ link ∈ c.setup.links, ∃ s script rest, c.hub.store? link.1 = some s ∧
    scripts s.kind script ∧
    c.hub.Progress link.2 script rest (Hub.takenFrom link.2 ledger)
  delivered : ∀ d ∈ ledger, (d.store, d.source) ∈ c.setup.links

section

variable {scripts : Kind → List (List Item) → Prop} {floor : Nat} {c r : Cache}
  {ledger : List Hub.Delivery}

theorem Linked.source_lt (hc : Linked scripts c ledger) {link : Nat × Nat}
    (hlink : link ∈ c.setup.links) : link.2 < c.hub.sources.length := by
  obtain ⟨s, script, rest, -, -, hprogress⟩ := hc.fed link hlink
  obtain ⟨watches, hsource⟩ := hprogress.left
  exact (List.getElem?_eq_some_iff.mp hsource).1

/-! ## More links -/

/-- A link to a source that was not there before, from which nobody has read. -/
structure NewLink (scripts : Kind → List (List Item) → Prop) (sources : Nat) (h : Hub)
    (link : Nat × Nat) : Prop where
  source_new : sources ≤ link.2
  fed : ∃ s script, h.store? link.1 = some s ∧ scripts s.kind script ∧
    h.sources[link.2]? = some (.ofSessions script)
  unread : ∀ l ∈ h.loops, l.source = link.2 → l.phase = .opening

theorem Linked.nodup_append (hc : Linked scripts c ledger) {new : List (Nat × Nat)}
    (hnodup : (new.map Prod.snd).Nodup)
    (hnew : ∀ link ∈ new, c.hub.sources.length ≤ link.2) :
    ((c.setup.links ++ new).map Prod.snd).Nodup := by
  rw [List.map_append]
  refine List.nodup_append.mpr ⟨hc.sources_nodup, hnodup, fun source hsource other hother => ?_⟩
  obtain ⟨link, hlink, rfl⟩ := List.mem_map.mp hsource
  obtain ⟨link', hlink', rfl⟩ := List.mem_map.mp hother
  exact Nat.ne_of_lt (Nat.lt_of_lt_of_le (hc.source_lt hlink) (hnew link' hlink'))

/-- Links are added, and the kinds of the stores are as they were; whatever is delivered was taken
from the sources that were there. -/
theorem Linked.extend (hc : Linked scripts c ledger) {new : List (Nat × Nat)}
    (hlinks : r.setup.links = c.setup.links ++ new) (hnodup : (new.map Prod.snd).Nodup)
    (hnew : ∀ link ∈ new, NewLink scripts c.hub.sources.length r.hub link)
    (hkinds : ∀ id s, c.hub.store? id = some s → ∃ t, r.hub.store? id = some t ∧ t.kind = s.kind)
    {ds : List Hub.Delivery}
    (hprogress : ∀ source script rest taken, c.hub.Progress source script rest taken →
      ∃ rest', r.hub.Progress source script rest' (taken ++ Hub.takenFrom source ds))
    (hds : ∀ d ∈ ds, (d.store, d.source) ∈ c.setup.links) : Linked scripts r (ledger ++ ds) where
  sources_nodup := by
    rw [hlinks]
    exact hc.nodup_append hnodup fun link hlink => (hnew link hlink).source_new
  fed := by
    rw [hlinks]
    intro link hlink
    rcases List.mem_append.mp hlink with hold | hadded
    · obtain ⟨s, script, rest, hs, hscript, hread⟩ := hc.fed link hold
      obtain ⟨t, ht, hkind⟩ := hkinds link.1 s hs
      obtain ⟨rest', hread'⟩ := hprogress link.2 script rest _ hread
      refine ⟨t, script, rest', ht, hkind ▸ hscript, ?_⟩
      rw [Hub.takenFrom_append]
      exact hread'
    · -- nothing was ever taken from a source that is new
      obtain ⟨hsource, ⟨s, script, hs, hscript, hsessions⟩, hunread⟩ := hnew link hadded
      refine ⟨s, script, script, hs, hscript, ?_⟩
      have hnothing : Hub.takenFrom link.2 (ledger ++ ds) = [] := by
        rw [Hub.takenFrom, List.map_eq_nil_iff, List.filter_eq_nil_iff]
        intro d hd hsame
        have hlow := hc.source_lt ((List.mem_append.mp hd).elim (hc.delivered d) (hds d))
        have hequal : d.source = link.2 := of_decide_eq_true hsame
        have hbelow : d.source < c.hub.sources.length := hlow
        omega
      rw [hnothing]
      exact Hub.progress_new hsessions hunread
  delivered := by
    rw [hlinks]
    intro d hd
    exact List.mem_append_left _ ((List.mem_append.mp hd).elim (hc.delivered d) (hds d))

/-! ## Acts -/

/-- A use leaves the kinds of the stores alone. -/
theorem exists_kind_use (c : Cache) (u : Use) (id : Nat) (s : Store)
    (hs : c.hub.store? id = some s) :
    ∃ t, (c.use u).hub.store? id = some t ∧ t.kind = s.kind := by
  have hdelivered : (c.hub.deliverAll (c.gives u)).store? id =
      some ((Hub.eventsFor id (c.gives u)).foldl Store.apply s) := by
    rw [Hub.store?_deliverAll, hs]
    rfl
  obtain ⟨t, ht, hkind, -⟩ := (c.unfed_use u).exists_store hdelivered
  exact ⟨t, ht, hkind.trans (Store.kind_foldl_apply s _)⟩

/-- Every act takes from a source what it delivers. -/
theorem progress_act (hs : c.setup.Sound floor) {source : Nat} {script rest : List (List Item)}
    {taken : List Event} (a : Act) (hone : c.hub.OneReader) (hone' : (c.act a).hub.OneReader)
    (hp : c.hub.Progress source script rest taken) :
    ∃ rest', (c.act a).hub.Progress source script rest'
      (taken ++ Hub.takenFrom source (c.delivers a)) := by
  have hquiet (hnothing : c.delivers a = [])
      (hsame : (c.act a).hub.Progress source script rest taken) :
      ∃ rest', (c.act a).hub.Progress source script rest'
        (taken ++ Hub.takenFrom source (c.delivers a)) := by
    rw [hnothing]
    exact ⟨rest, (List.append_nil taken).symm ▸ hsame⟩
  rcases spares_or_stirs hs a with hspares | hstirs
  · have hspared := spared_act hs hspares
    obtain ⟨started, hstarted⟩ := hspared.loops
    refine hquiet (delivers_of_spares hspares)
      (hp.grow hspared.sources hstarted.symm (fun l hl => ?_) hone')
    obtain ⟨i, hi⟩ := List.mem_iff_getElem?.mp hl
    refine hspared.idle (c.hub.loops.length + i) l ?_ (Nat.le_add_right _ _)
    rw [← hstarted, List.getElem?_append_right (Nat.le_add_right _ _), Nat.add_sub_cancel_left, hi]
  · generalize hact : (c.act a).hub = h at hstirs hone' hquiet ⊢
    cases hstirs with
    | step loop =>
      rcases c.hub.stepOnce_cases loop with ⟨hrest, hsame⟩ | ⟨l, hl, hstep⟩
      · have hnothing : c.delivers (.step loop) = [] := by
          simp [delivers, Hub.delivery?_eq_none_of_rest hrest]
        exact hquiet hnothing (hsame.symm ▸ hp)
      · exact hp.step hone hl hstep
    | outside s => exact hquiet rfl (hp.meet s)
    | @first token _ =>
      refine hquiet rfl (hp.grow List.prefix_rfl rfl (fun l hl => ?_) hone')
      rcases List.mem_append.mp hl with hentry | hwatched
      · obtain ⟨e, -, rfl⟩ := List.mem_map.mp hentry
        rfl
      · obtain ⟨i, -, hl⟩ := List.mem_flatMap.mp hwatched
        obtain ⟨w, -, rfl⟩ := List.mem_map.mp hl
        rfl
    | again _ => exact hquiet rfl hp
    | @index k field extract entry _ =>
      obtain ⟨cells, hcells⟩ := exists_tryStore (·.indexField field extract) c.hub entry.store
      rw [hcells] at hquiet ⊢
      exact hquiet rfl (hp.congr rfl rfl)

/-- What is delivered comes over a link. -/
theorem delivers_linked (hs : c.setup.Sound floor) {a : Act} {d : Hub.Delivery}
    (hd : d ∈ c.delivers a) : (d.store, d.source) ∈ c.setup.links := by
  cases a with
  | step loop =>
    obtain ⟨l, hl, -, -, hsource, hstore⟩ :=
      Hub.delivery?_eq_some_iff.mp (Option.mem_toList.mp hd)
    rw [hsource, hstore]
    exact mem_links_of_loop hs (List.mem_of_getElem? hl)
  | request _ | poll _ | outside _ | addIndex _ _ _ | reconnect _ => cases hd

/-- Reaching the goal on an informer applies no event. -/
theorem unfed_beginFallback {opened : Cache} {k : Kind} {i : Informer}
    (hopen : c.openInformer k = (.ok i, opened)) (goal : Goal) :
    Hub.Unfed opened.hub (c.beginFallback k goal).2.hub := by
  rcases hbegin : c.beginFallback k goal with ⟨call, begun⟩
  cases begun_of_beginFallback hbegin with
  | fails hfind hbuild =>
    rw [openInformer_of_error hfind hbuild] at hopen
    cases hopen
  | waits hopen' _ _ =>
    cases hopen.symm.trans hopen'
    have hextends : opened.hub.Extends (fun _ _ => True) opened.hub := .refl opened.hub
    exact hextends.unfed
  | reaches hopen' _ =>
    cases hopen.symm.trans hopen'
    have hextends : opened.hub.Extends (fun _ _ => True) (opened.reach i goal).2.hub :=
      opened.extends_reach i fun _ _ _ => trivial
    exact hextends.unfed

/-- The stores of a new informer are for its kind and hold nothing. -/
theorem store?_of_buildInformer {k : Kind} {i : Informer} {built : Cache}
    (hbuild : c.buildInformer k = (.ok i, built)) {w : Watched} (hw : w ∈ i.watched) :
    built.hub.store? w.store = some (.new k) := by
  obtain ⟨-, -, hstores, hids, -⟩ := buildInformer_ok hbuild
  have hmem : w.store ∈ i.stores := List.mem_map_of_mem hw
  rw [hids, List.mem_range'_1] at hmem
  have hcell : built.hub.stores[w.store]? = some ⟨.new k, c.hub.topics.length⟩ := by
    rw [hstores, List.getElem?_append_right hmem.1, List.getElem?_replicate_of_lt]
    have hlt := hmem.2
    omega
  rw [Hub.store?, hcell]
  rfl

/-- The stores of a new informer are linked to the sources that the connector made for them. -/
theorem newLinks_of_buildInformer (hs : c.setup.Sound floor) (hc : Linked scripts c ledger)
    (hscripted : c.connector.Scripted scripts) {req : Request} {k : Kind} {goal : Goal}
    {i : Informer} {built : Cache} (hasks : c.asks req = some (k, goal))
    (hfind : c.informers.find? k = none)
    (hbuild : (c.counted req).buildInformer k = (.ok i, built)) {w : Watched}
    (hw : w ∈ i.watched) :
    NewLink scripts c.hub.sources.length (c.act (.request req)).hub (w.store, w.source) := by
  obtain ⟨-, -, -, hasked⟩ := buildInformer_asked hbuild
  obtain ⟨-, -, hsources⟩ := buildInformer_adds hbuild
  obtain ⟨metrics, hcounted⟩ := c.counted_eq req
  have hopen : (c.counted req).openInformer k = (.ok i, built.register k i) :=
    openInformer_of_ok (by rw [informers_counted]; exact hfind) hbuild
  have hunfed := unfed_beginFallback hopen goal
  obtain ⟨cells, metrics', hframe⟩ := exists_beginFallback hopen goal
  rw [← begin_of_asks hasks] at hframe hunfed
  rw [hcounted] at hsources hasked
  have hsource_new : c.hub.sources.length ≤ w.source := by
    have hmem : w.source ∈ i.watched.map Watched.source := List.mem_map_of_mem hw
    rw [hsources i rfl, List.mem_range'_1] at hmem
    exact hmem.1
  refine ⟨hsource_new, ?_, fun l hl hreads => ?_⟩
  · obtain ⟨s, hwatch, hsource⟩ := hasked w hw
    obtain ⟨script, rfl, hscript⟩ := hscripted _ _ _ _ hwatch
    have hstore : (built.register k i).hub.store? w.store = some (.new k) :=
      store?_of_buildInformer hbuild hw
    obtain ⟨t, ht, hkind, -⟩ := hunfed.exists_store hstore
    refine ⟨t, script, ht, hkind ▸ hscript, ?_⟩
    show (c.begin req).2.hub.sources[w.source]? = _
    rw [hframe]
    exact hsource
  · -- a loop that was there reads from a source that was there
    have hspared := spared_fallback hs hasks
    obtain ⟨id, hid⟩ := List.mem_iff_getElem?.mp hl
    rcases Spared.added_cases hspared.loops hid with hold | hadded
    · have hlow : l.source < c.hub.sources.length :=
        hc.source_lt (mem_links_of_loop hs (List.mem_of_getElem? hold))
      rw [hreads] at hlow
      exact absurd hlow (Nat.not_lt.mpr hsource_new)
    · exact hspared.idle id l hid hadded

/-- An act adds no link but those of the informer that it makes. -/
theorem exists_newLinks (hs : c.setup.Sound floor) (hc : Linked scripts c ledger)
    (hscripted : c.connector.Scripted scripts) (a : Act) :
    ∃ new, (c.act a).setup.links = c.setup.links ++ new ∧ (new.map Prod.snd).Nodup ∧
      ∀ link ∈ new, NewLink scripts c.hub.sources.length (c.act a).hub link := by
  have hnone (hsame : (c.act a).setup.links = c.setup.links) :
      ∃ new, (c.act a).setup.links = c.setup.links ++ new ∧ (new.map Prod.snd).Nodup ∧
        ∀ link ∈ new, NewLink scripts c.hub.sources.length (c.act a).hub link :=
    ⟨[], hsame.trans (List.append_nil _).symm, List.nodup_nil,
      fun link hlink => absurd hlink List.not_mem_nil⟩
  rcases setup_act_inv hs a with hsame | ⟨token, -, -, hstart⟩ |
    ⟨req, k, goal, built, rfl, hasks, hfind, ⟨e, hbuild, hfailed⟩ | ⟨i, hbuild, hmade⟩⟩
  · exact hnone (congrArg Setup.links hsame)
  · exact hnone ((congrArg Setup.links hstart).trans rfl)
  · rw [(setup_failed hbuild).1, c.setup_counted req] at hfailed
    exact hnone ((congrArg Setup.links hfailed).trans rfl)
  · rw [setup_made hbuild, c.setup_counted req] at hmade
    refine ⟨i.watched.map fun w => (w.store, w.source), ?_, ?_, fun link hlink => ?_⟩
    · rw [hmade, Setup.links, Setup.watched_add hfind, List.map_append, ← List.append_assoc]
      rfl
    · obtain ⟨-, -, hsources⟩ := buildInformer_adds hbuild
      rw [List.map_map]
      show (i.watched.map Watched.source).Nodup
      rw [hsources i rfl]
      exact List.nodup_range'
    · obtain ⟨w, hw, rfl⟩ := List.mem_map.mp hlink
      exact newLinks_of_buildInformer hs hc hscripted hasks hfind hbuild hw

theorem Linked.act (hc : Linked scripts c ledger) (hs : c.setup.Sound floor)
    (hscripted : c.connector.Scripted scripts) (a : Act) :
    Linked scripts (c.act a) (ledger ++ c.delivers a) := by
  obtain ⟨new, hlinks, hnodup, hnew⟩ := exists_newLinks hs hc hscripted a
  have hall := hc.nodup_append hnodup fun link hlink => (hnew link hlink).source_new
  have hone := oneReader_of_links hs hc.sources_nodup
  have hone' : (c.act a).hub.OneReader :=
    oneReader_of_links (sound_act hs a) (hlinks.symm ▸ hall)
  exact hc.extend hlinks hnodup hnew (c.exists_kind_use (.move (.act a)))
    (fun _ _ _ _ hp => progress_act hs a hone hone' hp) fun d hd => delivers_linked hs hd

/-! ## Uses -/

/-- Subscribers and handles have nothing to do with loops and sources. -/
theorem feeding_move_of_not_act {m : Move} (hact : ∀ a, m ≠ .act a) :
    (c.move m).hub.loops = c.hub.loops ∧ (c.move m).hub.sources = c.hub.sources := by
  cases m with
  | act a => exact absurd rfl (hact a)
  | subscribe topic => exact ⟨rfl, rfl⟩
  | unsubscribe sub => exact ⟨rfl, rfl⟩
  | receive sub =>
    show (c.hub.receive sub).2.loops = c.hub.loops ∧ (c.hub.receive sub).2.sources = c.hub.sources
    unfold Hub.receive
    split
    · split <;> exact ⟨rfl, rfl⟩
    · exact ⟨rfl, rfl⟩
  | addIndex k name extract =>
    cases hlookup : c.registry.lookup k with
    | none =>
      rw [move_addIndex_of_none hlookup]
      exact ⟨rfl, rfl⟩
    | some e =>
      obtain ⟨cells, hcells⟩ := exists_tryStore (·.addIndex name extract) c.hub e.store
      rw [move_addIndex hlookup, hcells]
      exact ⟨rfl, rfl⟩

theorem Linked.withCalls (hc : Linked scripts c ledger) (calls : List Call) :
    Linked scripts (c.withCalls calls) ledger :=
  { hc with }

theorem Linked.use (hc : Linked scripts c ledger) (hs : c.setup.Sound floor)
    (hscripted : c.connector.Scripted scripts) (u : Use) :
    Linked scripts (c.use u) (ledger ++ c.gives u) := by
  rcases c.use_cases u with ⟨m, rfl⟩ | ⟨hmove, hcases⟩
  · by_cases hact : ∃ a, m = .act a
    · obtain ⟨a, rfl⟩ := hact
      exact hc.act hs hscripted a
    · have hnot : ∀ a, m ≠ .act a := fun a hm => hact ⟨a, hm⟩
      obtain ⟨hloops, hsources⟩ := feeding_move_of_not_act (c := c) hnot
      have hnothing : c.gives (.move m) = [] :=
        gives_of_not_act fun a hsame => hnot a (Use.move.inj hsame)
      have hlinks : (c.use (.move m)).setup.links = c.setup.links ++ [] :=
        (congrArg Setup.links (setup_move_of_not_act hnot)).trans (List.append_nil _).symm
      rw [hnothing]
      refine hc.extend hlinks List.nodup_nil (by simp) (c.exists_kind_use _) ?_ (by simp)
      intro source script rest taken hp
      exact ⟨rest, (List.append_nil taken).symm ▸ hp.congr hloops hsources⟩
  · rw [gives_of_not_act fun a => hmove (.act a)]
    rcases hcases with ⟨calls, hsame⟩ | ⟨r, calls, hsame⟩
    · rw [hsame, List.append_nil]
      exact hc.withCalls calls
    · rw [hsame]
      exact (hc.act hs hscripted (.request r)).withCalls calls

end

/-! ## Construction -/

/-- A cache that was assembled for a scripted connector and that nobody has used. -/
structure Wired (scripts : Kind → List (List Item) → Prop) (c : Cache) : Prop
    extends c.Pristine where
  scripted : c.connector.Scripted scripts
  empty : c.hub.Recorded []
  silent : ∀ t ∈ c.hub.topics, t.log = []
  linked : Linked scripts c []

section

variable {scripts : Kind → List (List Item) → Prop} {c : Cache}

theorem wired_new {connector : Connector} (hscripted : connector.Scripted scripts)
    (scheme : Scheme) (options : CacheOptions) :
    Wired scripts { connector := connector, scheme := scheme, options := options } where
  toPristine := pristine_new connector scheme options
  scripted := hscripted
  empty := fun id s hs => by cases hs
  silent := fun _ ht => absurd ht List.not_mem_nil
  linked :=
    { sources_nodup := List.nodup_nil
      fed := fun _ hlink => absurd hlink List.not_mem_nil
      delivered := fun _ hd => absurd hd List.not_mem_nil }

theorem Wired.withNamespaces (hc : Wired scripts c) (names : List String) :
    Wired scripts (c.withNamespaces names) :=
  { hc with
    toPristine := hc.toPristine.withNamespaces names
    linked := { hc.linked with } }

theorem Wired.withSelector (hc : Wired scripts c) (k : Kind) (s : LabelSelector) :
    Wired scripts (c.withSelector k s) :=
  { hc with
    toPristine := hc.toPristine.withSelector k s
    linked := { hc.linked with } }

theorem links_withDedicated (hinformers : c.informers = []) (k : Kind) (s : Source)
    (log : List WatchRecord) :
    (c.withDedicated k s log).setup.links =
      c.setup.links ++ [(c.hub.stores.length, c.hub.sources.length)] := by
  have hlinks (r : Cache) (hnone : r.informers = []) :
      r.setup.links = r.registry.entries.map fun e => (e.store, e.source) := by
    show _ ++ (r.informers.values.flatMap Informer.watched).map _ = _
    rw [hnone]
    exact List.append_nil _
  rw [hlinks (c.withDedicated k s log) hinformers, hlinks c hinformers]
  exact List.map_append

theorem Wired.addDedicated {added : Cache} {k : Kind} (hc : Wired scripts c)
    (hadd : c.addDedicated k = .ok added) : Wired scripts added := by
  have hpristine := hc.toPristine.addDedicated hadd
  rcases addDedicated_watches hadd with ⟨-, rfl⟩ | ⟨-, ns, s, log, hwatch, rfl⟩
  · exact hc
  · obtain ⟨script, rfl, hscript⟩ := hc.scripted _ _ _ _ hwatch
    have hstores : (c.withDedicated k (.ofSessions script) log).hub.stores =
        c.hub.stores ++ [⟨.new k, c.hub.topics.length⟩] := rfl
    have hsources : (c.withDedicated k (.ofSessions script) log).hub.sources =
        c.hub.sources ++ [.ofSessions script] := rfl
    have hnone : (c.withDedicated k (.ofSessions script) log).hub.loops = [] := hc.loops
    have hextends : c.hub.Extends (fun _ _ => True)
        (c.withDedicated k (.ofSessions script) log).hub := .grown hstores (by simp) fun _ => rfl
    refine ⟨hpristine, hc.scripted, hc.empty.unfed (by simp) hextends.unfed, fun t ht => ?_, ?_⟩
    · rcases List.mem_append.mp ht with hold | hnew
      · exact hc.silent t hold
      · rw [List.mem_singleton.mp hnew]
        rfl
    refine hc.linked.extend (links_withDedicated hc.informers k _ log)
      (List.nodup_singleton _) ?_ ?_ ?_ (by simp)
    · intro link hlink
      obtain rfl := List.mem_singleton.mp hlink
      refine ⟨Nat.le_refl _, ⟨.new k, script, ?_, hscript, ?_⟩, ?_⟩
      · rw [Hub.store?, hstores, List.getElem?_concat_length]
        rfl
      · rw [hsources, List.getElem?_concat_length]
      · rw [hnone]
        exact fun l hl => absurd hl List.not_mem_nil
    · intro id t ht
      obtain ⟨t', ht', hkind, -⟩ := hextends.unfed.exists_store ht
      exact ⟨t', ht', hkind⟩
    · intro source script' rest taken hp
      refine ⟨rest, (List.append_nil taken).symm ▸ hp.grow ⟨_, hsources.symm⟩
        (List.append_nil _).symm (by simp) ?_⟩
      rw [Hub.OneReader, hnone]
      exact List.nodup_nil

theorem wired_build {p : Plan} {connector : Connector} (hscripted : connector.Scripted scripts)
    (hbuild : p.build connector = .ok c) : Wired scripts c :=
  Plan.build_keeps Wired.addDedicated (fun names hc => hc.withNamespaces names)
    (fun k s hc => hc.withSelector k s) (wired_new hscripted p.scheme p.options) hbuild

theorem Wired.useAll (hc : Wired scripts c) {uses : List Use}
    (huses : ∀ u ∈ uses, u.Connects (Connector.Scripted scripts)) :
    Linked scripts (c.useAll uses) (c.deliveries uses) := by
  induction uses using List.reverseRecOn with
  | nil => exact hc.linked
  | append_singleton uses u ih =>
    have hbefore : ∀ v ∈ uses, v.Connects (Connector.Scripted scripts) :=
      fun v hv => huses v (List.mem_append_left _ hv)
    rw [useAll_concat, deliveries_concat]
    exact (ih hbefore).use (hc.toAssembled.fenced_useAll uses).sound
      (connects_useAll hc.scripted hbefore) u

/-! ## What a store was told -/

/-- No store is fed twice. -/
theorem nodup_linked_stores {base : Cache} (hbase : base.Assembled) (hc : Fenced base c) :
    (c.setup.links.map Prod.fst).Nodup := by
  have hentries : c.setup.registry.entries = base.registry.entries :=
    congrArg Registry.entries hc.registry_eq
  rw [Setup.links, List.map_append, List.map_map, List.map_map, hentries]
  refine List.nodup_append.mpr ⟨hbase.stores_nodup, hc.sound.stores_nodup, ?_⟩
  intro id hid other hother
  obtain ⟨e, he, rfl⟩ := List.mem_map.mp hid
  obtain ⟨w, hw, rfl⟩ := List.mem_map.mp hother
  exact Nat.ne_of_lt
    (Nat.lt_of_lt_of_le (hbase.dedicated.entries e he) (hc.sound.stores_new w hw).1)

/-- A store that is fed was told what was taken from its source. -/
theorem Linked.eventsFor_eq {ledger : List Hub.Delivery} (hc : Linked scripts c ledger)
    (hstores : (c.setup.links.map Prod.fst).Nodup) {link : Nat × Nat}
    (hlink : link ∈ c.setup.links) :
    Hub.eventsFor link.1 ledger = Hub.takenFrom link.2 ledger := by
  refine congrArg (List.map _) (List.filter_congr fun d hd => decide_eq_decide.mpr ?_)
  have hdelivered := hc.delivered d hd
  constructor
  · intro hsame
    exact congrArg Prod.snd (List.inj_on_of_nodup_map hstores hdelivered hlink hsame)
  · intro hsame
    exact congrArg Prod.fst (List.inj_on_of_nodup_map hc.sources_nodup hdelivered hlink hsame)

end

end Cache

/-- A store holds what it was told, which is the beginning of a script for its kind, or nothing. -/
structure Store.Follows (scripts : Kind → List (List Item) → Prop) (s : Store)
    (told : List Event) : Prop where
  distinct : s.indexer.items.Distinct
  table : s.indexer.get? = Event.tableOf told
  order : told = [] ∨ ∃ script, scripts s.kind script ∧ told <+: eventsOf script

namespace Cache

theorem Wired.follows {scripts : Kind → List (List Item) → Prop} {c : Cache}
    (hc : Wired scripts c) {uses : List Use}
    (huses : ∀ u ∈ uses, u.Connects (Connector.Scripted scripts)) {id : Nat} {s : Store}
    (hs : (c.useAll uses).hub.store? id = some s) :
    s.Follows scripts (Hub.eventsFor id (c.deliveries uses)) := by
  obtain ⟨hdistinct, htable⟩ := hc.toPristine.recorded hc.empty uses id s hs
  refine ⟨hdistinct, htable, ?_⟩
  have hlinked := hc.useAll huses
  have hstores := nodup_linked_stores hc.toAssembled (hc.toAssembled.fenced_useAll uses)
  by_cases hlink : ∃ link ∈ (c.useAll uses).setup.links, link.1 = id
  · obtain ⟨link, hmem, rfl⟩ := hlink
    obtain ⟨t, script, rest, ht, hscript, hprogress⟩ := hlinked.fed link hmem
    cases hs.symm.trans ht
    rw [hlinked.eventsFor_eq hstores hmem]
    exact Or.inr ⟨script, hscript, hprogress.order⟩
  · -- nobody feeds the store of an informer that could not be made
    left
    rw [Hub.eventsFor, List.map_eq_nil_iff, List.filter_eq_nil_iff]
    intro d hd hsame
    exact hlink ⟨_, hlinked.delivered d hd, of_decide_eq_true hsame⟩

end Cache

end WatchCache
