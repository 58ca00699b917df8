import WatchCache.Proofs.Cache.History

set_option autoImplicit false

/-!
# One informer for each kind

Whatever is asked of a cache, and however often it is started: a kind gets at most one informer,
with the stores and sources that the configured namespaces call for, and each of these stores gets
one loop once the cache was started.  A kind for which the connector cannot supply every source
gets none.
-/

namespace WatchCache

/-! ## Configured names -/

/-- The names of a list that are not empty, each once and in the order of their first
occurrences. -/
structure FirstOccurrences (names distinct : List String) : Prop where
  mem_iff : ∀ name, name ∈ distinct ↔ name ∈ names ∧ name ≠ ""
  ordered : distinct.Pairwise fun a b => names.idxOf a < names.idxOf b

/-- Only the first occurrences are left, in their order. -/
theorem pairwise_eraseDups (names : List String) (p : String → Bool) :
    (names.filter p).eraseDups.Pairwise fun a b => names.idxOf a < names.idxOf b := by
  induction names generalizing p with
  | nil => simp
  | cons name rest ih =>
    -- all names that are kept from the rest, with another first one, stand one place further back
    have hlater (q : String → Bool) (hq : q name = false) :
        (rest.filter q).eraseDups.Pairwise fun a b =>
          (name :: rest).idxOf a < (name :: rest).idxOf b := by
      refine (ih q).imp_of_mem ?_
      intro a b ha hb hless
      have hne {x : String} (hx : x ∈ (rest.filter q).eraseDups) : x ≠ name := by
        rintro rfl
        rw [List.mem_eraseDups, List.mem_filter, hq] at hx
        cases hx.2
      rw [List.idxOf_cons_ne _ (hne ha).symm, List.idxOf_cons_ne _ (hne hb).symm]
      exact Nat.succ_lt_succ hless
    cases hp : p name with
    | false =>
      rw [List.filter_cons_of_neg (by simp [hp])]
      exact hlater p hp
    | true =>
      rw [List.filter_cons_of_pos hp, List.eraseDups_cons, List.filter_filter]
      refine List.pairwise_cons.mpr ⟨fun b hb => ?_, hlater _ (by simp)⟩
      have hne : b ≠ name := by
        rintro rfl
        rw [List.mem_eraseDups, List.mem_filter] at hb
        simp at hb
      rw [List.idxOf_cons_self, List.idxOf_cons_ne _ hne.symm]
      exact Nat.succ_pos _

theorem firstOccurrences (names : List String) :
    FirstOccurrences names (names.filter (· ≠ "")).eraseDups where
  mem_iff := by
    intro name
    rw [List.mem_eraseDups, List.mem_filter]
    simp
  ordered := pairwise_eraseDups names _

namespace Cache

/-! ## Caches that nobody has used -/

/-- A cache that nobody has used yet: it has no informer, no loop and no call, and its stores are
those of the dedicated kinds. -/
structure Fresh (c : Cache) : Prop where
  informers : c.informers = []
  runningUnder : c.runningUnder = none
  started : c.started = false
  calls : c.calls = []
  loops : c.hub.loops = []
  dedicated : c.registry.Below c.hub.stores.length

theorem fresh_new (connector : Connector) (scheme : Scheme) (options : CacheOptions) :
    Fresh { connector := connector, scheme := scheme, options := options } :=
  ⟨rfl, rfl, rfl, rfl, rfl, fun _ he => absurd he List.not_mem_nil, fun _ _ he => by cases he⟩

theorem Fresh.withNamespaces {c : Cache} (hfresh : c.Fresh) (names : List String) :
    (c.withNamespaces names).Fresh :=
  { hfresh with }

theorem Fresh.withSelector {c : Cache} (hfresh : c.Fresh) (k : Kind) (s : LabelSelector) :
    (c.withSelector k s).Fresh :=
  { hfresh with }

/-- The cache in which a dedicated kind was added, with a new topic, a new store and a source. -/
def withDedicated (c : Cache) (k : Kind) (s : Source) (log : List WatchRecord) : Cache :=
  { c with
    hub := (((c.hub.addTopic c.options.eventBuffer).2.addStore k
      c.hub.topics.length).2.addSource s).2
    watchLog := log
    registry := c.registry.add ⟨k, c.hub.stores.length, c.hub.topics.length, c.hub.sources.length⟩ }

/-- A kind whose identifier is registered is not added again; any other one gets an entry, with
the source that the connector has for it. -/
theorem addDedicated_watches {c added : Cache} {k : Kind} (hadd : c.addDedicated k = .ok added) :
    c.registry.contains k = true ∧ added = c ∨
      c.registry.contains k = false ∧ ∃ ns s log,
        c.connector.watchSource k ns none = .ok s ∧ added = c.withDedicated k s log := by
  unfold Cache.addDedicated at hadd
  split at hadd
  · next hthere =>
    cases hadd
    exact Or.inl ⟨hthere, rfl⟩
  · next habsent =>
    refine Or.inr ⟨(Bool.not_eq_true _).mp habsent, ?_⟩
    cases hnamespaced : c.connector.isNamespaced k with
    | error e =>
      rw [hnamespaced] at hadd
      cases hadd
    | ok namespaced =>
      rw [hnamespaced] at hadd
      simp only [bind, Except.bind] at hadd
      split at hadd
      · cases hadd
      · next source opened hopen =>
        split at hadd
        · cases hadd
        · cases hadd
          unfold openSource at hopen
          split at hopen
          · cases hopen
          · next s hs =>
            cases hopen
            exact ⟨_, s, _, hs, rfl⟩

theorem addDedicated_ok {c added : Cache} {k : Kind} (hadd : c.addDedicated k = .ok added) :
    c.registry.contains k = true ∧ added = c ∨
      c.registry.contains k = false ∧ ∃ s log, added = c.withDedicated k s log :=
  (addDedicated_watches hadd).imp_right fun ⟨habsent, _, s, log, _, hadded⟩ =>
    ⟨habsent, s, log, hadded⟩

/-- Dedicated kinds are added before a cache is used. -/
theorem Fresh.addDedicated {c added : Cache} {k : Kind} (hfresh : c.Fresh)
    (hadd : c.addDedicated k = .ok added) : added.Fresh := by
  rcases addDedicated_ok hadd with ⟨-, rfl⟩ | ⟨-, s, log, rfl⟩
  · exact hfresh
  · refine { hfresh with dedicated := ?_ }
    have hstores : (c.withDedicated k s log).hub.stores.length = c.hub.stores.length + 1 :=
      List.length_append
    have hold {e : Entry} (he : e.store < c.hub.stores.length) :
        e.store < (c.withDedicated k s log).hub.stores.length :=
      Nat.lt_of_lt_of_eq (Nat.lt_succ_of_lt he) hstores.symm
    have hnew := Nat.lt_of_lt_of_eq (Nat.lt_succ_self c.hub.stores.length) hstores.symm
    refine ⟨fun e he => ?_, fun kind e he => ?_⟩
    · rcases List.mem_append.mp he with hmem | hmem
      · exact hold (hfresh.dedicated.entries e hmem)
      · rw [List.mem_singleton.mp hmem]
        exact hnew
    · simp only [withDedicated, Registry.lookup, Registry.add, Table.find?_insert] at he
      split at he
      · cases he
        exact hnew
      · split at he
        · cases he
          exact hnew
        · exact hold (hfresh.dedicated.lookup kind e he)

theorem Fresh.sound {c : Cache} (hfresh : c.Fresh) : c.setup.Sound c.hub.stores.length := by
  have hnone : c.setup.watched = [] := by
    show c.informers.values.flatMap Informer.watched = []
    rw [hfresh.informers]
    rfl
  refine ⟨?_, ?_, ?_, hfresh.dedicated, Nat.le_refl _, ?_, ?_⟩
  · show c.informers.Distinct
    rw [hfresh.informers]
    exact Table.distinct_nil
  · rw [hnone]
    exact List.nodup_nil
  · intro w hw
    rw [hnone] at hw
    cases hw
  · show c.started = c.runningUnder.isSome
    rw [hfresh.started, hfresh.runningUnder]
    rfl
  · show c.hub.loops.map Loop.fresh = (c.runningUnder.map c.setup.loopsUnder).getD []
    rw [hfresh.loops, hfresh.runningUnder]
    rfl

/-- A fresh cache runs under the token of the first start. -/
theorem Fresh.runningUnder_eq {c : Cache} (hfresh : c.Fresh) (acts : List Act) :
    (c.run acts).runningUnder = firstStart acts := by
  rw [runningUnder_run hfresh.sound, hfresh.runningUnder, Option.none_or]

/-! ## How an informer is made -/

/-- A request makes an informer: the kind had none, and the connector, asked once for each scope
and with the selector of the kind, supplied the sources of its stores. -/
structure Makes (c : Cache) (r : Request) (names : List String) (k : Kind) (i : Informer) :
    Prop where
  absent : c.informers.find? k = none
  made : (c.act (.request r)).informers.find? k = some i
  kind_eq : i.kind = k
  scopes : ∃ namespaced distinct, c.connector.isNamespaced k = .ok namespaced ∧
    FirstOccurrences names distinct ∧
    i.perNamespace = (namespaced && !distinct.isEmpty) ∧
    i.watched.map Watched.ns = if i.perNamespace then distinct.map some else [none]
  asked : (c.act (.request r)).watchLog = c.watchLog ++
    i.watched.map fun w => ⟨k, w.ns, c.selectors.find? k, w.source⟩
  sources : ∀ w ∈ i.watched, ∃ s,
    c.connector.watchSource k w.ns (c.selectors.find? k) = .ok s ∧
      (c.act (.request r)).hub.sources[w.source]? = some s

theorem counted_eq (c : Cache) (r : Request) :
    ∃ metrics, c.counted r = c.withHub { c.hub with metrics := metrics } := by
  cases r <;> exact ⟨_, rfl⟩

theorem makes_of_buildInformer {c built : Cache} {r : Request} {names : List String} {k : Kind}
    {goal : Goal} {i : Informer}
    (hnames : c.namespaces = (names.filter (· ≠ "")).eraseDups)
    (hasks : c.asks r = some (k, goal)) (hfind : c.informers.find? k = none)
    (hbuild : (c.counted r).buildInformer k = (.ok i, built)) : c.Makes r names k i := by
  obtain ⟨hkind, hlog, ⟨namespaced, hnamespaced, hper, hscopes⟩, hsources⟩ :=
    buildInformer_asked hbuild
  obtain ⟨-, -, -, -, hscoped⟩ := buildInformer_ok hbuild
  obtain ⟨metrics, hcounted⟩ := c.counted_eq r
  rw [hcounted] at hbuild hlog hnamespaced hper hscoped hsources
  have hopen : (c.counted r).openInformer k = (.ok i, built.register k i) := by
    rw [hcounted]
    exact openInformer_of_ok hfind hbuild
  have hgrown := grown_of_buildInformer hbuild
  have hsame : built.informers = c.informers := hgrown.informers_eq
  obtain ⟨cells, metrics', hframe⟩ := exists_beginFallback hopen goal
  rw [← begin_of_asks hasks] at hframe
  have hinformers : (c.begin r).2.informers = built.informers.insert k i :=
    congrArg Cache.informers hframe
  have hlogged : (c.begin r).2.watchLog = built.watchLog :=
    (congrArg Cache.watchLog hframe).trans rfl
  have hopened : (c.begin r).2.hub.sources = built.hub.sources :=
    (congrArg (fun c : Cache => c.hub.sources) hframe).trans rfl
  refine ⟨hfind, ?_, hkind, ⟨namespaced, c.namespaces, hnamespaced, ?_, hper, hscoped⟩, ?_, ?_⟩
  · show (c.begin r).2.informers.find? k = some i
    rw [hinformers, Table.find?_insert_self]
  · rw [hnames]
    exact firstOccurrences names
  · exact hlogged.trans hlog
  · intro w hw
    obtain ⟨s, hs, hsource⟩ := hsources w hw
    exact ⟨s, hs, (congrArg (·[w.source]?) hopened).trans hsource⟩

/-! ## What callers get -/

/-- A call gets what its goal is on an informer, at the moment of its last act. -/
def Answers (last : Cache) (i : Informer) (goal : Goal) (reply : Reply) : Prop :=
  ∃ c : Cache, c.informers = last.informers ∧ c.reach i goal = (reply, last.withCalls c.calls)

theorem informers_reach (c : Cache) (i : Informer) (goal : Goal) :
    (c.reach i goal).2.informers = c.informers := congrArg Setup.informers (c.setup_reach i goal)

theorem answers_reach (c : Cache) (i : Informer) (goal : Goal) (calls : List Call) :
    Answers ((c.reach i goal).2.withCalls calls) i goal (c.reach i goal).1 := by
  refine ⟨c, (c.informers_reach i goal).symm, Prod.ext rfl ?_⟩
  show (c.reach i goal).2 = (c.reach i goal).2.withCalls c.calls
  rw [← calls_reach c i goal]
  rfl

/-- A call that the fallback has to answer is refused since its informer cannot be made, or
stopped while it waits, or gets its answer from the informer of its kind. -/
theorem EndsWith.answers {c : Cache} {before later : List Act} {r : Request} {k : Kind}
    {goal : Goal} {reply : Reply} (hasks : (c.run before).asks r = some (k, goal))
    (hends : c.EndsWith (before ++ .request r :: later) (c.run before).calls.length reply) :
    (¬(c.run before).Supplies k ∧ (c.run before).informers.find? k = none ∧
        ∃ e, reply = .failed e) ∨
      reply = .failed (stoppedError k) ∨
      ∃ i, (c.run (before ++ .request r :: later)).informers.find? k = some i ∧
        Answers (c.run (before ++ .request r :: later)) i goal reply := by
  rcases hends.cases hasks with ⟨rfl, hfinished⟩ |
    ⟨middle, token, rfl, -, hcall, hfinished⟩
  · rw [run_concat]
    have hact : (c.run before).act (.request r) = ((c.run before).begin r).2.withCalls
        (((c.run before).begin r).2.calls ++ [((c.run before).begin r).1]) := rfl
    rw [hact]
    have hbegun := begun_of_asks hasks
    rcases hbegin : (c.run before).begin r with ⟨call, begun⟩
    rw [hbegin] at hbegun hfinished
    cases hfinished
    obtain ⟨metrics, hcounted⟩ := (c.run before).counted_eq r
    rw [hcounted] at hbegun
    cases hbegun with
    | fails hfind hbuild =>
      have hno := not_supplies_of_error hbuild
      exact Or.inl ⟨hno, hfind, _, rfl⟩
    | @reaches i opened hopen _ =>
      refine Or.inr (Or.inr ⟨i, ?_, answers_reach opened i goal _⟩)
      show (opened.reach i goal).2.informers.find? k = some i
      rw [informers_reach, find?_of_openInformer hopen]
  · have hact (c' : Cache) (id : Nat) (hcall : c'.calls[id]? = some (.syncing k token goal)) :
        c'.act (.poll id) = (c'.poll (.syncing k token goal)).2.withCalls
          ((c'.poll (.syncing k token goal)).2.calls.set id
            (c'.poll (.syncing k token goal)).1) := by
      simp only [act, hcall]
    rw [← List.cons_append, ← List.append_assoc, run_concat, hact _ _ hcall]
    rcases hpoll : (c.run (before ++ .request r :: middle)).poll (.syncing k token goal) with
      ⟨call, polled⟩
    rw [hpoll] at hfinished
    cases hfinished
    cases polled_of_poll hpoll with
    | stops _ _ => exact Or.inr (Or.inl rfl)
    | @reaches i hfind _ =>
      refine Or.inr (Or.inr ⟨i, ?_, answers_reach _ i goal _⟩)
      show ((c.run (before ++ .request r :: middle)).reach i goal).2.informers.find? k = some i
      rw [informers_reach, hfind]

/-- A request for a kind without an informer makes one, or is refused with an error of the
connector and leaves the informers and the loops as they are. -/
theorem request_outcome {c : Cache} {r : Request} {k : Kind} {goal : Goal}
    (hasks : c.asks r = some (k, goal)) (hfind : c.informers.find? k = none) :
    (c.Supplies k ∧ ∃ i, (c.act (.request r)).informers.find? k = some i) ∨
      ¬c.Supplies k ∧
        (∃ e, (c.act (.request r)).reply? c.calls.length = some (.failed e) ∧
          (c.connector.isNamespaced k = .error e ∨
            ∃ ns, c.connector.watchSource k ns (c.selectors.find? k) = .error e)) ∧
        (c.act (.request r)).informers = c.informers ∧
        (c.act (.request r)).hub.loops = c.hub.loops := by
  have hfind' : (c.counted r).informers.find? k = none := by
    rw [informers_counted]
    exact hfind
  have houtcome := (c.counted r).buildInformer_outcome k
  rw [supplies_counted, connector_counted, selectors_counted] at houtcome
  rcases hbuild : (c.counted r).buildInformer k with ⟨e | i, built⟩
  · have hrefused : c.begin r = (.finished (.failed e), built) := by
      rw [begin_of_asks hasks, beginFallback, openInformer_of_error hfind' hbuild]
    have hgrown := grown_of_buildInformer hbuild
    rw [hbuild] at houtcome
    rcases houtcome with ⟨-, i, hok⟩ | ⟨hno, e', herror, hcause⟩
    · cases hok
    · cases herror
      refine Or.inr ⟨hno, ⟨e, ?_, hcause⟩, ?_, ?_⟩
      · rw [reply?_of_calls (call_act_request c r), hrefused]
        rfl
      · show (c.begin r).2.informers = c.informers
        rw [hrefused, ← c.informers_counted r]
        exact hgrown.informers_eq
      · show (c.begin r).2.hub.loops = c.hub.loops
        rw [hrefused, hgrown.rest, ← c.loops_counted r]
  · obtain ⟨cells, metrics, hframe⟩ := exists_beginFallback (openInformer_of_ok hfind' hbuild) goal
    rw [hbuild] at houtcome
    rcases houtcome with ⟨hyes, -⟩ | ⟨-, e', herror, -⟩
    · refine Or.inl ⟨hyes, i, ?_⟩
      show (c.begin r).2.informers.find? k = some i
      rw [begin_of_asks hasks, hframe]
      exact Table.find?_insert_self _ k i
    · cases herror

/-! ## One informer for each kind -/

/-- A kind has one informer, whose stores have one loop each.

Requests, starts, events and the polling of calls come in any order, and the connector may answer
differently from time to time.  An informer stays for good, and no source is asked for again; it
was made by some request, for the scopes that the configured names call for.  A store of an
informer has one loop once there was a start, under the token of the first one, and none before.
Every call that ends gets its answer from the informer of its kind, unless it was refused since
that could not be made, or stopped while it waited.  A kind without an informer gets one if the
connector supplies it; otherwise the request fails and makes neither an informer nor a loop. -/
theorem each_kind_has_one_informer {c : Cache} (hfresh : c.Fresh) (names : List String)
    (acts : List Act) :
    let base := c.withNamespaces names
    let last := base.run acts
    last.informers.Distinct ∧
    (∀ k i, last.informers.find? k = some i →
      (∀ later, (last.run later).informers.find? k = some i ∧
        (last.run later).watchLog.filter (·.kind = k) = last.watchLog.filter (·.kind = k)) ∧
      (∃ before r goal later, acts = before ++ .request r :: later ∧
        (base.run before).asks r = some (k, goal) ∧ (base.run before).Makes r names k i ∧
        (base.run before).selectors = c.selectors) ∧
      ∀ w ∈ i.watched, (last.hub.extent.started.filter fun l => l.store = w.store) =
        ((firstStart acts).map fun token => w.loop c.options token).toList) ∧
    (∀ before r later k goal reply, acts = before ++ .request r :: later →
      (base.run before).asks r = some (k, goal) →
      base.EndsWith acts (base.run before).calls.length reply →
      (¬(base.run before).Supplies k ∧ (base.run before).informers.find? k = none ∧
          ∃ e, reply = .failed e) ∨
        reply = .failed (stoppedError k) ∨
        ∃ i, last.informers.find? k = some i ∧ Answers last i goal reply) ∧
    ∀ r k goal, last.asks r = some (k, goal) → last.informers.find? k = none →
      let after := last.act (.request r)
      (last.Supplies k ∧ ∃ i, after.informers.find? k = some i) ∨
        ¬last.Supplies k ∧
          (∃ e, after.reply? last.calls.length = some (.failed e) ∧
            (last.connector.isNamespaced k = .error e ∨
              ∃ ns, last.connector.watchSource k ns (last.selectors.find? k) = .error e)) ∧
          after.informers = last.informers ∧ after.hub.loops = last.hub.loops := by
  intro base last
  have hbase : base.setup.Sound base.hub.stores.length := (hfresh.withNamespaces names).sound
  have hlast : last.setup.Sound base.hub.stores.length := sound_run hbase acts
  refine ⟨hlast.distinct, fun k i hfind => ⟨fun later => ?_, ?_, fun w hw => ?_⟩, ?_, ?_⟩
  · exact ⟨find?_run hlast hfind later, watchLog_run hlast hfind later⟩
  · have hnone : base.informers.find? k = none := by
      rw [(hfresh.withNamespaces names).informers]
      rfl
    obtain ⟨before, r, goal, later, built, hacts, hasks, habsent, hbuild, -⟩ :=
      exists_making hbase hnone hfind
    have hgiven := given_run hbase before
    have hnames : (base.run before).namespaces = (names.filter (· ≠ "")).eraseDups :=
      congrArg (·.2.1) hgiven
    exact ⟨before, r, goal, later, hacts, hasks, makes_of_buildInformer hnames hasks habsent hbuild,
      congrArg (·.2.2.1) hgiven⟩
  · have hmem : w ∈ last.setup.watched :=
      List.mem_flatMap.mpr ⟨i, List.mem_map_of_mem (Table.mem_of_find? hfind), hw⟩
    have hrunning : last.setup.runningUnder = firstStart acts := by
      have hrun := runningUnder_run hbase acts
      rw [show base.runningUnder = none from hfresh.runningUnder, Option.none_or] at hrun
      exact hrun
    have hoptions : last.setup.options = c.options := congrArg (·.1) (given_run hbase acts)
    have hloops := hlast.loop_of_watched hmem
    rw [hrunning, hoptions] at hloops
    exact hloops
  · rintro before r later k goal reply rfl hasks hends
    exact hends.answers hasks
  · intro r k goal hasks hfind
    exact request_outcome hasks hfind

/-- Two namespaces, one of them named twice; a kind that is asked for before the first of two
starts and one that is asked for after it, and one that the connector cannot supply. -/
theorem each_kind_has_one_informer_two_starts :
    let widget : Kind := ⟨"example.io", "v1", "Widget"⟩
    let node : Kind := ⟨"", "v1", "Node"⟩
    let lost : Kind := ⟨"example.io", "v1", "Lost"⟩
    let database := LabelSelector.ofPairs [("tier", "db")]
    let c : Cache :=
      { connector := Script.connector
          { kinds := [(widget, true), (node, false), (lost, true)], badWatch := [lost] }
        options := { resync := some 5 }
        selectors := [(widget, database)] }
    let acts : List Act := [.request (.get widget ⟨some "red", "w"⟩), .request (.informer lost),
      .request (.start "first"), .request (.list node.list {}), .request (.start "second"),
      .request (.informer widget)]
    let last := (c.withNamespaces ["red", "", "blue", "red"]).run acts
    let i : Informer := ⟨widget, true, 0, [⟨some "red", 0, 0⟩, ⟨some "blue", 1, 1⟩]⟩
    let j : Informer := ⟨node, false, 2, [⟨none, 3, 2⟩]⟩
    c.Fresh ∧ last.informers = [(widget, i), (node, j)] ∧
      last.watchLog = [⟨widget, some "red", some database, 0⟩,
        ⟨widget, some "blue", some database, 1⟩, ⟨node, none, none, 2⟩] ∧
      (∀ later, (last.run later).informers.find? widget = some i ∧
        (last.run later).watchLog.filter (·.kind = widget) =
          last.watchLog.filter (·.kind = widget)) ∧
      (last.hub.extent.started.filter fun l => l.store = 1) =
        [⟨1, 1, some 5, 1000, "first", .opening, {}⟩] ∧
      (last.hub.extent.started.filter fun l => l.store = 3) =
        [⟨3, 2, some 5, 1000, "first", .opening, {}⟩] := by
  intro widget node lost database c acts last i j
  have hfresh : c.Fresh :=
    ((fresh_new _ {} { resync := some 5 }).withSelector widget database :)
  have hinformers : last.informers = [(widget, i), (node, j)] := by decide +kernel
  have hlog : last.watchLog = [⟨widget, some "red", some database, 0⟩,
      ⟨widget, some "blue", some database, 1⟩, ⟨node, none, none, 2⟩] := by decide +kernel
  obtain ⟨-, hkinds, -, -⟩ :=
    each_kind_has_one_informer hfresh ["red", "", "blue", "red"] acts
  have hwidget : last.informers.find? widget = some i := by
    rw [hinformers]
    rfl
  have hnode : last.informers.find? node = some j := by
    rw [hinformers]
    rfl
  obtain ⟨hstays, -, hloops⟩ := hkinds widget i hwidget
  obtain ⟨-, -, hloops'⟩ := hkinds node j hnode
  exact ⟨hfresh, hinformers, hlog, hstays, hloops ⟨some "blue", 1, 1⟩ (by simp [i]),
    hloops' ⟨none, 3, 2⟩ (by simp [j])⟩

end Cache

end WatchCache
