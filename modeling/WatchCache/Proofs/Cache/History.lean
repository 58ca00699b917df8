import WatchCache.Proofs.Cache.Read

set_option autoImplicit false

/-!
# The setup after any acts

A cache begins without informers and without loops.  `Setup.Sound` is what every act keeps of its
setup: the stores of the informers are all different, and the loops that were started are one for
each of them once the cache runs, and none before.  What is registered stays registered, and was
made by some request of the run.
-/

namespace WatchCache

/-- All stores of dedicated kinds were there before some number of them. -/
structure Registry.Below (r : Registry) (floor : Nat) : Prop where
  entries : ∀ e ∈ r.entries, e.store < floor
  lookup : ∀ k e, r.lookup k = some e → e.store < floor

namespace Setup

/-- The stores of all informers, with their scopes and sources. -/
def watched (s : Setup) : List Watched := s.informers.values.flatMap Informer.watched

/-- One loop for each dedicated kind and one for each store of an informer. -/
def loopsUnder (s : Setup) (token : Token) : List Loop :=
  (s.registry.entries.map fun e => e.loop s.options token) ++
    s.watched.map fun w => w.loop s.options token

/-- The loops that have to be there: none before the first start. -/
def due (s : Setup) : List Loop := (s.runningUnder.map s.loopsUnder).getD []

/-- The setup after the first start. -/
def start (s : Setup) (token : Token) : Setup :=
  { s with
    started := true
    runningUnder := some token
    extent := { s.extent with started := s.extent.started ++ s.loopsUnder token } }

/-- The setup with one more informer. -/
def add (s : Setup) (k : Kind) (i : Informer) (stores sources : Nat) (log : List WatchRecord) :
    Setup :=
  { s with
    informers := s.informers.insert k i
    watchLog := log
    extent := ⟨stores, sources,
      s.extent.started ++ (s.runningUnder.map fun token => i.loops s.options token).getD []⟩ }

theorem watched_add {s : Setup} {k : Kind} (hfind : s.informers.find? k = none) (i : Informer)
    (stores sources : Nat) (log : List WatchRecord) :
    (s.add k i stores sources log).watched = s.watched ++ i.watched := by
  have hinsert := Table.insert_of_find?_eq_none hfind i
  show (s.informers.insert k i).values.flatMap Informer.watched = _
  rw [hinsert]
  simp [watched, Table.values]

theorem due_add {s : Setup} {k : Kind} (hfind : s.informers.find? k = none) (i : Informer)
    (stores sources : Nat) (log : List WatchRecord) :
    (s.add k i stores sources log).due =
      s.due ++ (s.runningUnder.map fun token => i.loops s.options token).getD [] := by
  have hwatched := watched_add hfind i stores sources log
  show (s.runningUnder.map (s.add k i stores sources log).loopsUnder).getD [] = _
  rw [due]
  cases s.runningUnder with
  | none => rfl
  | some token =>
    show loopsUnder _ token = s.loopsUnder token ++ i.loops s.options token
    rw [loopsUnder, loopsUnder, hwatched, List.map_append, ← List.append_assoc]
    rfl

/-- What every act keeps of a setup; the stores below `floor` were there before any informer. -/
structure Sound (floor : Nat) (s : Setup) : Prop where
  distinct : s.informers.Distinct
  stores_nodup : (s.watched.map Watched.store).Nodup
  stores_new : ∀ w ∈ s.watched, floor ≤ w.store ∧ w.store < s.extent.stores
  dedicated : s.registry.Below floor
  floor_le : floor ≤ s.extent.stores
  started : s.started = s.runningUnder.isSome
  loops : s.extent.started = s.due

section

variable {floor : Nat} {s : Setup}

/-- More stores and sources that no informer refers to make no difference. -/
theorem Sound.grow (hs : s.Sound floor) {stores : Nat} (hstores : s.extent.stores ≤ stores)
    (sources : Nat) (log : List WatchRecord) :
    Sound floor { s with watchLog := log, extent := ⟨stores, sources, s.extent.started⟩ } :=
  { hs with
    stores_new := fun w hw =>
      ⟨(hs.stores_new w hw).1, Nat.lt_of_lt_of_le (hs.stores_new w hw).2 hstores⟩
    floor_le := Nat.le_trans hs.floor_le hstores }

theorem Sound.start (hs : s.Sound floor) (hrunning : s.runningUnder = none) (token : Token) :
    (s.start token).Sound floor :=
  { hs with
    started := rfl
    loops := by
      have hnone : s.extent.started = [] := by
        rw [hs.loops, due, hrunning]
        rfl
      show s.extent.started ++ s.loopsUnder token = s.loopsUnder token
      rw [hnone, List.nil_append] }

/-- An informer comes with stores that are new. -/
theorem Sound.add (hs : s.Sound floor) {k : Kind} (hfind : s.informers.find? k = none)
    {i : Informer} (hids : i.stores = List.range' s.extent.stores i.watched.length)
    (sources : Nat) (log : List WatchRecord) :
    (s.add k i (s.extent.stores + i.watched.length) sources log).Sound floor := by
  have hwatched := watched_add hfind i (s.extent.stores + i.watched.length) sources log
  have hnew : ∀ w ∈ i.watched,
      s.extent.stores ≤ w.store ∧ w.store < s.extent.stores + i.watched.length := by
    intro w hw
    have hmem : w.store ∈ i.stores := List.mem_map_of_mem hw
    rwa [hids, List.mem_range'_1] at hmem
  refine ⟨hs.distinct.insert k i, ?_, ?_, hs.dedicated, Nat.le_add_right_of_le hs.floor_le,
    hs.started, ?_⟩
  · rw [hwatched, List.map_append]
    refine List.nodup_append.mpr ⟨hs.stores_nodup, ?_, ?_⟩
    · show i.stores.Nodup
      rw [hids]
      exact List.nodup_range'
    · intro id hid other hother
      obtain ⟨w, hw, rfl⟩ := List.mem_map.mp hid
      obtain ⟨v, hv, rfl⟩ := List.mem_map.mp hother
      exact Nat.ne_of_lt (Nat.lt_of_lt_of_le (hs.stores_new w hw).2 (hnew v hv).1)
  · intro w hw
    rw [hwatched] at hw
    rcases List.mem_append.mp hw with hold | hmade
    · exact ⟨(hs.stores_new w hold).1, Nat.lt_add_right _ (hs.stores_new w hold).2⟩
    · exact ⟨Nat.le_trans hs.floor_le (hnew w hmade).1, (hnew w hmade).2⟩
  · rw [due_add hfind, ← hs.loops]
    rfl

/-- An entry of a list is the only one with its value, if the values are all different. -/
theorem filter_eq_singleton {α β : Type} [DecidableEq β] {f : α → β} {l : List α}
    (hnodup : (l.map f).Nodup) {a : α} (ha : a ∈ l) : (l.filter fun b => f b = f a) = [a] := by
  induction l with
  | nil => cases ha
  | cons b rest ih =>
    obtain ⟨hnew, hrest⟩ := List.nodup_cons.mp hnodup
    rcases List.mem_cons.mp ha with rfl | hmem
    · have hnone : (rest.filter fun b => f b = f a) = [] := by
        rw [List.filter_eq_nil_iff]
        intro b hb hsame
        exact hnew (of_decide_eq_true hsame ▸ List.mem_map_of_mem hb)
      rw [List.filter_cons_of_pos (by simp), hnone]
    · have hne : f b ≠ f a := fun heq => hnew (heq ▸ List.mem_map_of_mem hmem)
      rw [List.filter_cons_of_neg (by simpa using hne), ih hrest hmem]

/-- Every store of an informer has one loop once the cache runs, and none before. -/
theorem Sound.loop_of_watched (hs : s.Sound floor) {w : Watched} (hw : w ∈ s.watched) :
    (s.extent.started.filter fun l => l.store = w.store) =
      (s.runningUnder.map fun token => w.loop s.options token).toList := by
  rw [hs.loops, due]
  cases s.runningUnder with
  | none => rfl
  | some token =>
    have hentries : ((s.registry.entries.map fun e => e.loop s.options token).filter
        fun l => l.store = w.store) = [] := by
      rw [List.filter_eq_nil_iff]
      intro l hl hsame
      obtain ⟨e, he, rfl⟩ := List.mem_map.mp hl
      have hlow : e.store < w.store :=
        Nat.lt_of_lt_of_le (hs.dedicated.entries e he) (hs.stores_new w hw).1
      exact Nat.ne_of_lt hlow (of_decide_eq_true hsame)
    have hwatched : ((s.watched.map fun w => w.loop s.options token).filter
        fun l => l.store = w.store) = [w.loop s.options token] := by
      rw [List.filter_map]
      exact congrArg (List.map _) (filter_eq_singleton hs.stores_nodup hw)
    show (s.loopsUnder token).filter _ = [w.loop s.options token]
    rw [loopsUnder, List.filter_append, hentries, hwatched, List.nil_append]

/-- No loop is for a store that is not there. -/
theorem Sound.store_lt (hs : s.Sound floor) {l : Loop} (hl : l ∈ s.extent.started) :
    l.store < s.extent.stores := by
  rw [hs.loops, due] at hl
  cases hrunning : s.runningUnder with
  | none =>
    rw [hrunning] at hl
    cases hl
  | some token =>
    rw [hrunning] at hl
    rcases List.mem_append.mp hl with hentry | hwatched
    · obtain ⟨e, he, rfl⟩ := List.mem_map.mp hentry
      exact Nat.lt_of_lt_of_le (hs.dedicated.entries e he) hs.floor_le
    · obtain ⟨w, hw, rfl⟩ := List.mem_map.mp hwatched
      exact (hs.stores_new w hw).2

end

end Setup

namespace Cache

/-! ## Acts that change the setup -/

/-- What an act does to the setup: nothing, or what a start does, or what a request for an
informer does. -/
theorem setup_act_cases (c : Cache) (a : Act) :
    (c.act a).setup = c.setup ∨
      (∃ token, a = .request (.start token) ∧ (c.act a).setup = (c.beginStart token).2.setup) ∨
      ∃ r k goal answer opened, a = .request r ∧ c.asks r = some (k, goal) ∧
        Opens (c.counted r) k answer opened ∧ (c.act a).setup = opened.setup := by
  cases a with
  | request r =>
    have hact : (c.act (.request r)).setup = (c.begin r).2.setup := rfl
    rw [hact]
    cases hasks : c.asks r with
    | some question =>
      obtain ⟨k, goal⟩ := question
      rcases hopen : (c.counted r).openInformer k with ⟨answer, opened⟩
      refine Or.inr (Or.inr
        ⟨r, k, goal, answer, opened, rfl, hasks, opens_of_openInformer hopen, ?_⟩)
      rw [begin_of_asks hasks, setup_beginFallback, hopen]
    | none =>
      by_cases hstart : ∃ token, r = .start token
      · obtain ⟨token, rfl⟩ := hstart
        exact Or.inr (Or.inl ⟨token, rfl, rfl⟩)
      · exact Or.inl (setup_begin_of_asks_none hasks fun token heq => hstart ⟨token, heq⟩)
  | poll id => exact Or.inl (setup_act_of_not_request (by simp))
  | step loop => exact Or.inl (setup_act_of_not_request (by simp))
  | outside s => exact Or.inl (setup_act_of_not_request (by simp))
  | addIndex k name extract => exact Or.inl (setup_act_of_not_request (by simp))
  | reconnect connector => exact Or.inl (setup_act_of_not_request (by simp))

theorem fresh_of_mem_new_loops {i : Informer} {options : CacheOptions} {running : Option Token} :
    ∀ l ∈ (running.map fun token => i.loops options token).getD [], l.fresh = l := by
  intro l hl
  cases running with
  | none => cases hl
  | some token => exact Informer.fresh_of_mem_loops hl

/-- The setup in which an informer was made. -/
theorem setup_made {c built : Cache} {k : Kind} {i : Informer}
    (hbuild : c.buildInformer k = (.ok i, built)) :
    (built.register k i).setup =
      c.setup.add k i (c.setup.extent.stores + i.watched.length) built.hub.sources.length
        built.watchLog := by
  obtain ⟨-, -, hstores, -, -⟩ := buildInformer_ok hbuild
  have hlength := congrArg List.length hstores
  rw [List.length_append, List.length_replicate] at hlength
  obtain ⟨stores, topics, sources, log, rfl⟩ := (grown_of_buildInformer hbuild).exists_eq
  refine (setup_withLoops _ fresh_of_mem_new_loops).trans ?_
  rw [show c.setup.extent.stores + i.watched.length = stores.length from hlength.symm]
  rfl

/-- The setup in which an informer could not be made. -/
theorem setup_failed {c built : Cache} {k : Kind} {e : CacheError}
    (hbuild : c.buildInformer k = (.error e, built)) :
    built.setup = { c.setup with
      watchLog := built.watchLog
      extent := ⟨built.hub.stores.length, built.hub.sources.length, c.setup.extent.started⟩ } ∧
      c.setup.extent.stores ≤ built.hub.stores.length := by
  have hgrown := grown_of_buildInformer hbuild
  obtain ⟨cells, hcells, -⟩ := hgrown.stores
  refine ⟨hgrown.setup_eq, ?_⟩
  show c.hub.stores.length ≤ built.hub.stores.length
  have hlength := congrArg List.length hcells
  rw [List.length_append] at hlength
  omega

/-- The setup after the first start. -/
theorem setup_start_first {c : Cache} (hstarted : c.started = false)
    (hrunning : c.runningUnder = none) (token : Token) :
    (c.beginStart token).2.setup = c.setup.start token := by
  rw [beginStart_first hstarted hrunning]
  have hfresh : ∀ l ∈ (c.registry.entries.map fun e => e.loop c.options token) ++
      c.informers.values.flatMap fun i => i.loops c.options token, l.fresh = l := by
    intro l hl
    rcases List.mem_append.mp hl with hentry | hwatched
    · obtain ⟨e, -, rfl⟩ := List.mem_map.mp hentry
      rfl
    · obtain ⟨i, -, hl⟩ := List.mem_flatMap.mp hwatched
      exact Informer.fresh_of_mem_loops hl
  have hloops : (c.setup.watched.map fun w => w.loop c.options token) =
      c.informers.values.flatMap fun i => i.loops c.options token := List.map_flatMap
  have hunder : c.setup.loopsUnder token =
      (c.registry.entries.map fun e => e.loop c.options token) ++
        c.informers.values.flatMap fun i => i.loops c.options token :=
    congrArg (_ ++ ·) hloops
  rw [Setup.start, hunder]
  exact congrArg (fun s : Setup => { s with started := true, runningUnder := some token })
    (setup_withLoops c hfresh)

/-- What an act makes of the setup of a cache that is sound. -/
theorem setup_act_inv {floor : Nat} {c : Cache} (hs : c.setup.Sound floor) (a : Act) :
    (c.act a).setup = c.setup ∨
      (∃ token, a = .request (.start token) ∧ c.runningUnder = none ∧
        (c.act a).setup = c.setup.start token) ∨
      ∃ r k goal built, a = .request r ∧ c.asks r = some (k, goal) ∧
        c.informers.find? k = none ∧
        ((∃ e, (c.counted r).buildInformer k = (.error e, built) ∧
            (c.act a).setup = built.setup) ∨
          ∃ i, (c.counted r).buildInformer k = (.ok i, built) ∧
            (c.act a).setup = (built.register k i).setup) := by
  rcases c.setup_act_cases a with hsame | ⟨token, rfl, hstart⟩ |
    ⟨r, k, goal, answer, opened, rfl, hasks, hopens, hopened⟩
  · exact Or.inl hsame
  · cases hrunning : c.runningUnder with
    | some first =>
      have hstarted : c.started = true := hs.started.trans (congrArg Option.isSome hrunning)
      rw [beginStart_again hstarted hrunning] at hstart
      exact Or.inl hstart
    | none =>
      have hstarted : c.started = false := hs.started.trans (congrArg Option.isSome hrunning)
      rw [setup_start_first hstarted hrunning] at hstart
      exact Or.inr (Or.inl ⟨token, rfl, rfl, hstart⟩)
  · have hinformers : (c.counted r).informers = c.informers :=
      congrArg Setup.informers (c.setup_counted r)
    cases hopens with
    | found hfind => exact Or.inl (hopened.trans (c.setup_counted r))
    | failed hfind hbuild =>
      rw [hinformers] at hfind
      exact Or.inr (Or.inr ⟨r, k, goal, opened, rfl, hasks, hfind, Or.inl ⟨_, hbuild, hopened⟩⟩)
    | @made i built hfind hbuild =>
      rw [hinformers] at hfind
      exact Or.inr (Or.inr ⟨r, k, goal, built, rfl, hasks, hfind, Or.inr ⟨i, hbuild, hopened⟩⟩)

/-- Every act keeps the setup sound. -/
theorem sound_act {floor : Nat} {c : Cache} (hs : c.setup.Sound floor) (a : Act) :
    (c.act a).setup.Sound floor := by
  rcases setup_act_inv hs a with hsame | ⟨token, -, hrunning, hstart⟩ |
    ⟨r, k, goal, built, -, -, hfind, ⟨e, hbuild, hfailed⟩ | ⟨i, hbuild, hmade⟩⟩
  · rw [hsame]
    exact hs
  · rw [hstart]
    exact hs.start hrunning token
  · obtain ⟨hsetup, hgrown⟩ := setup_failed hbuild
    rw [c.setup_counted r] at hsetup hgrown
    rw [hfailed, hsetup]
    exact hs.grow hgrown _ _
  · obtain ⟨-, -, -, hids, -⟩ := buildInformer_ok hbuild
    rw [hmade, setup_made hbuild, c.setup_counted r]
    refine hs.add hfind ?_ _ _
    have hextent : (c.counted r).hub.stores.length = c.setup.extent.stores :=
      congrArg (fun s : Setup => s.extent.stores) (c.setup_counted r)
    rw [hids, hextent]

/-- The setup is sound when an informer was opened for a request. -/
theorem sound_opened {floor : Nat} {c : Cache} (hs : c.setup.Sound floor) {r : Request}
    {k : Kind} {goal : Goal} (hasks : c.asks r = some (k, goal)) :
    ((c.counted r).openInformer k).2.setup.Sound floor := by
  have hkept : (c.act (.request r)).setup = ((c.counted r).openInformer k).2.setup := by
    show (c.begin r).2.setup = _
    rw [begin_of_asks hasks, setup_beginFallback]
  exact hkept ▸ sound_act hs (.request r)

/-- What a cache was given when it was constructed. -/
def given (c : Cache) : CacheOptions × List String × Table Kind LabelSelector × Registry :=
  (c.options, c.namespaces, c.selectors, c.registry)

section

variable {floor : Nat} {c : Cache} {k : Kind} {i : Informer}

theorem given_act (hs : c.setup.Sound floor) (a : Act) : (c.act a).given = c.given := by
  have hfields {c' : Cache} {s : Setup} (h : c'.setup = s) :
      c'.given = (s.options, s.namespaces, s.selectors, s.registry) := by
    subst h
    rfl
  rcases setup_act_inv hs a with hsame | ⟨token, -, -, hstart⟩ |
    ⟨r, k, goal, built, -, -, -, ⟨e, hbuild, hfailed⟩ | ⟨i, hbuild, hmade⟩⟩
  · exact hfields hsame
  · exact hfields hstart
  · rw [(setup_failed hbuild).1, c.setup_counted r] at hfailed
    exact hfields hfailed
  · rw [setup_made hbuild, c.setup_counted r] at hmade
    exact hfields hmade

/-- The table of informers changes only when one is made. -/
theorem informers_act (hs : c.setup.Sound floor) (a : Act) :
    (c.act a).informers = c.informers ∨
      ∃ r k goal i built, a = .request r ∧ c.asks r = some (k, goal) ∧
        c.informers.find? k = none ∧ (c.counted r).buildInformer k = (.ok i, built) ∧
        (c.act a).setup = (built.register k i).setup ∧
        (c.act a).informers = c.informers.insert k i := by
  rcases setup_act_inv hs a with hsame | ⟨token, -, -, hstart⟩ |
    ⟨r, k, goal, built, ha, hasks, hfind, ⟨e, hbuild, hfailed⟩ | ⟨i, hbuild, hmade⟩⟩
  · exact Or.inl (congrArg Setup.informers hsame)
  · exact Or.inl (congrArg Setup.informers hstart)
  · rw [(setup_failed hbuild).1, c.setup_counted r] at hfailed
    exact Or.inl (congrArg Setup.informers hfailed)
  · have hsetup := hmade
    rw [setup_made hbuild, c.setup_counted r] at hsetup
    exact Or.inr ⟨r, k, goal, i, built, ha, hasks, hfind, hbuild, hmade,
      congrArg Setup.informers hsetup⟩

theorem find?_act (hs : c.setup.Sound floor) (hfind : c.informers.find? k = some i) (a : Act) :
    (c.act a).informers.find? k = some i := by
  rcases informers_act hs a with hsame | ⟨r, k', goal, i', built, -, -, hfind', -, -, hinsert⟩
  · rw [hsame]
    exact hfind
  · have hne : k ≠ k' := by
      rintro rfl
      cases hfind.symm.trans hfind'
    rw [hinsert, Table.find?_insert_of_ne _ _ hne]
    exact hfind

/-- The connector is asked for the sources of a kind only by a request that the fallback has to
answer for the kind, before it has its informer. -/
theorem watchLog_act_of_unasked (hs : c.setup.Sound floor) {a : Act}
    (hunasked : ∀ r goal, a = .request r → c.asks r = some (k, goal) →
      c.informers.find? k ≠ none) :
    (c.act a).watchLog.filter (·.kind = k) = c.watchLog.filter (·.kind = k) := by
  have hother {r : Request} {k' : Kind} {answer : Answer Informer} {built : Cache} (hne : k' ≠ k)
      (hbuild : (c.counted r).buildInformer k' = (answer, built)) :
      built.watchLog.filter (·.kind = k) = c.watchLog.filter (·.kind = k) := by
    obtain ⟨records, hlog, hkinds⟩ := (grown_of_buildInformer hbuild).asked
    have hsame : (c.counted r).watchLog = c.watchLog :=
      congrArg Setup.watchLog (c.setup_counted r)
    have hnone : records.filter (·.kind = k) = [] := by
      rw [List.filter_eq_nil_iff]
      intro record hrecord hkind
      exact hne ((hkinds record hrecord).symm.trans (of_decide_eq_true hkind))
    rw [hlog, hsame, List.filter_append, hnone, List.append_nil]
  rcases setup_act_inv hs a with hsame | ⟨token, -, -, hstart⟩ |
    ⟨r, k', goal, built, ha, hasks, hfind, hbuilt⟩
  · rw [show (c.act a).watchLog = c.watchLog from congrArg Setup.watchLog hsame]
  · rw [show (c.act a).watchLog = c.watchLog from congrArg Setup.watchLog hstart]
  · have hne : k' ≠ k := by
      rintro rfl
      exact hunasked r goal ha hasks hfind
    rcases hbuilt with ⟨e, hbuild, hfailed⟩ | ⟨i', hbuild, hmade⟩
    · rw [show (c.act a).watchLog = built.watchLog from congrArg Setup.watchLog hfailed]
      exact hother hne hbuild
    · rw [setup_made hbuild] at hmade
      rw [show (c.act a).watchLog = built.watchLog from congrArg Setup.watchLog hmade]
      exact hother hne hbuild

/-- Nothing more is asked of the connector for a kind that has its informer. -/
theorem watchLog_act (hs : c.setup.Sound floor) (hfind : c.informers.find? k = some i) (a : Act) :
    (c.act a).watchLog.filter (·.kind = k) = c.watchLog.filter (·.kind = k) :=
  watchLog_act_of_unasked hs fun _ _ _ _ hnone => by cases hfind.symm.trans hnone

/-- The token of a start. -/
def startToken? : Act → Option Token
  | .request (.start token) => some token
  | _ => none

/-- A cache runs under the token of its first start. -/
theorem runningUnder_act (hs : c.setup.Sound floor) (a : Act) :
    (c.act a).runningUnder = c.runningUnder.or (startToken? a) := by
  by_cases hstart : ∃ token, a = .request (.start token)
  · obtain ⟨token, rfl⟩ := hstart
    have hact : (c.act (.request (.start token))).runningUnder =
        (c.beginStart token).2.runningUnder := rfl
    cases hrunning : c.runningUnder with
    | none =>
      have hstarted : c.started = false := hs.started.trans (congrArg Option.isSome hrunning)
      rw [hact, beginStart_first hstarted hrunning]
      rfl
    | some first =>
      have hstarted : c.started = true := hs.started.trans (congrArg Option.isSome hrunning)
      rw [hact, beginStart_again hstarted hrunning]
      exact hrunning
  · have hnone : startToken? a = none := by
      unfold startToken?
      split
      · next token => exact absurd ⟨token, rfl⟩ hstart
      · rfl
    rw [hnone, Option.or_none]
    rcases setup_act_inv hs a with hsame | ⟨token, ha, -, -⟩ |
      ⟨r, k, goal, built, -, -, -, ⟨e, hbuild, hfailed⟩ | ⟨i, hbuild, hmade⟩⟩
    · exact congrArg Setup.runningUnder hsame
    · exact absurd ⟨token, ha⟩ hstart
    · rw [(setup_failed hbuild).1, c.setup_counted r] at hfailed
      exact congrArg Setup.runningUnder hfailed
    · rw [setup_made hbuild, c.setup_counted r] at hmade
      exact congrArg Setup.runningUnder hmade

/-! ## Runs -/

theorem sound_run (hs : c.setup.Sound floor) (acts : List Act) :
    (c.run acts).setup.Sound floor := by
  induction acts using List.reverseRecOn with
  | nil => exact hs
  | append_singleton acts a ih =>
    rw [run_concat]
    exact sound_act ih a

theorem given_run (hs : c.setup.Sound floor) (acts : List Act) : (c.run acts).given = c.given := by
  induction acts using List.reverseRecOn with
  | nil => rfl
  | append_singleton acts a ih =>
    rw [run_concat, given_act (sound_run hs acts), ih]

theorem registry_run (hs : c.setup.Sound floor) (acts : List Act) :
    (c.run acts).registry = c.registry :=
  congrArg (·.2.2.2) (given_run hs acts)

/-- An informer stays. -/
theorem find?_run (hs : c.setup.Sound floor) (hfind : c.informers.find? k = some i)
    (acts : List Act) : (c.run acts).informers.find? k = some i := by
  induction acts using List.reverseRecOn with
  | nil => exact hfind
  | append_singleton acts a ih =>
    rw [run_concat]
    exact find?_act (sound_run hs acts) ih a

theorem watchLog_run (hs : c.setup.Sound floor) (hfind : c.informers.find? k = some i)
    (acts : List Act) :
    (c.run acts).watchLog.filter (·.kind = k) = c.watchLog.filter (·.kind = k) := by
  induction acts using List.reverseRecOn with
  | nil => rfl
  | append_singleton acts a ih =>
    rw [run_concat, watchLog_act (sound_run hs acts) (find?_run hs hfind acts), ih]

/-- The token of the first start among acts. -/
def firstStart (acts : List Act) : Option Token := acts.findSome? startToken?

theorem firstStart_append (first second : List Act) :
    firstStart (first ++ second) = (firstStart first).or (firstStart second) := by
  rw [firstStart, List.findSome?_append]
  rfl

theorem runningUnder_run (hs : c.setup.Sound floor) (acts : List Act) :
    (c.run acts).runningUnder = c.runningUnder.or (firstStart acts) := by
  induction acts using List.reverseRecOn with
  | nil => exact Option.or_none.symm
  | append_singleton acts a ih =>
    have hlast : firstStart [a] = startToken? a := by
      cases hstart : startToken? a <;> simp [firstStart, hstart]
    rw [run_concat, runningUnder_act (sound_run hs acts), ih, firstStart_append, hlast,
      Option.or_assoc]

/-- Every informer was made by some request. -/
theorem exists_making (hs : c.setup.Sound floor) (hnone : c.informers.find? k = none)
    {acts : List Act} (hfind : (c.run acts).informers.find? k = some i) :
    ∃ before r goal later built, acts = before ++ .request r :: later ∧
      (c.run before).asks r = some (k, goal) ∧ (c.run before).informers.find? k = none ∧
      ((c.run before).counted r).buildInformer k = (.ok i, built) ∧
      ((c.run before).act (.request r)).setup = (built.register k i).setup := by
  induction acts using List.reverseRecOn with
  | nil => cases hnone.symm.trans hfind
  | append_singleton acts a ih =>
    rw [run_concat] at hfind
    have hearlier (hold : (c.run acts).informers.find? k = some i) :
        ∃ before r goal later built, acts ++ [a] = before ++ .request r :: later ∧
          (c.run before).asks r = some (k, goal) ∧ (c.run before).informers.find? k = none ∧
          ((c.run before).counted r).buildInformer k = (.ok i, built) ∧
          ((c.run before).act (.request r)).setup = (built.register k i).setup := by
      obtain ⟨before, r, goal, later, built, rfl, hrest⟩ := ih hold
      exact ⟨before, r, goal, later ++ [a], built, by simp, hrest⟩
    rcases informers_act (sound_run hs acts) a with hsame |
      ⟨r, k', goal, i', built, rfl, hasks, hnew, hbuild, hmade, hinsert⟩
    · exact hearlier (hsame ▸ hfind)
    · rw [hinsert, Table.find?_insert] at hfind
      split at hfind
      · next heq =>
        subst heq
        cases hfind
        exact ⟨acts, r, goal, [], built, rfl, hasks, hnew, hbuild, hmade⟩
      · exact hearlier hfind

end

end Cache

end WatchCache
