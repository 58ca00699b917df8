import WatchCache.Proofs.Cache.Informer
import WatchCache.Proofs.Cache.Setup

set_option autoImplicit false

/-!
# Making an informer

An informer is made when its kind is first asked for: the connector says whether the kind has
namespaces, and has to supply a source for each of its scopes.  If it does, the informer is
registered and, in a cache that was started, its loops start; if not, the cache has stores and
sources that nothing refers to, and is otherwise as it was.
-/

namespace WatchCache

namespace Cache

/-! ## What making an informer adds -/

/-- A cache to which stores, topics and sources for a kind were added, and nothing else. -/
structure Grown (k : Kind) (c r : Cache) : Prop where
  rest : r = { c with
    hub := { c.hub with stores := r.hub.stores, topics := r.hub.topics, sources := r.hub.sources }
    watchLog := r.watchLog }
  stores : ∃ cells, r.hub.stores = c.hub.stores ++ cells ∧
    ∀ cell ∈ cells, cell.store = .new k
  sources : ∃ opened, r.hub.sources = c.hub.sources ++ opened
  asked : ∃ records, r.watchLog = c.watchLog ++ records ∧ ∀ record ∈ records, record.kind = k

namespace Grown

variable {k : Kind} {c r q : Cache}

theorem refl (k : Kind) (c : Cache) : Grown k c c where
  rest := rfl
  stores := ⟨[], by simp⟩
  sources := ⟨[], by simp⟩
  asked := ⟨[], by simp⟩

theorem trans (hr : Grown k c r) (hq : Grown k r q) : Grown k c q where
  rest := by
    rw [hq.rest, hr.rest]
  stores := by
    obtain ⟨cells, hcells, hnew⟩ := hr.stores
    obtain ⟨more, hmore, hnew'⟩ := hq.stores
    refine ⟨cells ++ more, by rw [hmore, hcells, List.append_assoc], fun cell hcell => ?_⟩
    exact (List.mem_append.mp hcell).elim (hnew cell) (hnew' cell)
  sources := by
    obtain ⟨opened, hopened⟩ := hr.sources
    obtain ⟨more, hmore⟩ := hq.sources
    exact ⟨opened ++ more, by rw [hmore, hopened, List.append_assoc]⟩
  asked := by
    obtain ⟨records, hrecords, hkind⟩ := hr.asked
    obtain ⟨more, hmore, hkind'⟩ := hq.asked
    refine ⟨records ++ more, by rw [hmore, hrecords, List.append_assoc], fun record hrecord => ?_⟩
    exact (List.mem_append.mp hrecord).elim (hkind record) (hkind' record)

theorem exists_eq (h : Grown k c r) :
    ∃ stores topics sources log, r = { c with
      hub := { c.hub with stores := stores, topics := topics, sources := sources }
      watchLog := log } :=
  ⟨_, _, _, _, h.rest⟩

/-- All of the setup but the log and the extent is as before. -/
theorem setup_eq (h : Grown k c r) : r.setup = { c.setup with
    watchLog := r.watchLog
    extent := ⟨r.hub.stores.length, r.hub.sources.length, c.setup.extent.started⟩ } := by
  rw [h.rest]
  rfl

theorem informers_eq (h : Grown k c r) : r.informers = c.informers :=
  congrArg Setup.informers h.setup_eq

theorem runningUnder_eq (h : Grown k c r) : r.runningUnder = c.runningUnder :=
  congrArg Setup.runningUnder h.setup_eq

end Grown

theorem grown_addTopic (k : Kind) (c : Cache) (buffer : Nat) :
    Grown k c (c.withHub (c.hub.addTopic buffer).2) where
  rest := rfl
  stores := ⟨[], (List.append_nil _).symm, by simp⟩
  sources := ⟨[], (List.append_nil _).symm⟩
  asked := ⟨[], (List.append_nil _).symm, by simp⟩

theorem grown_addStore (k : Kind) (c : Cache) (topic : Nat) :
    Grown k c (c.withHub (c.hub.addStore k topic).2) where
  rest := rfl
  stores := ⟨[⟨.new k, topic⟩], rfl, by simp⟩
  sources := ⟨[], (List.append_nil _).symm⟩
  asked := ⟨[], (List.append_nil _).symm, by simp⟩

/-! ## One scope after the other -/

/-- The cache in which the store and the source of one scope were added. -/
def withScope (c : Cache) (k : Kind) (topic : Nat) (ns : Option String) (s : Source) : Cache :=
  { c with
    hub := ((c.hub.addStore k topic).2.addSource s).2
    watchLog := c.watchLog ++ [⟨k, ns, c.selectors.find? k, c.hub.sources.length⟩] }

theorem grown_withScope (c : Cache) (k : Kind) (topic : Nat) (ns : Option String) (s : Source) :
    Grown k c (c.withScope k topic ns s) where
  rest := rfl
  stores := ⟨[⟨.new k, topic⟩], rfl, by simp⟩
  sources := ⟨[s], rfl⟩
  asked := ⟨[_], rfl, by simp⟩

section

variable {c : Cache} {k : Kind} {ns : Option String}

theorem openScopes_cons_of_error {e : CacheError}
    (he : c.connector.watchSource k ns (c.selectors.find? k) = .error e) (topic : Nat)
    (rest : List (Option String)) :
    openScopes k topic c (ns :: rest) = (.error e, c.withHub (c.hub.addStore k topic).2) := by
  have hopen : (c.withHub (c.hub.addStore k topic).2).openSource k ns (c.selectors.find? k) =
      (.error e, c.withHub (c.hub.addStore k topic).2) := by
    have he' : (c.withHub (c.hub.addStore k topic).2).connector.watchSource k ns
        (c.selectors.find? k) = .error e := he
    simp only [openSource, he']
  simp only [openScopes, hopen]

theorem openScopes_cons_of_ok {s : Source}
    (hs : c.connector.watchSource k ns (c.selectors.find? k) = .ok s) (topic : Nat)
    (rest : List (Option String)) :
    openScopes k topic c (ns :: rest) =
      ((openScopes k topic (c.withScope k topic ns s) rest).1.map
          (⟨ns, c.hub.stores.length, c.hub.sources.length⟩ :: ·),
        (openScopes k topic (c.withScope k topic ns s) rest).2) := by
  have hopen : (c.withHub (c.hub.addStore k topic).2).openSource k ns (c.selectors.find? k) =
      (.ok c.hub.sources.length, c.withScope k topic ns s) := by
    have hs' : (c.withHub (c.hub.addStore k topic).2).connector.watchSource k ns
        (c.selectors.find? k) = .ok s := hs
    simp only [openSource, hs']
    rfl
  simp only [openScopes, hopen]
  rcases openScopes k topic (c.withScope k topic ns s) rest with ⟨_ | watched, built⟩ <;> rfl

end

theorem grown_openScopes (k : Kind) (topic : Nat) (c : Cache) (scopes : List (Option String)) :
    Grown k c (openScopes k topic c scopes).2 := by
  induction scopes generalizing c with
  | nil => exact .refl k c
  | cons ns rest ih =>
    cases hs : c.connector.watchSource k ns (c.selectors.find? k) with
    | error e =>
      rw [openScopes_cons_of_error hs]
      exact c.grown_addStore k topic
    | ok s =>
      rw [openScopes_cons_of_ok hs]
      exact (c.grown_withScope k topic ns s).trans (ih _)

theorem grown_of_buildInformer {c built : Cache} {k : Kind} {answer : Answer Informer}
    (hbuild : c.buildInformer k = (answer, built)) : Grown k c built := by
  have hsame : (c.buildInformer k).2 = built := congrArg Prod.snd hbuild
  rw [← hsame]
  unfold buildInformer
  split
  · exact .refl k c
  · next namespaced _ =>
    dsimp only
    have hgrown := (c.grown_addTopic k c.options.eventBuffer).trans
      (grown_openScopes k (c.hub.addTopic c.options.eventBuffer).1
        (c.withHub (c.hub.addTopic c.options.eventBuffer).2)
        (if namespaced && !c.namespaces.isEmpty then c.namespaces.map some else [none]))
    split
    · next heq =>
      rw [heq] at hgrown
      exact hgrown
    · next heq =>
      rw [heq] at hgrown
      exact hgrown

/-! ## When it can be made -/

/-- The scopes of an informer: each configured namespace, or all namespaces at once. -/
def scopes (c : Cache) (namespaced : Bool) : List (Option String) :=
  if namespaced && !c.namespaces.isEmpty then c.namespaces.map some else [none]

/-- The connector knows a kind and has a source for each of its scopes. -/
def Supplies (c : Cache) (k : Kind) : Prop :=
  ∃ namespaced, c.connector.isNamespaced k = .ok namespaced ∧
    ∀ ns ∈ c.scopes namespaced,
      ∃ s, c.connector.watchSource k ns (c.selectors.find? k) = .ok s

theorem supplies_counted (c : Cache) (r : Request) (k : Kind) :
    (c.counted r).Supplies k ↔ c.Supplies k := by
  cases r <;> exact Iff.rfl

/-- Scopes are opened if there is a source for each of them; otherwise the connector's error for
one of them is returned. -/
theorem openScopes_outcome (k : Kind) (topic : Nat) (c : Cache) (scopes : List (Option String)) :
    ((∀ ns ∈ scopes, ∃ s, c.connector.watchSource k ns (c.selectors.find? k) = .ok s) ∧
        ∃ watched, (openScopes k topic c scopes).1 = .ok watched) ∨
      ∃ ns ∈ scopes, ∃ e, c.connector.watchSource k ns (c.selectors.find? k) = .error e ∧
        (openScopes k topic c scopes).1 = .error e := by
  induction scopes generalizing c with
  | nil => exact Or.inl ⟨by simp, [], rfl⟩
  | cons ns rest ih =>
    cases hs : c.connector.watchSource k ns (c.selectors.find? k) with
    | error e =>
      rw [openScopes_cons_of_error hs]
      exact Or.inr ⟨ns, List.mem_cons_self, e, hs, rfl⟩
    | ok s =>
      rw [openScopes_cons_of_ok hs]
      rcases ih (c.withScope k topic ns s) with
        ⟨hall, watched, hwatched⟩ | ⟨other, hother, e, he, herror⟩
      · refine Or.inl ⟨List.forall_mem_cons.mpr ⟨⟨s, hs⟩, hall⟩,
          ⟨ns, c.hub.stores.length, c.hub.sources.length⟩ :: watched, ?_⟩
        rw [hwatched]
        rfl
      · refine Or.inr ⟨other, List.mem_cons_of_mem ns hother, e, he, ?_⟩
        rw [herror]
        rfl

/-- An informer is made exactly for the kinds that the connector supplies. -/
theorem buildInformer_outcome (c : Cache) (k : Kind) :
    (c.Supplies k ∧ ∃ i, (c.buildInformer k).1 = .ok i) ∨
      ¬c.Supplies k ∧ ∃ e, (c.buildInformer k).1 = .error e ∧
        (c.connector.isNamespaced k = .error e ∨
          ∃ ns, c.connector.watchSource k ns (c.selectors.find? k) = .error e) := by
  cases hnamespaced : c.connector.isNamespaced k with
  | error e =>
    refine Or.inr ⟨?_, e, ?_, Or.inl rfl⟩
    · rintro ⟨namespaced, hok, -⟩
      rw [hnamespaced] at hok
      cases hok
    · simp only [buildInformer, hnamespaced]
  | ok namespaced =>
    have houtcome := openScopes_outcome k (c.hub.addTopic c.options.eventBuffer).1
      (c.withHub (c.hub.addTopic c.options.eventBuffer).2) (c.scopes namespaced)
    have hbuild : (c.buildInformer k).1 =
        (openScopes k (c.hub.addTopic c.options.eventBuffer).1
          (c.withHub (c.hub.addTopic c.options.eventBuffer).2) (c.scopes namespaced)).1.map
          fun watched => ⟨k, namespaced && !c.namespaces.isEmpty,
            (c.hub.addTopic c.options.eventBuffer).1, watched⟩ := by
      simp only [buildInformer, hnamespaced]
      split
      · next heq =>
        rw [scopes, heq]
        rfl
      · next heq =>
        rw [scopes, heq]
        rfl
    rcases houtcome with ⟨hall, watched, hwatched⟩ | ⟨ns, hns, e, he, herror⟩
    · exact Or.inl ⟨⟨namespaced, hnamespaced, hall⟩, _, by rw [hbuild, hwatched]; rfl⟩
    · refine Or.inr ⟨?_, e, by rw [hbuild, herror]; rfl, Or.inr ⟨ns, he⟩⟩
      rintro ⟨namespaced', hok, hall⟩
      cases hnamespaced.symm.trans hok
      obtain ⟨s, hs⟩ := hall ns hns
      cases he.symm.trans hs

theorem not_supplies_of_error {c built : Cache} {k : Kind} {e : CacheError}
    (hbuild : c.buildInformer k = (.error e, built)) : ¬c.Supplies k := by
  rcases c.buildInformer_outcome k with ⟨-, i, hok⟩ | ⟨hno, -⟩
  · rw [hbuild] at hok
    cases hok
  · exact hno

/-! ## The parts of a new informer -/

/-- The record of the request for the source of a store. -/
def watchRecord (c : Cache) (k : Kind) (w : Watched) : WatchRecord :=
  ⟨k, w.ns, c.selectors.find? k, w.source⟩

/-- The connector was asked once for each scope, and its sources are those of the stores. -/
theorem openScopes_asked {k : Kind} {topic : Nat} {c built : Cache}
    {scopes : List (Option String)} {watched : List Watched}
    (hopen : openScopes k topic c scopes = (.ok watched, built)) :
    built.watchLog = c.watchLog ++ watched.map (c.watchRecord k) ∧
      ∀ w ∈ watched, ∃ s, c.connector.watchSource k w.ns (c.selectors.find? k) = .ok s ∧
        built.hub.sources[w.source]? = some s := by
  induction scopes generalizing c watched with
  | nil =>
    cases hopen
    simp
  | cons ns rest ih =>
    cases hs : c.connector.watchSource k ns (c.selectors.find? k) with
    | error e =>
      rw [openScopes_cons_of_error hs] at hopen
      cases hopen
    | ok s =>
      rw [openScopes_cons_of_ok hs] at hopen
      rcases hrest : openScopes k topic (c.withScope k topic ns s) rest with ⟨_ | others, last⟩
      · rw [hrest] at hopen
        cases hopen
      · rw [hrest] at hopen
        cases hopen
        obtain ⟨hlog, hsources⟩ := ih hrest
        refine ⟨?_, List.forall_mem_cons.mpr ⟨⟨s, hs, ?_⟩, hsources⟩⟩
        · rw [hlog, List.map_cons, withScope, List.append_assoc]
          rfl
        · -- the source is the one that was added before the other scopes were opened
          obtain ⟨opened, hopened⟩ :=
            (grown_openScopes k topic (c.withScope k topic ns s) rest).sources
          rw [hrest] at hopened
          rw [hopened, withScope]
          simp [Hub.addSource, Hub.addStore]

theorem buildInformer_asked {c built : Cache} {k : Kind} {i : Informer}
    (hbuild : c.buildInformer k = (.ok i, built)) :
    i.kind = k ∧ built.watchLog = c.watchLog ++ i.watched.map (c.watchRecord k) ∧
      (∃ namespaced, c.connector.isNamespaced k = .ok namespaced ∧
        i.perNamespace = (namespaced && !c.namespaces.isEmpty) ∧
        i.watched.map Watched.ns = c.scopes namespaced) ∧
      ∀ w ∈ i.watched, ∃ s, c.connector.watchSource k w.ns (c.selectors.find? k) = .ok s ∧
        built.hub.sources[w.source]? = some s := by
  obtain ⟨-, -, -, -, hscopes⟩ := buildInformer_ok hbuild
  unfold buildInformer at hbuild
  split at hbuild
  · cases hbuild
  · next namespaced hnamespaced =>
    dsimp only at hbuild
    split at hbuild
    · cases hbuild
    · next hopen =>
      cases hbuild
      obtain ⟨hlog, hsources⟩ := openScopes_asked hopen
      exact ⟨rfl, hlog, ⟨namespaced, hnamespaced, rfl, hscopes⟩, hsources⟩

/-! ## Opening an informer -/

/-- The cache in which an informer is registered, whose loops start if the cache was started. -/
def register (c : Cache) (k : Kind) (i : Informer) : Cache :=
  { c with informers := c.informers.insert k i }.withLoops
    ((c.runningUnder.map fun token => i.loops c.options token).getD [])

theorem openInformer_of_find? {c : Cache} {k : Kind} {i : Informer}
    (hfind : c.informers.find? k = some i) : c.openInformer k = (.ok i, c) := by
  simp only [openInformer, hfind]

theorem openInformer_of_error {c built : Cache} {k : Kind} {e : CacheError}
    (hfind : c.informers.find? k = none) (hbuild : c.buildInformer k = (.error e, built)) :
    c.openInformer k = (.error e, built) := by
  simp only [openInformer, hfind, hbuild]

theorem openInformer_of_ok {c built : Cache} {k : Kind} {i : Informer}
    (hfind : c.informers.find? k = none) (hbuild : c.buildInformer k = (.ok i, built)) :
    c.openInformer k = (.ok i, built.register k i) := by
  simp only [openInformer, hfind, hbuild, register]
  cases hrunning : built.runningUnder with
  | none => exact congrArg (Prod.mk _) (withLoops_nil _).symm
  | some token => exact congrArg (Prod.mk _) (spawnInformer_eq _ i token)

/-- What becomes of a cache that is asked for an informer: it is there, it is made, or it cannot
be made. -/
inductive Opens (c : Cache) (k : Kind) : Answer Informer → Cache → Prop
  | found {i : Informer} (hfind : c.informers.find? k = some i) : Opens c k (.ok i) c
  | failed {e : CacheError} {built : Cache} (hfind : c.informers.find? k = none)
      (hbuild : c.buildInformer k = (.error e, built)) : Opens c k (.error e) built
  | made {i : Informer} {built : Cache} (hfind : c.informers.find? k = none)
      (hbuild : c.buildInformer k = (.ok i, built)) : Opens c k (.ok i) (built.register k i)

theorem opens_of_openInformer {c opened : Cache} {k : Kind} {answer : Answer Informer}
    (hopen : c.openInformer k = (answer, opened)) : Opens c k answer opened := by
  cases hfind : c.informers.find? k with
  | some i =>
    rw [openInformer_of_find? hfind] at hopen
    cases hopen
    exact .found hfind
  | none =>
    rcases hbuild : c.buildInformer k with ⟨_ | i, built⟩
    · rw [openInformer_of_error hfind hbuild] at hopen
      cases hopen
      exact .failed hfind hbuild
    · rw [openInformer_of_ok hfind hbuild] at hopen
      cases hopen
      exact .made hfind hbuild

theorem find?_of_openInformer {c opened : Cache} {k : Kind} {i : Informer}
    (hopen : c.openInformer k = (.ok i, opened)) : opened.informers.find? k = some i := by
  cases opens_of_openInformer hopen with
  | found hfind => exact hfind
  | made hfind hbuild => exact Table.find?_insert_self _ k i

end Cache

end WatchCache
