import WatchCache.Proofs.Cache.Entries
import WatchCache.Proofs.Hub.Part

set_option autoImplicit false

/-!
# Runs with subscribers

Callers do not only ask a cache: they subscribe to the changes of its stores, receive them, and
add indices to the stores of dedicated kinds through the handles that they hold.  `drive` is the
cache after such moves, in any order and between any acts.

The stores of the dedicated kinds, with their topics, sources and loops, come first in the hub,
and `Fenced` is what every move keeps of that: whatever is added later has to do only with what
was added later.  So the hub splits, and the dedicated kinds are a part of it.
-/

namespace WatchCache

namespace Cache

/-! ## Moves -/

/-- What happens to a cache and to those who hold its handles, one thing at a time. -/
inductive Move where
  | act (a : Act)
  | subscribe (topic : Nat)
  | unsubscribe (sub : Nat)
  | receive (sub : Nat)
  /-- Somebody adds an index through a handle on the store of a dedicated kind. -/
  | addIndex (kind : Kind) (name : String) (extract : Extractor)

/-- The cache after a move. -/
def move (c : Cache) : Move → Cache
  | .act a => c.act a
  | .subscribe topic => c.withHub (c.hub.subscribe topic).2
  | .unsubscribe sub => c.withHub (c.hub.unsubscribe sub)
  | .receive sub => c.withHub (c.hub.receive sub).2
  | .addIndex k name extract =>
    match c.registry.lookup k with
    | some e => (c.handleIndex ⟨e.kind, [e.store], e.topic⟩ name extract).2
    | none => c

/-- The cache after moves. -/
def drive (c : Cache) (moves : List Move) : Cache := moves.foldl move c

@[simp] theorem drive_nil (c : Cache) : c.drive [] = c := rfl

theorem drive_append (c : Cache) (first second : List Move) :
    c.drive (first ++ second) = (c.drive first).drive second := List.foldl_append

@[simp] theorem drive_concat (c : Cache) (moves : List Move) (m : Move) :
    c.drive (moves ++ [m]) = (c.drive moves).move m := c.drive_append moves [m]

/-- A handle on a dedicated store adds its index there. -/
theorem move_addIndex {c : Cache} {k : Kind} {e : Entry} (hlookup : c.registry.lookup k = some e)
    (name : String) (extract : Extractor) :
    c.move (.addIndex k name extract) =
      c.withHub (c.hub.tryStore e.store (·.addIndex name extract)).2 := by
  simp only [move, hlookup]
  exact congrArg c.withHub (indexStores_singleton _ c.hub e.store)

theorem move_addIndex_of_none {c : Cache} {k : Kind} (hlookup : c.registry.lookup k = none)
    (name : String) (extract : Extractor) : c.move (.addIndex k name extract) = c := by
  simp only [move, hlookup]

/-- Subscribers and handles have nothing to do with the setup. -/
theorem setup_move_of_not_act {c : Cache} {m : Move} (hact : ∀ a, m ≠ .act a) :
    (c.move m).setup = c.setup := by
  cases m with
  | act a => exact absurd rfl (hact a)
  | subscribe topic => rfl
  | unsubscribe sub => rfl
  | receive sub =>
    refine setup_withHub_of_extent ?_
    unfold Hub.receive
    split
    · split <;> rfl
    · rfl
  | addIndex k name extract =>
    cases hlookup : c.registry.lookup k with
    | none => rw [move_addIndex_of_none hlookup]
    | some e =>
      rw [move_addIndex hlookup]
      exact setup_withHub_of_extent (c.hub.extent_tryStore e.store _)

/-! ## Caches that were just assembled -/

/-- A cache that was assembled and that nobody has used: its dedicated kinds have sources, and all
its stores publish on topics that are there. -/
structure Assembled (c : Cache) : Prop extends c.Unused where
  sources : ∀ e ∈ c.registry.entries, e.source < c.hub.sources.length
  publishers : ∀ topic ∈ c.hub.wiring.1, topic < c.hub.wiring.2

theorem assembled_new (connector : Connector) (scheme : Scheme) (options : CacheOptions) :
    Assembled { connector := connector, scheme := scheme, options := options } where
  toUnused := unused_new connector scheme options
  sources := fun _ he => absurd he List.not_mem_nil
  publishers := fun _ htopic => absurd htopic List.not_mem_nil

theorem Assembled.withNamespaces {c : Cache} (hc : c.Assembled) (names : List String) :
    (c.withNamespaces names).Assembled :=
  { hc with toUnused := hc.toUnused.withNamespaces names }

theorem Assembled.withSelector {c : Cache} (hc : c.Assembled) (k : Kind) (s : LabelSelector) :
    (c.withSelector k s).Assembled :=
  { hc with toUnused := hc.toUnused.withSelector k s }

theorem Assembled.addDedicated {c added : Cache} {k : Kind} (hc : c.Assembled)
    (hadd : c.addDedicated k = .ok added) : added.Assembled := by
  have hunused := hc.toUnused.addDedicated hadd
  rcases addDedicated_ok hadd with ⟨-, rfl⟩ | ⟨-, s, log, rfl⟩
  · exact hc
  · refine ⟨hunused, fun e he => ?_, fun topic htopic => ?_⟩
    · have hlength : (c.withDedicated k s log).hub.sources.length = c.hub.sources.length + 1 :=
        List.length_append
      rcases List.mem_append.mp he with hold | hnew
      · have hlt := hc.sources e hold
        omega
      · rw [List.mem_singleton.mp hnew, hlength]
        exact Nat.lt_succ_self _
    · have hwiring : (c.withDedicated k s log).hub.wiring =
          (c.hub.wiring.1 ++ [c.hub.topics.length], c.hub.wiring.2 + 1) := by
        show ((c.hub.addTopic c.options.eventBuffer).2.addStore k c.hub.topics.length).2.wiring = _
        simp
      rw [hwiring] at htopic ⊢
      rcases List.mem_append.mp htopic with hold | hnew
      · exact Nat.lt_succ_of_lt (hc.publishers topic hold)
      · rw [List.mem_singleton.mp hnew]
        exact Nat.lt_succ_self _

theorem Assembled.addDedicatedAll {c built : Cache} {kinds : List Kind} (hc : c.Assembled)
    (hbuild : c.addDedicatedAll kinds = .ok built) : built.Assembled :=
  addDedicatedAll_keeps Assembled.addDedicated hc hbuild

/-! ## The part of the dedicated kinds -/

/-- What the dedicated kinds have of the hub: all that is there before the cache is used, and one
loop for each of them. -/
def share (c : Cache) : Hub.Share where
  stores := c.hub.stores.length
  topics := c.hub.topics.length
  sources := c.hub.sources.length
  loops := c.registry.entries.length

/-- What every move keeps of a cache since it was assembled. -/
structure Fenced (base c : Cache) : Prop where
  sound : c.setup.Sound base.hub.stores.length
  given : c.given = base.given
  sources : base.hub.sources.length ≤ c.hub.sources.length
  watched : ∀ w ∈ c.setup.watched, base.hub.sources.length ≤ w.source
  topics : base.hub.topics.length ≤ c.hub.topics.length
  publishes : c.hub.Publishes base.share

theorem Assembled.fenced {base : Cache} (hbase : base.Assembled) : Fenced base base where
  sound := hbase.sound
  given := rfl
  sources := Nat.le_refl _
  watched := by
    have hnone : base.setup.watched = [] := by
      show base.informers.values.flatMap Informer.watched = []
      rw [hbase.informers]
      rfl
    intro w hw
    rw [hnone] at hw
    cases hw
  topics := Nat.le_refl _
  publishes := by
    intro id cell hcell
    have hid : id < base.hub.stores.length := (List.getElem?_eq_some_iff.mp hcell).1
    have htopic := hbase.publishers cell.topic (List.mem_map_of_mem (List.mem_of_getElem? hcell))
    exact ⟨fun _ => htopic, fun _ => hid⟩

section

variable {base c : Cache}

theorem Fenced.registry_eq (hc : Fenced base c) : c.registry = base.registry :=
  congrArg (·.2.2.2) hc.given

theorem Fenced.options_eq (hc : Fenced base c) : c.options = base.options :=
  congrArg (·.1) hc.given

/-- The first loops are those of the dedicated kinds; the others feed no store and read from no
source of these. -/
theorem Fenced.loop_cases (hbase : base.Assembled) (hc : Fenced base c) {id : Nat} {l : Loop}
    (hl : c.hub.loops[id]? = some l) :
    (id < base.registry.entries.length ∧ l.store < base.hub.stores.length ∧
        l.source < base.hub.sources.length) ∨
      (base.registry.entries.length ≤ id ∧ base.hub.stores.length ≤ l.store ∧
        base.hub.sources.length ≤ l.source) := by
  have hfresh : c.setup.due[id]? = some l.fresh := by
    rw [← hc.sound.loops]
    show (c.hub.loops.map Loop.fresh)[id]? = _
    rw [List.getElem?_map, hl]
    rfl
  unfold Setup.due at hfresh
  cases hrunning : c.setup.runningUnder with
  | none =>
    rw [hrunning] at hfresh
    cases hfresh
  | some token =>
    rw [hrunning] at hfresh
    have hentries : c.setup.registry.entries = base.registry.entries :=
      congrArg Registry.entries hc.registry_eq
    have hlist : (c.setup.loopsUnder token)[id]? = some l.fresh := hfresh
    rw [Setup.loopsUnder, List.getElem?_append, hentries, List.length_map] at hlist
    split at hlist
    · next hid =>
      rw [List.getElem?_map] at hlist
      obtain ⟨e, he, heq⟩ := Option.map_eq_some_iff.mp hlist
      have hmem := List.mem_of_getElem? he
      have hstore : l.store = e.store := congrArg Loop.store heq.symm
      have hsource : l.source = e.source := congrArg Loop.source heq.symm
      exact Or.inl ⟨hid, hstore ▸ hbase.dedicated.entries e hmem, hsource ▸ hbase.sources e hmem⟩
    · next hid =>
      rw [List.getElem?_map] at hlist
      obtain ⟨w, hw, heq⟩ := Option.map_eq_some_iff.mp hlist
      have hmem := List.mem_of_getElem? hw
      have hstore : l.store = w.store := congrArg Loop.store heq.symm
      have hsource : l.source = w.source := congrArg Loop.source heq.symm
      exact Or.inr ⟨Nat.le_of_not_lt hid, hstore ▸ (hc.sound.stores_new w hmem).1,
        hsource ▸ hc.watched w hmem⟩

/-- The hub splits: the loops of the dedicated kinds come before those of the informers. -/
theorem Fenced.splits (hbase : base.Assembled) (hc : Fenced base c) :
    c.hub.Splits base.share := by
  refine ⟨hc.publishes, fun id l hl => ?_, fun id l hl => ?_⟩
  · show id < base.registry.entries.length ↔ l.store < base.hub.stores.length
    have hwhich := hc.loop_cases hbase hl
    omega
  · show id < base.registry.entries.length ↔ l.source < base.hub.sources.length
    have hwhich := hc.loop_cases hbase hl
    omega

/-- An act that stirs the hub changes nothing about where its stores publish. -/
theorem Stirs.wiring {a : Act} {h : Hub} (hstirs : Stirs c a h) : h.wiring = c.hub.wiring := by
  cases hstirs with
  | step loop => exact c.hub.wiring_stepOnce loop
  | outside s => exact c.hub.wiring_meet s
  | first _ => rfl
  | again _ => rfl
  | @index k field extract entry _ => exact c.hub.wiring_tryStore entry.store _

/-- The stores that an act adds to informers have sources that it adds as well. -/
theorem sources_act {floor : Nat} (hs : c.setup.Sound floor) (a : Act) :
    c.hub.sources.length ≤ (c.act a).hub.sources.length ∧
      ∀ w ∈ (c.act a).setup.watched, w ∈ c.setup.watched ∨ c.hub.sources.length ≤ w.source := by
  have hkept {s : Setup} (hsetup : (c.act a).setup = s)
      (hlength : c.hub.sources.length ≤ s.extent.sources)
      (hwatched : ∀ w ∈ s.watched, w ∈ c.setup.watched ∨ c.hub.sources.length ≤ w.source) :
      c.hub.sources.length ≤ (c.act a).hub.sources.length ∧
        ∀ w ∈ (c.act a).setup.watched, w ∈ c.setup.watched ∨ c.hub.sources.length ≤ w.source := by
    subst hsetup
    exact ⟨hlength, hwatched⟩
  have hbuilt {r : Request} {k : Kind} {answer : Answer Informer} {built : Cache}
      (hbuild : (c.counted r).buildInformer k = (answer, built)) :
      c.hub.sources.length ≤ built.hub.sources.length := by
    obtain ⟨opened, hopened⟩ := (grown_of_buildInformer hbuild).sources
    have hcounted : (c.counted r).hub.sources = c.hub.sources := by cases r <;> rfl
    rw [hopened, hcounted, List.length_append]
    exact Nat.le_add_right _ _
  rcases setup_act_inv hs a with hsame | ⟨token, -, -, hstart⟩ |
    ⟨r, k, goal, built, -, -, hfind, ⟨e, hbuild, hfailed⟩ | ⟨i, hbuild, hmade⟩⟩
  · exact hkept hsame (Nat.le_refl _) fun w hw => Or.inl hw
  · exact hkept hstart (Nat.le_refl _) fun w hw => Or.inl hw
  · rw [(setup_failed hbuild).1, c.setup_counted r] at hfailed
    exact hkept hfailed (hbuilt hbuild) fun w hw => Or.inl hw
  · rw [setup_made hbuild, c.setup_counted r] at hmade
    refine hkept hmade (hbuilt hbuild) fun w hw => ?_
    rw [Setup.watched_add hfind] at hw
    rcases List.mem_append.mp hw with hold | hnew
    · exact Or.inl hold
    · obtain ⟨-, -, hsources⟩ := buildInformer_adds hbuild
      have hcounted : (c.counted r).hub.sources = c.hub.sources := by cases r <;> rfl
      have hmem : w.source ∈ i.watched.map Watched.source := List.mem_map_of_mem hnew
      rw [hsources i rfl, List.mem_range'_1, hcounted] at hmem
      exact Or.inr hmem.1

theorem Fenced.act (hc : Fenced base c) (a : Act) : Fenced base (c.act a) := by
  obtain ⟨hlength, hwatched⟩ := sources_act hc.sound a
  have hfloor : base.hub.stores.length ≤ c.hub.stores.length := hc.sound.floor_le
  have hwiring : c.hub.topics.length ≤ (c.act a).hub.topics.length ∧
      ∃ added, (c.act a).hub.wiring.1 = c.hub.wiring.1 ++ added ∧
        ∀ topic ∈ added, c.hub.topics.length ≤ topic := by
    rcases spares_or_stirs hc.sound a with hspares | hstirs
    · have hspared := spared_act hc.sound hspares
      exact ⟨hspared.topics.length_le, hspared.publishers⟩
    · have hsame := hstirs.wiring
      exact ⟨Nat.le_of_eq (congrArg Prod.snd hsame).symm, [],
        (congrArg Prod.fst hsame).trans (List.append_nil _).symm, by simp⟩
  obtain ⟨htopics, added, hadded, hnew⟩ := hwiring
  refine ⟨sound_act hc.sound a, (given_act hc.sound a).trans hc.given,
    Nat.le_trans hc.sources hlength, fun w hw => ?_, Nat.le_trans hc.topics htopics, ?_⟩
  · rcases hwatched w hw with hold | hadded
    · exact hc.watched w hold
    · exact Nat.le_trans hc.sources hadded
  · rw [Hub.publishes_iff]
    intro id topic htopic
    rw [hadded, List.getElem?_append] at htopic
    split at htopic
    · exact Hub.publishes_iff.mp hc.publishes id topic htopic
    · next hid =>
      have hge := hnew topic (List.mem_of_getElem? htopic)
      have hwired : c.hub.wiring.1.length = c.hub.stores.length := List.length_map _
      have hbelow := hc.topics
      show id < base.hub.stores.length ↔ topic < base.hub.topics.length
      omega

theorem Fenced.move (hc : Fenced base c) (m : Move) : Fenced base (c.move m) := by
  have hkept {h : Hub} (hsetup : (c.withHub h).setup = c.setup)
      (hwiring : h.wiring = c.hub.wiring) :
      Fenced base (c.withHub h) := by
    refine ⟨hsetup ▸ hc.sound, hc.given, ?_, hsetup ▸ hc.watched, ?_, ?_⟩
    · have hlength : h.sources.length = c.hub.sources.length :=
        congrArg (fun s : Setup => s.extent.sources) hsetup
      exact hlength ▸ hc.sources
    · have hlength : h.topics.length = c.hub.topics.length := congrArg Prod.snd hwiring
      exact hlength ▸ hc.topics
    · rw [Hub.publishes_iff]
      show ∀ id topic, h.wiring.1[id]? = some topic → _
      rw [hwiring]
      exact Hub.publishes_iff.mp hc.publishes
  cases m with
  | act a => exact hc.act a
  | subscribe topic => exact hkept rfl rfl
  | unsubscribe sub => exact hkept rfl rfl
  | receive sub =>
    exact hkept (setup_move_of_not_act (m := .receive sub) (by simp)) (c.hub.wiring_receive sub)
  | addIndex k name extract =>
    cases hlookup : c.registry.lookup k with
    | none =>
      rw [move_addIndex_of_none hlookup]
      exact hc
    | some e =>
      rw [move_addIndex hlookup]
      exact hkept (setup_withHub_of_extent (c.hub.extent_tryStore e.store _))
        (c.hub.wiring_tryStore e.store _)

theorem Assembled.fenced_drive (hbase : base.Assembled) (moves : List Move) :
    Fenced base (base.drive moves) := by
  induction moves using List.reverseRecOn with
  | nil => exact hbase.fenced
  | append_singleton moves m ih =>
    rw [drive_concat]
    exact ih.move m

end

end Cache

end WatchCache
