import WatchCache.Proofs.Cache.Registration
import WatchCache.Proofs.Kind

set_option autoImplicit false

/-!
# Dedicated kinds

Dedicated kinds are added one after the other, each under its kind and under its list identifier,
and all identifiers share one table.  A kind that is also the list identifier of another dedicated
kind cannot have both: if it is added first it loses its own identifier to the other kind, and if
it comes later it is taken to be there already.  Every other dedicated kind has its own entry.
-/

namespace WatchCache

namespace Registry

/-- An entry serves a kind: it is the only one of the kind, and it is found under both identifiers
of the kind. -/
structure Serves (r : Registry) (k : Kind) (e : Entry) : Prop where
  kind_eq : e.kind = k
  lookup : r.lookup k = some e
  lookup_list : r.lookup k.list = some e
  once : (r.entries.filter fun other => other.kind = k) = [e]

/-- What a registry keeps while entries are added to it.  An entry loses its own identifier to
another one whose list identifier that is, and never loses its list identifier. -/
structure Sound (r : Registry) : Prop where
  kinds_nodup : (r.entries.map Entry.kind).Nodup
  found : ∀ k e, r.lookup k = some e → e ∈ r.entries ∧ (e.kind = k ∨ e.kind.list = k)
  lists : ∀ e ∈ r.entries, r.lookup e.kind.list = some e
  own : ∀ e ∈ r.entries, (∀ other ∈ r.entries, other.kind.list ≠ e.kind) →
    r.lookup e.kind = some e

theorem sound_empty : Sound {} where
  kinds_nodup := List.nodup_nil
  found := fun _ _ hfound => by cases hfound
  lists := fun _ he => absurd he List.not_mem_nil
  own := fun _ he => absurd he List.not_mem_nil

theorem lookup_add (r : Registry) (e : Entry) (k : Kind) :
    (r.add e).lookup k = if k = e.kind ∨ k = e.kind.list then some e else r.lookup k := by
  simp only [lookup, add, Table.find?_insert]
  by_cases hkind : k = e.kind <;> by_cases hlist : k = e.kind.list <;> simp [hkind, hlist]

theorem contains_iff (r : Registry) (k : Kind) :
    r.contains k = true ↔ ∃ e, r.lookup k = some e := Option.isSome_iff_exists

theorem contains_eq_false_iff (r : Registry) (k : Kind) :
    r.contains k = false ↔ r.lookup k = none := by
  rw [contains, Table.has, Option.isSome_eq_false_iff, Option.isNone_iff_eq_none]
  rfl

section

variable {r : Registry} {k : Kind} {e : Entry}

/-- The identifier of an entry leads to some entry, if not to this one. -/
theorem Sound.contains (hr : r.Sound) (he : e ∈ r.entries) : r.contains e.kind = true := by
  rw [contains_iff]
  by_cases hother : ∃ other ∈ r.entries, other.kind.list = e.kind
  · obtain ⟨other, hmem, heq⟩ := hother
    exact ⟨other, heq ▸ hr.lists other hmem⟩
  · exact ⟨e, hr.own e he fun other hmem heq => hother ⟨other, hmem, heq⟩⟩

theorem Sound.add (hr : r.Sound) (hnew : r.contains e.kind = false) : (r.add e).Sound := by
  have hentries : (r.add e).entries = r.entries ++ [e] := rfl
  -- neither identifier of the new kind is the list identifier or the kind of an older entry
  have hlist {old : Entry} (hold : old ∈ r.entries) : old.kind.list ≠ e.kind := by
    intro heq
    have hthere := (r.contains_iff e.kind).mpr ⟨old, heq ▸ hr.lists old hold⟩
    cases hnew.symm.trans hthere
  have hkind {old : Entry} (hold : old ∈ r.entries) : old.kind ≠ e.kind := by
    intro heq
    cases hnew.symm.trans (heq ▸ hr.contains hold)
  refine ⟨?_, fun k found hfound => ?_, fun entry hentry => ?_, fun entry hentry hfree => ?_⟩
  · rw [hentries, List.map_append]
    refine List.nodup_append.mpr ⟨hr.kinds_nodup, List.nodup_singleton _, ?_⟩
    intro kind hmem other hother
    obtain ⟨old, hold, rfl⟩ := List.mem_map.mp hmem
    cases List.mem_singleton.mp hother
    exact hkind hold
  · rw [lookup_add] at hfound
    rw [hentries, List.mem_append]
    split at hfound
    · next hself =>
      cases hfound
      exact ⟨Or.inr List.mem_cons_self, hself.imp Eq.symm Eq.symm⟩
    · obtain ⟨hmem, hwhich⟩ := hr.found k found hfound
      exact ⟨Or.inl hmem, hwhich⟩
  · rw [lookup_add]
    rcases List.mem_append.mp hentry with hold | hmade
    · have hother : ¬(entry.kind.list = e.kind ∨ entry.kind.list = e.kind.list) :=
        not_or.mpr ⟨hlist hold, fun heq => hkind hold (Kind.list_inj.mp heq)⟩
      rw [if_neg hother, hr.lists entry hold]
    · cases List.mem_singleton.mp hmade
      rw [if_pos (Or.inr rfl)]
  · rw [lookup_add]
    rcases List.mem_append.mp hentry with hold | hmade
    · have hother : ¬(entry.kind = e.kind ∨ entry.kind = e.kind.list) :=
        not_or.mpr ⟨hkind hold, fun heq => hfree e (by simp [hentries]) heq.symm⟩
      rw [if_neg hother]
      exact hr.own entry hold fun other hmem => hfree other (by simp [hentries, hmem])
    · cases List.mem_singleton.mp hmade
      rw [if_pos (Or.inl rfl)]

/-- A kind with an identifier in the registry is served unless its identifier is the list
identifier of an entry. -/
theorem Sound.serves_iff (hr : r.Sound) (hk : r.contains k = true) :
    (∃ e, r.Serves k e) ↔ ∀ e ∈ r.entries, e.kind.list ≠ k := by
  constructor
  · rintro ⟨e, hserves⟩ other hother heq
    have hsame : r.lookup k = some other := heq ▸ hr.lists other hother
    cases hserves.lookup.symm.trans hsame
    exact k.list_ne_self (hserves.kind_eq ▸ heq)
  · intro hfree
    obtain ⟨e, hlookup⟩ := (r.contains_iff k).mp hk
    obtain ⟨he, hwhich⟩ := hr.found k e hlookup
    obtain rfl : e.kind = k := hwhich.resolve_right (hfree e he)
    exact ⟨e, rfl, hlookup, hr.lists e he, Setup.filter_eq_singleton hr.kinds_nodup he⟩

end

end Registry

namespace Cache

/-! ## Adding kinds one after the other -/

theorem addDedicatedAll_cons {c built : Cache} {k : Kind} {rest : List Kind}
    (hbuild : c.addDedicatedAll (k :: rest) = .ok built) :
    ∃ added, c.addDedicated k = .ok added ∧ added.addDedicatedAll rest = .ok built := by
  rw [addDedicatedAll, List.foldlM_cons] at hbuild
  cases hadd : c.addDedicated k with
  | error e =>
    rw [hadd] at hbuild
    cases hbuild
  | ok added =>
    rw [hadd] at hbuild
    exact ⟨added, rfl, hbuild⟩

/-- What adding one kind keeps, adding several keeps. -/
theorem addDedicatedAll_keeps {P : Cache → Prop}
    (hstep : ∀ {c added : Cache} {k : Kind}, P c → c.addDedicated k = .ok added → P added)
    {c built : Cache} {kinds : List Kind} (hc : P c)
    (hbuild : c.addDedicatedAll kinds = .ok built) : P built := by
  induction kinds generalizing c with
  | nil =>
    cases hbuild
    exact hc
  | cons k rest ih =>
    obtain ⟨added, hadd, hrest⟩ := addDedicatedAll_cons hbuild
    exact ih (hstep hc hadd) hrest

theorem registry_sound_addDedicated {c added : Cache} {k : Kind} (hc : c.registry.Sound)
    (hadd : c.addDedicated k = .ok added) : added.registry.Sound := by
  rcases addDedicated_ok hadd with ⟨-, rfl⟩ | ⟨hnew, s, log, rfl⟩
  · exact hc
  · exact hc.add hnew

/-- After a kind was added its identifier is there, and so are those that were there before. -/
theorem contains_addDedicated {c added : Cache} {k : Kind} (hadd : c.addDedicated k = .ok added) :
    added.registry.contains k = true ∧
      ∀ other, c.registry.contains other = true → added.registry.contains other = true := by
  rcases addDedicated_ok hadd with ⟨hthere, rfl⟩ | ⟨-, s, log, rfl⟩
  · exact ⟨hthere, fun _ hother => hother⟩
  · have hlookup (other : Kind) := c.registry.lookup_add
      ⟨k, c.hub.stores.length, c.hub.topics.length, c.hub.sources.length⟩ other
    refine ⟨?_, fun other hother => ?_⟩
    · exact (Registry.contains_iff _ k).mpr ⟨_, (hlookup k).trans (if_pos (Or.inl rfl))⟩
    · rw [Registry.contains_iff] at hother ⊢
      obtain ⟨e, he⟩ := hother
      by_cases hself : other = k ∨ other = k.list
      · exact ⟨_, (hlookup other).trans (if_pos hself)⟩
      · exact ⟨e, ((hlookup other).trans (if_neg hself)).trans he⟩

/-- Every kind that was added has its identifier in the registry, and all new entries are for
these kinds. -/
theorem registered_addDedicatedAll {c built : Cache} {kinds : List Kind}
    (hbuild : c.addDedicatedAll kinds = .ok built) :
    (∀ k ∈ kinds, built.registry.contains k = true) ∧
      ∀ e ∈ built.registry.entries, e ∈ c.registry.entries ∨ e.kind ∈ kinds := by
  induction kinds generalizing c with
  | nil =>
    cases hbuild
    exact ⟨fun _ hk => absurd hk List.not_mem_nil, fun _ he => Or.inl he⟩
  | cons k rest ih =>
    obtain ⟨added, hadd, hrest⟩ := addDedicatedAll_cons hbuild
    obtain ⟨hall, hentries⟩ := ih hrest
    refine ⟨List.forall_mem_cons.mpr ⟨?_, hall⟩, fun e he => ?_⟩
    · exact addDedicatedAll_keeps (P := fun c => c.registry.contains k = true)
        (fun hk hadd => (contains_addDedicated hadd).2 k hk) (contains_addDedicated hadd).1 hrest
    · rcases hentries e he with hold | hnew
      · rcases addDedicated_ok hadd with ⟨-, rfl⟩ | ⟨-, s, log, rfl⟩
        · exact Or.inl hold
        · rcases List.mem_append.mp hold with hmem | hmem
          · exact Or.inl hmem
          · cases List.mem_singleton.mp hmem
            exact Or.inr List.mem_cons_self
      · exact Or.inr (List.mem_cons_of_mem k hnew)

/-- Which of the kinds that a cache is constructed for have an entry of their own.

The kinds may come in any order and more than once.  Exactly those are served by an entry under
both of their identifiers that are not the list identifier of an entry; so a kind is served if it
is not the list identifier of any kind that was asked for.  All entries are for kinds that were
asked for, and none of them loses its list identifier. -/
theorem dedicated_kinds_are_served {c built : Cache} {kinds : List Kind} (hempty : c.registry = {})
    (hbuild : c.addDedicatedAll kinds = .ok built) :
    (∀ k ∈ kinds, (∃ e, built.registry.Serves k e) ↔
      ∀ e ∈ built.registry.entries, e.kind.list ≠ k) ∧
    (∀ k ∈ kinds, (∀ j ∈ kinds, j.list ≠ k) → ∃ e, built.registry.Serves k e) ∧
    ∀ e ∈ built.registry.entries, e.kind ∈ kinds ∧ built.registry.lookup e.kind.list = some e := by
  have hsound : built.registry.Sound :=
    addDedicatedAll_keeps (P := fun c => c.registry.Sound) registry_sound_addDedicated
      (hempty ▸ Registry.sound_empty) hbuild
  obtain ⟨hthere, hentries⟩ := registered_addDedicatedAll hbuild
  have hkinds : ∀ e ∈ built.registry.entries, e.kind ∈ kinds := by
    intro e he
    rcases hentries e he with hold | hnew
    · rw [hempty] at hold
      cases hold
    · exact hnew
  refine ⟨fun k hk => hsound.serves_iff (hthere k hk), fun k hk hfree => ?_, fun e he => ?_⟩
  · exact (hsound.serves_iff (hthere k hk)).mpr fun e he => hfree e.kind (hkinds e he)
  · exact ⟨hkinds e he, hsound.lists e he⟩

/-- Two kinds, one of them asked for twice. -/
theorem dedicated_kinds_are_served_with_repeats :
    let widget : Kind := ⟨"example.io", "v1", "Widget"⟩
    let node : Kind := ⟨"", "v1", "Node"⟩
    let c : Cache := { connector := Script.connector { kinds := [(widget, true), (node, false)] } }
    ∃ built, c.addDedicatedAll [node, widget, node] = .ok built ∧
      built.registry.entries = [⟨node, 0, 0, 0⟩, ⟨widget, 1, 1, 1⟩] ∧
      (∃ e, built.registry.Serves node e) ∧ ∃ e, built.registry.Serves widget e := by
  intro widget node c
  refine ⟨_, rfl, by decide +kernel, ?_⟩
  have hserved := (@dedicated_kinds_are_served c _ [node, widget, node] rfl rfl).2.1
  exact ⟨hserved node (by simp) (by decide +kernel), hserved widget (by simp) (by decide +kernel)⟩

/-- A kind and another one that is named like its list identifier.  In either order only one of
them is served: the first of them is found under neither of its own identifiers, or the second
gets no entry. -/
theorem list_kind_is_not_served :
    let widget : Kind := ⟨"example.io", "v1", "Widget"⟩
    let widgetList : Kind := ⟨"example.io", "v1", "WidgetList"⟩
    let c : Cache :=
      { connector := Script.connector { kinds := [(widget, true), (widgetList, true)] } }
    (∃ built, c.addDedicatedAll [widgetList, widget] = .ok built ∧
      built.registry.lookup widgetList = some ⟨widget, 1, 1, 1⟩ ∧
      built.registry.lookup widgetList.list = some ⟨widgetList, 0, 0, 0⟩ ∧
      ¬∃ e, built.registry.Serves widgetList e) ∧
    ∃ built, c.addDedicatedAll [widget, widgetList] = .ok built ∧
      built.registry.entries = [⟨widget, 0, 0, 0⟩] ∧
      built.registry.lookup widgetList.list = none ∧
      ¬∃ e, built.registry.Serves widgetList e := by
  intro widget widgetList c
  obtain ⟨built, hbuilt, hlookup, hlist⟩ : ∃ built, c.addDedicatedAll [widgetList, widget] =
      .ok built ∧ built.registry.lookup widgetList = some ⟨widget, 1, 1, 1⟩ ∧
      built.registry.lookup widgetList.list = some ⟨widgetList, 0, 0, 0⟩ :=
    ⟨_, rfl, by decide +kernel, by decide +kernel⟩
  obtain ⟨built', hbuilt', hentries, hnone⟩ : ∃ built, c.addDedicatedAll [widget, widgetList] =
      .ok built ∧ built.registry.entries = [⟨widget, 0, 0, 0⟩] ∧
      built.registry.lookup widgetList.list = none :=
    ⟨_, rfl, by decide +kernel, by decide +kernel⟩
  refine ⟨⟨built, hbuilt, hlookup, hlist, ?_⟩, built', hbuilt', hentries, hnone, ?_⟩
  · rintro ⟨e, hserves⟩
    cases hlookup.symm.trans hserves.lookup
    exact absurd hserves.kind_eq (by decide)
  · rintro ⟨e, hserves⟩
    cases hnone.symm.trans hserves.lookup_list

/-! ## Caches that were just constructed -/

/-- A cache that was constructed and that nobody has used: its dedicated kinds have stores of
their own, and these are new. -/
structure Unused (c : Cache) : Prop extends c.Fresh where
  registry_sound : c.registry.Sound
  stores_nodup : (c.registry.entries.map Entry.store).Nodup
  stores_new : ∀ e ∈ c.registry.entries, c.hub.store? e.store = some (.new e.kind)

theorem unused_new (connector : Connector) (scheme : Scheme) (options : CacheOptions) :
    Unused { connector := connector, scheme := scheme, options := options } where
  toFresh := fresh_new connector scheme options
  registry_sound := Registry.sound_empty
  stores_nodup := List.nodup_nil
  stores_new := fun _ he => absurd he List.not_mem_nil

theorem Unused.withNamespaces {c : Cache} (hunused : c.Unused) (names : List String) :
    (c.withNamespaces names).Unused :=
  { hunused with toFresh := hunused.toFresh.withNamespaces names }

theorem Unused.withSelector {c : Cache} (hunused : c.Unused) (k : Kind) (s : LabelSelector) :
    (c.withSelector k s).Unused :=
  { hunused with toFresh := hunused.toFresh.withSelector k s }

theorem Unused.addDedicated {c added : Cache} {k : Kind} (hunused : c.Unused)
    (hadd : c.addDedicated k = .ok added) : added.Unused := by
  have hfresh := hunused.toFresh.addDedicated hadd
  have hsound := registry_sound_addDedicated hunused.registry_sound hadd
  rcases addDedicated_ok hadd with ⟨-, rfl⟩ | ⟨-, s, log, rfl⟩
  · exact hunused
  · have hentries : (c.withDedicated k s log).registry.entries = c.registry.entries ++
        [⟨k, c.hub.stores.length, c.hub.topics.length, c.hub.sources.length⟩] := rfl
    have hstore (id : Nat) : (c.withDedicated k s log).hub.store? id =
        ((c.hub.stores ++ [⟨.new k, c.hub.topics.length⟩])[id]?).map StoreCell.store := rfl
    refine ⟨hfresh, hsound, ?_, fun e he => ?_⟩
    · rw [hentries, List.map_append]
      refine List.nodup_append.mpr ⟨hunused.stores_nodup, List.nodup_singleton _, ?_⟩
      intro id hid other hother
      obtain ⟨e, he, rfl⟩ := List.mem_map.mp hid
      cases List.mem_singleton.mp hother
      exact Nat.ne_of_lt (hunused.dedicated.entries e he)
    · rw [hstore]
      rw [hentries] at he
      rcases List.mem_append.mp he with hold | hnew
      · rw [List.getElem?_append_left (hunused.dedicated.entries e hold)]
        exact hunused.stores_new e hold
      · cases List.mem_singleton.mp hnew
        rw [List.getElem?_concat_length]
        rfl

theorem Unused.addDedicatedAll {c built : Cache} {kinds : List Kind} (hunused : c.Unused)
    (hbuild : c.addDedicatedAll kinds = .ok built) : built.Unused :=
  addDedicatedAll_keeps Unused.addDedicated hunused hbuild

end Cache

end WatchCache
