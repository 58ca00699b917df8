import WatchCache.Proofs.Cache.Spared

set_option autoImplicit false

/-!
# What the stores of dedicated kinds hold

The store of a dedicated kind is there from the construction of the cache on.  Events that its
loop delivers and indices that callers add to it are all that ever changes it, so at any time it
holds what the ledger of the run has for it.
-/

namespace WatchCache

namespace Cache

/-- An index is added to one store. -/
theorem indexStores_singleton (f : Store → Answer Store) (h : Hub) (id : Nat) :
    (indexStores f h [id]).2 = (h.tryStore id f).2 := by
  unfold indexStores
  split
  · next heq => rw [heq]
  · next heq =>
    rw [heq]
    rfl

/-- The store of every dedicated kind holds what a ledger has for it. -/
def EntriesTold (c : Cache) (ledger : List Hub.Delivery) : Prop :=
  ∀ e ∈ c.registry.entries, ∃ extractors, c.hub.Told ledger e.kind [e.store] extractors

section

variable {floor : Nat} {c : Cache} {ledger : List Hub.Delivery}

theorem EntriesTold.congr {r : Cache} (htold : c.EntriesTold ledger)
    (hregistry : r.registry = c.registry)
    (hsame : ∀ e ∈ c.registry.entries, r.hub.store? e.store = c.hub.store? e.store) :
    r.EntriesTold ledger := by
  intro e he
  rw [hregistry] at he
  obtain ⟨extractors, hhub⟩ := htold e he
  refine ⟨extractors, hhub.congr fun id hid => ?_⟩
  rw [List.mem_singleton.mp hid]
  exact hsame e he

/-- More deliveries are made. -/
theorem EntriesTold.deliver (htold : c.EntriesTold ledger) {h : Hub} {ds : List Hub.Delivery}
    (halike : Hub.Alike h (c.hub.deliverAll ds)) :
    (c.withHub h).EntriesTold (ledger ++ ds) := by
  intro e he
  obtain ⟨extractors, hhub⟩ := htold e he
  exact ⟨extractors, hhub.deliver halike⟩

/-- An index on the store of one dedicated kind leaves those of the others alone. -/
theorem EntriesTold.index (htold : c.EntriesTold ledger)
    (hnodup : (c.registry.entries.map Entry.store).Nodup) {entry : Entry}
    (hentry : entry ∈ c.registry.entries) (name : String) (extract : Extractor) :
    (c.withHub (c.hub.tryStore entry.store (·.addIndex name extract)).2).EntriesTold ledger := by
  intro e he
  obtain ⟨extractors, hhub⟩ := htold e he
  by_cases hsame : e.store = entry.store
  · obtain rfl : e = entry := List.inj_on_of_nodup_map hnodup he hentry hsame
    have hadded := told_indexStores hhub (List.nodup_singleton _) name extract
    rw [indexStores_singleton] at hadded
    exact hadded
  · refine ⟨extractors, hhub.congr fun id hid => ?_⟩
    rw [List.mem_singleton.mp hid]
    show (c.hub.tryStore entry.store _).2.store? e.store = _
    rw [Hub.store?_tryStore]
    cases c.hub.store? e.store <;> simp [Ne.symm hsame]

theorem EntriesTold.act (htold : c.EntriesTold ledger) (hs : c.setup.Sound floor)
    (hsound : c.registry.Sound) (hnodup : (c.registry.entries.map Entry.store).Nodup) (a : Act) :
    (c.act a).EntriesTold (ledger ++ c.delivers a) := by
  have hregistry : (c.act a).registry = c.registry := congrArg (·.2.2.2) (given_act hs a)
  have hof {h : Hub} {ds : List Hub.Delivery} (hact : (c.act a).hub = h)
      (hh : (c.withHub h).EntriesTold (ledger ++ ds)) : (c.act a).EntriesTold (ledger ++ ds) :=
    hh.congr hregistry fun e _ => congrArg (Hub.store? · e.store) hact
  rcases spares_or_stirs hs a with hspares | hstirs
  · have hkept : (c.act a).EntriesTold ledger := htold.congr hregistry fun e he =>
      (spared_act hs hspares).store?_eq (hs.dedicated.entries e he)
    rwa [delivers_of_spares hspares, List.append_nil]
  · generalize hact : (c.act a).hub = h at hstirs
    cases hstirs with
    | step loop => exact hof hact (htold.deliver (Hub.alike_stepOnce c.hub loop))
    | outside s => exact hof hact (htold.deliver (Hub.alike_meet c.hub s))
    | @first token _ =>
      have halike (loops : List Loop) :
          Hub.Alike { c.hub with loops := loops } (c.hub.deliverAll []) :=
        ⟨rfl, rfl, rfl, fun _ _ => rfl⟩
      exact hof hact (htold.deliver (halike _))
    | again _ => exact hof hact (htold.deliver (.refl c.hub))
    | @index k field extract entry hlookup =>
      obtain ⟨hentry, -⟩ := hsound.found k entry hlookup
      have hadded := htold.index hnodup hentry (fieldIndex field) (Store.doubled extract)
      refine hof hact ?_
      rw [show c.delivers (.request (.index k field extract)) = [] from rfl, List.append_nil]
      exact hadded

end

/-- In a cache that nobody used before, all that the store of a dedicated kind was told is what
the ledger of the run has for it. -/
theorem entriesTold_run {c : Cache} (hunused : c.Unused) (acts : List Act) :
    (c.run acts).EntriesTold (c.ledger acts) := by
  induction acts using List.reverseRecOn with
  | nil =>
    intro e he
    refine ⟨Store.firstExtractors, fun id hid => ?_⟩
    rw [List.mem_singleton.mp hid]
    exact ⟨_, hunused.stores_new e he, Store.told_new e.kind⟩
  | append_singleton acts a ih =>
    have hregistry := registry_run hunused.sound acts
    rw [run_concat, ledger_concat]
    refine ih.act (sound_run hunused.sound acts) ?_ ?_ a
    · exact hregistry.symm ▸ hunused.registry_sound
    · exact hregistry.symm ▸ hunused.stores_nodup

/-- What the store of a dedicated kind has been told. -/
theorem store_of_entry {c : Cache} (hunused : c.Unused) (acts : List Act) {e : Entry}
    (he : e ∈ c.registry.entries) :
    ∃ s extractors, (c.run acts).hub.store? e.store = some s ∧
      s.Told e.kind extractors (Hub.eventsFor e.store (c.ledger acts)) := by
  have hthere : e ∈ (c.run acts).registry.entries :=
    (registry_run hunused.sound acts).symm ▸ he
  obtain ⟨extractors, hhub⟩ := entriesTold_run hunused acts e hthere
  obtain ⟨s, hs, hstore⟩ := hhub e.store List.mem_cons_self
  exact ⟨s, extractors, hs, hstore⟩

end Cache

end WatchCache
