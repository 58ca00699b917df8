import WatchCache.Proofs.Cache.Read

set_option autoImplicit false

/-!
# Caches at rest

A cache is at rest when neither its loops nor its calls can go on before the clock moves or
somebody does something.  Polling a call leaves everything that loops and other calls wait for
undisturbed, so a cache that settles comes to rest.
-/

namespace WatchCache

namespace Hub

/-! ## Waits for stores -/

theorem synced?_congr {h h' : Hub} (hcancelled : h'.cancelled = h.cancelled)
    (hsynced : ∀ id, h'.isSynced id = h.isSynced id) (token : Token) (stores : List Nat) :
    h'.synced? token stores = h.synced? token stores := by
  induction stores with
  | nil => rfl
  | cons id rest ih => rw [synced?, synced?, ih, hsynced, isCancelled, isCancelled, hcancelled]

section

variable {h : Hub} {token : Token} {stores : List Nat}

/-- A wait that is over without a cancellation has seen all stores synced. -/
theorem synced?_eq_true (hover : h.synced? token stores = some true) :
    (∀ id ∈ stores, h.isSynced id = true) ∧ (stores ≠ [] → h.isCancelled token = false) := by
  induction stores with
  | nil => simp
  | cons id rest ih =>
    rw [synced?] at hover
    split at hover
    · cases hover
    · next hlive =>
      split at hover
      · next hsynced =>
        exact ⟨List.forall_mem_cons.mpr ⟨hsynced, (ih hover).1⟩,
          fun _ => (Bool.not_eq_true _).mp hlive⟩
      · cases hover

/-- A wait ends without success only by a cancellation. -/
theorem synced?_eq_false (hover : h.synced? token stores = some false) :
    h.isCancelled token = true := by
  induction stores with
  | nil => cases hover
  | cons id rest ih =>
    rw [synced?] at hover
    split at hover
    · assumption
    · split at hover
      · exact ih hover
      · cases hover

/-- A wait that is not over waits for a store. -/
theorem synced?_eq_none (hwaits : h.synced? token stores = none) :
    h.isCancelled token = false ∧ ∃ id ∈ stores, h.isSynced id = false := by
  induction stores with
  | nil => cases hwaits
  | cons id rest ih =>
    rw [synced?] at hwaits
    split at hwaits
    · cases hwaits
    · next hlive =>
      split at hwaits
      · obtain ⟨hlive, other, hother, hunsynced⟩ := ih hwaits
        exact ⟨hlive, other, List.mem_cons_of_mem id hother, hunsynced⟩
      · next hunsynced =>
        exact ⟨(Bool.not_eq_true _).mp hlive, id, List.mem_cons_self,
          (Bool.not_eq_true _).mp hunsynced⟩

end

/-- An index makes no store synced. -/
theorem isSynced_addIndex (h : Hub) (id : Nat) (name : String) (extract : Extractor)
    (other : Nat) :
    (h.tryStore id (·.addIndex name extract)).2.isSynced other = h.isSynced other := by
  rw [isSynced, isSynced, store?_tryStore]
  cases h.store? other with
  | none => rfl
  | some s =>
    rw [Option.map_some, Option.any_some, Option.any_some]
    split
    · rw [Store.addIndex_eq]
      cases s.indexer.addIndex name extract <;> rfl
    · rfl

end Hub

namespace Cache

/-! ## What polling leaves undisturbed -/

/-- Nothing happened that a loop or a call waits for. -/
structure Undisturbed (c r : Cache) : Prop where
  setup : r.setup = c.setup
  now : r.hub.now = c.hub.now
  cancelled : r.hub.cancelled = c.hub.cancelled
  sources : r.hub.sources = c.hub.sources
  loops : r.hub.loops = c.hub.loops
  synced : ∀ id, r.hub.isSynced id = c.hub.isSynced id

theorem Undisturbed.refl (c : Cache) : Undisturbed c c := ⟨rfl, rfl, rfl, rfl, rfl, fun _ => rfl⟩

theorem Undisturbed.trans {c r q : Cache} (hr : Undisturbed c r) (hq : Undisturbed r q) :
    Undisturbed c q where
  setup := hq.setup.trans hr.setup
  now := hq.now.trans hr.now
  cancelled := hq.cancelled.trans hr.cancelled
  sources := hq.sources.trans hr.sources
  loops := hq.loops.trans hr.loops
  synced := fun id => (hq.synced id).trans (hr.synced id)

theorem isSynced_indexStores (h : Hub) (stores : List Nat) (name : String) (extract : Extractor)
    (id : Nat) :
    (indexStores (·.addIndex name extract) h stores).2.isSynced id = h.isSynced id := by
  induction stores generalizing h with
  | nil => rfl
  | cons other rest ih =>
    have hone := h.isSynced_addIndex other name extract id
    rw [indexStores]
    split
    · next heq =>
      rw [heq] at hone
      exact hone
    · next h' heq =>
      rw [heq] at hone
      exact (ih h').trans hone

theorem undisturbed_reach (c : Cache) (i : Informer) (goal : Goal) :
    Undisturbed c (c.reach i goal).2 := by
  obtain ⟨cells, metrics, hframe⟩ := c.exists_reach i goal
  have hsynced (id : Nat) : (c.reach i goal).2.hub.isSynced id = c.hub.isSynced id := by
    cases goal with
    | get key type => rfl
    | list o type =>
      obtain ⟨metrics, hlisted⟩ := exists_informerList c i o
      exact (congrArg (fun c : Cache => c.hub.isSynced id) hlisted :)
    | informer => rfl
    | index field extract =>
      exact isSynced_indexStores c.hub i.stores (fieldIndex field) (Store.doubled extract) id
  refine ⟨c.setup_reach i goal, ?_, ?_, ?_, ?_, hsynced⟩ <;> rw [hframe] <;> rfl

theorem undisturbed_poll (c : Cache) (call : Call) : Undisturbed c (c.poll call).2 := by
  cases call with
  | finished reply => exact .refl c
  | running token => exact .refl c
  | awaitingFallback stores token => exact .refl c
  | fetching kind due answer type =>
    rw [poll]
    split
    · cases answer <;> exact ⟨rfl, rfl, rfl, rfl, rfl, fun _ => rfl⟩
    · exact .refl c
  | awaitingDedicated token =>
    rw [poll]
    split <;> exact .refl c
  | syncing kind token goal =>
    rcases hpoll : c.poll (.syncing kind token goal) with ⟨call, polled⟩
    cases polled_of_poll hpoll with
    | waits _ => exact .refl c
    | stops _ _ => exact .refl c
    | reaches _ _ => exact c.undisturbed_reach _ goal

/-! ## Polling again -/

theorem Undisturbed.synced?_eq {c r : Cache} (hr : Undisturbed c r) (token : Token)
    (stores : List Nat) : r.hub.synced? token stores = c.hub.synced? token stores :=
  Hub.synced?_congr hr.cancelled hr.synced token stores

/-- A call that was polled gets no further as long as nothing happens that it waits for. -/
theorem Undisturbed.poll_poll {c r : Cache} (hr : Undisturbed c r) (call : Call) :
    (r.poll (c.poll call).1).1 = (c.poll call).1 := by
  have hfallback (stores : List Nat) (token : Token) :
      (r.poll (c.pollFallback stores token)).1 = c.pollFallback stores token := by
    unfold pollFallback
    cases hsynced : c.hub.synced? token stores with
    | some b => rfl
    | none =>
      have hsame := (hr.synced?_eq token stores).trans hsynced
      simp only [poll, pollFallback, hsame]
  cases call with
  | finished reply => rfl
  | running token =>
    have hsame : r.hub.isCancelled token = c.hub.isCancelled token := by
      rw [Hub.isCancelled, Hub.isCancelled, hr.cancelled]
    cases hcancelled : c.hub.isCancelled token <;> simp [poll, hsame, hcancelled]
  | fetching kind due answer type =>
    by_cases hdue : due ≤ c.hub.now
    · simp only [poll, if_pos hdue]
    · simp only [poll, if_neg hdue, hr.now]
  | awaitingFallback stores token => exact hfallback stores token
  | awaitingDedicated token =>
    have hregistry : r.registry = c.registry := congrArg Setup.registry hr.setup
    have hsame := hr.synced?_eq token (c.registry.entries.map Entry.store)
    rcases hsynced : c.hub.synced? token (c.registry.entries.map Entry.store) with _ | _ | _
    · simp only [poll, hsynced, hregistry, hsame]
    · simp only [poll, hsynced]
    · have hpoll : (c.poll (.awaitingDedicated token)).1 =
          c.pollFallback c.fallbackStores token := by simp only [poll, hsynced]
      rw [hpoll]
      exact hfallback c.fallbackStores token
  | syncing kind token goal =>
    rcases hpoll : c.poll (.syncing kind token goal) with ⟨polled, after⟩
    cases polled_of_poll hpoll with
    | stops _ _ => rfl
    | reaches _ _ => rfl
    | waits hwaits =>
      have hinformers : r.informers = c.informers := congrArg Setup.informers hr.setup
      cases hfind : c.informers.find? kind with
      | none => simp only [poll, hinformers, hfind]
      | some i =>
        have hsame := (hr.synced?_eq token i.stores).trans (hwaits i hfind)
        simp only [poll, hinformers, hfind, hsame]

/-! ## Settling -/

/-- Nothing more happens to a cache before the clock moves or somebody does something. -/
structure AtRest (c : Cache) : Prop where
  loops : ∀ id, c.hub.stepLoop id = none
  calls : ∀ call ∈ c.calls, (c.poll call).1 = call

/-- When all calls were polled, each of them gets no further. -/
theorem pollAll_rests (c : Cache) (calls : List Call) :
    Undisturbed c (pollAll c calls).2 ∧
      ∀ call ∈ (pollAll c calls).1, ((pollAll c calls).2.poll call).1 = call := by
  induction calls generalizing c with
  | nil => exact ⟨.refl c, by simp [pollAll]⟩
  | cons call rest ih =>
    obtain ⟨hrest, hcalls⟩ := ih (c.poll call).2
    have hall := (c.undisturbed_poll call).trans hrest
    exact ⟨hall, List.forall_mem_cons.mpr ⟨hall.poll_poll call, hcalls⟩⟩

/-- A cache whose loops are at rest comes to rest when all its calls are polled. -/
theorem atRest_pollAll {c : Cache} (hloops : ∀ id, c.hub.stepLoop id = none) :
    ((pollAll c c.calls).2.withCalls (pollAll c c.calls).1).AtRest := by
  obtain ⟨hall, hcalls⟩ := pollAll_rests c c.calls
  refine ⟨fun id => ?_, fun call hcall => ?_⟩
  · exact Hub.stepLoop_eq_none_congr (h := c.hub) (r := (pollAll c c.calls).2.hub) hall.now
      hall.cancelled hall.sources hall.loops (hloops id)
  · rw [poll_withCalls]
    exact hcalls call hcall

theorem atRest_polls {c : Cache} (hloops : ∀ id, c.hub.stepLoop id = none) :
    (c.run ((List.range' 0 c.calls.length).map .poll)).AtRest := by
  have hrun := pollAll_eq_run c [] c.calls
  exact hrun ▸ atRest_pollAll hloops

/-- A cache that settles comes to rest. -/
theorem atRest_settle {c : Cache} (hpaced : c.hub.Paced) : c.settle.AtRest :=
  atRest_pollAll (c := c.withHub c.hub.settle) (Hub.settle_rests hpaced)

end Cache

end WatchCache
