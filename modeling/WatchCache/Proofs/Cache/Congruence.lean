import WatchCache.Proofs.Cache.Opening

set_option autoImplicit false

/-!
# Congruences of caches

Making informers, starting loops and reaching goals follow the setup of a cache, what its connector
says of kinds, and which tokens are cancelled.  A relation between caches that agree on these, and
that stays when both of them take one of the small steps of which the rest consists, is a
*congruence*: it stays when both make an informer, begin or end a call on the fallback, or start.

Which calls and which replies count as the same is left to whoever uses the relation.  Two caches
may differ in what some stores hold, in how addresses are written down, or in the types of objects.
-/

namespace WatchCache

namespace Cache

/-- Two results, each with the cache after it, correspond if they are related and so are the
caches. -/
structure Corresponds {α : Type} (A : α → α → Prop) (R : Cache → Cache → Prop)
    (one other : α × Cache) : Prop where
  answer : A one.1 other.1
  cache : R one.2 other.2

/-- Equal answers are one answer. -/
theorem Corresponds.exists_answer {α : Type} {R : Cache → Cache → Prop} {one other : α × Cache}
    (h : Corresponds Eq R one other) :
    ∃ answer c r, one = (answer, c) ∧ other = (answer, r) ∧ R c r :=
  ⟨one.1, one.2, other.2, rfl, Prod.ext h.answer.symm rfl, h.cache⟩

/-- Related caches look the same to whatever makes informers and starts loops, and they stay
related with each of the steps of which this consists. -/
structure Congruence (R : Cache → Cache → Prop) : Prop where
  setup_eq {c r : Cache} : R c r → r.setup = c.setup
  isNamespaced_eq {c r : Cache} : R c r → r.connector.isNamespaced = c.connector.isNamespaced
  isCancelled_eq {c r : Cache} : R c r → r.hub.isCancelled = c.hub.isCancelled
  addTopic {c r : Cache} : R c r → ∀ buffer,
    (r.hub.addTopic buffer).1 = (c.hub.addTopic buffer).1 ∧
      R (c.withHub (c.hub.addTopic buffer).2) (r.withHub (r.hub.addTopic buffer).2)
  addStore {c r : Cache} : R c r → ∀ k topic,
    R (c.withHub (c.hub.addStore k topic).2) (r.withHub (r.hub.addStore k topic).2)
  openSource {c r : Cache} : R c r → ∀ k ns selector,
    Corresponds Eq R (c.openSource k ns selector) (r.openSource k ns selector)
  withLoops {c r : Cache} : R c r → ∀ loops, (∀ l ∈ loops, l.fresh = l) →
    R (c.withLoops loops) (r.withLoops loops)
  withInformers {c r : Cache} : R c r → ∀ informers,
    R { c with informers := informers } { r with informers := informers }
  withStarted {c r : Cache} : R c r → R { c with started := true } { r with started := true }
  withRunning {c r : Cache} : R c r → ∀ token,
    R { c with runningUnder := some token } { r with runningUnder := some token }

namespace Congruence

section

variable {R : Cache → Cache → Prop} (hR : Congruence R) {c r : Cache}

include hR

/-! ## Informers -/

theorem openScopes (h : R c r) (k : Kind) (topic : Nat) (scopes : List (Option String)) :
    Corresponds Eq R (openScopes k topic c scopes) (openScopes k topic r scopes) := by
  induction scopes generalizing c r with
  | nil => exact ⟨rfl, h⟩
  | cons ns rest ih =>
    have hsetup := hR.setup_eq h
    have hselectors : r.selectors = c.selectors := congrArg Setup.selectors hsetup
    have hstore : (r.hub.addStore k topic).1 = (c.hub.addStore k topic).1 :=
      congrArg (·.extent.stores) hsetup
    obtain ⟨source, opened, opened', hone, hother, hopened⟩ :=
      (hR.openSource (hR.addStore h k topic) k ns (c.selectors.find? k)).exists_answer
    simp only [Cache.openScopes, hselectors, hstore, hone, hother]
    cases source with
    | error e => exact ⟨rfl, hopened⟩
    | ok id =>
      obtain ⟨watched, built, built', hrest, hrest', hbuilt⟩ := (ih hopened).exists_answer
      simp only [hrest, hrest']
      cases watched <;> exact ⟨rfl, hbuilt⟩

theorem buildInformer (h : R c r) (k : Kind) :
    Corresponds Eq R (c.buildInformer k) (r.buildInformer k) := by
  have hsetup := hR.setup_eq h
  have hnamespaces : r.namespaces = c.namespaces := congrArg Setup.namespaces hsetup
  have hoptions : r.options = c.options := congrArg Setup.options hsetup
  simp only [Cache.buildInformer, hR.isNamespaced_eq h, hnamespaces, hoptions]
  cases c.connector.isNamespaced k with
  | error e => exact ⟨rfl, h⟩
  | ok isNamespaced =>
    obtain ⟨htopic, hadded⟩ := hR.addTopic h c.options.eventBuffer
    obtain ⟨watched, built, built', hone, hother, hbuilt⟩ :=
      (hR.openScopes hadded k (c.hub.addTopic c.options.eventBuffer).1
        (if isNamespaced && !c.namespaces.isEmpty then c.namespaces.map some
          else [none])).exists_answer
    simp only [htopic, hone, hother]
    cases watched <;> exact ⟨rfl, hbuilt⟩

theorem register (h : R c r) (k : Kind) (i : Informer) : R (c.register k i) (r.register k i) := by
  have hsetup := hR.setup_eq h
  have hinformers : r.informers = c.informers := congrArg Setup.informers hsetup
  have hloops : (r.runningUnder.map fun token => i.loops r.options token).getD [] =
      (c.runningUnder.map fun token => i.loops c.options token).getD [] :=
    congrArg (fun s : Setup => (s.runningUnder.map fun token => i.loops s.options token).getD [])
      hsetup
  rw [Cache.register, Cache.register, hinformers, hloops]
  refine hR.withLoops (hR.withInformers h _) _ ?_
  cases c.runningUnder with
  | none => simp
  | some token => exact fun l hl => Informer.fresh_of_mem_loops hl

theorem openInformer (h : R c r) (k : Kind) :
    Corresponds Eq R (c.openInformer k) (r.openInformer k) := by
  have hinformers : r.informers = c.informers := congrArg Setup.informers (hR.setup_eq h)
  cases hfind : c.informers.find? k with
  | some i =>
    rw [openInformer_of_find? hfind, openInformer_of_find? (hinformers ▸ hfind)]
    exact ⟨rfl, h⟩
  | none =>
    have hfind' : r.informers.find? k = none := hinformers ▸ hfind
    obtain ⟨answer, built, built', hone, hother, hbuilt⟩ := (hR.buildInformer h k).exists_answer
    cases answer with
    | error e =>
      rw [openInformer_of_error hfind hone, openInformer_of_error hfind' hother]
      exact ⟨rfl, hbuilt⟩
    | ok i =>
      rw [openInformer_of_ok hfind hone, openInformer_of_ok hfind' hother]
      exact ⟨rfl, hR.register hbuilt k i⟩

/-! ## The start -/

theorem spawnDedicated (h : R c r) (token : Token) :
    R (c.spawnDedicated token) (r.spawnDedicated token) := by
  have hregistry : r.registry = c.registry := congrArg Setup.registry (hR.setup_eq h)
  have hoptions : r.options = c.options := congrArg Setup.options (hR.setup_eq h)
  rw [spawnDedicated_eq, spawnDedicated_eq, hregistry, hoptions]
  refine hR.withLoops h _ fun l hl => ?_
  obtain ⟨e, -, rfl⟩ := List.mem_map.mp hl
  rfl

theorem spawnInformers (h : R c r) (token : Token) :
    R (c.spawnInformers token) (r.spawnInformers token) := by
  have hinformers : r.informers = c.informers := congrArg Setup.informers (hR.setup_eq h)
  have hoptions : r.options = c.options := congrArg Setup.options (hR.setup_eq h)
  rw [spawnInformers_eq, spawnInformers_eq, hinformers, hoptions]
  refine hR.withLoops h _ fun l hl => ?_
  obtain ⟨i, -, hl⟩ := List.mem_flatMap.mp hl
  exact Informer.fresh_of_mem_loops hl

theorem beginStart (h : R c r) (token : Token) :
    Corresponds Eq R (c.beginStart token) (r.beginStart token) := by
  have hstarted : r.started = c.started := congrArg Setup.started (hR.setup_eq h)
  have hfirst : R (if c.started then c else { c.spawnDedicated token with started := true })
      (if r.started then r else { r.spawnDedicated token with started := true }) := by
    rw [hstarted]
    split
    · exact h
    · exact hR.withStarted (hR.spawnDedicated h token)
  simp only [Cache.beginStart]
  generalize (if c.started then c else { c.spawnDedicated token with started := true }) = first
    at hfirst ⊢
  generalize (if r.started then r else { r.spawnDedicated token with started := true }) = first'
    at hfirst ⊢
  have hrunning : first'.runningUnder = first.runningUnder :=
    congrArg Setup.runningUnder (hR.setup_eq hfirst)
  rw [hrunning]
  split
  · exact ⟨rfl, hfirst⟩
  · exact ⟨rfl, hR.withRunning (hR.spawnInformers hfirst token) token⟩

end

end Congruence

/-! ## Calls on the fallback -/

/-- Two caches reach their goals on an informer alike: its stores are synced in both or in neither,
and what the calls end with corresponds. -/
structure Reaches (C : Call → Call → Prop) (R : Cache → Cache → Prop) (i : Informer)
    (goal goal' : Goal) (c r : Cache) : Prop where
  isSynced_eq : ∀ id ∈ i.stores, r.hub.isSynced id = c.hub.isSynced id
  reach : Corresponds (fun reply reply' => C (.finished reply) (.finished reply')) R
    (c.reach i goal) (r.reach i goal')

theorem isSynced_congr {c r : Cache} {stores : List Nat}
    (hsynced : ∀ id ∈ stores, r.hub.isSynced id = c.hub.isSynced id) :
    r.isSynced stores = c.isSynced stores := by
  rw [isSynced, isSynced, Bool.eq_iff_iff, List.all_eq_true, List.all_eq_true]
  exact forall₂_congr fun id hid => by rw [hsynced id hid]

/-- Waits for the same stores have come equally far. -/
theorem synced?_congr {h g : Hub} (hcancelled : g.isCancelled = h.isCancelled) {stores : List Nat}
    (hsynced : ∀ id ∈ stores, g.isSynced id = h.isSynced id) (token : Token) :
    g.synced? token stores = h.synced? token stores := by
  induction stores with
  | nil => rfl
  | cons id rest ih =>
    obtain ⟨hid, hrest⟩ := List.forall_mem_cons.mp hsynced
    rw [Hub.synced?, Hub.synced?, hcancelled, hid, ih hrest]

/-- Two calls of which it is known how they go on: either they wait for the same, or what they will
come to corresponds. -/
inductive Poised (C : Call → Call → Prop) (R : Cache → Cache → Prop) (c r : Cache) :
    Call → Call → Prop
  | finished (reply reply' : Reply) : Poised C R c r (.finished reply) (.finished reply')
  | running (token : Token) : Poised C R c r (.running token) (.running token)
  | fetching {k : Kind} {due : Nat} {answer answer' : Answer Object} {type : Option ResourceType}
      (hnow : r.hub.now = c.hub.now)
      (hend : Corresponds (fun reply reply' => C (.finished reply) (.finished reply')) R
        (c.endFetch k answer type) (r.endFetch k answer' type)) :
      Poised C R c r (.fetching k due answer type) (.fetching k due answer' type)
  | syncing {k : Kind} {token : Token} {goal goal' : Goal}
      (hreach : ∀ i, c.informers.find? k = some i → Reaches C R i goal goal' c r) :
      Poised C R c r (.syncing k token goal) (.syncing k token goal')
  | awaitingDedicated (hsynced : r.hub.isSynced = c.hub.isSynced) (token : Token) :
      Poised C R c r (.awaitingDedicated token) (.awaitingDedicated token)
  | awaitingFallback (hsynced : r.hub.isSynced = c.hub.isSynced) (stores : List Nat)
      (token : Token) :
      Poised C R c r (.awaitingFallback stores token) (.awaitingFallback stores token)

namespace Congruence

variable {R : Cache → Cache → Prop} (hR : Congruence R) {C : Call → Call → Prop} {c r : Cache}

include hR

/-- Calls on the fallback begin alike if their goals can be reached alike, once the informer is
there. -/
theorem beginFallback (h : R c r) {k : Kind} {goal goal' : Goal}
    (hfailed : ∀ e, C (.finished (.failed e)) (.finished (.failed e)))
    (hwaits : ∀ token, C (.syncing k token goal) (.syncing k token goal'))
    (hreach : ∀ i opened opened', c.openInformer k = (.ok i, opened) →
      r.openInformer k = (.ok i, opened') → R opened opened' →
      Reaches C R i goal goal' opened opened') :
    Corresponds C R (c.beginFallback k goal) (r.beginFallback k goal') := by
  obtain ⟨answer, opened, opened', hone, hother, hopened⟩ := (hR.openInformer h k).exists_answer
  simp only [Cache.beginFallback, hone, hother]
  cases answer with
  | error e => exact ⟨hfailed e, hopened⟩
  | ok i =>
    obtain ⟨hsynced, hend, hafter⟩ := hreach i opened opened' hone hother hopened
    have hrunning : opened'.runningUnder = opened.runningUnder :=
      congrArg Setup.runningUnder (hR.setup_eq hopened)
    dsimp only
    rw [hrunning, isSynced_congr hsynced]
    split
    · split
      · exact ⟨hend, hafter⟩
      · exact ⟨hwaits _, hopened⟩
    · exact ⟨hend, hafter⟩

/-- Calls of which it is known how they go on come equally far. -/
theorem poll (h : R c r) {call call' : Call} (hcall : C call call')
    (hpoised : Poised C R c r call call')
    (hended : ∀ reply, C (.finished reply) (.finished reply))
    (hawaits : ∀ stores token,
      C (.awaitingFallback stores token) (.awaitingFallback stores token)) :
    Corresponds C R (c.poll call) (r.poll call') := by
  have hsetup := hR.setup_eq h
  have hcancelled := hR.isCancelled_eq h
  have hfallback (hsynced : r.hub.isSynced = c.hub.isSynced) (stores : List Nat) (token : Token) :
      C (c.pollFallback stores token) (r.pollFallback stores token) := by
    rw [pollFallback, pollFallback,
      synced?_congr hcancelled (fun id _ => congrFun hsynced id) token]
    split
    · exact hended _
    · exact hawaits stores token
  cases hpoised with
  | finished reply reply' => exact ⟨hcall, h⟩
  | running token =>
    simp only [Cache.poll, hcancelled]
    split
    · exact ⟨hended _, h⟩
    · exact ⟨hcall, h⟩
  | fetching hnow hend =>
    simp only [Cache.poll, hnow]
    split
    · exact ⟨hend.answer, hend.cache⟩
    · exact ⟨hcall, h⟩
  | @syncing k token goal goal' hreach =>
    have hinformers : r.informers = c.informers := congrArg Setup.informers hsetup
    simp only [Cache.poll, hinformers]
    cases hfind : c.informers.find? k with
    | none => exact ⟨hcall, h⟩
    | some i =>
      obtain ⟨hsynced, hend, hafter⟩ := hreach i hfind
      dsimp only
      rw [synced?_congr hcancelled hsynced token]
      split
      · exact ⟨hcall, h⟩
      · exact ⟨hended _, h⟩
      · exact ⟨hend, hafter⟩
  | awaitingDedicated hsynced token =>
    have hregistry : r.registry = c.registry := congrArg Setup.registry hsetup
    have hinformers : r.informers = c.informers := congrArg Setup.informers hsetup
    have hstores : r.fallbackStores = c.fallbackStores := by
      rw [fallbackStores, fallbackStores, hinformers]
    simp only [Cache.poll, hregistry, hstores]
    rw [synced?_congr hcancelled (fun id _ => congrFun hsynced id) token]
    split
    · exact ⟨hcall, h⟩
    · exact ⟨hended _, h⟩
    · exact ⟨hfallback hsynced _ token, h⟩
  | awaitingFallback hsynced stores token => exact ⟨hfallback hsynced stores token, h⟩

end Congruence

end Cache

end WatchCache
