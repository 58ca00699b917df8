import WatchCache.Proofs.Cache.Counters
import WatchCache.Proofs.Cache.Exclusion
import WatchCache.Proofs.Cache.Indices

set_option autoImplicit false

/-!
# What calls do to stores

Calls open stores, which are empty at first, and add indices to stores that are there.  They apply
no event; only loops do.  So whatever these two keep is kept by any use, as soon as the events of
the use have been applied.
-/

namespace WatchCache

namespace Hub

/-- The gauges show what they showed, and the stores are those that were there, but for empty ones
that were added, and for indices of which `adds` holds. -/
inductive Extends (adds : String → Extractor → Prop) : Hub → Hub → Prop
  | grown {h r : Hub} {cells : List StoreCell} (stores : r.stores = h.stores ++ cells)
      (new : ∀ cell ∈ cells, ∃ k, cell.store = .new k)
      (gauges : ∀ s, r.gauge? s = h.gauge? s) : Extends adds h r
  | indexed (h : Hub) (id : Nat) {name : String} {extract : Extractor}
      (added : adds name extract) : Extends adds h (h.tryStore id (·.addIndex name extract)).2
  | trans {h r q : Hub} (first : Extends adds h r) (second : Extends adds r q) : Extends adds h q

namespace Extends

variable {adds : String → Extractor → Prop} {h r : Hub}

theorem of_stores (hstores : r.stores = h.stores) (hgauges : ∀ s, r.gauge? s = h.gauge? s) :
    Extends adds h r :=
  .grown (hstores.trans (List.append_nil _).symm) (by simp) hgauges

theorem refl (h : Hub) : Extends adds h h := .of_stores rfl fun _ => rfl

end Extends

end Hub

namespace Cache

variable {adds : String → Extractor → Prop}

/-! ## The fallback -/

theorem extends_indexStores {name : String} {extract : Extractor} (hadds : adds name extract)
    (h : Hub) (stores : List Nat) :
    h.Extends adds (indexStores (·.addIndex name extract) h stores).2 := by
  induction stores generalizing h with
  | nil => exact .refl h
  | cons id rest ih =>
    have hone : h.Extends adds (h.tryStore id (·.addIndex name extract)).2 := .indexed h id hadds
    rw [indexStores]
    split
    · next heq =>
      rw [heq] at hone
      exact hone
    · next h' heq =>
      rw [heq] at hone
      exact hone.trans (ih h')

theorem extends_reach (c : Cache) (i : Informer) {goal : Goal}
    (hgoal : ∀ field extract, goal = .index field extract →
      adds (fieldIndex field) (Store.doubled extract)) :
    c.hub.Extends adds (c.reach i goal).2.hub := by
  cases goal with
  | get key type => exact .refl c.hub
  | list o type =>
    obtain ⟨metrics, hlisted⟩ := c.exists_informerList i o
    have hstores : (c.informerList i o).2.hub.stores = c.hub.stores := by rw [hlisted]; rfl
    exact .of_stores hstores (Hub.gauge?_of_readings (readings_listStores o c.hub _))
  | informer => exact .refl c.hub
  | index field extract => exact extends_indexStores (hgoal field extract rfl) c.hub i.stores

theorem Grown.extends {k : Kind} {c r : Cache} (hgrown : Grown k c r) :
    c.hub.Extends adds r.hub := by
  obtain ⟨cells, hcells, hnew⟩ := hgrown.stores
  exact .grown hcells (fun cell hcell => ⟨k, hnew cell hcell⟩)
    (Hub.gauge?_of_readings hgrown.sameReadings.readings)

theorem extends_openInformer (c : Cache) (k : Kind) :
    c.hub.Extends adds (c.openInformer k).2.hub := by
  rcases hopen : c.openInformer k with ⟨answer, opened⟩
  cases opens_of_openInformer hopen with
  | found _ => exact .refl c.hub
  | failed _ hbuild => exact (grown_of_buildInformer hbuild).extends
  | made _ hbuild =>
    exact (grown_of_buildInformer hbuild).extends.trans (.of_stores rfl fun _ => rfl)

theorem extends_beginFallback (c : Cache) (k : Kind) {goal : Goal}
    (hgoal : ∀ field extract, goal = .index field extract →
      adds (fieldIndex field) (Store.doubled extract)) :
    c.hub.Extends adds (c.beginFallback k goal).2.hub := by
  have hopened : c.hub.Extends adds (c.openInformer k).2.hub := c.extends_openInformer k
  rcases hbegin : c.beginFallback k goal with ⟨call, begun⟩
  cases begun_of_beginFallback hbegin with
  | fails hfind hbuild =>
    rw [openInformer_of_error hfind hbuild] at hopened
    exact hopened
  | waits hopen _ _ =>
    rw [hopen] at hopened
    exact hopened
  | @reaches i opened hopen _ =>
    rw [hopen] at hopened
    exact hopened.trans (opened.extends_reach i hgoal)

/-! ## Requests and polls -/

/-- The index that a use adds, sooner or later, if it is not refused. -/
def Use.adds? : Use → Option (String × Extractor)
  | .move (.act (.request (.index _ field extract))) =>
    some (fieldIndex field, Store.doubled extract)
  | .move (.act (.addIndex _ name extract)) => some (name, extract)
  | .move (.addIndex _ name extract) => some (name, extract)
  | .index _ field extract => some (fieldIndex field, Store.doubled extract)
  | _ => none

theorem extends_begin (c : Cache) (r : Request)
    (hadds : ∀ name extract, Use.adds? (.move (.act (.request r))) = some (name, extract) →
      adds name extract) : c.hub.Extends adds (c.begin r).2.hub := by
  have hcount (s : Series) : c.hub.Extends adds (c.count s).hub := .of_stores rfl fun _ => rfl
  cases r with
  | get k key =>
    simp only [begin, beginGet]
    split
    · exact (hcount _).trans ((c.count _).extends_beginFallback k (by simp))
    · split <;> exact hcount _
  | list k o =>
    simp only [begin, beginList]
    split
    · next e _ =>
      obtain ⟨metrics, hlisted⟩ := exists_list o (c.hub.count (.reads "store")) e.store
      have hreadings := (c.hub.count (.reads "store")).readings_list e.store o
      exact (hcount _).trans (.of_stores (congrArg Hub.stores hlisted :)
        (Hub.gauge?_of_readings hreadings))
    · exact (hcount _).trans ((c.count _).extends_beginFallback k.item (by simp))
  | informer k =>
    simp only [begin, beginInformer]
    split
    · exact .refl c.hub
    · exact c.extends_beginFallback k (by simp)
  | index k field extract =>
    simp only [begin, beginIndex]
    split
    · next e _ => exact .indexed c.hub e.store (hadds _ _ rfl)
    · refine c.extends_beginFallback k ?_
      rintro _ _ ⟨⟩
      exact hadds _ _ rfl
  | start token =>
    have hhub : (c.beginStart token).2.hub.stores = c.hub.stores ∧
        (c.beginStart token).2.hub.metrics = c.hub.metrics := by
      unfold beginStart
      cases hstarted : c.started <;> cases hrunning : c.runningUnder <;>
        simp [spawnDedicated_eq, spawnInformers_eq, withLoops, withHub, hstarted, hrunning]
    exact .of_stores hhub.1 fun s => congrArg (fun m : Metrics => m.gauges.find? s) hhub.2
  | waitForSync token => exact .refl c.hub

theorem extends_poll (c : Cache) (call : Call)
    (hadds : ∀ k token field extract, call = .syncing k token (.index field extract) →
      adds (fieldIndex field) (Store.doubled extract)) :
    c.hub.Extends adds (c.poll call).2.hub := by
  cases call with
  | finished reply => exact .refl c.hub
  | running token => exact .refl c.hub
  | awaitingFallback stores token => exact .refl c.hub
  | fetching k due answer type =>
    rw [poll]
    split
    · cases answer <;> exact .of_stores rfl fun _ => rfl
    · exact .refl c.hub
  | awaitingDedicated token =>
    rw [poll]
    split <;> exact .refl c.hub
  | syncing k token goal =>
    rcases hpoll : c.poll (.syncing k token goal) with ⟨call, polled⟩
    cases polled_of_poll hpoll with
    | waits _ => exact .refl c.hub
    | stops _ _ => exact .refl c.hub
    | reaches _ _ =>
      refine c.extends_reach _ ?_
      rintro field extract rfl
      exact hadds k token field extract rfl

/-! ## Uses -/

/-- A use adds an index: one that it asks for, or one that a call waits to add. -/
def Adds (c : Cache) (u : Use) (name : String) (extract : Extractor) : Prop :=
  u.adds? = some (name, extract) ∨ ∃ k token field inner,
    .syncing k token (.index field inner) ∈ c.calls ∧ name = fieldIndex field ∧
      extract = Store.doubled inner

/-- An act makes its deliveries, and applies no other event. -/
theorem extends_act (c : Cache) (a : Act) :
    (c.hub.deliverAll (c.delivers a)).Extends (c.Adds (.move (.act a))) (c.act a).hub := by
  cases a with
  | request r => exact c.extends_begin r fun name extract hadds => Or.inl hadds
  | poll id =>
    simp only [act]
    split
    · next call hcall =>
      refine c.extends_poll call ?_
      rintro k token field extract rfl
      exact Or.inr ⟨k, token, field, extract, List.mem_of_getElem? hcall, rfl, rfl⟩
    · exact .refl c.hub
  | step loop => exact .of_stores (c.hub.alike_stepOnce loop).stores (c.hub.gauge?_stepOnce loop)
  | outside s =>
    exact .of_stores (c.hub.alike_meet s).stores (Hub.gauge?_of_readings (c.hub.readings_meet s))
  | addIndex k name extract =>
    simp only [act]
    split
    · exact extends_indexStores (Or.inl rfl) c.hub _
    · exact .refl c.hub
  | reconnect connector => exact .refl c.hub

theorem extends_ofType {c : Cache} (t : ResourceType) {begin_ : Kind → Call × Cache}
    (hbegin : ∀ k, c.hub.Extends adds (begin_ k).2.hub) :
    c.hub.Extends adds (c.ofType t begin_).2.hub := by
  unfold ofType
  split
  · exact .refl c.hub
  · exact hbegin _

/-- A use makes its deliveries; besides, it opens stores and adds indices, and that is all. -/
theorem extends_use (c : Cache) (u : Use) :
    (c.hub.deliverAll (c.gives u)).Extends (c.Adds u) (c.use u).hub := by
  have hnothing : ∀ name extract, (none : Option (String × Extractor)) = some (name, extract) →
      c.Adds u name extract := by simp
  cases u with
  | move m =>
    cases m with
    | act a => exact c.extends_act a
    | subscribe topic => exact .of_stores rfl fun _ => rfl
    | unsubscribe sub => exact .of_stores rfl fun _ => rfl
    | receive sub =>
      refine .of_stores ?_ (Hub.gauge?_of_readings (c.hub.readings_receive sub))
      show (c.hub.receive sub).2.stores = c.hub.stores
      unfold Hub.receive
      split
      · split <;> rfl
      · rfl
    | addIndex k name extract =>
      have hadds : c.Adds (.move (.addIndex k name extract)) name extract := Or.inl rfl
      simp only [use, move]
      split
      · next e _ => exact extends_indexStores hadds c.hub [e.store]
      · exact .refl c.hub
  | get t key =>
    refine extends_ofType t fun k => ?_
    rw [beginGet_type]
    exact c.extends_begin (.get k key) hnothing
  | list t o =>
    refine extends_ofType t fun k => ?_
    rw [beginList_type]
    exact c.extends_begin (.list k.list o) hnothing
  | informer t => exact extends_ofType t fun k => c.extends_begin (.informer k) hnothing
  | index t field extract =>
    exact extends_ofType t fun k => c.extends_begin (.index k field extract)
      fun name added hadds => Or.inl hadds

/-! ## Calls that wait to add an index -/

/-- What a call of the fallback waits for is what it was begun for. -/
theorem goal_of_beginFallback {c : Cache} {k other : Kind} {token : Token} {goal waits : Goal}
    (hbegin : (c.beginFallback k goal).1 = .syncing other token waits) : waits = goal := by
  rcases hbegun : c.beginFallback k goal with ⟨call, begun⟩
  rw [hbegun] at hbegin
  cases begun_of_beginFallback hbegun with
  | waits _ _ _ => exact (Call.syncing.inj hbegin).2.2.symm
  | fails _ _ | reaches _ _ => cases hbegin

theorem goal_of_beginGet {c : Cache} {k other : Kind} {key : ObjectKey} {type : Option ResourceType}
    {token : Token} {waits : Goal}
    (hbegin : (c.beginGet k key type).1 = .syncing other token waits) : waits = .get key type := by
  simp only [beginGet] at hbegin
  split at hbegin
  · exact goal_of_beginFallback hbegin
  · split at hbegin <;> cases hbegin

theorem goal_of_beginList {c : Cache} {k other : Kind} {o : ListOptions}
    {type : Option ResourceType} {token : Token} {waits : Goal}
    (hbegin : (c.beginList k o type).1 = .syncing other token waits) : waits = .list o type := by
  simp only [beginList] at hbegin
  split at hbegin
  · cases hbegin
  · exact goal_of_beginFallback hbegin

theorem begin_of_ofType {c : Cache} {t : ResourceType} {begin_ : Kind → Call × Cache} {k : Kind}
    {token : Token} {waits : Goal} (hbegin : (c.ofType t begin_).1 = .syncing k token waits) :
    ∃ asked, (begin_ asked).1 = .syncing k token waits := by
  unfold ofType at hbegin
  split at hbegin
  · cases hbegin
  · exact ⟨_, hbegin⟩

theorem calls_ofType (c : Cache) (t : ResourceType) {begin_ : Kind → Call × Cache}
    (hbegin : ∀ k, (begin_ k).2.calls = c.calls) : (c.ofType t begin_).2.calls = c.calls := by
  unfold ofType
  split
  · rfl
  · exact hbegin _

theorem calls_beginGet (c : Cache) (k : Kind) (key : ObjectKey) (type : Option ResourceType) :
    (c.beginGet k key type).2.calls = c.calls := by
  rw [beginGet_type]
  exact c.calls_begin (.get k key)

theorem calls_beginList (c : Cache) (k : Kind) (o : ListOptions) (type : Option ResourceType) :
    (c.beginList k o type).2.calls = c.calls := by
  rw [beginList_type]
  exact c.calls_begin (.list k o)

section

variable {c : Cache} {k : Kind} {token : Token} {field : String} {extract : Extractor}

theorem index_of_begin {r : Request}
    (hbegin : (c.begin r).1 = .syncing k token (.index field extract)) :
    r = .index k field extract :=
  eq_index_of_asks (asks_of_begin hbegin)

theorem waits_of_entered {begun : Call × Cache} (hcalls : begun.2.calls = c.calls)
    (hwaits : .syncing k token (.index field extract) ∈ (entered begun).calls) :
    .syncing k token (.index field extract) ∈ c.calls ∨
      begun.1 = .syncing k token (.index field extract) := by
  rcases List.mem_append.mp hwaits with hold | hnew
  · exact Or.inl (hcalls ▸ hold)
  · exact Or.inr (List.mem_singleton.mp hnew).symm

/-- A call that waits to add an index after a use has waited for it before, or the use has begun
it. -/
theorem waits_of_use {u : Use}
    (hwaits : .syncing k token (.index field extract) ∈ (c.use u).calls) :
    .syncing k token (.index field extract) ∈ c.calls ∨
      u.adds? = some (fieldIndex field, Store.doubled extract) := by
  cases u with
  | move m =>
    cases m with
    | act a =>
      cases a with
      | request r =>
        refine (waits_of_entered (c.calls_begin r) hwaits).imp_right fun hbegin => ?_
        rw [index_of_begin hbegin]
        rfl
      | poll id =>
        simp only [use, move, act] at hwaits
        split at hwaits
        · next call hcall =>
          rcases List.mem_or_eq_of_mem_set hwaits with hold | hnew
          · exact Or.inl (c.calls_poll call ▸ hold)
          · exact Or.inl (eq_syncing_of_poll hnew.symm ▸ List.mem_of_getElem? hcall)
        · exact Or.inl hwaits
      | addIndex kind name added =>
        simp only [use, move, act] at hwaits
        split at hwaits <;> exact Or.inl hwaits
      | step loop | outside s | reconnect connector => exact Or.inl hwaits
    | addIndex kind name added =>
      simp only [use, move] at hwaits
      split at hwaits <;> exact Or.inl hwaits
    | subscribe topic | unsubscribe sub | receive sub => exact Or.inl hwaits
  | get t key =>
    have hcalls := c.calls_ofType t fun k => c.calls_beginGet k key (some t)
    refine (waits_of_entered hcalls hwaits).imp_right fun hbegun => ?_
    obtain ⟨asked, hbegin⟩ := begin_of_ofType hbegun
    cases goal_of_beginGet hbegin
  | list t o =>
    have hcalls := c.calls_ofType t fun k => c.calls_beginList k.list o (some t)
    refine (waits_of_entered hcalls hwaits).imp_right fun hbegun => ?_
    obtain ⟨asked, hbegin⟩ := begin_of_ofType hbegun
    cases goal_of_beginList hbegin
  | informer t =>
    have hcalls := c.calls_ofType t fun k => c.calls_begin (.informer k)
    refine (waits_of_entered hcalls hwaits).imp_right fun hbegun => ?_
    obtain ⟨asked, hbegin⟩ := begin_of_ofType hbegun
    cases index_of_begin (r := .informer asked) hbegin
  | index t asked added =>
    have hcalls := c.calls_ofType t fun k => c.calls_begin (.index k asked added)
    refine (waits_of_entered hcalls hwaits).imp_right fun hbegun => ?_
    obtain ⟨kind, hbegin⟩ := begin_of_ofType hbegun
    cases index_of_begin (r := .index kind asked added) hbegin
    rfl

end

end Cache

end WatchCache
