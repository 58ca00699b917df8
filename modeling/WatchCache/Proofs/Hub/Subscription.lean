import WatchCache.Proofs.Hub.Calls
import WatchCache.Proofs.Store.Replay

set_option autoImplicit false

/-!
# What a subscriber learns

Stores may share a topic.  As long as each of them holds keys that no other one holds, the
changes on the topic lead from one union of their tables to the next: `Shared` is the invariant
of the stores and `Follows` that of a subscriber, who can make the changes that are behind it
over the tables that it began with.
-/

namespace WatchCache

/-- The objects that an event brings to a table. -/
def Event.brings : Event → List Object
  | .applied o => [o]
  | .deleted _ => []
  | .restarted objects => objects

theorem Event.effect_eq_some {lookup : String → Option Object} {e : Event} {key : String}
    {o : Object} (h : e.effect lookup key = some o) :
    lookup key = some o ∨ o ∈ e.brings ∧ o.key = key := by
  cases e with
  | applied new =>
    simp only [effect] at h
    split at h
    · next hkey =>
      cases h
      exact Or.inr ⟨List.mem_singleton.mpr rfl, hkey.symm⟩
    · exact Or.inl h
  | deleted old =>
    simp only [effect] at h
    split at h
    · cases h
    · exact Or.inl h
  | restarted objects =>
    refine Or.inr ⟨?_, by simpa using List.find?_some h⟩
    exact List.mem_reverse.mp (List.mem_of_find?_eq_some h)

theorem Change.before_or_after (c : Change) : c.before ≠ none ∨ c.after ≠ none := by
  cases c <;> simp [before, after]

namespace Hub

/-! ## Tables of a hub -/

/-- The table of a store. -/
def table (h : Hub) (id : Nat) (key : String) : Option Object :=
  (h.store? id).bind fun s => s.indexer.get? key

/-- The union of the tables of stores. -/
def contents (h : Hub) (stores : List Nat) (key : String) : Option Object :=
  stores.findSome? fun id => h.table id key

theorem table_of_store? {h : Hub} {id : Nat} {s : Store} (hs : h.store? id = some s) :
    h.table id = s.indexer.get? := by
  funext key
  rw [table, hs, Option.bind_some]

@[simp] theorem contents_singleton (h : Hub) (id : Nat) : h.contents [id] = h.table id := by
  funext key
  rw [contents, List.findSome?_singleton]

theorem contents_congr {h h' : Hub} {stores : List Nat} {key : String}
    (htables : ∀ id ∈ stores, h'.table id key = h.table id key) :
    h'.contents stores key = h.contents stores key := by
  induction stores with
  | nil => rfl
  | cons id rest ih =>
    have hrest : h'.contents rest key = h.contents rest key :=
      ih fun other hother => htables other (List.mem_cons_of_mem id hother)
    simp only [contents, List.findSome?_cons] at hrest ⊢
    rw [htables id List.mem_cons_self, hrest]

/-- A value that only one member of a list can have is found there. -/
theorem findSome?_eq_of_unique {α β : Type} {f : α → Option β} {l : List α} {a : α} (ha : a ∈ l)
    (hunique : ∀ b ∈ l, f b ≠ none → b = a) : l.findSome? f = f a := by
  induction l with
  | nil => cases ha
  | cons b rest ih =>
    rw [List.findSome?_cons]
    cases hb : f b with
    | some v => rw [← hunique b List.mem_cons_self (by simp [hb]), hb]
    | none =>
      rcases List.mem_cons.mp ha with rfl | hrest
      · -- nothing is found at `a`, hence nowhere
        show rest.findSome? f = f a
        rw [hb, List.findSome?_eq_none_iff]
        intro c hc
        by_contra hne
        exact hne (hunique c (List.mem_cons_of_mem _ hc) hne ▸ hb)
      · exact ih hrest fun c hc => hunique c (List.mem_cons_of_mem _ hc)

/-! ## Stores that share a topic -/

/-- The stores that publish on a topic hold only keys of their own, under which no other one of
them holds anything. -/
structure Shared (h : Hub) (topic : Nat) (stores : List Nat) (owns : Nat → String → Prop) :
    Prop where
  publishes : ∀ id, h.wiring.1[id]? = some topic ↔ id ∈ stores
  tables : ∀ id ∈ stores, ∀ s, h.store? id = some s → s.indexer.Consistent ∧
    Store.Keyed s.indexer.get? ∧ ∀ key o, s.indexer.get? key = some o → owns id key
  one_owner : ∀ id ∈ stores, ∀ other ∈ stores, ∀ key, owns id key → owns other key → id = other

/-- The call brings a store only objects under keys of its own. -/
def Call.Fits (stores : List Nat) (owns : Nat → String → Prop) (call : Call) : Prop :=
  ∀ id ∈ stores, ∀ e, call = .on id (.apply e) → ∀ o ∈ e.brings, owns id o.key

section

variable {h : Hub} {topic : Nat} {stores : List Nat} {owns : Nat → String → Prop}

theorem Shared.exists_store (hshared : Shared h topic stores owns) {id : Nat}
    (hid : id ∈ stores) : ∃ cell, h.stores[id]? = some cell ∧ cell.topic = topic := by
  have hwired := (hshared.publishes id).mpr hid
  simpa [wiring] using hwired

theorem Shared.owns_of_table (hshared : Shared h topic stores owns) {id : Nat}
    (hid : id ∈ stores) {key : String} (hne : h.table id key ≠ none) : owns id key := by
  obtain ⟨o, ho⟩ := Option.ne_none_iff_exists'.mp hne
  obtain ⟨s, hs, hfind⟩ := Option.bind_eq_some_iff.mp ho
  exact (hshared.tables id hid s hs).2.2 key o hfind

/-- What a store holds is in the union. -/
theorem Shared.contents_eq (hshared : Shared h topic stores owns) {id : Nat} (hid : id ∈ stores)
    {key : String} (howns : owns id key) : h.contents stores key = h.table id key :=
  findSome?_eq_of_unique hid fun other hother hne =>
    hshared.one_owner other hother id hid key (hshared.owns_of_table hother hne) howns

theorem Shared.after (hshared : Shared h topic stores owns) {call : Call}
    (hfits : call.Fits stores owns) : Shared (h.after call) topic stores owns where
  publishes := by
    rw [wiring_after]
    exact hshared.publishes
  one_owner := hshared.one_owner
  tables := by
    intro id hid s hs
    cases call with
    | subscribe topic => exact hshared.tables id hid s hs
    | unsubscribe sub => exact hshared.tables id hid s hs
    | receive sub => exact hshared.tables id hid s ((store?_receive h sub id).symm.trans hs)
    | on other call =>
      rw [store?_after_on] at hs
      obtain ⟨old, hold, hnew⟩ := Option.map_eq_some_iff.mp hs
      obtain ⟨hx, hkeyed, howned⟩ := hshared.tables id hid old hold
      split at hnew
      · next heq =>
        subst heq hnew
        refine ⟨Store.consistent_after hx call, Store.keyed_after hkeyed call, ?_⟩
        intro key o hfind
        rcases Store.get?_after old call with ⟨e, rfl, heffect⟩ | hsame
        · rw [heffect] at hfind
          rcases Event.effect_eq_some hfind with hfound | ⟨hbrought, rfl⟩
          · exact howned key o hfound
          · exact hfits other hid e rfl o hbrought
        · exact howned key o (hsame ▸ hfind)
      · subst hnew
        exact ⟨hx, hkeyed, howned⟩

/-- The changes that a store publishes lead from one union of the tables to the next. -/
theorem Shared.explains (hshared : Shared h topic stores owns) {id : Nat} (hid : id ∈ stores)
    {s : Store} (hs : h.store? id = some s) {e : Event}
    (hfits : (Call.on id (.apply e)).Fits stores owns) :
    Explains (h.contents stores) ((h.apply id e).contents stores) (s.changes e) := by
  have hafter : Shared (h.apply id e) topic stores owns := hshared.after hfits
  have hs' : (h.apply id e).store? id = some (s.apply e) := by simp [store?_apply, hs]
  obtain ⟨hx, hkeyed, -⟩ := hshared.tables id hid s hs
  have hlocal := s.explains_changes hx hkeyed e
  have howns : ∀ c ∈ s.changes e, owns id c.key := by
    intro c hc
    rcases c.before_or_after with hold | hnew
    · refine hshared.owns_of_table hid ?_
      rwa [table_of_store? hs, hlocal.before_eq c hc]
    · refine hafter.owns_of_table hid ?_
      rwa [table_of_store? hs', hlocal.after_eq c hc]
  refine ⟨hlocal.keys_nodup, fun c hc => ?_, fun c hc => ?_, fun key hkey => ?_⟩
  · rw [hshared.contents_eq hid (howns c hc), table_of_store? hs]
    exact hlocal.before_eq c hc
  · rw [hafter.contents_eq hid (howns c hc), table_of_store? hs']
    exact hlocal.after_eq c hc
  · refine contents_congr fun other _ => ?_
    by_cases heq : id = other
    · subst heq
      rw [table_of_store? hs, table_of_store? hs']
      exact hlocal.elsewhere key hkey
    · simp [table, store?_apply, heq]

/-! ## One subscriber -/

/-- The changes on a topic that are behind a position lead from the tables at that position to
those of now. -/
def Follows (h : Hub) (sub topic : Nat) (stores : List Nat) (base : String → Option Object) :
    Prop :=
  ∃ next t, h.subscribers[sub]? = some (some ⟨topic, next⟩) ∧ h.topics[topic]? = some t ∧
    next ≤ t.log.length ∧ replayAll base (t.log.drop next) = some (h.contents stores)

theorem hasSubscriber_of_getElem? {sub next : Nat}
    (hlive : h.subscribers[sub]? = some (some ⟨topic, next⟩)) : h.hasSubscriber topic = true := by
  refine List.any_eq_true.mpr ⟨some ⟨topic, next⟩, List.mem_of_getElem? hlive, ?_⟩
  simp

theorem topics_apply {id : Nat} {cell : StoreCell} (hcell : h.stores[id]? = some cell)
    (e : Event) :
    (h.apply id e).topics =
      if h.hasSubscriber cell.topic then
        h.topics.modify cell.topic fun t => { t with log := t.log ++ cell.store.changes e }
      else h.topics := by
  simp only [apply, hcell]
  split <;> rfl

/-- Whoever subscribes begins with the tables of that moment. -/
theorem follows_subscribe (htopic : topic < h.topics.length) (stores : List Nat) :
    Follows (h.subscribe topic).2 (h.subscribe topic).1 topic stores (h.contents stores) := by
  obtain ⟨t, ht⟩ : ∃ t, h.topics[topic]? = some t := ⟨_, List.getElem?_eq_getElem htopic⟩
  refine ⟨t.log.length, t, ?_, ht, Nat.le_refl _, ?_⟩
  · simp [subscribe, ht]
  · rw [List.drop_length, replayAll_nil]
    rfl

/-- The tables are those of before, and so is all that the subscriber sees. -/
theorem Follows.frame {h' : Hub} {sub : Nat} {base : String → Option Object}
    (hfollows : Follows h sub topic stores base)
    (hsub : h'.subscribers[sub]? = h.subscribers[sub]?)
    (htopic : h'.topics[topic]? = h.topics[topic]?)
    (htables : ∀ id ∈ stores, h'.table id = h.table id) : Follows h' sub topic stores base := by
  obtain ⟨next, t, hlive, ht, hle, hreplay⟩ := hfollows
  refine ⟨next, t, hsub.trans hlive, htopic.trans ht, hle, ?_⟩
  have hcontents : h'.contents stores = h.contents stores :=
    funext fun key => contents_congr fun id hid => congrFun (htables id hid) key
  rw [hcontents]
  exact hreplay

theorem Follows.apply {sub : Nat} {base : String → Option Object}
    (hshared : Shared h topic stores owns) (hfollows : Follows h sub topic stores base) {id : Nat}
    {e : Event} (hfits : (Call.on id (.apply e)).Fits stores owns) :
    Follows (h.apply id e) sub topic stores base := by
  obtain ⟨-, -, -, -, hframe, -⟩ := apply_frame h id e
  cases hcell : h.stores[id]? with
  | none =>
    have hsame : h.apply id e = h := by simp only [Hub.apply, hcell]
    rw [hsame]
    exact hfollows
  | some cell =>
    by_cases hid : id ∈ stores
    · obtain ⟨next, t, hlive, ht, hle, hreplay⟩ := hfollows
      have htopic : cell.topic = topic := by
        obtain ⟨found, hfound, htopic⟩ := hshared.exists_store hid
        rw [Option.some.inj (hcell.symm.trans hfound), htopic]
      have hs : h.store? id = some cell.store := by simp [store?, hcell]
      refine ⟨next, { t with log := t.log ++ cell.store.changes e }, ?_, ?_, ?_, ?_⟩
      · rw [hframe, hlive]
      · rw [topics_apply hcell, htopic, hasSubscriber_of_getElem? hlive, if_pos rfl]
        simp [ht]
      · simp only [List.length_append]
        omega
      · rw [List.drop_append_of_le_length hle, replayAll_append, hreplay, Option.bind_some]
        exact (hshared.explains hid hs hfits).replayAll_eq
    · have htopic : cell.topic ≠ topic := by
        intro heq
        refine hid ((hshared.publishes id).mp ?_)
        simp [wiring, hcell, heq]
      refine hfollows.frame (by rw [hframe]) ?_ fun other hother => ?_
      · rw [topics_apply hcell]
        split
        · simp [htopic]
        · rfl
      · have hne : id ≠ other := fun heq => hid (heq ▸ hother)
        funext key
        simp [table, store?_apply, hne]

theorem tryStore_frame (h : Hub) (id : Nat) (f : Store → Answer Store) :
    (h.tryStore id f).2.topics = h.topics ∧
      (h.tryStore id f).2.subscribers = h.subscribers := by
  unfold tryStore
  cases h.store? id with
  | none => exact ⟨rfl, rfl⟩
  | some s =>
    dsimp only
    cases f s <;> exact ⟨rfl, rfl⟩

/-- Calls that add an index leave the tables alone. -/
theorem table_after_on (id : Nat) {call : Store.Call} (hindex : ∀ e, call ≠ .apply e)
    (other : Nat) : (h.after (.on id call)).table other = h.table other := by
  funext key
  rw [table, table, store?_after_on]
  cases h.store? other with
  | none => rfl
  | some s =>
    rcases Store.get?_after s call with ⟨e, heq, -⟩ | hsame
    · exact absurd heq (hindex e)
    · by_cases heq : id = other
      · simp [heq, hsame]
      · simp [heq]

/-- What a subscriber at some position is given holds its changes, unless some were lost. -/
theorem drop_of_receive {t : Topic} {next : Nat} {cs : List Change}
    (hreceived : t.receive next = cs.map .change) : t.log.drop next = cs := by
  unfold Topic.receive at hreceived
  dsimp only at hreceived
  split at hreceived
  · cases cs <;> cases hreceived
  · exact (List.map_inj_right fun _ _ => Received.change.inj).mp hreceived

/-- A subscriber that lost nothing learns the tables of now. -/
theorem Follows.receive {sub : Nat} {base : String → Option Object}
    (hfollows : Follows h sub topic stores base) {cs : List Change}
    (hgiven : (h.receive sub).1 = cs.map .change) :
    replayAll base cs = some (h.contents stores) ∧
      Follows (h.receive sub).2 sub topic stores (h.contents stores) := by
  obtain ⟨next, t, hlive, ht, hle, hreplay⟩ := hfollows
  have hreceive : h.receive sub = (t.receive next,
      { h with subscribers := h.subscribers.set sub (some ⟨topic, t.log.length⟩) }) := by
    simp only [Hub.receive, hlive, ht]
  rw [hreceive] at hgiven ⊢
  rw [drop_of_receive hgiven] at hreplay
  refine ⟨hreplay, t.log.length, t, ?_, ht, Nat.le_refl _, ?_⟩
  · exact List.getElem?_set_self (List.getElem?_eq_some_iff.mp hlive).1
  · rw [List.drop_length, replayAll_nil]
    rfl

/-- One call of a subscriber's history: what it was given leads to tables from which it follows
on. -/
theorem Follows.after {sub : Nat} {base : String → Option Object}
    (hshared : Shared h topic stores owns) (hfollows : Follows h sub topic stores base)
    {call : Call} (hfits : call.Fits stores owns) (hstays : call ≠ .unsubscribe sub)
    {cs : List Change} (hheard : h.heard sub call = cs.map .change) :
    ∃ middle, replayAll base cs = some middle ∧
      Follows (h.after call) sub topic stores middle := by
  have hnone (hnil : h.heard sub call = []) : replayAll base cs = some base := by
    rw [List.map_eq_nil_iff.mp (hheard.symm.trans hnil), replayAll_nil]
  cases call with
  | on id call =>
    refine ⟨base, hnone rfl, ?_⟩
    cases call with
    | apply e => exact hfollows.apply hshared hfits
    | indexField field extract =>
      obtain ⟨htopics, hsubs⟩ := tryStore_frame h id (·.indexField field extract)
      exact hfollows.frame (congrArg (·[sub]?) hsubs) (congrArg (·[topic]?) htopics)
        fun other _ => table_after_on id (by simp) other
    | addIndex name extract =>
      obtain ⟨htopics, hsubs⟩ := tryStore_frame h id (·.addIndex name extract)
      exact hfollows.frame (congrArg (·[sub]?) hsubs) (congrArg (·[topic]?) htopics)
        fun other _ => table_after_on id (by simp) other
  | subscribe other =>
    refine ⟨base, hnone rfl, hfollows.frame ?_ rfl fun _ _ => rfl⟩
    obtain ⟨next, t, hlive, -⟩ := hfollows
    have hlt : sub < h.subscribers.length := (List.getElem?_eq_some_iff.mp hlive).1
    exact List.getElem?_append_left hlt
  | unsubscribe other =>
    refine ⟨base, hnone rfl, hfollows.frame ?_ rfl fun _ _ => rfl⟩
    exact List.getElem?_set_ne fun heq => hstays (congrArg Call.unsubscribe heq)
  | receive other =>
    by_cases heq : other = sub
    · subst heq
      exact ⟨h.contents stores, hfollows.receive (by simpa [heard] using hheard)⟩
    · have hsilent : h.heard sub (.receive other) = [] := if_neg heq
      refine ⟨base, hnone hsilent, hfollows.frame ?_ (congrArg (·[topic]?) ?_) fun id _ => ?_⟩
      · show (h.receive other).2.subscribers[sub]? = _
        unfold Hub.receive
        split
        · split
          · exact List.getElem?_set_ne heq
          · rfl
        · rfl
      · show (h.receive other).2.topics = _
        unfold Hub.receive
        split
        · split <;> rfl
        · rfl
      · funext key
        show ((h.receive other).2.store? id).bind _ = _
        rw [store?_receive]
        rfl

/-- A whole history of a subscriber. -/
theorem Follows.run {sub : Nat} {base : String → Option Object} {later : List Call}
    (hshared : Shared h topic stores owns) (hfollows : Follows h sub topic stores base)
    (hfits : ∀ call ∈ later, call.Fits stores owns)
    (hstays : ∀ call ∈ later, call ≠ .unsubscribe sub) {cs : List Change}
    (hheard : hears sub h later = cs.map .change) :
    ∃ middle, replayAll base cs = some middle ∧ Follows (h.run later) sub topic stores middle := by
  induction later generalizing h base cs with
  | nil =>
    have hnil : cs = [] := List.map_eq_nil_iff.mp hheard.symm
    exact ⟨base, by rw [hnil, replayAll_nil], hfollows⟩
  | cons call rest ih =>
    obtain ⟨first, second, rfl, hfirst, hsecond⟩ := List.map_eq_append_iff.mp hheard.symm
    have hcall := hfits call List.mem_cons_self
    obtain ⟨middle, hmiddle, hfollows'⟩ := hfollows.after hshared hcall
      (hstays call List.mem_cons_self) hfirst.symm
    obtain ⟨last, hlast, hdone⟩ := ih (hshared.after hcall) hfollows'
      (fun c hc => hfits c (List.mem_cons_of_mem call hc))
      (fun c hc => hstays c (List.mem_cons_of_mem call hc)) hsecond.symm
    refine ⟨last, ?_, hdone⟩
    rw [replayAll_append, hmiddle, Option.bind_some, hlast]

theorem Shared.run (hshared : Shared h topic stores owns) {calls : List Call}
    (hfits : ∀ call ∈ calls, call.Fits stores owns) :
    Shared (h.run calls) topic stores owns := by
  induction calls generalizing h with
  | nil => exact hshared
  | cons call rest ih =>
    exact ih (hshared.after (hfits call List.mem_cons_self))
      fun c hc => hfits c (List.mem_cons_of_mem call hc)

theorem Shared.subscribe (hshared : Shared h topic stores owns) {other : Nat} :
    Shared (h.subscribe other).2 topic stores owns :=
  ⟨hshared.publishes, hshared.tables, hshared.one_owner⟩

/-- Whoever subscribes and is told of every change can make these over the tables of that moment,
and then has the tables of now. -/
theorem Shared.replay (hshared : Shared h topic stores owns) (htopic : topic < h.topics.length)
    {later : List Call} (hfits : ∀ call ∈ later, call.Fits stores owns)
    (hstays : ∀ call ∈ later, call ≠ .unsubscribe (h.subscribe topic).1) {cs : List Change}
    (hheard : hears (h.subscribe topic).1 (h.subscribe topic).2
      (later ++ [.receive (h.subscribe topic).1]) = cs.map .change) :
    replayAll (h.contents stores) cs =
      some (((h.subscribe topic).2.run later).contents stores) := by
  rw [hears_append] at hheard
  obtain ⟨first, second, rfl, hfirst, hsecond⟩ := List.map_eq_append_iff.mp hheard.symm
  obtain ⟨middle, hmiddle, hfollows⟩ :=
    (follows_subscribe htopic stores).run hshared.subscribe hfits hstays hfirst.symm
  have hgiven : (((h.subscribe topic).2.run later).receive (h.subscribe topic).1).1 =
      second.map .change := by
    simpa [hears, heard] using hsecond.symm
  rw [replayAll_append, hmiddle, Option.bind_some, (hfollows.receive hgiven).1]

/-! ## New stores -/

/-- New stores on a new topic hold nothing and share it with no one. -/
theorem shared_of_new {built : Hub} {kind : Kind} {n : Nat} (hreach : h.Reachable)
    (hstores : built.stores = h.stores ++ List.replicate n ⟨.new kind, h.topics.length⟩)
    (hone : ∀ id ∈ List.range' h.stores.length n, ∀ other ∈ List.range' h.stores.length n,
      ∀ key, owns id key → owns other key → id = other) :
    Shared built h.topics.length (List.range' h.stores.length n) owns where
  publishes := by
    intro id
    have hwiring : built.wiring.1 = h.wiring.1 ++ List.replicate n h.topics.length := by
      simp [wiring, hstores]
    have hlength : h.wiring.1.length = h.stores.length := List.length_map _
    rw [hwiring, List.mem_range'_1]
    by_cases hold : id < h.stores.length
    · rw [List.getElem?_append_left (hlength ▸ hold)]
      constructor
      · intro htopic
        exact absurd (hreach.topic_lt _ (List.mem_of_getElem? htopic)) (Nat.lt_irrefl _)
      · intro hmem
        omega
    · rw [List.getElem?_append_right (by omega), hlength, List.getElem?_replicate]
      have hrange : id - h.stores.length < n ↔ id < h.stores.length + n := by omega
      simp [hrange, Nat.le_of_not_lt hold]
  tables := by
    intro id hid s hs
    obtain ⟨hle, hlt⟩ := List.mem_range'_1.mp hid
    have hnew : s = .new kind := by
      rw [store?, hstores, List.getElem?_append_right hle, List.getElem?_replicate,
        if_pos (by omega)] at hs
      exact (Option.some.inj hs).symm
    subst hnew
    refine ⟨Store.run_consistent kind [], Store.run_keyed kind [], fun key o hfind => ?_⟩
    cases hfind
  one_owner := hone

end

end Hub

end WatchCache
