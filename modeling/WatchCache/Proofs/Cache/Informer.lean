import WatchCache.Cache.Basic
import WatchCache.Proofs.Hub.Subscription
import WatchCache.Proofs.ObjectKey

set_option autoImplicit false

/-!
# The stores of an informer

An informer has one store for each scope, all on one new topic.  The configured namespaces are
distinct and not empty, so that the keys of objects tell which store they belong to, and a
subscriber of the informer learns the union of its tables.
-/

namespace WatchCache

/-! ## Configured namespaces -/

theorem nodup_eraseDups {α : Type} [BEq α] [LawfulBEq α] (l : List α) : l.eraseDups.Nodup := by
  match l with
  | [] => simp
  | b :: rest =>
    rw [List.eraseDups_cons]
    refine List.nodup_cons.mpr ⟨?_, nodup_eraseDups _⟩
    rw [List.mem_eraseDups]
    simp
termination_by l.length
decreasing_by exact Nat.lt_succ_of_le (List.length_filter_le _ _)

namespace Cache

theorem nodup_namespaces (c : Cache) (namespaces : List String) :
    (c.withNamespaces namespaces).namespaces.Nodup :=
  nodup_eraseDups _

theorem mem_namespaces (c : Cache) (namespaces : List String) (ns : String) :
    ns ∈ (c.withNamespaces namespaces).namespaces ↔ ns ∈ namespaces ∧ ns ≠ "" := by
  show ns ∈ (namespaces.filter (· ≠ "")).eraseDups ↔ _
  rw [List.mem_eraseDups, List.mem_filter]
  simp

/-! ## Construction -/

theorem openSource_ok {c built : Cache} {k : Kind} {ns : Option String}
    {selector : Option LabelSelector} {source : Nat}
    (hopen : c.openSource k ns selector = (.ok source, built)) :
    built.hub.stores = c.hub.stores ∧ built.hub.topics = c.hub.topics := by
  unfold openSource at hopen
  split at hopen
  · cases hopen
  · cases hopen
    exact ⟨rfl, rfl⟩

/-- One empty store for each scope is added, in their order, and they share the topic. -/
theorem openScopes_ok {c built : Cache} {k : Kind} {topic : Nat} {scopes : List (Option String)}
    {watched : List Watched} (hopen : openScopes k topic c scopes = (.ok watched, built)) :
    built.hub.stores = c.hub.stores ++ List.replicate scopes.length ⟨.new k, topic⟩ ∧
      built.hub.topics = c.hub.topics ∧ watched.map Watched.ns = scopes ∧
      watched.map Watched.store = List.range' c.hub.stores.length scopes.length := by
  induction scopes generalizing c watched with
  | nil =>
    cases hopen
    simp
  | cons ns rest ih =>
    simp only [openScopes] at hopen
    split at hopen
    · cases hopen
    · next source opened hsource =>
      split at hopen
      · cases hopen
      · next others last hrest =>
        cases hopen
        obtain ⟨hstores, htopics⟩ := openSource_ok hsource
        obtain ⟨hstores', htopics', hscopes, hids⟩ := ih hrest
        have hadded : opened.hub.stores = c.hub.stores ++ [⟨.new k, topic⟩] := hstores
        refine ⟨?_, htopics'.trans htopics, ?_, ?_⟩
        · rw [hstores', hadded, List.append_assoc, List.length_cons, List.replicate_succ]
          rfl
        · rw [List.map_cons, hscopes]
        · rw [List.map_cons, hids, hadded, List.length_append, List.length_singleton,
            List.length_cons, List.range'_succ]
          rfl

/-- The parts of a new informer. -/
theorem buildInformer_ok {c built : Cache} {k : Kind} {i : Informer}
    (hbuild : c.buildInformer k = (.ok i, built)) :
    i.topic = c.hub.topics.length ∧ built.hub.topics.length = c.hub.topics.length + 1 ∧
      built.hub.stores =
        c.hub.stores ++ List.replicate i.watched.length ⟨.new k, c.hub.topics.length⟩ ∧
      i.stores = List.range' c.hub.stores.length i.watched.length ∧
      i.watched.map Watched.ns = if i.perNamespace then c.namespaces.map some else [none] := by
  unfold buildInformer at hbuild
  split at hbuild
  · cases hbuild
  · dsimp only at hbuild
    split at hbuild
    · cases hbuild
    · next hopen =>
      cases hbuild
      obtain ⟨hstores, htopics, hscopes, hids⟩ := openScopes_ok hopen
      have hlength := congrArg List.length hscopes
      rw [List.length_map] at hlength
      refine ⟨rfl, ?_, ?_, ?_, hscopes⟩
      · rw [htopics]
        exact List.length_append
      · rw [hlength]
        exact hstores
      · rw [hlength]
        exact hids

end Cache

/-! ## Objects of one namespace -/

namespace Informer

/-- The keys of the objects that belong to a store: those of its namespace, or all keys for a
store of all namespaces. -/
def Owns (i : Informer) (id : Nat) (key : String) : Prop :=
  ∀ w ∈ i.watched, w.store = id → ∀ ns, w.ns = some ns → ∃ name, key = tableKey ns name

/-- The call brings the store of a namespace only objects of this namespace. -/
def Feeds (i : Informer) (call : Hub.Call) : Prop :=
  ∀ w ∈ i.watched, ∀ ns, w.ns = some ns → ∀ e, call = .on w.store (.apply e) →
    ∀ o ∈ e.brings, o.nsText = ns

theorem Feeds.fits {i : Informer} {call : Hub.Call} (hfeeds : i.Feeds call) :
    call.Fits i.stores i.Owns := by
  intro id _ e hcall o ho w hw hstore ns hns
  subst hstore
  exact ⟨o.metadata.name.getD "", hfeeds w hw ns hns e hcall o ho ▸ rfl⟩

section

variable {c built : Cache} {k : Kind} {i : Informer} {namespaces : List String}

/-- Each scope is the scope of one store only. -/
theorem inj_ns_of_buildInformer
    (hbuild : (c.withNamespaces namespaces).buildInformer k = (.ok i, built)) {w v : Watched}
    (hw : w ∈ i.watched) (hv : v ∈ i.watched) (hns : w.ns = v.ns) : w = v := by
  obtain ⟨-, -, -, -, hscopes⟩ := Cache.buildInformer_ok hbuild
  have hnodup : (i.watched.map Watched.ns).Nodup := by
    rw [hscopes]
    split
    · exact (Cache.nodup_namespaces c namespaces).map fun _ _ => Option.some.inj
    · exact List.nodup_singleton none
  exact List.inj_on_of_nodup_map hnodup hw hv hns

/-- Either all stores are for a namespace, or there is one store for all of them. -/
theorem scope_of_buildInformer
    (hbuild : (c.withNamespaces namespaces).buildInformer k = (.ok i, built)) :
    (∀ w ∈ i.watched, ∃ ns ∈ namespaces, w.ns = some ns ∧ ns ≠ "") ∨
      ∀ w ∈ i.watched, w.ns = none := by
  obtain ⟨-, -, -, -, hscopes⟩ := Cache.buildInformer_ok hbuild
  have hmem : ∀ w ∈ i.watched, w.ns ∈ i.watched.map Watched.ns :=
    fun w hw => List.mem_map_of_mem hw
  rw [hscopes] at hmem
  cases hper : i.perNamespace with
  | true =>
    rw [hper, if_pos rfl] at hmem
    refine Or.inl fun w hw => ?_
    obtain ⟨ns, hns, heq⟩ := List.mem_map.mp (hmem w hw)
    obtain ⟨hconfigured, hne⟩ := (Cache.mem_namespaces c namespaces ns).mp hns
    exact ⟨ns, hconfigured, heq.symm, hne⟩
  | false =>
    rw [hper, if_neg (by simp)] at hmem
    exact Or.inr fun w hw => List.mem_singleton.mp (hmem w hw)

/-- The stores of a new informer own different keys. -/
theorem one_owner_of_buildInformer (hslash : ∀ ns ∈ namespaces, '/' ∉ ns.toList)
    (hbuild : (c.withNamespaces namespaces).buildInformer k = (.ok i, built)) :
    ∀ id ∈ i.stores, ∀ other ∈ i.stores, ∀ key, i.Owns id key → i.Owns other key →
      id = other := by
  intro id hid other hother key hkey hkey'
  obtain ⟨w, hw, rfl⟩ := List.mem_map.mp hid
  obtain ⟨v, hv, rfl⟩ := List.mem_map.mp hother
  refine congrArg Watched.store (inj_ns_of_buildInformer hbuild hw hv ?_)
  rcases scope_of_buildInformer hbuild with hscopes | hscopes
  · obtain ⟨ns, hmem, hns, hne⟩ := hscopes w hw
    obtain ⟨ns', hmem', hns', hne'⟩ := hscopes v hv
    obtain ⟨name, hname⟩ := hkey w hw rfl ns hns
    obtain ⟨name', hname'⟩ := hkey' v hv rfl ns' hns'
    have hsame : ns = ns' := ns_eq_of_tableKey_eq hne hne' (hslash ns hmem) (hslash ns' hmem')
      (hname.symm.trans hname')
    rw [hns, hns', hsame]
  · rw [hscopes w hw, hscopes v hv]

/-- The stores of a new informer hold nothing and share their topic with no other store. -/
theorem shared_of_buildInformer (hreach : c.hub.Reachable)
    (hslash : ∀ ns ∈ namespaces, '/' ∉ ns.toList)
    (hbuild : (c.withNamespaces namespaces).buildInformer k = (.ok i, built)) :
    Hub.Shared built.hub i.topic i.stores i.Owns := by
  have hone := one_owner_of_buildInformer hslash hbuild
  obtain ⟨htopic, -, hstores, hids, -⟩ := Cache.buildInformer_ok hbuild
  rw [hids] at hone ⊢
  rw [htopic]
  exact Hub.shared_of_new hreach hstores hone

end

end Informer

/-! ## What subscribers learn -/

/-- Subscribers can follow stores by the changes alone.

The changes of any event can be made over the table before it, in any order, and lead to the
table after it; the removal of an absent object changes nothing, and a restart makes one change
for each key of the old table or of the new listing.  Hence a subscriber of a store, from any
moment on and as long as no change is lost to it, goes from the table at its subscription to the
table of now; and so does a subscriber of an informer, for the union of its tables, when each
store of a namespace is fed with objects of that namespace. -/
theorem changes_replay_to_tables :
    (∀ (kind : Kind) (calls : List Store.Call) (e : Event),
      let s := Store.run kind calls
      (∀ cs : List Change, cs.Perm (s.changes e) →
        replayAll s.indexer.get? cs = some (s.apply e).indexer.get?) ∧
      (∀ o, e = .deleted o → s.indexer.get? o.key = none → s.changes e = []) ∧
      (∀ objects, e = .restarted objects → ((s.changes e).map Change.key).Nodup ∧
        ∀ key, key ∈ (s.changes e).map Change.key ↔
          s.indexer.get? key ≠ none ∨ key ∈ objects.map Object.key)) ∧
    (∀ (h : Hub) (kind : Kind) (buffer : Nat) (before later : List Hub.Call) (cs : List Change),
      let id := (h.newStore kind buffer).1
      let topic := h.topics.length
      let start := (h.newStore kind buffer).2.run before
      let sub := (start.subscribe topic).1
      h.Reachable → (∀ call ∈ later, call ≠ .unsubscribe sub) →
      Hub.hears sub (start.subscribe topic).2 (later ++ [.receive sub]) = cs.map .change →
      replayAll (Store.run kind (Hub.callsOn id before)).indexer.get? cs =
        some (Store.run kind (Hub.callsOn id (before ++ later))).indexer.get?) ∧
    (∀ (c built : Cache) (k : Kind) (i : Informer) (namespaces : List String)
      (before later : List Hub.Call) (cs : List Change),
      let start := built.hub.run before
      let sub := (start.subscribe i.topic).1
      let last := (start.subscribe i.topic).2.run later
      c.hub.Reachable → (∀ ns ∈ namespaces, '/' ∉ ns.toList) →
      (c.withNamespaces namespaces).buildInformer k = (.ok i, built) →
      (∀ call ∈ before ++ later, i.Feeds call) → (∀ call ∈ later, call ≠ .unsubscribe sub) →
      Hub.hears sub (start.subscribe i.topic).2 (later ++ [.receive sub]) = cs.map .change →
      replayAll (start.contents i.stores) cs = some (last.contents i.stores) ∧
        ∀ id ∈ i.stores, ∀ key o, last.table id key = some o →
          last.contents i.stores key = some o) := by
  refine ⟨?_, ?_, ?_⟩
  · intro kind calls e s
    have hx : s.indexer.Consistent := Store.run_consistent kind calls
    have hkeyed : Store.Keyed s.indexer.get? := Store.run_keyed kind calls
    refine ⟨fun cs hperm => ((s.explains_changes hx hkeyed e).perm hperm).replayAll_eq, ?_, ?_⟩
    · rintro o rfl habsent
      simp [Store.changes, habsent]
    · rintro objects rfl
      exact ⟨Store.nodup_keys_changes_restarted hx hkeyed objects,
        Store.mem_keys_changes_restarted hx hkeyed objects⟩
  · intro h kind buffer before later cs id topic start sub hreach hstays hheard
    have hnew : Hub.Shared (h.newStore kind buffer).2 topic [id] fun _ _ => True := by
      refine Hub.shared_of_new (n := 1) hreach rfl fun x hx y hy _ _ _ => ?_
      rw [List.mem_singleton.mp hx, List.mem_singleton.mp hy]
    have hfits : ∀ call : Hub.Call, call.Fits [id] fun _ _ => True :=
      fun _ _ _ _ _ _ _ => trivial
    have htopic : topic < start.topics.length := by
      rw [Hub.length_topics_run]
      simp [Hub.newStore, Hub.addStore, Hub.addTopic, topic]
    have hreplay := (hnew.run fun call _ => hfits call).replay htopic
      (fun call _ => hfits call) hstays hheard
    have hbefore := Hub.store?_run_newStore h kind buffer before
    have hlater : ((start.subscribe topic).2.run later).store? id =
        some (Store.run kind (Hub.callsOn id (before ++ later))) := by
      rw [← Hub.store?_run_newStore, Hub.run_append, Hub.store?_run, Hub.store?_run]
      rfl
    rwa [Hub.contents_singleton, Hub.contents_singleton, Hub.table_of_store? hbefore,
      Hub.table_of_store? hlater] at hreplay
  · intro c built k i namespaces before later cs start sub last hreach hslash hbuild hfeeds hstays
      hheard
    have hfits : ∀ call ∈ before ++ later, call.Fits i.stores i.Owns :=
      fun call hcall => (hfeeds call hcall).fits
    have hshared := Informer.shared_of_buildInformer hreach hslash hbuild
    have hstart : Hub.Shared start i.topic i.stores i.Owns :=
      hshared.run fun call hcall => hfits call (List.mem_append_left later hcall)
    have htopic : i.topic < start.topics.length := by
      obtain ⟨hnew, hcount, -⟩ := Cache.buildInformer_ok hbuild
      rw [Hub.length_topics_run]
      omega
    have hlater : ∀ call ∈ later, call.Fits i.stores i.Owns :=
      fun call hcall => hfits call (List.mem_append_right before hcall)
    have hlast : Hub.Shared last i.topic i.stores i.Owns := hstart.subscribe.run hlater
    refine ⟨hstart.replay htopic hlater hstays hheard, fun id hid key o ho => ?_⟩
    rw [hlast.contents_eq hid (hlast.owns_of_table hid (by simp [ho])), ho]

/-- One subscriber of a store, and one of an informer for two namespaces, one of which is relisted
with a repeated key. -/
theorem changes_replay_to_tables_two_namespaces :
    let kind : Kind := ⟨"example.io", "v1", "Widget"⟩
    let c : Cache :=
      { connector := Script.connector { kinds := [(kind, true)] }
        options := { eventBuffer := 4 } }
    let red : Object := { metadata := { name := some "w", ns := some "red" } }
    let blue : Object := { metadata := { name := some "w", ns := some "blue" } }
    let blue' : Object := { metadata := { name := some "w", ns := some "blue", labels := some [] } }
    let built := ((c.withNamespaces ["red", "", "blue", "red"]).buildInformer kind).2
    let i : Informer := ⟨kind, true, 0, [⟨some "red", 0, 0⟩, ⟨some "blue", 1, 1⟩]⟩
    let before : List Hub.Call := [.on 0 (.apply (.applied red))]
    let alone : Hub := (Hub.newStore {} kind 1).2.run before
    let later : List Hub.Call := [.on 1 (.apply (.restarted [blue, blue'])), .receive 0,
      .on 0 (.apply (.deleted red)), .on 1 (.apply (.applied blue))]
    let start := built.hub.run before
    let last := (start.subscribe 0).2.run later
    Hub.hears 0 (alone.subscribe 0).2 (later ++ [.receive 0]) = [.change (.deleted red)] ∧
      replayAll (Store.run kind (Hub.callsOn 0 before)).indexer.get? [.deleted red] =
        some (Store.run kind (Hub.callsOn 0 (before ++ later))).indexer.get? ∧
      (c.withNamespaces ["red", "", "blue", "red"]).buildInformer kind = (.ok i, built) ∧
      Hub.hears 0 (start.subscribe 0).2 (later ++ [.receive 0]) =
        [.change (.added blue'), .change (.deleted red), .change (.updated blue' blue)] ∧
      replayAll (start.contents i.stores) [.added blue', .deleted red, .updated blue' blue] =
        some (last.contents i.stores) := by
  intro kind c red blue blue' built i before alone later start last
  have hbuild : (c.withNamespaces ["red", "", "blue", "red"]).buildInformer kind = (.ok i, built) :=
    Prod.ext (by cbv) rfl
  have hheard : Hub.hears 0 (start.subscribe 0).2 (later ++ [.receive 0]) =
      [.change (.added blue'), .change (.deleted red), .change (.updated blue' blue)] := by
    decide +kernel
  have hslash : ∀ ns ∈ ["red", "", "blue", "red"], '/' ∉ ns.toList := by decide
  have hfeeds : ∀ call ∈ before ++ later, i.Feeds call := by
    have hred : red.nsText = "red" := rfl
    have hblue : blue.nsText = "blue" ∧ blue'.nsText = "blue" := ⟨rfl, rfl⟩
    simp [Informer.Feeds, i, before, later, Event.brings, hred, hblue]
  have hstays : ∀ call ∈ later, call ≠ .unsubscribe 0 := by simp [later]
  have halone : Hub.hears 0 (alone.subscribe 0).2 (later ++ [.receive 0]) =
      [.change (.deleted red)] := by
    decide +kernel
  refine ⟨halone, ?_, hbuild, hheard, ?_⟩
  · exact changes_replay_to_tables.2.1 {} kind 1 before later [.deleted red] .empty hstays halone
  · exact (changes_replay_to_tables.2.2 c built kind i ["red", "", "blue", "red"] before later
      [.added blue', .deleted red, .updated blue' blue] .empty hslash hbuild hfeeds hstays hheard).1

end WatchCache
