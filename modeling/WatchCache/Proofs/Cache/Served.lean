import WatchCache.Cache.Remote
import WatchCache.Proofs.Cache.Origin
import WatchCache.Proofs.Server.Heard

set_option autoImplicit false

/-!
# What readers receive from a server

A server may answer in any way: with pages and lines of any sort, with failures, differently from
one subscription to the next and from one fetch to the next.  Whatever it does, each store holds
what its watch has heard so far, and readers and subscribers receive objects that the server sent,
without the record of who set which fields.
-/

namespace WatchCache

/-- What a reply holds of objects and resources, as values. -/
def Reply.values : Reply → List Json
  | .object o => [o.toJson]
  | .objects found => found.map Object.toJson
  | .resource j => [j]
  | .resources found => found
  | _ => []

namespace ApiServer

/-- The events that a watch hears, before anything is taken out of them. -/
def heard (a : ApiServer) (t : Watch.Target) : List Event :=
  (a.watches t).flatMap fun outcomes => delivered (t.hear .start outcomes).2

/-- A watch for a kind, in any namespace and with any selector. -/
structure IsWatch (a : ApiServer) (k : Kind) (t : Watch.Target) : Prop where
  resolved : a.scheme.resolve k = .ok t.resource
  kindKey : t.kindKey = k.key

/-- The server sends an object of a kind: to a watch, or to a fetch. -/
inductive Sends (a : ApiServer) (k : Kind) (o : Object) : Prop
  | watched {t : Watch.Target} {outcomes : List (Except RequestFailure Response)}
      {answer : Response} (watch : a.IsWatch k t) (subscription : outcomes ∈ a.watches t)
      (mem : .ok answer ∈ outcomes) (brings : answer.Brings o)
  | fetched {r : Resource} {key : ObjectKey} {made : Nat} {request : Request} {answer : Response}
      (resolved : a.scheme.resolve k = .ok r)
      (target : Request.ofTarget (r.path key.namespace? ++ "/" ++ key.name) = .ok request)
      (answered : a.fetches made request = .ok answer) (read : answer.read Object.read = .ok o)

/-- The object is one that the server sent, but for the record of who set which fields: it has
none, and its value shows none. -/
structure Passes (a : ApiServer) (k : Kind) (o : Object) : Prop where
  unmanaged : o.metadata.managedFields = none
  hidden : o.toJson.managedFields? = none
  sent : ∃ raw, a.Sends k raw ∧ o = raw.withoutManagedFields

variable {a : ApiServer}

theorem Sends.regular {k : Kind} {raw : Object} (hraw : a.Sends k raw) : raw.Regular := by
  cases hraw with
  | watched _ _ _ hbrings => exact hbrings.regular
  | fetched _ _ _ hread => exact Object.regular_read.of_run (Response.read_eq_ok hread)

theorem Sends.passes {k : Kind} {raw : Object} (hraw : a.Sends k raw) :
    a.Passes k raw.withoutManagedFields where
  unmanaged := rfl
  hidden := hraw.regular.withoutManagedFields.managedFields?_toJson
  sent := ⟨raw, hraw, rfl⟩

theorem Passes.regular {k : Kind} {o : Object} (ho : a.Passes k o) : o.Regular := by
  obtain ⟨raw, hraw, rfl⟩ := ho.sent
  exact hraw.regular.withoutManagedFields

/-- What a call returns as an object shows no record. -/
theorem unmanaged_of_stamped {o : Object} (ho : Stamped a.Passes o) :
    o.toJson.managedFields? = none := by
  obtain ⟨k, raw, hraw, rfl⟩ := ho
  exact ((hraw.regular.stamp k).managedFields?_toJson).trans hraw.unmanaged

/-- What a call returns by type shows no record. -/
theorem unmanaged_of_decodedFrom {j : Json} (hj : DecodedFrom a.Passes j) :
    j.managedFields? = none := by
  obtain ⟨type, o, ⟨k, raw, hraw, rfl⟩, hdecode⟩ := hj
  exact ResourceType.managedFields?_of_decode (hraw.regular.stamp k) hraw.unmanaged hdecode

theorem unmanaged_of_from {reply : Reply} (hreply : reply.From a.Passes) :
    ∀ j ∈ reply.values, j.managedFields? = none := by
  intro j hj
  cases reply with
  | object o =>
    obtain rfl := List.mem_singleton.mp hj
    exact unmanaged_of_stamped hreply
  | objects found =>
    obtain ⟨o, ho, rfl⟩ := List.mem_map.mp hj
    exact unmanaged_of_stamped (hreply o ho)
  | resource found =>
    obtain rfl := List.mem_singleton.mp hj
    exact unmanaged_of_decodedFrom hreply
  | resources found => exact unmanaged_of_decodedFrom (hreply j hj)
  | _ => cases hj

/-- What the watches of a kind yield. -/
def Streams (a : ApiServer) (k : Kind) (script : List (List Item)) : Prop :=
  ∃ t, a.IsWatch k t ∧ script = (a.watches t).map t.items

theorem eventsOf_items (a : ApiServer) (t : Watch.Target) :
    eventsOf ((a.watches t).map t.items) = (a.heard t).map Event.withoutManagedFields := by
  rw [eventsOf, heard, List.flatMap_map, List.map_flatMap]
  exact List.flatMap_congr fun outcomes _ => delivered_withoutManagedFields _

/-- Every object that a watch hears of was sent. -/
theorem IsWatch.sends {k : Kind} {t : Watch.Target} (ht : a.IsWatch k t) {e : Event}
    (he : e ∈ a.heard t) : ∀ o ∈ e.objects, a.Sends k o := by
  obtain ⟨outcomes, houtcomes, he⟩ := List.mem_flatMap.mp he
  exact Watch.objects_of_hear Watch.no_objects_start
    (fun answer hanswer o ho => .watched ht houtcomes hanswer ho) (mem_of_mem_delivered he)

theorem scripted_connector (a : ApiServer) : a.connector.Scripted a.Streams := by
  intro k ns selector source hsource
  cases hresolve : a.scheme.resolve k with
  | error e =>
    simp only [connector, hresolve] at hsource
    cases hsource
  | ok r =>
    simp only [connector, hresolve] at hsource
    cases hsource
    exact ⟨_, rfl, ⟨r, ns, selector, k.key⟩, ⟨hresolve, rfl⟩, rfl⟩

theorem fetches_connector (a : ApiServer) : a.connector.Fetches a.Passes := by
  intro made k key o hanswer
  cases hresolve : a.scheme.resolve k with
  | error e =>
    simp only [connector, hresolve] at hanswer
    cases hanswer
  | ok r =>
    simp only [connector, hresolve, Except.bind, Endpoint.fetch] at hanswer
    obtain ⟨request, answer, raw, htarget, hanswered, hread, rfl⟩ := eq_of_fetchObject hanswer
    exact Sends.passes (.fetched hresolve htarget hanswered hread)

theorem passes_of_streams {k : Kind} {script : List (List Item)} (hscript : a.Streams k script) :
    ∀ e ∈ eventsOf script, ∀ o ∈ e.brings, a.Passes k o := by
  obtain ⟨t, ht, rfl⟩ := hscript
  intro e he o ho
  rw [eventsOf_items] at he
  obtain ⟨raw, hraw, rfl⟩ := List.mem_map.mp he
  have hsent : ∀ o ∈ raw.objects, a.Sends k o := ht.sends hraw
  cases raw with
  | applied raw =>
    obtain rfl := List.mem_singleton.mp ho
    exact (hsent raw (List.mem_singleton_self raw)).passes
  | deleted raw => cases ho
  | restarted raws =>
    obtain ⟨raw, hmem, rfl⟩ := List.mem_map.mp ho
    exact (hsent raw hmem).passes

end ApiServer

namespace Cache

/-- Readers receive what the server sent, and nothing else.

A cache is built for a server and used in any way, while the server answers in any way.  Then each
store was told the beginning of what a watch for its kind has heard, and its table is what this
makes of an empty one: under each key the object that was applied or listed last, unless it was
deleted or left out of a listing since.  Every object of a table, every object that a subscriber
receives in a change and every object that a call returns, after a fetch as well as from a store,
is one that the server sent for its kind, but for its type and for the record of who set which
fields.  What a call returns by type was decoded from such an object.  None of them has the
record, and none shows one as a value. -/
theorem readers_receive_what_was_sent {a : ApiServer} {p : Plan} {c : Cache}
    (hbuild : p.build a.connector = .ok c) {uses : List Use}
    (huses : ∀ u ∈ uses, u.Connects (· = a.connector)) :
    let last := c.useAll uses
    (∀ id s, last.hub.store? id = some s →
      (∃ raws, Hub.eventsFor id (c.deliveries uses) = raws.map Event.withoutManagedFields ∧
        (raws = [] ∨ ∃ t, a.IsWatch s.kind t ∧ raws <+: a.heard t) ∧
        ∀ key, s.indexer.get? key = (Event.tableOf raws key).map Object.withoutManagedFields) ∧
      s.Holds a.Passes) ∧
    (∀ sub ch, .change ch ∈ (last.hub.receive sub).1 → ∃ k, ch.About (a.Passes k)) ∧
    ∀ id reply, last.reply? id = some reply →
      reply.From a.Passes ∧ ∀ j ∈ reply.values, j.managedFields? = none := by
  intro last
  have hwired : Wired a.Streams c := wired_build a.scripted_connector hbuild
  have hconnects {Q : Connector → Prop} (hQ : Q a.connector) : ∀ u ∈ uses, u.Connects Q := by
    rintro u hu connector rfl
    exact huses _ hu connector rfl ▸ hQ
  have hscripted := hconnects a.scripted_connector
  have hheld : last.hub.Holds a.Passes :=
    hwired.holds (fun _ _ => ApiServer.passes_of_streams) hscripted
  have hsourced : Sourced a.Passes last :=
    hwired.sourced (fun _ _ => ApiServer.passes_of_streams)
      (connector_build hbuild ▸ a.fetches_connector) hscripted (hconnects a.fetches_connector)
  refine ⟨fun id s hs => ⟨?_, hheld id s hs⟩, fun sub ch hch => hsourced.published.about hch, ?_⟩
  · obtain ⟨-, htable, horder⟩ := hwired.follows hscripted hs
    rcases horder with hnothing | ⟨_, ⟨t, ht, rfl⟩, hfirst⟩
    · refine ⟨[], hnothing, Or.inl rfl, fun key => ?_⟩
      rw [htable, hnothing]
      rfl
    · rw [ApiServer.eventsOf_items] at hfirst
      obtain ⟨raws, hraws, htold⟩ := List.prefix_map_iff.mp hfirst
      refine ⟨raws, htold, Or.inr ⟨t, ht, hraws⟩, fun key => ?_⟩
      rw [htable, htold, Event.tableOf_withoutManagedFields]
  · intro id reply hreply
    have hfrom : reply.From a.Passes := hsourced.reply hreply
    exact ⟨hfrom, ApiServer.unmanaged_of_from hfrom⟩

/-! ## Two nodes -/

namespace TwoNodes

/-- The kind of both. -/
def node : Kind := ⟨"", "v1", "Node"⟩

/-- A node as it is sent. -/
def sent (name : String) : Object :=
  { metadata :=
      { name := some name, managedFields := some (.array []),
        others := [("resourceVersion", .string "2")] } }

/-- A node as it is kept. -/
def kept (name : String) : Object := (sent name).withoutManagedFields

/-- A server that lists nothing, then adds a node, and answers every fetch with another one. -/
def server : ApiServer where
  scheme := Scheme.addKind {} node "nodes" false
  watches _ :=
    let metadata : Json := .ofMembers [("resourceVersion", .string "1")]
    let page : Json := .ofMembers [("metadata", metadata), ("items", .array [])]
    let line : Json := .ofMembers [("type", .string "ADDED"), ("object", (sent "n").toJson)]
    [[.ok { body := page.compact }, .ok { body := line.compact }]]
  fetches _ _ := .ok { body := (sent "m").toJson.compact }
  delays _ := 0

/-- Somebody subscribes, the watch runs, and both nodes are got. -/
def uses : List Use :=
  [.move (.subscribe 0), .move (.act (.request (.start "main"))), .move (.act (.step 0)),
    .move (.act (.step 0)), .move (.act (.step 0)), .move (.act (.request (.get node ⟨none, "n"⟩))),
    .move (.act (.request (.get node ⟨none, "m"⟩))), .move (.act (.poll 2))]

end TwoNodes

/-- The one node comes from the watch, the other one from a fetch, and a subscriber receives the
addition of the first. -/
theorem readers_receive_two_nodes :
    let plan : Plan := { scheme := TwoNodes.server.scheme, kinds := [TwoNodes.node] }
    let first := TwoNodes.kept "n"
    let second := TwoNodes.kept "m"
    ∃ c, plan.build TwoNodes.server.connector = .ok c ∧
      let last := c.useAll TwoNodes.uses
      (∃ s, last.hub.store? 0 = some s ∧ s.indexer.all = [first] ∧
        s.Holds TwoNodes.server.Passes) ∧
      ((last.hub.receive 0).1 = [.change (.added first)] ∧
        ∃ k, (Change.added first).About (TwoNodes.server.Passes k)) ∧
      last.reply? 1 = some (.object (first.stamp TwoNodes.node)) ∧
      last.reply? 2 = some (.object (second.stamp TwoNodes.node)) ∧
      (Reply.object (second.stamp TwoNodes.node)).From TwoNodes.server.Passes := by
  intro plan first second
  obtain ⟨c, hbuild, hstored, hchange, hfirst, hsecond⟩ :
      ∃ c, plan.build TwoNodes.server.connector = .ok c ∧
        ((c.useAll TwoNodes.uses).hub.store? 0).map (·.indexer.all) = some [first] ∧
        ((c.useAll TwoNodes.uses).hub.receive 0).1 = [.change (.added first)] ∧
        (c.useAll TwoNodes.uses).reply? 1 = some (.object (first.stamp TwoNodes.node)) ∧
        (c.useAll TwoNodes.uses).reply? 2 = some (.object (second.stamp TwoNodes.node)) :=
    ⟨_, rfl, by decide +kernel⟩
  have huses : ∀ u ∈ TwoNodes.uses, u.Connects (· = TwoNodes.server.connector) := by
    simp [TwoNodes.uses, Use.Connects]
  obtain ⟨hstores, hchanges, hreplies⟩ := readers_receive_what_was_sent hbuild huses
  obtain ⟨s, hs, hall⟩ := Option.map_eq_some_iff.mp hstored
  exact ⟨c, hbuild, ⟨s, hs, hall, (hstores 0 s hs).2⟩,
    ⟨hchange, hchanges 0 _ (hchange ▸ List.mem_singleton_self _)⟩, hfirst, hsecond,
    (hreplies 2 _ hsecond).1⟩

end Cache

end WatchCache
