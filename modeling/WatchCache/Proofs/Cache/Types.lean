import WatchCache.Proofs.Cache.Bare

set_option autoImplicit false

/-!
# Reads and the types of objects

Objects come with the type of their kind, with another one or without any.  Readers by type are
given the same in all three cases: what they receive is stamped with the kind that is read, in
the store of a dedicated kind, after a fetch, and in the stores of an informer.

The one way in which a type can make a difference is through an index.  Callers bring the
extractors of the indices, which see objects as they came, so a list by the field of an index
depends on types if the extractor looks at them; extractors that read by a path do not.
-/

namespace WatchCache

namespace Cache

/-! ## Indices that calls ask by -/

/-- If a use adds an index that a call asks by, the index does not look at types. -/
def Use.Suits (u : Use) (o : ListOptions) : Prop :=
  ∀ name extract, u.adds? = some (name, extract) → o.BlindAt name extract

/-- A call that asks by the field of an index depends on the extractor that the caller brings. -/
theorem suits_index_iff {t : ResourceType} {field : String} {extract : Extractor}
    {o : ListOptions} :
    (Use.index t field extract).Suits o ↔ o.BlindAt (fieldIndex field) extract := by
  constructor
  · intro hsuits fields asked value hfields hone hname
    exact Extractor.blind_doubled.mp (hsuits _ _ rfl fields asked value hfields hone hname)
  · rintro hblind _ _ ⟨⟩ fields asked value hfields hone hname
    exact Extractor.blind_doubled.mpr (hblind fields asked value hfields hone hname)

/-- A list adds no index. -/
theorem suits_list (t : ResourceType) (asked o : ListOptions) : (Use.list t asked).Suits o := by
  intro name extract hadds
  cases hadds

/-- No index that a call asks by looks at types, neither in a store nor in a call that waits to
add it. -/
structure Blind (c : Cache) (o : ListOptions) : Prop where
  stores : c.hub.Blind o
  waiting : ∀ k token field extract, .syncing k token (.index field extract) ∈ c.calls →
    o.BlindAt (fieldIndex field) (Store.doubled extract)

section

variable {c : Cache} {o : ListOptions}

/-- Uses keep it so if they add no other indices. -/
theorem Blind.use (hc : c.Blind o) {u : Use} (hu : u.Suits o) : (c.use u).Blind o where
  stores := by
    have hadds : ∀ name extract, c.Adds u name extract → o.BlindAt name extract := by
      rintro name extract (hadded | ⟨k, token, field, inner, hwaits, rfl, rfl⟩)
      · exact hu name extract hadded
      · exact hc.waiting k token field inner hwaits
    exact (c.extends_use u).blind hadds (hc.stores.deliverAll (c.gives u))
  waiting := by
    intro k token field extract hwaits
    rcases waits_of_use hwaits with hbefore | hadded
    · exact hc.waiting k token field extract hbefore
    · exact hu _ _ hadded

theorem Blind.useAll (hc : c.Blind o) {uses : List Use} (huses : ∀ u ∈ uses, u.Suits o) :
    (c.useAll uses).Blind o := by
  induction uses generalizing c with
  | nil => exact hc
  | cons u rest ih =>
    obtain ⟨hu, hrest⟩ := List.forall_mem_cons.mp huses
    exact ih (hc.use hu) hrest

end

/-! ## Two runs -/

/-- A call changes only by being polled. -/
theorem getElem?_calls_use {c : Cache} {id : Nat} {call : Call} (hcall : c.calls[id]? = some call)
    (u : Use) :
    u = .move (.act (.poll id)) ∧ (c.use u).calls[id]? = some (c.poll call).1 ∨
      u ≠ .move (.act (.poll id)) ∧ (c.use u).calls[id]? = some call := by
  have hentered {begun : Call × Cache} (hcalls : begun.2.calls = c.calls) :
      (entered begun).calls[id]? = some call := by
    show (begun.2.calls ++ [begun.1])[id]? = some call
    rw [hcalls, List.getElem?_append_left (List.getElem?_eq_some_iff.mp hcall).1, hcall]
  cases u with
  | move m =>
    rcases getElem?_calls_move hcall m with ⟨rfl, hpolled⟩ | ⟨hother, hsame⟩
    · exact Or.inl ⟨rfl, hpolled⟩
    · exact Or.inr ⟨fun heq => hother (Use.move.inj heq), hsame⟩
  | get t key =>
    exact Or.inr ⟨by simp, hentered (c.calls_ofType t fun k => c.calls_beginGet k key (some t))⟩
  | list t o =>
    exact Or.inr ⟨by simp, hentered (c.calls_ofType t fun k => c.calls_beginList k.list o (some t))⟩
  | informer t =>
    exact Or.inr ⟨by simp, hentered (c.calls_ofType t fun k => c.calls_begin (.informer k))⟩
  | index t field extract =>
    exact Or.inr ⟨by simp,
      hentered (c.calls_ofType t fun k => c.calls_begin (.index k field extract))⟩

/-- Two caches that differ in types only, and in which the calls of a number differ in types only.
If they wait to list, then with options of which `asked` holds. -/
structure Paired (asked : ListOptions → Prop) (c c' : Cache) (id : Nat) : Prop where
  cache : c.bare = c'.bare
  calls : ∃ call call', c.calls[id]? = some call ∧ c'.calls[id]? = some call' ∧
    call.bare = call'.bare ∧
    ∀ k token o type, call = .syncing k token (.list o type) → asked o

section

variable {asked : ListOptions → Prop} {c c' : Cache} {id : Nat}

theorem reply?_bare (call : Call) : call.bare.reply? = call.reply? := by cases call <;> rfl

theorem Paired.reply?_eq (h : Paired asked c c' id) : c.reply? id = c'.reply? id := by
  obtain ⟨call, call', hcall, hcall', hsame, -⟩ := h.calls
  rw [reply?_of_calls hcall, reply?_of_calls hcall', ← reply?_bare call, hsame, reply?_bare]

theorem eq_poll_of_bare {u : Use} (hu : u.bare = .move (.act (.poll id))) :
    u = .move (.act (.poll id)) := by
  cases u with
  | move m =>
    cases m with
    | act a =>
      cases a with
      | outside s | reconnect connector => cases hu
      | request r | poll other | step loop | addIndex k name extract => exact hu
    | subscribe topic | unsubscribe sub | receive sub | addIndex k name extract => cases hu
  | get t key | list t o | informer t | index t field extract => cases hu

/-- Polling the call, or anything else. -/
theorem Paired.use (h : Paired asked c c' id) (hblind : ∀ o, asked o → c.Blind o ∧ c'.Blind o)
    {u u' : Use} (hu : u.bare = u'.bare) : Paired asked (c.use u) (c'.use u') id where
  cache := bare_use h.cache hu
  calls := by
    obtain ⟨call, call', hcall, hcall', hsame, hasked⟩ := h.calls
    rcases getElem?_calls_use hcall u with ⟨rfl, hpolled⟩ | ⟨hother, hkept⟩
    · obtain rfl : u' = .move (.act (.poll id)) := eq_poll_of_bare hu.symm
      have hpolled' : (c'.use (.move (.act (.poll id)))).calls[id]? = some (c'.poll call').1 :=
        ((getElem?_calls_use hcall' _).resolve_right fun hother => hother.1 rfl).2
      have hlists : call.BlindIn c.hub ∧ call.BlindIn c'.hub := by
        constructor <;> rintro k token _ hsyncing o type rfl
        · exact (hblind o (hasked k token o type hsyncing)).1.stores
        · exact (hblind o (hasked k token o type hsyncing)).2.stores
      have htwins := twins_poll h.cache (Call.blank_eq_of_bare_eq hsame)
      refine ⟨_, _, hpolled, hpolled', htwins.answer.bare ⟨hsame, hlists⟩, ?_⟩
      intro k token o type hwaits
      exact hasked k token o type (eq_syncing_of_poll hwaits)
    · have hother' : u' ≠ .move (.act (.poll id)) := by
        rintro rfl
        exact hother (eq_poll_of_bare hu)
      have hkept' : (c'.use u').calls[id]? = some call' :=
        ((getElem?_calls_use hcall' u').resolve_left fun hpoll => hother' hpoll.1).2
      exact ⟨call, call', hkept, hkept', hsame, hasked⟩

theorem adds?_bare (u : Use) : u.bare.adds? = u.adds? := by
  cases u with
  | move m =>
    cases m with
    | act a => cases a <;> rfl
    | subscribe topic | unsubscribe sub | receive sub | addIndex k name extract => rfl
  | get t key | list t o | informer t | index t field extract => rfl

theorem Use.Suits.of_bare {u u' : Use} {o : ListOptions} (hsuits : u.Suits o)
    (hu : u.bare = u'.bare) : u'.Suits o := by
  intro name extract hadds
  refine hsuits name extract ?_
  rw [← adds?_bare u, hu, adds?_bare, hadds]

theorem suits_of_bare {o : ListOptions} {uses uses' : List Use}
    (hsame : uses.map Use.bare = uses'.map Use.bare) (hsuits : ∀ u ∈ uses, u.Suits o) :
    ∀ u ∈ uses', u.Suits o := by
  intro u' hu'
  have hmem : u'.bare ∈ uses.map Use.bare := hsame ▸ List.mem_map_of_mem hu'
  obtain ⟨u, hu, hbare⟩ := List.mem_map.mp hmem
  exact (hsuits u hu).of_bare hbare

theorem Paired.useAll (h : Paired asked c c' id) (hblind : ∀ o, asked o → c.Blind o ∧ c'.Blind o)
    {uses uses' : List Use} (huses : uses.map Use.bare = uses'.map Use.bare)
    (hsuits : ∀ o, asked o → ∀ u ∈ uses, u.Suits o) :
    Paired asked (c.useAll uses) (c'.useAll uses') id := by
  induction uses generalizing c c' uses' with
  | nil =>
    obtain rfl : uses' = [] := List.map_eq_nil_iff.mp huses.symm
    exact h
  | cons u rest ih =>
    obtain ⟨u', rest', rfl, hu, hrest⟩ := List.map_eq_cons_iff.mp huses.symm
    refine ih (h.use hblind hu.symm) (fun o ho => ?_) hrest.symm fun o ho v hv =>
      hsuits o ho v (List.mem_cons_of_mem u hv)
    have hfirst := hsuits o ho u List.mem_cons_self
    exact ⟨(hblind o ho).1.use hfirst, (hblind o ho).2.use (hfirst.of_bare hu.symm)⟩

/-- Calls that begin alike are the same but for types, and get the same number. -/
theorem paired_entered {blind : Prop} {begun begun' : Call × Cache} (h : Twins blind begun begun')
    (hblind : blind) (hcalls : begun.2.calls.length = id) (hcalls' : begun'.2.calls.length = id)
    (hasked : ∀ k token o type, begun.1 = .syncing k token (.list o type) → asked o) :
    Paired asked (entered begun) (entered begun') id where
  cache := bare_entered h
  calls := by
    refine ⟨begun.1, begun'.1, ?_, ?_, h.answer.bare hblind, hasked⟩
    · subst hcalls
      exact List.getElem?_concat_length
    · subst hcalls'
      exact List.getElem?_concat_length

end

/-! ## Construction -/

/-- What a cache is assembled from, but for its connector. -/
structure Plan where
  scheme : Scheme := {}
  options : CacheOptions := {}
  kinds : List Kind := []
  namespaces : List String := []
  selectors : List (Kind × LabelSelector) := []

/-- The cache that is assembled from a plan for a connector. -/
def Plan.build (p : Plan) (connector : Connector) : Answer Cache :=
  (addDedicatedAll { connector := connector, scheme := p.scheme, options := p.options } p.kinds).map
    fun c => p.selectors.foldl (fun c (k, s) => c.withSelector k s) (c.withNamespaces p.namespaces)

/-- Connectors that differ in types only make caches that differ in types only, or none. -/
theorem build_bare (p : Plan) (connector : Connector) :
    p.build connector.bare = (p.build connector).map bare := by
  let new : Cache := { connector := connector, scheme := p.scheme, options := p.options }
  have hselect (c : Cache) :
      p.selectors.foldl (fun c (k, s) => c.withSelector k s) (c.withNamespaces p.namespaces).bare =
        bare (p.selectors.foldl (fun c (k, s) => c.withSelector k s)
          (c.withNamespaces p.namespaces)) :=
    List.foldl_hom bare fun _ _ => rfl
  have hadd : new.bare.addDedicatedAll p.kinds = (new.addDedicatedAll p.kinds).map bare :=
    new.addDedicatedAll_bare p.kinds
  show (new.bare.addDedicatedAll p.kinds).map _ = _
  rw [hadd]
  show _ = ((new.addDedicatedAll p.kinds).map _).map bare
  cases new.addDedicatedAll p.kinds with
  | error e => rfl
  | ok c => exact congrArg Except.ok (hselect c)

/-- What adding dedicated kinds, namespaces and selectors keep, a plan brings about. -/
theorem Plan.build_keeps {P : Cache → Prop}
    (hadd : ∀ {c added : Cache} {k : Kind}, P c → c.addDedicated k = .ok added → P added)
    (hnamespaces : ∀ {c : Cache} (names : List String), P c → P (c.withNamespaces names))
    (hselector : ∀ {c : Cache} (k : Kind) (s : LabelSelector), P c → P (c.withSelector k s))
    {p : Plan} {connector : Connector} {c : Cache}
    (hnew : P { connector := connector, scheme := p.scheme, options := p.options })
    (hbuild : p.build connector = .ok c) : P c := by
  have hselect (selectors : List (Kind × LabelSelector)) {c : Cache} (hc : P c) :
      P (selectors.foldl (fun c chosen => c.withSelector chosen.1 chosen.2) c) := by
    induction selectors generalizing c with
    | nil => exact hc
    | cons first rest ih => exact ih (hselector _ _ hc)
  unfold Plan.build at hbuild
  cases hassembled : addDedicatedAll
      { connector := connector, scheme := p.scheme, options := p.options } p.kinds with
  | error e =>
    rw [hassembled] at hbuild
    cases hbuild
  | ok assembled =>
    rw [hassembled] at hbuild
    cases hbuild
    have hdedicated := addDedicatedAll_keeps hadd hnew hassembled
    exact hselect p.selectors (hnamespaces p.namespaces hdedicated)

/-- A cache that was just assembled has no index that looks at types. -/
theorem blind_build {p : Plan} {connector : Connector} {c : Cache}
    (hbuild : p.build connector = .ok c) (o : ListOptions) : c.Blind o := by
  have hempty : Blind { connector := connector, scheme := p.scheme, options := p.options } o :=
    ⟨fun id s hs => by simp [Hub.store?] at hs, fun _ _ _ _ hmem => absurd hmem List.not_mem_nil⟩
  refine Plan.build_keeps (P := fun c => c.Blind o) ?_ (fun _ hc => ⟨hc.stores, hc.waiting⟩)
    (fun _ _ hc => ⟨hc.stores, hc.waiting⟩) hempty hbuild
  intro c added k hc hadd
  rcases addDedicated_ok hadd with ⟨-, rfl⟩ | ⟨-, s, log, rfl⟩
  · exact hc
  · have hnew : ∀ cell ∈ [(⟨.new k, c.hub.topics.length⟩ : StoreCell)],
        ∃ k, cell.store = .new k := by
      intro cell hcell
      exact ⟨k, congrArg StoreCell.store (List.mem_singleton.mp hcell)⟩
    exact ⟨hc.stores.grow rfl hnew, hc.waiting⟩

/-- Reads by type are answered alike, whatever types the objects come with.

Two caches are assembled from one plan, for connectors that differ in types only.  They are then
used in the same way, for any time and in any order, but for the types of the objects in events
and of those that are fetched.  A read that is begun at some point in both has the same number in
both, and at any time after it either has no reply in both or the same one, be it from the store of
a dedicated kind, after a fetch, or through the fallback, at once or after a wait.

Lists by a field rely on the extractors that callers bring for the index of this field: they must
not look at types.  Those that read by a path do not, and no other read relies on any. -/
theorem typed_reads_ignore_types {p : Plan} {connector connector' : Connector}
    (hconnector : connector.bare = connector'.bare) {c c' : Cache}
    (hbuild : p.build connector = .ok c) (hbuild' : p.build connector' = .ok c')
    {before before' later later' : List Use} (hbefore : before.map Use.bare = before'.map Use.bare)
    (hlater : later.map Use.bare = later'.map Use.bare) (t : ResourceType) :
    let id := (c.useAll before).calls.length
    (c'.useAll before').calls.length = id ∧
    (∀ key, (c.useAll (before ++ .get t key :: later)).reply? id =
      (c'.useAll (before' ++ .get t key :: later')).reply? id) ∧
    ∀ o, (∀ u ∈ before ++ later, u.Suits o) →
      (c.useAll (before ++ .list t o :: later)).reply? id =
        (c'.useAll (before' ++ .list t o :: later')).reply? id := by
  intro id
  have hassembled : c.bare = c'.bare := by
    have hboth := (build_bare p connector).symm
    rw [hconnector, build_bare, hbuild, hbuild'] at hboth
    exact Except.ok.inj hboth
  let r := c.useAll before
  let r' := c'.useAll before'
  have hr : r.bare = r'.bare := bare_useAll hassembled hbefore
  have hlength : r'.calls.length = id := by
    have hcalls : r.calls.map Call.blank = r'.calls.map Call.blank := congrArg (·.calls) hr
    simpa using (congrArg List.length hcalls).symm
  have hrun (c : Cache) (before later : List Use) (u : Use) :
      c.useAll (before ++ u :: later) = ((c.useAll before).use u).useAll later := by
    simp [Cache.useAll]
  refine ⟨hlength, fun key => ?_, fun o hsuits => ?_⟩
  · have htwins := twins_ofType hr t fun k => twins_beginGet hr k key (some t)
    have hcalls (q : Cache) := q.calls_ofType t fun k => q.calls_beginGet k key (some t)
    have hpaired : Paired (fun _ => False) (r.use (.get t key)) (r'.use (.get t key)) id := by
      refine paired_entered htwins trivial (congrArg List.length (hcalls r))
        ((congrArg List.length (hcalls r')).trans hlength) fun k token o type hwaits => ?_
      obtain ⟨asked, hbegin⟩ := begin_of_ofType hwaits
      cases goal_of_beginGet hbegin
    rw [hrun, hrun]
    exact (hpaired.useAll (fun _ => False.elim) hlater fun _ => False.elim).reply?_eq
  · have hfirst : ∀ u ∈ before, u.Suits o := fun u hu => hsuits u (List.mem_append_left later hu)
    have hblind : r.Blind o ∧ r'.Blind o :=
      ⟨(blind_build hbuild o).useAll hfirst,
        (blind_build hbuild' o).useAll (suits_of_bare hbefore hfirst)⟩
    have htwins := twins_ofType hr t fun k => twins_beginList hr k.list o (some t)
    have hcalls (q : Cache) := q.calls_ofType t fun k => q.calls_beginList k.list o (some t)
    have hpaired : Paired (· = o) (r.use (.list t o)) (r'.use (.list t o)) id := by
      refine paired_entered htwins ⟨hblind.1.stores, hblind.2.stores⟩
        (congrArg List.length (hcalls r)) ((congrArg List.length (hcalls r')).trans hlength)
        fun k token o' type hwaits => ?_
      obtain ⟨asked, hbegin⟩ := begin_of_ofType hwaits
      cases goal_of_beginList hbegin
      rfl
    have hlists : ∀ o', o' = o →
        (r.use (.list t o)).Blind o' ∧ (r'.use (.list t o)).Blind o' := by
      rintro _ rfl
      exact ⟨hblind.1.use (suits_list t _ _), hblind.2.use (suits_list t _ _)⟩
    have hrest : ∀ o', o' = o → ∀ u ∈ later, u.Suits o' := by
      rintro _ rfl u hu
      exact hsuits u (List.mem_append_right before hu)
    rw [hrun, hrun]
    exact (hpaired.useAll hlists hlater hrest).reply?_eq

/-- Objects come as widgets of an unknown version.  Readers are given resources of their types all
the same: from the store of a dedicated kind, after a fetch, by a list over an index, and from an
informer that was still syncing when they asked. -/
theorem typed_reads_ignore_types_on_each_path :
    let object (name : String) (types : Option TypeMeta) : Object :=
      { types := types
        metadata := { name := some name, ns := some "ops" }
        body := [("immutable", .bool true)] }
    let connector (types : Option TypeMeta) : Connector :=
      { isNamespaced := fun _ => .ok true
        watchSource := fun _ _ _ => .ok .newChannel
        fetcher := fun _ => .ok ()
        fetch := fun _ _ key => { answer := .ok (object key.name types) } }
    let plan : Plan :=
      { scheme := (Scheme.register {} .configMap).register .secret
        kinds := [ResourceType.configMap.kind] }
    let key (name : String) : ObjectKey := ⟨some "ops", name⟩
    let fixed : ListOptions := { fields := some (.oneEqual "immutable" "true") }
    let start : Use := .move (.act (.request (.start "main")))
    let step (loop : Nat) : Use := .move (.act (.step loop))
    let poll (id : Nat) : Use := .move (.act (.poll id))
    let feed (source : Nat) (o : Object) : Use :=
      .move (.act (.outside (.feed source (.restarted [o]))))
    let warm (types : Option TypeMeta) : List Use :=
      [start, .index .configMap "immutable" (Object.field "immutable"),
        feed 0 (object "c1" types), step 0, step 0]
    let rest (types : Option TypeMeta) : List Use :=
      [feed 1 (object "s1" types), step 1, step 1, poll 1]
    let resource (kind name : String) : Json :=
      .object [("apiVersion", .string "v1"), ("immutable", .bool true), ("kind", .string kind),
        ("metadata", .object [("name", .string name), ("namespace", .string "ops")])]
    let strange : Option TypeMeta := some ⟨"example.io/v9", "Widget"⟩
    ∃ c, plan.build (connector strange) = .ok c ∧
      (c.useAll (warm strange ++ [.get .configMap (key "c1")])).reply? 2 =
        some (.resource (resource "ConfigMap" "c1")) ∧
      (c.useAll (warm strange ++ [.get .configMap (key "c2"), poll 2])).reply? 2 =
        some (.resource (resource "ConfigMap" "c2")) ∧
      (c.useAll (warm strange ++ [.list .configMap fixed])).reply? 2 =
        some (.resources [resource "ConfigMap" "c1"]) ∧
      (c.useAll ([start] ++ .get .secret (key "s1") :: rest strange)).reply? 1 =
        some (.resource (resource "Secret" "s1")) := by
  intro object connector plan key fixed start step poll feed warm rest resource strange
  -- the same without types
  obtain ⟨c, hbuild, hwarmed, hstarted, hhit, hrefill, hlist, hsynced⟩ :
      ∃ c, plan.build (connector none) = .ok c ∧
        (c.useAll (warm none)).calls.length = 2 ∧ (c.useAll [start]).calls.length = 1 ∧
        (c.useAll (warm none ++ [.get .configMap (key "c1")])).reply? 2 =
          some (.resource (resource "ConfigMap" "c1")) ∧
        (c.useAll (warm none ++ [.get .configMap (key "c2"), poll 2])).reply? 2 =
          some (.resource (resource "ConfigMap" "c2")) ∧
        (c.useAll (warm none ++ [.list .configMap fixed])).reply? 2 =
          some (.resources [resource "ConfigMap" "c1"]) ∧
        (c.useAll ([start] ++ .get .secret (key "s1") :: rest none)).reply? 1 =
          some (.resource (resource "Secret" "s1")) :=
    ⟨_, rfl, rfl, rfl, by decide +kernel, by decide +kernel, by decide +kernel, by decide +kernel⟩
  obtain ⟨c', hbuild'⟩ : ∃ c', plan.build (connector strange) = .ok c' := ⟨_, rfl⟩
  have hconnector : (connector strange).bare = (connector none).bare := rfl
  have hwarm : (warm strange).map Use.bare = (warm none).map Use.bare := rfl
  have hrest : (rest strange).map Use.bare = (rest none).map Use.bare := rfl
  have hsuits : ∀ u ∈ warm strange ++ [], u.Suits fixed := by
    intro u hu
    simp only [warm, List.append_nil, List.mem_cons, List.not_mem_nil, or_false] at hu
    rcases hu with rfl | rfl | rfl | rfl | rfl
    case inr.inl => exact suits_index_iff.mpr (fixed.blindAt_of_blind _ (Extractor.blind_field _))
    all_goals
      intro name extract hadds
      cases hadds
  obtain ⟨hid, hget, hlists⟩ :=
    typed_reads_ignore_types hconnector hbuild' hbuild hwarm (rfl : [].map _ = [].map _) .configMap
  obtain ⟨-, hfetch, -⟩ := typed_reads_ignore_types hconnector hbuild' hbuild hwarm
    (rfl : [poll 2].map _ = [poll 2].map _) .configMap
  obtain ⟨hid', hwait, -⟩ := typed_reads_ignore_types hconnector hbuild' hbuild
    (rfl : [start].map _ = [start].map _) hrest .secret
  rw [← hid, hwarmed] at hget hfetch hlists
  rw [← hid', hstarted] at hwait
  exact ⟨c', hbuild', (hget _).trans hhit, (hfetch _).trans hrefill,
    (hlists fixed hsuits).trans hlist,
    (hwait _).trans hsynced⟩

/-- Types that do reach readers by type.  An extractor that a caller brings for an index may look at
them, and a list by the index then depends on them.  And an object that is sent with an `apiVersion`
that is no text has no type, but its `kind` stays with its body, where no reader of its kind
accepts it. -/
theorem typed_reads_that_depend_on_types :
    let plan : Plan :=
      { scheme := Scheme.register {} .configMap, kinds := [ResourceType.configMap.kind] }
    let connector : Connector :=
      { isNamespaced := fun _ => .ok true
        watchSource := fun _ _ _ => .ok .newChannel
        fetcher := fun _ => .ok ()
        fetch := fun _ k key => { answer := .error (.notFound k.key key.text) } }
    let claimed : Extractor := fun o => (o.types.map TypeMeta.kind).toList
    let uses (o : Object) : List Use :=
      [.move (.act (.request (.start "main"))), .index .configMap "kind" claimed,
        .move (.act (.step 0)), .move (.act (.outside (.feed 0 (.restarted [o])))),
        .move (.act (.step 0))]
    let sent (apiVersion : Json) : Option Object :=
      Object.ofJson? (.object [("apiVersion", apiVersion), ("kind", .string "Gadget"),
        ("metadata", .object [("name", .string "c")])])
    let get : Use := .get .configMap ⟨none, "c"⟩
    let list : Use := .list .configMap { fields := some (.oneEqual "kind" "Gadget") }
    let resource : Json := .object [("apiVersion", .string "v1"), ("kind", .string "ConfigMap"),
      ("metadata", .object [("name", .string "c")])]
    let plain : Object := { metadata := { name := some "c" } }
    ∃ c typed untyped, plan.build connector = .ok c ∧
      sent (.string "example.io/v9") = some typed ∧ sent (.number (.integer 5)) = some untyped ∧
      (uses typed).map Use.bare = (uses plain).map Use.bare ∧
      (c.useAll (uses typed ++ [list])).reply? 2 = some (.resources [resource]) ∧
      (c.useAll (uses plain ++ [list])).reply? 2 = some (.resources []) ∧
      (c.useAll (uses typed ++ [get])).reply? 2 = some (.resource resource) ∧
      (c.useAll (uses untyped ++ [get])).reply? 2 = some (.failed (.decode
        "ConfigMap: invalid value: string \"Gadget\", expected ConfigMap")) := by
  intro plan connector claimed uses sent get list resource plain
  exact ⟨_, _, _, rfl, rfl, rfl, rfl, by decide +kernel, by decide +kernel, by decide +kernel,
    by decide +kernel⟩

end Cache

end WatchCache
