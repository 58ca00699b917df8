import WatchCache.Proofs.Cache.Unseen

set_option autoImplicit false

/-!
# Dedicated kinds and the fallback

A kind is read from its dedicated store or from an informer, and never from both.  A request goes
to the fallback if its identifier is not registered; a list identifier is turned into the kind that
it belongs to only then, and that kind is not registered either, since a dedicated kind is always
registered together with its list identifier.  What the fallback does for other identifiers has
nothing to do with the dedicated stores: it leaves them alone, and it does not look at them.
-/

namespace WatchCache

/-- An identifier that is neither the kind of an entry nor its list identifier. -/
def Registry.Foreign (r : Registry) (k : Kind) : Prop :=
  ∀ e ∈ r.entries, e.kind ≠ k ∧ e.kind.list ≠ k

section

variable {r : Registry} {k : Kind} {e : Entry}

/-- An identifier that is not registered does not belong to a dedicated kind, however it is
read. -/
theorem Registry.Sound.item_ne (hr : r.Sound) (hk : r.contains k = false) (he : e ∈ r.entries) :
    k.item ≠ e.kind := by
  intro hitem
  cases hlist : k.isList with
  | false =>
    rw [(Kind.item_eq_self_iff k).mpr hlist] at hitem
    cases hk.symm.trans (hitem ▸ hr.contains he)
  | true =>
    obtain ⟨j, hname, rfl⟩ := (Kind.isList_iff k).mp hlist
    rw [Kind.item_list hname] at hitem
    subst hitem
    cases hk.symm.trans ((r.contains_iff _).mpr ⟨e, hr.lists e he⟩)

theorem Registry.Sound.lookup_of_foreign (hr : r.Sound) (hforeign : r.Foreign k) :
    r.lookup k = none := by
  cases hlookup : r.lookup k with
  | none => rfl
  | some e =>
    obtain ⟨he, hwhich⟩ := hr.found k e hlookup
    obtain ⟨hkind, hlist⟩ := hforeign e he
    exact absurd hwhich (not_or.mpr ⟨hkind, hlist⟩)

end

namespace Cache

section

variable {c : Cache} {k : Kind} {e : Entry}

/-- No request is for the fallback if it is for a dedicated kind. -/
theorem asks_ne_entry (hr : c.registry.Sound) (he : e ∈ c.registry.entries) (r : Request)
    (goal : Goal) : c.asks r ≠ some (e.kind, goal) := by
  have hself {kind : Kind} (hno : ¬c.registry.contains kind = true) : kind ≠ e.kind := by
    rintro rfl
    exact hno (hr.contains he)
  intro hasks
  cases r with
  | get kind key =>
    obtain ⟨hno, hsome⟩ := Option.ite_none_left_eq_some.mp hasks
    exact hself hno (congrArg Prod.fst (Option.some.inj hsome))
  | list kind o =>
    obtain ⟨hno, hsome⟩ := Option.ite_none_left_eq_some.mp hasks
    refine hr.item_ne ((Bool.not_eq_true _).mp hno) he ?_
    exact congrArg Prod.fst (Option.some.inj hsome)
  | informer kind =>
    obtain ⟨hno, hsome⟩ := Option.ite_none_left_eq_some.mp hasks
    exact hself hno (congrArg Prod.fst (Option.some.inj hsome))
  | index kind field extract =>
    obtain ⟨hno, hsome⟩ := Option.ite_none_left_eq_some.mp hasks
    exact hself hno (congrArg Prod.fst (Option.some.inj hsome))
  | start token => cases hasks
  | waitForSync token => cases hasks

/-- Requests that name an identifier which is not registered are all for the fallback. -/
theorem exists_asks (hlookup : c.registry.lookup k = none) {r : Request}
    (hkind : r.kind? = some k) : ∃ kind goal, c.asks r = some (kind, goal) := by
  have hno := (c.registry.contains_eq_false_iff k).mpr hlookup
  cases r with
  | get kind key =>
    cases hkind
    exact ⟨k, .get key none, by simp [asks, hno]⟩
  | list kind o =>
    cases hkind
    exact ⟨k.item, .list o none, by simp [asks, hno]⟩
  | informer kind =>
    cases hkind
    exact ⟨k, .informer, by simp [asks, hno]⟩
  | index kind field extract =>
    cases hkind
    exact ⟨k, .index field extract, by simp [asks, hno]⟩
  | start token => cases hkind
  | waitForSync token => cases hkind

/-! ## Waits for informers -/

/-- A call that waits for an informer when it was polled has waited for it before. -/
theorem eq_syncing_of_poll {call : Call} {token : Token} {goal : Goal}
    (hpolled : (c.poll call).1 = .syncing k token goal) : call = .syncing k token goal := by
  have hfallback (stores : List Nat) (other : Token) :
      c.pollFallback stores other ≠ .syncing k token goal := by
    unfold pollFallback
    split <;> simp
  cases call with
  | syncing kind token' goal' =>
    rcases hpoll : c.poll (.syncing kind token' goal') with ⟨next, polled⟩
    rw [hpoll] at hpolled
    cases polled_of_poll hpoll with
    | waits _ => exact hpolled
    | stops _ _ => cases hpolled
    | reaches _ _ => cases hpolled
  | finished reply => cases hpolled
  | running token' =>
    rw [poll] at hpolled
    split at hpolled <;> cases hpolled
  | fetching kind due answer type =>
    rw [poll] at hpolled
    split at hpolled <;> cases hpolled
  | awaitingFallback stores token' => exact absurd hpolled (hfallback stores token')
  | awaitingDedicated token' =>
    rw [poll] at hpolled
    split at hpolled
    · cases hpolled
    · cases hpolled
    · exact absurd hpolled (hfallback c.fallbackStores token')

/-- A call that begins to wait for an informer is for the fallback. -/
theorem asks_of_begin {r : Request} {token : Token} {goal : Goal}
    (hbegin : (c.begin r).1 = .syncing k token goal) : c.asks r = some (k, goal) := by
  cases hasks : c.asks r with
  | some question =>
    obtain ⟨kind, other⟩ := question
    have hbegun := begun_of_asks hasks
    rcases hcall : c.begin r with ⟨call, begun⟩
    rw [hcall] at hbegun hbegin
    cases hbegun with
    | fails _ _ => cases hbegin
    | waits _ _ _ =>
      cases hbegin
      rfl
    | reaches _ _ => cases hbegin
  | none =>
    cases r with
    | get kind key =>
      obtain ⟨entry, hentry⟩ := exists_lookup hasks rfl
      simp only [begin, beginGet, hentry] at hbegin
      split at hbegin <;> cases hbegin
    | list kind o =>
      obtain ⟨entry, hentry⟩ := exists_lookup hasks rfl
      simp only [begin, beginList, hentry] at hbegin
      cases hbegin
    | informer kind =>
      obtain ⟨entry, hentry⟩ := exists_lookup hasks rfl
      simp only [begin, beginInformer, hentry] at hbegin
      cases hbegin
    | index kind field extract =>
      obtain ⟨entry, hentry⟩ := exists_lookup hasks rfl
      simp only [begin, beginIndex, hentry] at hbegin
      cases hbegin
    | start other => cases hbegin
    | waitForSync other => cases hbegin

/-- A call waits for the informer of a kind only if it began with a request for the kind. -/
theorem syncing_act {token : Token} {goal : Goal} {a : Act}
    (hcall : .syncing k token goal ∈ (c.act a).calls) :
    .syncing k token goal ∈ c.calls ∨ ∃ r, c.asks r = some (k, goal) := by
  cases a with
  | request r =>
    rw [calls_act_request] at hcall
    rcases List.mem_append.mp hcall with hold | hnew
    · exact Or.inl hold
    · exact Or.inr ⟨r, asks_of_begin (List.mem_singleton.mp hnew).symm⟩
  | poll id =>
    simp only [act] at hcall
    split at hcall
    · next call hfound =>
      rw [withCalls, calls_poll] at hcall
      rcases List.mem_or_eq_of_mem_set hcall with hold | hnew
      · exact Or.inl hold
      · rw [← eq_syncing_of_poll hnew.symm]
        exact Or.inl (List.mem_of_getElem? hfound)
    · exact Or.inl hcall
  | step loop => exact Or.inl hcall
  | outside s => exact Or.inl hcall
  | addIndex kind name extract =>
    simp only [act] at hcall
    split at hcall <;> exact Or.inl hcall
  | reconnect connector => exact Or.inl hcall

end

/-! ## Runs -/

section

variable {c : Cache} {e : Entry}

/-- Nothing is there in the fallback for a dedicated kind. -/
theorem nothing_in_fallback (hunused : c.Unused) (he : e ∈ c.registry.entries) (acts : List Act) :
    (c.run acts).informers.find? e.kind = none ∧
      (c.run acts).watchLog.filter (·.kind = e.kind) = c.watchLog.filter (·.kind = e.kind) ∧
      (∀ token goal, .syncing e.kind token goal ∉ (c.run acts).calls) ∧
      ∀ r goal, (c.run acts).asks r ≠ some (e.kind, goal) := by
  have hnever (acts : List Act) (r : Request) (goal : Goal) :
      (c.run acts).asks r ≠ some (e.kind, goal) := by
    have hregistry := registry_run hunused.sound acts
    exact asks_ne_entry (hregistry.symm ▸ hunused.registry_sound) (hregistry.symm ▸ he) r goal
  refine ⟨?_, ?_, ?_, hnever acts⟩
  · cases hfind : (c.run acts).informers.find? e.kind with
    | none => rfl
    | some i =>
      have hnone : c.informers.find? e.kind = none := by
        rw [hunused.informers]
        rfl
      obtain ⟨before, r, goal, -, -, -, hasks, -⟩ := exists_making hunused.sound hnone hfind
      exact absurd hasks (hnever before r goal)
  · induction acts using List.reverseRecOn with
    | nil => rfl
    | append_singleton acts a ih =>
      rw [run_concat, ← ih]
      exact watchLog_act_of_unasked (sound_run hunused.sound acts) fun r goal _ hasks =>
        absurd hasks (hnever acts r goal)
  · induction acts using List.reverseRecOn with
    | nil =>
      rw [run_nil, hunused.calls]
      exact fun _ _ => List.not_mem_nil
    | append_singleton acts a ih =>
      intro token goal hmem
      rw [run_concat] at hmem
      rcases syncing_act hmem with hold | ⟨r, hasks⟩
      · exact ih token goal hold
      · exact hnever acts r goal hasks

end

/-- The acts of a call on an identifier, each with the acts before it: the request, and the polls
of the call that it began. -/
inductive Concerns (c : Cache) (k : Kind) : List Act → Act → Prop
  | request {before : List Act} {r : Request} (hkind : r.kind? = some k) :
      Concerns c k before (.request r)
  | poll {first middle : List Act} {r : Request} (hkind : r.kind? = some k) :
      Concerns c k (first ++ .request r :: middle) (.poll (c.run first).calls.length)

/-- Every kind has one read path.

Whatever was asked of a cache, and whatever happened to it: for a dedicated kind there is no
informer, no source was asked for since the construction, no call waits for an informer, and no
request whatever would go to the fallback for it.  A call on an identifier that is neither a
dedicated kind nor the list identifier of one leaves the dedicated stores as they are and fetches
nothing, when it begins and whenever it is polled; and it does not depend on the dedicated stores:
if other objects, indices or flags were in them, it would become of the rest of the cache what
becomes of it now. -/
theorem read_paths_are_exclusive {c : Cache} (hunused : c.Unused) (acts : List Act) :
    let last := c.run acts
    (∀ e ∈ c.registry.entries,
      last.informers.find? e.kind = none ∧
      last.watchLog.filter (·.kind = e.kind) = c.watchLog.filter (·.kind = e.kind) ∧
      (∀ token goal, .syncing e.kind token goal ∉ last.calls) ∧
      ∀ r goal, last.asks r ≠ some (e.kind, goal)) ∧
    ∀ k a, c.registry.Foreign k → c.Concerns k acts a →
      (∀ e ∈ c.registry.entries,
        (last.act a).hub.stores[e.store]? = last.hub.stores[e.store]?) ∧
      (last.act a).fetchLog = last.fetchLog ∧
      ∀ other, SameAbove c.hub.stores.length last other →
        SameAbove c.hub.stores.length (last.act a) (other.act a) := by
  intro last
  refine ⟨fun e he => nothing_in_fallback hunused he acts, fun k a hforeign hconcerns => ?_⟩
  have hs := sound_run hunused.sound acts
  have hlookup (before : List Act) : (c.run before).registry.lookup k = none := by
    rw [registry_run hunused.sound before]
    exact hunused.registry_sound.lookup_of_foreign hforeign
  have hspared (ha : Spares last.registry a) : ∀ e ∈ c.registry.entries,
      (last.act a).hub.stores[e.store]? = last.hub.stores[e.store]? := by
    intro e he
    exact (spared_act hs ha).cells e.store (hunused.dedicated.entries e he)
  cases hconcerns with
  | @request _ r hkind =>
    obtain ⟨kind, goal, hasks⟩ := exists_asks (hlookup acts) hkind
    refine ⟨hspared ?_, ?_, fun other hsame => (hsame.request hs hasks).2⟩
    · cases r with
      | index kind' field extract =>
        cases hkind
        exact (Registry.contains_eq_false_iff _ k).mpr (hlookup acts)
      | get _ _ | list _ _ | informer _ => trivial
      | start _ | waitForSync _ => cases hkind
    · exact fetchLog_fallback hasks
  | @poll first middle r hkind =>
    obtain ⟨kind, goal, hasks⟩ := exists_asks (hlookup first) hkind
    obtain ⟨call, hcall, hhow⟩ := call_of_request hasks middle
    refine ⟨hspared trivial, ?_, fun other hsame => hsame.poll hs hcall (k := kind) ?_⟩
    · have hpoll : (last.act (.poll (c.run first).calls.length)).fetchLog =
          (last.poll call).2.fetchLog := by
        simp only [act, show last.calls[(c.run first).calls.length]? = some call from hcall]
        rfl
      rw [hpoll]
      exact fetchLog_poll last call
    · rcases hhow with hfinished | ⟨token, heq, -⟩
      · exact Or.inl hfinished
      · exact Or.inr ⟨token, goal, heq⟩

/-- A dedicated kind whose name ends like a list identifier, beside the kind whose list identifier
has this name: lists of both, and then a read of the other kind. -/
theorem read_paths_are_exclusive_for_a_kind_named_list :
    let allow : Kind := ⟨"example.io", "v1", "Allow"⟩
    let allowList : Kind := ⟨"example.io", "v1", "AllowList"⟩
    let new : Cache :=
      { connector := Script.connector { kinds := [(allow, true), (allowList, true)] } }
    let acts : List Act := [.request (.list allowList {}), .request (.list allow {}),
      .request (.start "main")]
    let read : Act := .request (.get allow ⟨some "ops", "a"⟩)
    ∃ c : Cache, new.addDedicatedAll [allowList] = .ok c ∧ c.Unused ∧
      (c.run acts).informers.find? allowList = none ∧
      (c.run acts).informers.find? allow = some ⟨allow, false, 1, [⟨none, 1, 1⟩]⟩ ∧
      (∀ r goal, (c.run acts).asks r ≠ some (allowList, goal)) ∧
      c.registry.Foreign allow ∧ c.Concerns allow acts read ∧
      ((c.run acts).act read).hub.stores[0]? = (c.run acts).hub.stores[0]? ∧
      ((c.run acts).act read).fetchLog = (c.run acts).fetchLog := by
  intro allow allowList new acts read
  obtain ⟨c, hbuilt, hentries, hallow⟩ : ∃ c, new.addDedicatedAll [allowList] = .ok c ∧
      c.registry.entries = [⟨allowList, 0, 0, 0⟩] ∧
      (c.run acts).informers.find? allow = some ⟨allow, false, 1, [⟨none, 1, 1⟩]⟩ :=
    ⟨_, rfl, by decide +kernel, by decide +kernel⟩
  have hunused : c.Unused := (unused_new _ {} {}).addDedicatedAll hbuilt
  have hentry : (⟨allowList, 0, 0, 0⟩ : Entry) ∈ c.registry.entries :=
    hentries ▸ List.mem_singleton_self _
  have hforeign : c.registry.Foreign allow := by
    intro e he
    rw [hentries] at he
    rw [List.mem_singleton.mp he]
    exact ⟨by decide, by decide +kernel⟩
  have hconcerns : c.Concerns allow acts read := .request rfl
  obtain ⟨hdedicated, hother⟩ := read_paths_are_exclusive hunused acts
  obtain ⟨hnone, -, -, hnever⟩ := hdedicated _ hentry
  obtain ⟨hstores, hlog, -⟩ := hother allow read hforeign hconcerns
  exact ⟨c, hbuilt, hunused, hnone, hallow, hnever, hforeign, hconcerns, hstores _ hentry, hlog⟩

end Cache

end WatchCache
