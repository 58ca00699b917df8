import WatchCache.Proofs.Cache.Entries
import WatchCache.Proofs.Cache.Rest
import WatchCache.Proofs.Cache.Synced
import WatchCache.Proofs.Hub.Channel

set_option autoImplicit false

/-!
# Waiting for all stores

A store is synced from its first full listing on.  A wait for the cache waits for the dedicated
stores one after the other and then *turns* to the fallback: it notes the stores that the
informers have at that moment, and waits for these.  Since no store ever stops being synced, all of
them are synced when the wait ends well, in whatever order their listings came.
-/

namespace WatchCache

/-! ## When a store is synced -/

namespace Store

theorem synced_after_iff (s : Store) (call : Call) :
    (s.after call).synced = true ↔
      s.synced = true ∨ ∃ objects, call = .apply (.restarted objects) := by
  have hadd (name : String) (extract : Extractor) :
      (s.after (.addIndex name extract)).synced = s.synced := by
    simp only [after, perform, addIndex_eq]
    cases s.indexer.addIndex name extract <;> rfl
  cases call with
  | apply e => cases e <;> simp [after, perform, Store.apply]
  | indexField field extract =>
    have hsame : (s.after (.indexField field extract)).synced = s.synced :=
      hadd (fieldIndex field) (doubled extract)
    simp [hsame]
  | addIndex name extract => simp [hadd]

/-- A store is synced if a full listing was among the calls on it. -/
theorem synced_run_iff (kind : Kind) (calls : List Call) :
    (run kind calls).synced = true ↔ ∃ objects, .apply (.restarted objects) ∈ calls := by
  induction calls using List.reverseRecOn with
  | nil => simp [run, Store.new]
  | append_singleton calls call ih =>
    rw [run_concat, synced_after_iff, ih]
    constructor
    · rintro (⟨objects, hmem⟩ | ⟨objects, rfl⟩)
      · exact ⟨objects, List.mem_append_left _ hmem⟩
      · exact ⟨objects, List.mem_append_right _ List.mem_cons_self⟩
    · rintro ⟨objects, hmem⟩
      rcases List.mem_append.mp hmem with hold | hnew
      · exact Or.inl ⟨objects, hold⟩
      · exact Or.inr ⟨objects, (List.mem_singleton.mp hnew).symm⟩

end Store

theorem Hub.Told.isSynced_iff {h : Hub} {ledger : List Delivery} {kind : Kind} {stores : List Nat}
    {extractors : Store.Extractors} (htold : h.Told ledger kind stores extractors) {id : Nat}
    (hid : id ∈ stores) :
    h.isSynced id = true ↔ ∃ objects, .restarted objects ∈ eventsFor id ledger := by
  obtain ⟨s, hs, hstore⟩ := htold id hid
  rw [isSynced, hs, Option.any_some, hstore.synced_iff, List.any_eq_true]
  constructor
  · rintro ⟨e, he, hlisting⟩
    obtain ⟨objects, rfl⟩ := e.isListing_iff.mp hlisting
    exact ⟨objects, he⟩
  · rintro ⟨objects, hmem⟩
    exact ⟨_, hmem, rfl⟩

namespace Cache

/-- A store that a dedicated kind or an informer has. -/
def Serving (c : Cache) (id : Nat) : Prop :=
  (∃ e ∈ c.registry.entries, e.store = id) ∨
    ∃ k i, c.informers.find? k = some i ∧ id ∈ i.stores

theorem mem_fallbackStores {floor : Nat} {c : Cache} (hs : c.setup.Sound floor) (id : Nat) :
    id ∈ c.fallbackStores ↔ ∃ k i, c.informers.find? k = some i ∧ id ∈ i.stores := by
  rw [fallbackStores, List.mem_flatMap]
  constructor
  · rintro ⟨i, hi, hid⟩
    obtain ⟨⟨k, j⟩, hmem, rfl⟩ := List.mem_map.mp hi
    exact ⟨k, j, hs.distinct.find?_of_mem hmem, hid⟩
  · rintro ⟨k, i, hfind, hid⟩
    exact ⟨i, List.mem_map_of_mem (Table.mem_of_find? hfind), hid⟩

section

variable {c : Cache} {id store : Nat} {token : Token}

/-- A store serves for good. -/
theorem Serving.later (hunused : c.Unused) {acts : List Act} (hserving : (c.run acts).Serving id)
    (more : List Act) : (c.run (acts ++ more)).Serving id := by
  have hs := sound_run hunused.sound acts
  rw [run_append]
  rcases hserving with ⟨e, he, rfl⟩ | ⟨k, i, hfind, hid⟩
  · refine Or.inl ⟨e, ?_, rfl⟩
    rw [registry_run hs more]
    exact he
  · exact Or.inr ⟨k, i, find?_run hs hfind more, hid⟩

theorem isSynced_iff_of_serving (hunused : c.Unused) {acts : List Act}
    (hserving : (c.run acts).Serving id) :
    (c.run acts).hub.isSynced id = true ↔
      ∃ objects, .restarted objects ∈ Hub.eventsFor id (c.ledger acts) := by
  rcases hserving with ⟨e, he, rfl⟩ | ⟨k, i, hfind, hid⟩
  · obtain ⟨extractors, hhub⟩ := entriesTold_run hunused acts e he
    exact hhub.isSynced_iff List.mem_cons_self
  · obtain ⟨extractors, hhub⟩ := told_run hunused.toFresh acts k i hfind
    exact hhub.isSynced_iff hid

/-- No store stops being synced. -/
theorem isSynced_later (hunused : c.Unused) {acts : List Act} (hserving : (c.run acts).Serving id)
    (hsynced : (c.run acts).hub.isSynced id = true) (more : List Act) :
    (c.run (acts ++ more)).hub.isSynced id = true := by
  obtain ⟨objects, hmem⟩ := (isSynced_iff_of_serving hunused hserving).mp hsynced
  rw [isSynced_iff_of_serving hunused (hserving.later hunused more), ledger_append,
    Hub.eventsFor_append]
  exact ⟨objects, List.mem_append_left _ hmem⟩

/-- No token stops being cancelled. -/
theorem isCancelled_act {floor : Nat} (hs : c.setup.Sound floor)
    (hcancelled : c.hub.isCancelled token = true) (a : Act) :
    (c.act a).hub.isCancelled token = true := by
  have hsame {h : Hub} (heq : h.cancelled = c.hub.cancelled) : h.isCancelled token = true :=
    (Hub.isCancelled_congr heq token).trans hcancelled
  rcases spares_or_stirs hs a with hspares | hstirs
  · exact hsame (spared_act hs hspares).cancelled
  · generalize (c.act a).hub = h at hstirs
    cases hstirs with
    | step loop => exact (c.hub.isCancelled_stepOnce loop token).trans hcancelled
    | outside s => exact Hub.isCancelled_meet hcancelled s
    | first _ => exact hcancelled
    | again _ => exact hcancelled
    | @index k field extract entry hlookup =>
      refine hsame ?_
      unfold Hub.tryStore
      split
      · rfl
      · split <;> rfl

/-! ## The wait -/

/-- The wait of a call turns to the fallback when it is polled now: all dedicated stores are
synced, and it goes on to the stores that the informers have now. -/
structure Turns (c : Cache) (id : Nat) (token : Token) : Prop where
  call : c.calls[id]? = some (.awaitingDedicated token)
  synced : c.hub.synced? token (c.registry.entries.map Entry.store) = some true

/-- How far a wait has come: it waits for the dedicated stores, or has turned to the fallback and
waits for the stores that this had then, or has ended. -/
inductive Awaits (c : Cache) (acts : List Act) (id : Nat) (token : Token) : Call → Prop
  | dedicated : Awaits c acts id token (.awaitingDedicated token)
  | fallback {first rest : List Act} (hacts : acts = first ++ .poll id :: rest)
      (hturns : (c.run first).Turns id token) :
      Awaits c acts id token (.awaitingFallback (c.run first).fallbackStores token)
  | cancelled (hcancelled : (c.run acts).hub.isCancelled token = true) :
      Awaits c acts id token (.finished (.flag false))
  | synced {first rest : List Act} (hacts : acts = first ++ .poll id :: rest)
      (hturns : (c.run first).Turns id token)
      (hall : ∀ store ∈ (c.run first).fallbackStores, (c.run acts).hub.isSynced store = true) :
      Awaits c acts id token (.finished (.flag true))

/-- The stores that informers have keep serving. -/
theorem serving_of_fallbackStores (hunused : c.Unused) {first : List Act}
    (hstore : store ∈ (c.run first).fallbackStores) : (c.run first).Serving store :=
  Or.inr ((mem_fallbackStores (sound_run hunused.sound first) store).mp hstore)

/-- A wait gets no further by acts other than its own polls. -/
theorem Awaits.act (hunused : c.Unused) {acts : List Act} {call : Call}
    (hawaits : Awaits c acts id token call) (a : Act) : Awaits c (acts ++ [a]) id token call := by
  have hmore {first rest : List Act} (hacts : acts = first ++ .poll id :: rest) :
      acts ++ [a] = first ++ .poll id :: (rest ++ [a]) := by simp [hacts]
  cases hawaits with
  | dedicated => exact .dedicated
  | fallback hacts hturns => exact .fallback (hmore hacts) hturns
  | cancelled hcancelled =>
    refine .cancelled ?_
    rw [run_concat]
    exact isCancelled_act (sound_run hunused.sound acts) hcancelled a
  | @synced first rest hacts hturns hall =>
    refine .synced (hmore hacts) hturns fun store hstore => ?_
    have hserving : (c.run acts).Serving store := by
      rw [hacts]
      exact (serving_of_fallbackStores hunused hstore).later hunused _
    exact isSynced_later hunused hserving (hall store hstore) [a]

/-- A wait for the stores that the fallback had when it turned to them is polled. -/
theorem awaits_pollFallback {acts first rest : List Act}
    (hacts : acts ++ [.poll id] = first ++ .poll id :: rest) (hturns : (c.run first).Turns id token)
    (hsame : (c.run (acts ++ [.poll id])).hub.cancelled = (c.run acts).hub.cancelled)
    (hsynced : ∀ store, (c.run (acts ++ [.poll id])).hub.isSynced store =
      (c.run acts).hub.isSynced store) :
    Awaits c (acts ++ [.poll id]) id token
      ((c.run acts).pollFallback (c.run first).fallbackStores token) := by
  unfold pollFallback
  rcases hover : (c.run acts).hub.synced? token (c.run first).fallbackStores with _ | _ | _
  · exact .fallback hacts hturns
  · refine .cancelled ?_
    rw [Hub.isCancelled, hsame]
    exact Hub.synced?_eq_false hover
  · refine .synced hacts hturns fun store hstore => ?_
    rw [hsynced]
    exact (Hub.synced?_eq_true hover).1 store hstore

/-- A wait that is polled. -/
theorem Awaits.poll {acts : List Act} {call : Call} (hawaits : Awaits c acts id token call)
    (hcall : (c.run acts).calls[id]? = some call) (hunused : c.Unused) :
    Awaits c (acts ++ [.poll id]) id token ((c.run acts).poll call).1 := by
  have hact : (c.run (acts ++ [.poll id])).hub = ((c.run acts).poll call).2.hub := by
    rw [run_concat]
    simp only [Cache.act, hcall]
    rfl
  have hundisturbed := (c.run acts).undisturbed_poll call
  have hsame : (c.run (acts ++ [.poll id])).hub.cancelled = (c.run acts).hub.cancelled := by
    rw [hact, hundisturbed.cancelled]
  have hsynced (store : Nat) : (c.run (acts ++ [.poll id])).hub.isSynced store =
      (c.run acts).hub.isSynced store := by
    rw [hact, hundisturbed.synced]
  cases hawaits with
  | cancelled hcancelled => exact Awaits.act hunused (.cancelled hcancelled) (.poll id)
  | synced hacts hturns hall => exact Awaits.act hunused (.synced hacts hturns hall) (.poll id)
  | @fallback first rest hacts hturns =>
    have hmore : acts ++ [.poll id] = first ++ .poll id :: (rest ++ [.poll id]) := by simp [hacts]
    exact awaits_pollFallback hmore hturns hsame hsynced
  | dedicated =>
    rw [Cache.poll]
    rcases hover : (c.run acts).hub.synced? token ((c.run acts).registry.entries.map Entry.store)
      with _ | _ | _
    · exact .dedicated
    · refine .cancelled ?_
      rw [Hub.isCancelled, hsame]
      exact Hub.synced?_eq_false hover
    · have hnow : acts ++ [.poll id] = acts ++ .poll id :: [] := rfl
      exact awaits_pollFallback hnow ⟨hcall, hover⟩ hsame hsynced

/-- Whatever happens after a wait began, it has come as far as this. -/
theorem awaits_run (hunused : c.Unused) (before : List Act) (token : Token) (later : List Act) :
    ∃ call, (c.run (before ++ .request (.waitForSync token) :: later)).calls[
        (c.run before).calls.length]? = some call ∧
      Awaits c (before ++ .request (.waitForSync token) :: later) (c.run before).calls.length
        token call := by
  induction later using List.reverseRecOn with
  | nil =>
    refine ⟨.awaitingDedicated token, ?_, .dedicated⟩
    rw [run_concat]
    exact call_act_request _ (.waitForSync token)
  | append_singleton later a ih =>
    obtain ⟨call, hcall, hawaits⟩ := ih
    rw [← List.cons_append, ← List.append_assoc]
    rcases getElem?_calls_act hcall a with ⟨rfl, hpolled⟩ | ⟨-, hsame⟩
    · refine ⟨_, ?_, hawaits.poll hcall hunused⟩
      rw [run_concat]
      exact hpolled
    · refine ⟨call, ?_, hawaits.act hunused a⟩
      rw [run_concat]
      exact hsame

/-! ## A wait turns once -/

/-- The call does not wait for dedicated stores. -/
def Turned : Call → Prop
  | .awaitingDedicated _ => False
  | _ => True

theorem turned_pollFallback (c : Cache) (stores : List Nat) (token : Token) :
    Turned (c.pollFallback stores token) := by
  unfold pollFallback
  split <;> trivial

theorem turned_poll {call : Call} (hturned : Turned call) : Turned (c.poll call).1 := by
  cases call with
  | awaitingDedicated token => exact hturned.elim
  | finished reply => trivial
  | running token =>
    rw [poll]
    split <;> trivial
  | fetching kind due answer type =>
    rw [poll]
    split <;> trivial
  | awaitingFallback stores token => exact turned_pollFallback c stores token
  | syncing kind token goal =>
    rcases hpoll : c.poll (.syncing kind token goal) with ⟨call, polled⟩
    cases polled_of_poll hpoll <;> trivial

theorem Turns.turned {first : List Act} (hturns : (c.run first).Turns id token) (rest : List Act) :
    ∃ call, (c.run (first ++ .poll id :: rest)).calls[id]? = some call ∧ Turned call := by
  rw [run_append, run_cons]
  refine exists_call_run ?_ (fun c' call hturned => turned_poll hturned) rest
  rcases getElem?_calls_act hturns.call (.poll id) with ⟨-, hpolled⟩ | ⟨hother, -⟩
  · refine ⟨_, hpolled, ?_⟩
    simp only [poll, hturns.synced]
    exact turned_pollFallback _ _ token
  · exact absurd rfl hother

/-- A wait that has turned to the fallback does not turn to it again. -/
theorem Turns.not_later {first middle : List Act} (hturns : (c.run first).Turns id token)
    {other : Token} : ¬(c.run (first ++ .poll id :: middle)).Turns id other := by
  intro hagain
  obtain ⟨call, hcall, hturned⟩ := hturns.turned middle
  cases hcall.symm.trans hagain.call
  exact hturned

theorem Turns.unique {first rest first' rest' : List Act} (hturns : (c.run first).Turns id token)
    (hturns' : (c.run first').Turns id token)
    (hsame : first ++ .poll id :: rest = first' ++ .poll id :: rest') : first = first' := by
  rcases List.append_eq_append_iff.mp hsame with ⟨between, hfirst, hrest⟩ | ⟨between, hfirst, hrest⟩
  · rcases between with _ | ⟨a, middle⟩
    · rw [hfirst, List.append_nil]
    · cases (List.cons.inj hrest).1
      exact absurd (hfirst ▸ hturns') hturns.not_later
  · rcases between with _ | ⟨a, middle⟩
    · rw [hfirst, List.append_nil]
    · cases (List.cons.inj hrest).1
      exact absurd (hfirst ▸ hturns) hturns'.not_later

/-- Once a wait has turned to the fallback, all dedicated stores are synced for good. -/
theorem Turns.dedicated_synced (hunused : c.Unused) {acts first rest : List Act}
    (hturns : (c.run first).Turns id token) (hacts : acts = first ++ .poll id :: rest) :
    ∀ e ∈ c.registry.entries, (c.run acts).hub.isSynced e.store = true := by
  intro e he
  have hthere : e ∈ (c.run first).registry.entries :=
    (registry_run hunused.sound first).symm ▸ he
  have hfirst := (Hub.synced?_eq_true hturns.synced).1 e.store (List.mem_map_of_mem hthere)
  rw [hacts]
  exact isSynced_later hunused (Or.inl ⟨e, hthere, rfl⟩) hfirst _

theorem isSynced_eq_false_iff {c : Cache} {stores : List Nat} :
    c.isSynced stores = false ↔ ∃ store ∈ stores, c.hub.isSynced store = false := by
  simp [isSynced]

/-! ## Waits that have ended, and waits that are pending -/

theorem mem_fallbackStores_of_find? (hunused : c.Unused) {first : List Act} {k : Kind}
    {i : Informer} (hfind : (c.run first).informers.find? k = some i) :
    ∀ store ∈ i.stores, store ∈ (c.run first).fallbackStores := by
  intro store hstore
  exact (mem_fallbackStores (sound_run hunused.sound first) store).mpr ⟨k, i, hfind, hstore⟩

/-- A wait that has ended with true has seen all dedicated stores synced, and all stores of the
informers that were there when it turned. -/
theorem Awaits.covers (hunused : c.Unused) {acts : List Act}
    (hawaits : Awaits c acts id token (.finished (.flag true))) :
    (∀ e ∈ c.registry.entries, (c.run acts).hub.isSynced e.store = true) ∧
      ∃ first rest, acts = first ++ .poll id :: rest ∧ (c.run first).Turns id token ∧
        ∀ k i, (c.run first).informers.find? k = some i →
          (c.run acts).isSynced i.stores = true := by
  cases hawaits with
  | @synced first rest hacts hturns hall =>
    refine ⟨hturns.dedicated_synced hunused hacts, first, rest, hacts, hturns, ?_⟩
    intro k i hfind
    have hmem := mem_fallbackStores_of_find? hunused hfind
    exact List.all_eq_true.mpr fun store hstore => hall store (hmem store hstore)

/-- A wait that a poll leaves as it is, and that was not cancelled, is pending exactly if one of
the stores that it is about is not synced. -/
theorem Awaits.pending_iff (hunused : c.Unused) {acts : List Act} {call : Call}
    (hawaits : Awaits c acts id token call) (hpolled : ((c.run acts).poll call).1 = call)
    (hlive : (c.run acts).hub.isCancelled token = false) :
    call.reply? = none ↔
      (∃ e ∈ c.registry.entries, (c.run acts).hub.isSynced e.store = false) ∨
      ∃ first rest, acts = first ++ .poll id :: rest ∧ (c.run first).Turns id token ∧
        ∃ k i, (c.run first).informers.find? k = some i ∧
          (c.run acts).isSynced i.stores = false := by
  cases hawaits with
  | cancelled hcancelled => cases hlive.symm.trans hcancelled
  | dedicated =>
    refine iff_of_true rfl (Or.inl ?_)
    have hregistry : (c.run acts).registry = c.registry := registry_run hunused.sound acts
    rcases hover : (c.run acts).hub.synced? token
      ((c.run acts).registry.entries.map Entry.store) with _ | _ | _
    · obtain ⟨-, store, hstore, hno⟩ := Hub.synced?_eq_none hover
      obtain ⟨e, he, rfl⟩ := List.mem_map.mp hstore
      exact ⟨e, hregistry ▸ he, hno⟩
    · cases hlive.symm.trans (Hub.synced?_eq_false hover)
    · have hturned := turned_pollFallback (c.run acts) (c.run acts).fallbackStores token
      simp only [Cache.poll, hover] at hpolled
      rw [hpolled] at hturned
      exact hturned.elim
  | @fallback first rest hacts hturns =>
    refine iff_of_true rfl (Or.inr ⟨first, rest, hacts, hturns, ?_⟩)
    simp only [Cache.poll, pollFallback] at hpolled
    rcases hover : (c.run acts).hub.synced? token (c.run first).fallbackStores with _ | _ | _
    · obtain ⟨-, store, hstore, hno⟩ := Hub.synced?_eq_none hover
      obtain ⟨k, i, hfind, hmem⟩ :=
        (mem_fallbackStores (sound_run hunused.sound first) store).mp hstore
      exact ⟨k, i, hfind, isSynced_eq_false_iff.mpr ⟨store, hmem, hno⟩⟩
    · rw [hover] at hpolled
      cases hpolled
    · rw [hover] at hpolled
      cases hpolled
  | @synced first rest hacts hturns hall =>
    refine iff_of_false (by simp [Call.reply?]) ?_
    rintro (⟨e, he, hno⟩ | ⟨first', rest', hacts', hturns', k, i, hfind, hno⟩)
    · cases hno.symm.trans (hturns.dedicated_synced hunused hacts e he)
    · -- the wait has turned only once
      obtain rfl := hturns'.unique hturns (hacts'.symm.trans hacts)
      obtain ⟨store, hstore, hno⟩ := isSynced_eq_false_iff.mp hno
      cases hno.symm.trans (hall store (mem_fallbackStores_of_find? hunused hfind store hstore))

end

/-- A wait for the cache waits for all stores that it is about.

A store is synced exactly if a full listing was among the calls on it; a store of a dedicated kind
or of an informer is synced exactly if the ledger has a full listing for it, and stays synced
whatever comes later.  When a wait ends with true, it has turned to the fallback; all dedicated
stores are synced, and all stores of the informers that were there when it turned.  A wait of a
cache at rest whose token is not cancelled is pending exactly if one of these stores is not
synced, where it may not have turned yet. -/
theorem sync_wait_covers_all_stores {c : Cache} (hunused : c.Unused) :
    (∀ kind calls, (Store.run kind calls).synced = true ↔
      ∃ objects, .apply (.restarted objects) ∈ calls) ∧
    (∀ acts store, (c.run acts).Serving store →
      ((c.run acts).hub.isSynced store = true ↔
        ∃ objects, .restarted objects ∈ Hub.eventsFor store (c.ledger acts)) ∧
      ((c.run acts).hub.isSynced store = true →
        ∀ more, (c.run (acts ++ more)).hub.isSynced store = true)) ∧
    ∀ before token later,
      let id := (c.run before).calls.length
      let acts := before ++ .request (.waitForSync token) :: later
      let last := c.run acts
      (c.EndsWith acts id (.flag true) →
        (∀ e ∈ c.registry.entries, last.hub.isSynced e.store = true) ∧
        ∃ first rest, acts = first ++ .poll id :: rest ∧ (c.run first).Turns id token ∧
          ∀ k i, (c.run first).informers.find? k = some i → last.isSynced i.stores = true) ∧
      (last.AtRest → last.hub.isCancelled token = false →
        (last.reply? id = none ↔
          (∃ e ∈ c.registry.entries, last.hub.isSynced e.store = false) ∨
          ∃ first rest, acts = first ++ .poll id :: rest ∧ (c.run first).Turns id token ∧
            ∃ k i, (c.run first).informers.find? k = some i ∧
              last.isSynced i.stores = false)) := by
  refine ⟨Store.synced_run_iff, fun acts store hserving => ?_, fun before token later => ?_⟩
  · exact ⟨isSynced_iff_of_serving hunused hserving, isSynced_later hunused hserving⟩
  intro id acts last
  obtain ⟨call, hcall, hawaits⟩ := awaits_run hunused before token later
  have hreply : last.reply? id = call.reply? := reply?_of_calls hcall
  constructor
  · rintro ⟨-, hends⟩
    obtain rfl := eq_finished_of_reply? (hreply.symm.trans hends)
    exact hawaits.covers hunused
  · intro hrest hlive
    rw [hreply]
    exact hawaits.pending_iff hunused (hrest.calls call (List.mem_of_getElem? hcall)) hlive

/-- A dedicated kind whose store is synced before the informer of another kind: the wait turns to
the fallback and is pending there, and it ends after the other listing. -/
theorem sync_wait_covers_all_stores_one_after_the_other :
    let node : Kind := ⟨"", "v1", "Node"⟩
    let widget : Kind := ⟨"example.io", "v1", "Widget"⟩
    let new : Cache :=
      { connector := Script.connector { kinds := [(node, false), (widget, true)] } }
    let before : List Act := [.request (.informer widget), .request (.start "main")]
    let opening : List Act := before ++ .request (.waitForSync "wait") ::
      [.step 0, .step 1, .outside (.feed 0 (.restarted [])), .step 0]
    let waiting : List Act := opening ++ [.poll 0, .poll 1, .poll 2]
    let answered : List Act := waiting ++ [.outside (.feed 1 (.restarted [])), .step 1, .poll 2]
    ∃ c : Cache, new.addDedicatedAll [node] = .ok c ∧ c.Unused ∧
      c.EndsWith answered 2 (.flag true) ∧
      (∃ objects, .restarted objects ∈ Hub.eventsFor 0 (c.ledger answered)) ∧
      (c.run waiting).AtRest ∧ (c.run waiting).reply? 2 = none ∧
      (∀ e ∈ c.registry.entries, (c.run waiting).hub.isSynced e.store = true) ∧
      ∃ first rest, waiting = first ++ .poll 2 :: rest ∧ (c.run first).Turns 2 "wait" ∧
        ∃ k i, (c.run first).informers.find? k = some i ∧
          (c.run waiting).isSynced i.stores = false := by
  intro node widget new before opening waiting answered
  obtain ⟨c, hbuilt, hentries, hcount, hends, hreply, hsynced, hlive, hsteps, hloops, hcalls⟩ :
      ∃ c, new.addDedicatedAll [node] = .ok c ∧ c.registry.entries = [⟨node, 0, 0, 0⟩] ∧
        (c.run before).calls.length = 2 ∧ c.EndsWith answered 2 (.flag true) ∧
        (c.run waiting).reply? 2 = none ∧ (c.run waiting).hub.isSynced 0 = true ∧
        (c.run waiting).hub.isCancelled "wait" = false ∧
        (∀ id < 2, ((c.run opening).hub.stepLoop id).isNone = true) ∧
        (c.run opening).hub.loops.length = 2 ∧ (c.run opening).calls.length = 3 :=
    ⟨_, rfl, by decide +kernel, by decide +kernel, ⟨by decide +kernel, by decide +kernel⟩,
      by decide +kernel, by decide +kernel, by decide +kernel, by decide +kernel,
      by decide +kernel, by decide +kernel⟩
  have hunused : c.Unused := (unused_new _ {} {}).addDedicatedAll hbuilt
  have hrest : (c.run waiting).AtRest := by
    have hpolls := atRest_polls (c := c.run opening) fun id => by
      by_cases hid : id < 2
      · exact Option.isNone_iff_eq_none.mp (hsteps id hid)
      · exact Hub.stepLoop_of_length_le (hloops ▸ Nat.le_of_not_lt hid)
    rw [hcalls, ← run_append] at hpolls
    exact hpolls
  have hdedicated : ∀ e ∈ c.registry.entries, (c.run waiting).hub.isSynced e.store = true := by
    rw [hentries]
    intro e he
    rw [List.mem_singleton.mp he]
    exact hsynced
  obtain ⟨-, hstores, hwaits⟩ := sync_wait_covers_all_stores hunused
  have hanswered := (hwaits before "wait" (answered.drop 3)).1 (hcount ▸ hends)
  have hpending := (hwaits before "wait" (waiting.drop 3)).2 hrest hlive
  rw [hcount] at hpending
  have hserving : (c.run answered).Serving 0 := by
    refine Or.inl ⟨⟨node, 0, 0, 0⟩, ?_, rfl⟩
    rw [registry_run hunused.sound, hentries]
    exact List.mem_singleton_self _
  have hlisted := (hstores answered 0 hserving).1.mp
    (hanswered.1 ⟨node, 0, 0, 0⟩ (hentries ▸ List.mem_singleton_self _))
  refine ⟨c, hbuilt, hunused, hends, hlisted, hrest, hreply, hdedicated, ?_⟩
  rcases hpending.mp hreply with ⟨e, he, hno⟩ | hturned
  · cases (hdedicated e he).symm.trans hno
  · exact hturned

end Cache

end WatchCache
