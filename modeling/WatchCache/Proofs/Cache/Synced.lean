import WatchCache.Proofs.Cache.Rest
import WatchCache.Proofs.Cache.Stores

set_option autoImplicit false

/-!
# Reads wait for listings

After the start of a cache a read is answered only when every store of its informer was given a
full listing, whoever made the informer; it fails when the cache is stopped before that.
-/

namespace WatchCache

/-! ## Errors of goals -/

/-- The errors of a list come from its selectors. -/
theorem Store.list_ne_remote (s : Store) (o : ListOptions) (detail : String) :
    s.list o ≠ .error (.remote detail) := by
  have hcandidates : s.candidates o ≠ .error (.remote detail) := by
    have hindex (name value : String) : s.indexer.byIndex name value ≠ .error (.remote detail) := by
      intro herror
      cases ((s.indexer.byIndex_eq_error_iff name value _).mp herror).1
    unfold candidates
    split
    · split
      · exact hindex _ _
      · simp
    · exact hindex _ _
    · simp
  intro herror
  unfold list at herror
  cases hfound : s.candidates o with
  | ok found =>
    rw [hfound] at herror
    cases herror
  | error e =>
    rw [hfound] at herror
    cases herror
    exact hcandidates hfound

/-- The errors of a new index come from its name. -/
theorem Store.addIndex_ne_remote (s : Store) (name : String) (extract : Extractor)
    (detail : String) : s.addIndex name extract ≠ .error (.remote detail) := by
  intro herror
  rw [addIndex_eq] at herror
  cases hadd : s.indexer.addIndex name extract with
  | ok x =>
    rw [hadd] at herror
    cases herror
  | error e =>
    rw [hadd] at herror
    cases herror
    cases ((s.indexer.addIndex_eq_error_iff name extract _).mp hadd).1

namespace Cache

theorem listStores_ne_remote (o : ListOptions) (h : Hub) (stores : List Nat) (detail : String) :
    (listStores o h stores).1 ≠ .error (.remote detail) := by
  have hone (h : Hub) (id : Nat) : (h.list id o).1 ≠ .error (.remote detail) := by
    unfold Hub.list
    cases h.store? id with
    | none => simp
    | some s =>
      have hlist := s.list_ne_remote o detail
      dsimp only
      split
      · simp
      · next e herror =>
        rw [herror] at hlist
        exact hlist
  induction stores generalizing h with
  | nil => simp [listStores]
  | cons id rest ih =>
    have hfirst := hone h id
    rw [listStores]
    split
    · next heq =>
      rw [heq] at hfirst
      exact hfirst
    · next objects h' heq =>
      have hrest := ih h'
      split
      · next herror =>
        rw [herror] at hrest
        exact hrest
      · simp

theorem indexStores_ne_remote (name : String) (extract : Extractor) (h : Hub) (stores : List Nat)
    (detail : String) :
    (indexStores (·.addIndex name extract) h stores).1 ≠ .error (.remote detail) := by
  have hone (h : Hub) (id : Nat) :
      (h.tryStore id (·.addIndex name extract)).1 ≠ .error (.remote detail) := by
    unfold Hub.tryStore
    cases h.store? id with
    | none => simp
    | some s =>
      have hadd := s.addIndex_ne_remote name extract detail
      dsimp only
      split
      · simp
      · next e herror =>
        intro hsame
        cases hsame
        exact hadd herror
  induction stores generalizing h with
  | nil => simp [indexStores]
  | cons id rest ih =>
    have hfirst := hone h id
    rw [indexStores]
    split
    · next heq =>
      rw [heq] at hfirst
      exact hfirst
    · next h' heq => exact ih h'

/-- What a request finds on an informer is never a remote error. -/
theorem reach_ne_remote {c : Cache} {r : Request} {k : Kind} {goal : Goal}
    (hasks : c.asks r = some (k, goal)) (c' : Cache) (i : Informer) (detail : String) :
    (c'.reach i goal).1 ≠ .failed (.remote detail) := by
  have hreply {α : Type} {f : α → Reply} (hf : ∀ a, f a ≠ .failed (.remote detail))
      {answer : Answer α} (hanswer : answer ≠ .error (.remote detail)) :
      replyOf f answer ≠ .failed (.remote detail) := by
    cases answer with
    | ok a => exact hf a
    | error e =>
      intro heq
      cases heq
      exact hanswer rfl
  cases r with
  | get kind key =>
    obtain ⟨-, hsome⟩ := Option.ite_none_left_eq_some.mp hasks
    cases hsome
    refine hreply (fun _ => by simp) ?_
    unfold informerGet
    split <;> simp
  | list kind o =>
    obtain ⟨-, hsome⟩ := Option.ite_none_left_eq_some.mp hasks
    cases hsome
    exact hreply (fun _ => by simp) (listStores_ne_remote o c'.hub _ detail)
  | informer kind =>
    obtain ⟨-, hsome⟩ := Option.ite_none_left_eq_some.mp hasks
    cases hsome
    simp [reach]
  | index kind field extract =>
    obtain ⟨-, hsome⟩ := Option.ite_none_left_eq_some.mp hasks
    cases hsome
    exact hreply (fun _ => by simp)
      (indexStores_ne_remote (fieldIndex field) (Store.doubled extract) c'.hub i.stores detail)
  | start token => cases hasks
  | waitForSync token => cases hasks

end Cache

/-! ## Listings -/

theorem Event.isListing_iff (e : Event) :
    e.isListing = true ↔ ∃ objects, e = .restarted objects := by
  cases e <;> simp [isListing]

/-- Every store of an informer was given a full listing. -/
def Informer.Listed (i : Informer) (ledger : List Hub.Delivery) : Prop :=
  ∀ w ∈ i.watched, ∃ objects, .restarted objects ∈ Hub.eventsFor w.store ledger

namespace Cache

section

variable {c : Cache} {ledger : List Hub.Delivery} {k : Kind} {i : Informer}

/-- The stores of an informer are synced when they were given their listings. -/
theorem Told.listed_iff (htold : c.Told ledger) (hfind : c.informers.find? k = some i) :
    i.Listed ledger ↔ ∀ id ∈ i.stores, c.hub.isSynced id = true := by
  obtain ⟨extractors, hhub⟩ := htold k i hfind
  have hone : ∀ id ∈ i.stores, (c.hub.isSynced id = true ↔
      ∃ objects, .restarted objects ∈ Hub.eventsFor id ledger) := by
    intro id hid
    obtain ⟨s, hs, hstore⟩ := hhub id hid
    have hsynced : c.hub.isSynced id = s.synced := by rw [Hub.isSynced, hs, Option.any_some]
    rw [hsynced, hstore.synced_iff, List.any_eq_true]
    constructor
    · rintro ⟨e, he, hlisting⟩
      obtain ⟨objects, rfl⟩ := e.isListing_iff.mp hlisting
      exact ⟨objects, he⟩
    · rintro ⟨objects, hmem⟩
      exact ⟨_, hmem, rfl⟩
  rw [Informer.stores, List.forall_mem_map]
  exact forall₂_congr fun w hw => (hone w.store (List.mem_map_of_mem hw)).symm

end

/-! ## Reads after the start -/

/-- In a cache that runs, a read of a kind whose informer is there or can be made is answered at
once if the informer is synced, and waits for it otherwise. -/
theorem begin_running {c : Cache} {r : Request} {k : Kind} {goal : Goal} {token : Token}
    (hasks : c.asks r = some (k, goal)) (hrunning : c.runningUnder = some token)
    (hbuild : c.informers.find? k ≠ none ∨ c.Supplies k) :
    ∃ i, (c.act (.request r)).informers.find? k = some i ∧
      ((c.act (.request r)).isSynced i.stores = true ∧
          (∃ c' : Cache, (c.begin r).1 = .finished (c'.reach i goal).1) ∨
        (c.act (.request r)).isSynced i.stores = false ∧
          (c.begin r).1 = .syncing k token goal) := by
  have hact : c.act (.request r) = (c.begin r).2.withCalls
      ((c.begin r).2.calls ++ [(c.begin r).1]) := rfl
  have hunder : ((c.counted r).openInformer k).2.runningUnder = some token := by
    rcases hopen : (c.counted r).openInformer k with ⟨answer, opened⟩
    have hsame : (c.counted r).runningUnder = some token :=
      (congrArg Setup.runningUnder (c.setup_counted r)).trans hrunning
    cases opens_of_openInformer hopen with
    | found _ => exact hsame
    | failed _ hbuild => exact (grown_of_buildInformer hbuild).runningUnder_eq.trans hsame
    | made _ hbuild => exact (grown_of_buildInformer hbuild).runningUnder_eq.trans hsame
  have hbegun := begun_of_asks hasks
  rw [hact]
  rcases hbegin : c.begin r with ⟨call, begun⟩
  rw [hbegin] at hbegun
  cases hbegun with
  | fails hfind hfailed =>
    rw [informers_counted] at hfind
    have hno := mt (supplies_counted c r k).mpr (not_supplies_of_error hfailed)
    exact absurd hbuild (not_or.mpr ⟨not_not.mpr hfind, hno⟩)
  | @waits i token' opened hopen hrunning' hunsynced =>
    rw [hopen] at hunder
    cases hunder.symm.trans hrunning'
    exact ⟨i, (find?_of_openInformer hopen :), Or.inr ⟨hunsynced, rfl⟩⟩
  | @reaches i opened hopen hready =>
    rw [hopen] at hunder
    have hreach := opened.undisturbed_reach i goal
    refine ⟨i, ?_, Or.inl ⟨?_, opened, rfl⟩⟩
    · exact (congrArg (·.find? k) (opened.informers_reach i goal)).trans
        (find?_of_openInformer hopen)
    · have hsame : (opened.reach i goal).2.isSynced i.stores = opened.isSynced i.stores :=
        congrArg i.stores.all (funext hreach.synced)
      exact hsame.trans (hready token hunder)

/-- A read that ends when it is polled was stopped, or finds its informer synced. -/
theorem poll_running {c : Cache} {k : Kind} {i : Informer} {token : Token} {goal : Goal}
    {reply : Reply} (hfind : c.informers.find? k = some i) (hstores : i.stores ≠ [])
    (hpoll : (c.poll (.syncing k token goal)).1 = .finished reply) :
    (reply = .failed (stoppedError k) ∧ c.hub.isCancelled token = true) ∨
      c.isSynced i.stores = true ∧ c.hub.isCancelled token = false ∧
        ∃ c' : Cache, reply = (c'.reach i goal).1 := by
  rcases hpolled : c.poll (.syncing k token goal) with ⟨call, polled⟩
  rw [hpolled] at hpoll
  cases hpoll
  cases polled_of_poll hpolled with
  | stops _ hstopped => exact Or.inl ⟨rfl, Hub.synced?_eq_false hstopped⟩
  | reaches hfind' hsynced =>
    cases hfind.symm.trans hfind'
    obtain ⟨hall, hlive⟩ := Hub.synced?_eq_true hsynced
    exact Or.inr ⟨List.all_eq_true.mpr hall, hlive hstores, c, rfl⟩

/-- A request of a run that is made after the start of the cache, and the informer of its kind:
the call is answered at once if all stores of the informer have had their listings, and waits for
them otherwise. -/
structure Reads (c : Cache) (before : List Act) (r : Request) (k : Kind) (goal : Goal)
    (token : Token) (i : Informer) : Prop where
  asks : (c.run before).asks r = some (k, goal)
  find : ∀ later, (c.run (before ++ .request r :: later)).informers.find? k = some i
  listed : ∀ later, i.Listed (c.ledger (before ++ .request r :: later)) ↔
    (c.run (before ++ .request r :: later)).isSynced i.stores = true
  began : i.Listed (c.ledger before) ∧
      (∃ c' : Cache, ((c.run before).begin r).1 = .finished (c'.reach i goal).1) ∨
    ¬i.Listed (c.ledger before) ∧ ((c.run before).begin r).1 = .syncing k token goal

theorem exists_reads {c : Cache} (hfresh : c.Fresh) {before : List Act} {r : Request} {k : Kind}
    {goal : Goal} {token : Token} (hstarted : firstStart before = some token)
    (hasks : (c.run before).asks r = some (k, goal))
    (hbuild : (c.run before).informers.find? k ≠ none ∨ (c.run before).Supplies k) :
    ∃ i, Reads c before r k goal token i := by
  have hrunning := (hfresh.runningUnder_eq before).trans hstarted
  obtain ⟨i, hfind, hbegun⟩ := begin_running hasks hrunning hbuild
  have hbegan : c.run (before ++ [Act.request r]) = (c.run before).act (.request r) :=
    c.run_concat before (.request r)
  have hsound := sound_run hfresh.sound (before ++ [Act.request r])
  have hstays (later : List Act) :
      (c.run (before ++ .request r :: later)).informers.find? k = some i := by
    rw [run_append, run_cons]
    exact find?_run (hbegan ▸ hsound) hfind later
  have hlisted (later : List Act) : i.Listed (c.ledger (before ++ .request r :: later)) ↔
      (c.run (before ++ .request r :: later)).isSynced i.stores = true := by
    rw [isSynced, List.all_eq_true]
    exact (told_run hfresh _).listed_iff (hstays later)
  have hbefore : i.Listed (c.ledger before) ↔
      ((c.run before).act (.request r)).isSynced i.stores = true := by
    rw [← c.ledger_request before r, hlisted [], hbegan]
  refine ⟨i, hasks, hstays, hlisted, ?_⟩
  rw [hbefore, Bool.not_eq_true]
  exact hbegun

namespace Reads

variable {c : Cache} {before later : List Act} {r : Request} {k : Kind} {goal : Goal}
  {token : Token} {i : Informer} {reply : Reply}

/-- The call waits for the listings of the informer, under the token of the start. -/
theorem waits (hreads : Reads c before r k goal token i) {token' : Token}
    (hbegin : ((c.run before).begin r).1 = .syncing k token' goal) :
    token' = token ∧ ¬i.Listed (c.ledger before) := by
  rcases hreads.began with ⟨-, c', hfinished⟩ | ⟨hunlisted, hsyncing⟩
  · cases hbegin.symm.trans hfinished
  · cases hbegin.symm.trans hsyncing
    exact ⟨rfl, hunlisted⟩

/-- The call ends once all listings are there, or since the token was cancelled before. -/
theorem ends (hreads : Reads c before r k goal token i)
    (hends : c.EndsWith (before ++ .request r :: later) (c.run before).calls.length reply) :
    (reply = .failed (stoppedError k) ∧ ¬i.Listed (c.ledger before) ∧
        (c.run (before ++ .request r :: later)).hub.isCancelled token = true) ∨
      i.Listed (c.ledger (before ++ .request r :: later)) ∧
        (i.Listed (c.ledger before) ∨
          (c.run (before ++ .request r :: later)).hub.isCancelled token = false) ∧
        ∃ c' : Cache, reply = (c'.reach i goal).1 := by
  rcases hends.cases hreads.asks with ⟨rfl, hfinished⟩ |
    ⟨middle, token', rfl, hbegin, hcall, hpolled⟩
  · rcases hreads.began with ⟨hlisted, c', hreached⟩ | ⟨-, hsyncing⟩
    · cases hfinished.symm.trans hreached
      exact Or.inr ⟨(c.ledger_request before r).symm ▸ hlisted, Or.inl hlisted, c', rfl⟩
    · cases hfinished.symm.trans hsyncing
  · obtain ⟨rfl, hunlisted⟩ := hreads.waits hbegin
    have hstores : i.stores ≠ [] := by
      intro hnil
      exact hunlisted fun w hw => absurd (List.mem_map_of_mem hw) (hnil ▸ List.not_mem_nil)
    -- being polled changes neither the ledger nor the tokens
    rw [← List.cons_append, ← List.append_assoc]
    have htoken : (c.run (before ++ .request r :: middle ++
        [.poll (c.run before).calls.length])).hub.isCancelled token' =
        (c.run (before ++ .request r :: middle)).hub.isCancelled token' := by
      rw [run_concat]
      simp only [act, hcall]
      exact congrArg (List.contains · token') (undisturbed_poll _ _).cancelled
    rw [c.ledger_poll, htoken]
    rcases poll_running (hreads.find middle) hstores hpolled with
      ⟨rfl, hstopped⟩ | ⟨hsynced, hlive, hreached⟩
    · exact Or.inl ⟨rfl, hunlisted, hstopped⟩
    · exact Or.inr ⟨(hreads.listed middle).mpr hsynced, Or.inr hlive, hreached⟩

/-- At rest, a call that has not ended waits for a listing. -/
theorem pending (hreads : Reads c before r k goal token i)
    (hrest : (c.run (before ++ .request r :: later)).AtRest)
    (hpending : (c.run (before ++ .request r :: later)).reply? (c.run before).calls.length = none) :
    ¬i.Listed (c.ledger (before ++ .request r :: later)) ∧
      (c.run (before ++ .request r :: later)).hub.isCancelled token = false := by
  obtain ⟨call, hcall, hhow⟩ := call_of_request hreads.asks later
  rcases hhow with ⟨reply, rfl⟩ | ⟨token', rfl, hbegin⟩
  · rw [reply?_of_calls hcall] at hpending
    cases hpending
  · obtain ⟨rfl, -⟩ := hreads.waits hbegin
    have hsame := hrest.calls _ (List.mem_of_getElem? hcall)
    rcases hpoll : (c.run (before ++ .request r :: later)).poll (.syncing k token' goal) with
      ⟨call, polled⟩
    rw [hpoll] at hsame
    cases hsame
    cases polled_of_poll hpoll with
    | waits hwaits =>
      obtain ⟨hlive, other, hother, hunsynced⟩ :=
        Hub.synced?_eq_none (hwaits i (hreads.find later))
      refine ⟨fun hlisted => ?_, hlive⟩
      have hsynced := List.all_eq_true.mp ((hreads.listed later).mp hlisted) other hother
      cases hunsynced.symm.trans hsynced

end Reads

/-- Reads wait until every store of their informer was given a full listing.

A read begins after a start, of a kind whose informer is there or can be made.  When it ends with
anything but the error of a cache that has stopped, all stores of the informer were given a full
listing; it ends with that error exactly if some store had none when the read began and the token
is cancelled when it ends.  When the cache is at rest, a read that has not ended waits for a store
that has had no listing, and the token is not cancelled. -/
theorem reads_wait_for_listings {c : Cache} (hfresh : c.Fresh) {before : List Act} {r : Request}
    {k : Kind} {goal : Goal} {token : Token} (hstarted : firstStart before = some token)
    (hasks : (c.run before).asks r = some (k, goal))
    (hbuild : (c.run before).informers.find? k ≠ none ∨ (c.run before).Supplies k)
    (later : List Act) :
    let acts := before ++ .request r :: later
    let last := c.run acts
    let id := (c.run before).calls.length
    ∃ i, ((c.run before).act (.request r)).informers.find? k = some i ∧
      last.informers.find? k = some i ∧
      (∀ reply, c.EndsWith acts id reply →
        (reply ≠ .failed (stoppedError k) → i.Listed (c.ledger acts)) ∧
        (reply = .failed (stoppedError k) ↔
          ¬i.Listed (c.ledger before) ∧ last.hub.isCancelled token = true)) ∧
      (last.AtRest → last.reply? id = none →
        ¬i.Listed (c.ledger acts) ∧ last.hub.isCancelled token = false) := by
  intro acts last id
  obtain ⟨i, hreads⟩ := exists_reads hfresh hstarted hasks hbuild
  have hmade := hreads.find []
  rw [run_concat] at hmade
  refine ⟨i, hmade, hreads.find later, fun reply hends => ?_, hreads.pending⟩
  rcases hreads.ends hends with ⟨rfl, hunlisted, hstopped⟩ | ⟨hlisted, hhow, c', rfl⟩
  · exact ⟨fun hne => absurd rfl hne, fun _ => ⟨hunlisted, hstopped⟩, fun _ => rfl⟩
  · have hreply := reach_ne_remote hasks c' i ("cache stopped before " ++ k.key ++ " synced")
    refine ⟨fun _ => hlisted, fun heq => absurd heq hreply, ?_⟩
    rintro ⟨hunlisted, hstopped⟩
    exact hhow.elim (absurd · hunlisted) fun hlive => by cases hlive.symm.trans hstopped

/-- A read of a kind with two namespaces: it waits when one of them has had its listing, it is
answered after the other listing, and it fails when the cache is stopped before that. -/
theorem reads_wait_for_listings_two_namespaces :
    let widget : Kind := ⟨"example.io", "v1", "Widget"⟩
    let key : ObjectKey := ⟨some "red", "w"⟩
    let w : Object := { metadata := { name := some "w", ns := some "red" } }
    let c : Cache :=
      { connector := Script.connector { kinds := [(widget, true)] }, namespaces := ["red", "blue"] }
    let before : List Act := [.request (.start "main")]
    let r : Request := .get widget key
    let opening : List Act := [.step 0, .step 1, .outside (.feed 0 (.restarted [w])), .step 0]
    let waiting : List Act := opening ++ [.poll 0, .poll 1]
    let answered : List Act := waiting ++ [.outside (.feed 1 (.restarted [])), .step 1, .poll 1]
    let stopped : List Act := waiting ++ [.outside (.cancel "main"), .poll 1]
    let i : Informer := ⟨widget, true, 0, [⟨some "red", 0, 0⟩, ⟨some "blue", 1, 1⟩]⟩
    c.Fresh ∧ firstStart before = some "main" ∧
      (c.run before).asks r = some (widget, .get key none) ∧ (c.run before).Supplies widget ∧
      (c.EndsWith (before ++ .request r :: answered) 1 (.object (w.stamp widget)) ∧
        i.Listed (c.ledger (before ++ .request r :: answered))) ∧
      (c.EndsWith (before ++ .request r :: stopped) 1 (.failed (stoppedError widget)) ∧
        ¬i.Listed (c.ledger before)) ∧
      (c.run (before ++ .request r :: waiting)).AtRest ∧
      (c.run (before ++ .request r :: waiting)).reply? 1 = none ∧
      ¬i.Listed (c.ledger (before ++ .request r :: waiting)) := by
  intro widget key w c before r opening waiting answered stopped i
  have hfresh : c.Fresh := (fresh_new _ {} {}).withNamespaces ["red", "blue"]
  have hstarted : firstStart before = some "main" := rfl
  have hasks : (c.run before).asks r = some (widget, .get key none) := rfl
  have hsupplies : (c.run before).Supplies widget := ⟨true, rfl, fun _ _ => ⟨_, rfl⟩⟩
  have hanswered : c.EndsWith (before ++ .request r :: answered) 1 (.object (w.stamp widget)) :=
    ⟨by decide +kernel, by decide +kernel⟩
  have hstopped : c.EndsWith (before ++ .request r :: stopped) 1
      (.failed (stoppedError widget)) := ⟨by decide +kernel, by decide +kernel⟩
  have hpending : (c.run (before ++ .request r :: waiting)).reply? 1 = none := by decide +kernel
  have hrest : (c.run (before ++ .request r :: waiting)).AtRest := by
    let opened := c.run (before ++ .request r :: opening)
    have hsteps : ∀ id < 2, (opened.hub.stepLoop id).isNone = true := by decide +kernel
    have hlength : opened.hub.loops.length = 2 := by decide +kernel
    have hcalls : opened.calls.length = 2 := by decide +kernel
    have hpolls := atRest_polls (c := opened) fun id => by
      by_cases hid : id < 2
      · exact Option.isNone_iff_eq_none.mp (hsteps id hid)
      · exact Hub.stepLoop_of_length_le (hlength ▸ Nat.le_of_not_lt hid)
    rw [hcalls] at hpolls
    have hacts : before ++ .request r :: waiting =
        (before ++ .request r :: opening) ++ (List.range' 0 2).map Act.poll := rfl
    rw [hacts, run_append]
    exact hpolls
  have hfind : ((c.run before).act (.request r)).informers.find? widget = some i := by
    decide +kernel
  have hread := reads_wait_for_listings hfresh hstarted hasks (Or.inr hsupplies)
  obtain ⟨j, hj, -, hreply, -⟩ := hread answered
  cases hfind.symm.trans hj
  obtain ⟨j, hj, -, hreply', -⟩ := hread stopped
  cases hfind.symm.trans hj
  obtain ⟨j, hj, -, -, hwaiting⟩ := hread waiting
  cases hfind.symm.trans hj
  exact ⟨hfresh, hstarted, hasks, hsupplies, ⟨hanswered, (hreply _ hanswered).1 (by simp)⟩,
    ⟨hstopped, ((hreply' _ hstopped).2.mp rfl).1⟩, hrest, hpending, (hwaiting hrest hpending).1⟩

end Cache

end WatchCache
