import WatchCache.Proofs.Cache.Fetching
import WatchCache.Proofs.Cache.Rest
import WatchCache.Proofs.Cache.Use
import WatchCache.Proofs.Hub.Readings

set_option autoImplicit false

/-!
# Where reads are counted

A read is counted when it begins, on the path that serves it: the store of a dedicated kind, a
fetch, or the fallback.  A fetch is counted once more when it has ended, by how it ended.  Nothing
else touches these counters, so what was fetched is what has ended and what is still in flight,
however the calls overlap.
-/

namespace WatchCache

/-- Whether a call waits for a fetch. -/
def Call.isFetching : Call → Bool
  | .fetching .. => true
  | _ => false

namespace Cache

/-- How many fetches have not ended. -/
def inFlight (c : Cache) : Nat := c.calls.countP Call.isFetching

/-! ## Caches in which nothing was counted -/

/-- A cache that was assembled and in which nothing was counted or fetched. -/
structure Pristine (c : Cache) : Prop extends c.Assembled where
  metrics : c.hub.metrics = {}
  fetchLog : c.fetchLog = []

theorem pristine_new (connector : Connector) (scheme : Scheme) (options : CacheOptions) :
    Pristine { connector := connector, scheme := scheme, options := options } where
  toAssembled := assembled_new connector scheme options
  metrics := rfl
  fetchLog := rfl

theorem Pristine.withNamespaces {c : Cache} (hc : c.Pristine) (names : List String) :
    (c.withNamespaces names).Pristine :=
  { hc with toAssembled := hc.toAssembled.withNamespaces names }

theorem Pristine.withSelector {c : Cache} (hc : c.Pristine) (k : Kind) (s : LabelSelector) :
    (c.withSelector k s).Pristine :=
  { hc with toAssembled := hc.toAssembled.withSelector k s }

theorem Pristine.addDedicated {c added : Cache} {k : Kind} (hc : c.Pristine)
    (hadd : c.addDedicated k = .ok added) : added.Pristine := by
  have hassembled := hc.toAssembled.addDedicated hadd
  rcases addDedicated_ok hadd with ⟨-, rfl⟩ | ⟨-, s, log, rfl⟩
  · exact hc
  · exact ⟨hassembled, hc.metrics, hc.fetchLog⟩

theorem Pristine.addDedicatedAll {c built : Cache} {kinds : List Kind} (hc : c.Pristine)
    (hbuild : c.addDedicatedAll kinds = .ok built) : built.Pristine :=
  addDedicatedAll_keeps Pristine.addDedicated hc hbuild

/-! ## What calls leave as it was measured -/

theorem readings_listStores (o : ListOptions) (h : Hub) (stores : List Nat) :
    (listStores o h stores).2.readings = h.readings := by
  induction stores generalizing h with
  | nil => rfl
  | cons id rest ih =>
    have hone := h.readings_list id o
    rw [listStores]
    split
    · next heq =>
      rw [heq] at hone
      exact hone
    · next objects h' heq =>
      rw [heq] at hone
      have hall := (ih h').trans hone
      split
      · next hmore =>
        rw [hmore] at hall
        exact hall
      · next hmore =>
        rw [hmore] at hall
        exact hall

theorem readings_indexStores (f : Store → Answer Store) (h : Hub) (stores : List Nat) :
    (indexStores f h stores).2.readings = h.readings := by
  obtain ⟨cells, hhub⟩ := exists_indexStores f h stores
  rw [hhub]
  rfl

theorem readings_reach (c : Cache) (i : Informer) (goal : Goal) :
    (c.reach i goal).2.hub.readings = c.hub.readings := by
  cases goal with
  | get key type => rfl
  | list o type => exact readings_listStores o c.hub _
  | informer => rfl
  | index field extract => exact readings_indexStores _ c.hub i.stores

/-- Neither the counters nor the gauges nor the fetches of a cache have changed. -/
structure SameReadings (c r : Cache) : Prop where
  readings : r.hub.readings = c.hub.readings
  fetchLog : r.fetchLog = c.fetchLog

theorem Grown.sameReadings {k : Kind} {c r : Cache} (hgrown : Grown k c r) : SameReadings c r := by
  refine ⟨?_, hgrown.fetchLog_eq⟩
  rw [hgrown.rest]
  rfl

theorem SameReadings.trans {c r q : Cache} (hr : SameReadings c r) (hq : SameReadings r q) :
    SameReadings c q :=
  ⟨hq.readings.trans hr.readings, hq.fetchLog.trans hr.fetchLog⟩

theorem sameReadings_reach (c : Cache) (i : Informer) (goal : Goal) :
    SameReadings c (c.reach i goal).2 :=
  ⟨c.readings_reach i goal, c.fetchLog_reach i goal⟩

theorem sameReadings_openInformer {c opened : Cache} {k : Kind} {answer : Answer Informer}
    (hopen : c.openInformer k = (answer, opened)) : SameReadings c opened := by
  cases opens_of_openInformer hopen with
  | found _ => exact ⟨rfl, rfl⟩
  | failed _ hbuild => exact (grown_of_buildInformer hbuild).sameReadings
  | @made i built _ hbuild =>
    have hregistered : SameReadings built (built.register k i) := ⟨rfl, rfl⟩
    exact (grown_of_buildInformer hbuild).sameReadings.trans hregistered

theorem sameReadings_beginFallback (c : Cache) (k : Kind) (goal : Goal) :
    SameReadings c (c.beginFallback k goal).2 := by
  rcases hbegin : c.beginFallback k goal with ⟨call, begun⟩
  cases begun_of_beginFallback hbegin with
  | fails _ hbuild => exact (grown_of_buildInformer hbuild).sameReadings
  | waits hopen _ _ => exact sameReadings_openInformer hopen
  | @reaches i opened hopen _ =>
    exact (sameReadings_openInformer hopen).trans (sameReadings_reach opened i goal)

/-- The fallback fetches nothing, so no call of it waits for a fetch. -/
theorem isFetching_beginFallback (c : Cache) (k : Kind) (goal : Goal) :
    (c.beginFallback k goal).1.isFetching = false := by
  rcases hbegin : c.beginFallback k goal with ⟨call, begun⟩
  cases begun_of_beginFallback hbegin with
  | fails _ _ | waits _ _ _ | reaches _ _ => rfl

/-! ## Reads -/

/-- How a read is served: the path that it takes, the call that it becomes, and its fetches. -/
inductive Served (c : Cache) : Read → String → Call → List FetchRecord → Prop
  /-- The store of the dedicated kind has the object. -/
  | stored {k : Kind} {key : ObjectKey} {type : Option ResourceType} {e : Entry} {o : Object}
      (hlookup : c.registry.lookup k = some e)
      (hfound : (c.hub.store? e.store).bind (·.get? key) = some o) :
      Served c (.get k key type) "store" (.finished (objectReply type (.ok o))) []
  /-- The store of the dedicated kind is listed. -/
  | listed {k : Kind} {o : ListOptions} {type : Option ResourceType} {e : Entry}
      (hlookup : c.registry.lookup k = some e) :
      Served c (.list k o type) "store"
        (.finished (objectsReply type (c.hub.list e.store o).1)) []
  /-- The store of the dedicated kind does not have the object. -/
  | fetched {k : Kind} {key : ObjectKey} {type : Option ResourceType} {e : Entry}
      (hlookup : c.registry.lookup k = some e)
      (hmissing : (c.hub.store? e.store).bind (·.get? key) = none) :
      Served c (.get k key type) "remote"
        (.fetching e.kind
          (c.hub.now + (c.connector.fetch c.fetchLog.length e.kind key).delay)
          (c.connector.fetch c.fetchLog.length e.kind key).answer type)
        [⟨e.kind, key⟩]
  /-- The kind is not dedicated. -/
  | got {k : Kind} {key : ObjectKey} {type : Option ResourceType}
      (hlookup : c.registry.lookup k = none) :
      Served c (.get k key type) "fallback"
        ((c.count (.reads "fallback")).beginFallback k (.get key type)).1 []
  /-- The kind is not dedicated. -/
  | gathered {k : Kind} {o : ListOptions} {type : Option ResourceType}
      (hlookup : c.registry.lookup k = none) :
      Served c (.list k o type) "fallback"
        ((c.count (.reads "fallback")).beginFallback k.item (.list o type)).1 []

/-- A read was entered as a call and counted on its path, and on no other. -/
structure Counted (c next : Cache) (path : String) (call : Call) (fetches : List FetchRecord) :
    Prop where
  calls : next.calls = c.calls ++ [call]
  fetchLog : next.fetchLog = c.fetchLog ++ fetches
  counters : ∀ s, next.hub.counter s = c.hub.counter s + if s = .reads path then 1 else 0

/-- What is counted before a call of the fallback begins, and nothing else. -/
theorem counted_fallback (c : Cache) (k : Kind) (goal : Goal) (path : String) :
    Counted c (entered ((c.count (.reads path)).beginFallback k goal)) path
      ((c.count (.reads path)).beginFallback k goal).1 [] := by
  have hsame := (c.count (.reads path)).sameReadings_beginFallback k goal
  refine ⟨congrArg (· ++ _) ((c.count (.reads path)).calls_beginFallback k goal), ?_, fun s => ?_⟩
  · rw [List.append_nil]
    exact hsame.fetchLog
  · exact (Hub.counter_of_readings hsame.readings s).trans (c.hub.counter_count _ s)

/-- Every read is served on some path, and counted there. -/
theorem counted_read (c : Cache) (q : Read) :
    ∃ path call fetches, Served c q path call fetches ∧
      Counted c (entered (c.beginRead q)) path call fetches := by
  cases q with
  | get k key type =>
    cases hlookup : c.registry.lookup k with
    | none =>
      have hbegin : c.beginRead (.get k key type) =
          (c.count (.reads "fallback")).beginFallback k (.get key type) := by
        simp only [beginRead, beginGet, hlookup]
      rw [hbegin]
      exact ⟨_, _, _, .got hlookup, c.counted_fallback k _ _⟩
    | some e =>
      cases hfound : (c.hub.store? e.store).bind (·.get? key) with
      | some o =>
        have hbegin : c.beginRead (.get k key type) =
            (.finished (objectReply type (.ok o)), c.count (.reads "store")) := by
          simp only [beginRead, beginGet, hlookup, hfound]
        rw [hbegin]
        exact ⟨_, _, _, .stored hlookup hfound, rfl, (List.append_nil _).symm,
          c.hub.counter_count _⟩
      | none =>
        refine ⟨_, _, _, .fetched hlookup hfound, ?_⟩
        simp only [beginRead, beginGet, hlookup, hfound]
        exact ⟨rfl, rfl, c.hub.counter_count _⟩
  | list k o type =>
    cases hlookup : c.registry.lookup k with
    | none =>
      have hbegin : c.beginRead (.list k o type) =
          (c.count (.reads "fallback")).beginFallback k.item (.list o type) := by
        simp only [beginRead, beginList, hlookup]
      rw [hbegin]
      exact ⟨_, _, _, .gathered hlookup, c.counted_fallback k.item _ _⟩
    | some e =>
      have hanswer : ((c.hub.count (.reads "store")).list e.store o).1 =
          (c.hub.list e.store o).1 := by
        unfold Hub.list
        cases hstore : c.hub.store? e.store with
        | none =>
          have hsame : (c.hub.count (.reads "store")).store? e.store = none := hstore
          rw [hsame]
        | some s =>
          have hsame : (c.hub.count (.reads "store")).store? e.store = some s := hstore
          rw [hsame]
          dsimp only
          cases s.list o <;> rfl
      have hreadings := (c.hub.count (.reads "store")).readings_list e.store o
      refine ⟨_, _, _, .listed hlookup, ?_⟩
      simp only [beginRead, beginList, hlookup]
      refine ⟨congrArg (fun answer => c.calls ++ [.finished (objectsReply type answer)]) hanswer,
        (List.append_nil _).symm, fun s => ?_⟩
      exact (Hub.counter_of_readings hreadings s).trans (c.hub.counter_count _ s)

/-! ## Fetches that end -/

/-- How a fetch ends for the caller, and as what it is counted: with the object, or with the
failure as it is; a failure of the fetch counts as not found exactly if it says so. -/
inductive Ended (k : Kind) (type : Option ResourceType) : Answer Object → String → Reply → Prop
  | hit (o : Object) : Ended k type (.ok o) "hit" (objectReply type (.ok (o.stamp k)))
  | notFound {e : CacheError} (habsent : e.isNotFound = true) :
      Ended k type (.error e) "not_found" (.failed e)
  | error {e : CacheError} (hother : e.isNotFound = false) :
      Ended k type (.error e) "error" (.failed e)

/-- A call got its reply and was counted by how it ended, and nothing else was. -/
structure Closed (c next : Cache) (id : Nat) (outcome : String) (reply : Reply) : Prop where
  calls : next.calls = c.calls.set id (.finished reply)
  fetchLog : next.fetchLog = c.fetchLog
  counters : ∀ s, next.hub.counter s = c.hub.counter s + if s = .refills outcome then 1 else 0

/-- A fetch that is due ends when it is polled. -/
theorem closed_poll {c : Cache} {id due : Nat} {k : Kind} {answer : Answer Object}
    {type : Option ResourceType} (hcall : c.calls[id]? = some (.fetching k due answer type))
    (hdue : due ≤ c.hub.now) :
    ∃ outcome reply, Ended k type answer outcome reply ∧
      Closed c (c.use (.move (.act (.poll id)))) id outcome reply := by
  have hpoll {outcome : String} {reply : Reply}
      (hend : c.endFetch k answer type = (reply, c.count (.refills outcome))) :
      Closed c (c.use (.move (.act (.poll id)))) id outcome reply := by
    have hact : c.use (.move (.act (.poll id))) =
        (c.count (.refills outcome)).withCalls (c.calls.set id (.finished reply)) := by
      simp only [use, move, act, hcall, poll, if_pos hdue, hend]
      rfl
    rw [hact]
    exact ⟨rfl, rfl, c.hub.counter_count _⟩
  cases answer with
  | ok o => exact ⟨_, _, .hit o, hpoll rfl⟩
  | error e =>
    cases habsent : e.isNotFound with
    | true => exact ⟨_, _, .notFound habsent, hpoll (by simp only [endFetch, habsent, if_true])⟩
    | false => exact ⟨_, _, .error habsent, hpoll (by simp [endFetch, habsent])⟩

/-! ## What counts nothing -/

/-- No read began and no fetch ended. -/
structure Quiet (c next : Cache) : Prop where
  fetchLog : next.fetchLog = c.fetchLog
  inFlight : next.inFlight = c.inFlight
  reads : ∀ path, next.hub.counter (.reads path) = c.hub.counter (.reads path)
  refills : ∀ outcome, next.hub.counter (.refills outcome) = c.hub.counter (.refills outcome)

theorem SameReadings.quiet {c next : Cache} (hsame : SameReadings c next)
    (hcalls : next.inFlight = c.inFlight) : Quiet c next where
  fetchLog := hsame.fetchLog
  inFlight := hcalls
  reads := fun _ => Hub.counter_of_readings hsame.readings _
  refills := fun _ => Hub.counter_of_readings hsame.readings _

theorem inFlight_concat {c next : Cache} {call : Call} (hcalls : next.calls = c.calls ++ [call]) :
    next.inFlight = c.inFlight + if call.isFetching then 1 else 0 := by
  simp [inFlight, hcalls, List.countP_append, List.countP_singleton]

theorem inFlight_set {c next : Cache} {id : Nat} {old call : Call} (hold : c.calls[id]? = some old)
    (hcalls : next.calls = c.calls.set id call) :
    next.inFlight + (if old.isFetching then 1 else 0) =
      c.inFlight + if call.isFetching then 1 else 0 := by
  obtain ⟨hid, rfl⟩ := List.getElem?_eq_some_iff.mp hold
  have hone :
      (if c.calls[id].isFetching = true then 1 else 0) ≤ c.calls.countP Call.isFetching := by
    split
    · next hfetching =>
      exact List.countP_pos_iff.mpr ⟨_, List.getElem_mem hid, hfetching⟩
    · exact Nat.zero_le _
  rw [inFlight, inFlight, hcalls, List.countP_set hid]
  omega

/-- A call that begins without a read counts nothing. -/
theorem quiet_entered {c : Cache} {begun : Call × Cache} (hsame : SameReadings c begun.2)
    (hcalls : begun.2.calls = c.calls) (hcall : begun.1.isFetching = false) :
    Quiet c (entered begun) := by
  have hsame' : SameReadings c (entered begun) := ⟨hsame.readings, hsame.fetchLog⟩
  refine hsame'.quiet ?_
  have hentered : (entered begun).calls = c.calls ++ [begun.1] := congrArg (· ++ [begun.1]) hcalls
  simpa [hcall] using inFlight_concat hentered

theorem quiet_ofType {c : Cache} (t : ResourceType) {begin_ : Kind → Call × Cache}
    (hbegin : ∀ k, Quiet c (entered (begin_ k))) : Quiet c (entered (c.ofType t begin_)) := by
  unfold ofType
  split
  · exact quiet_entered ⟨rfl, rfl⟩ rfl rfl
  · next k _ => exact hbegin k

theorem quiet_informer (c : Cache) (k : Kind) : Quiet c (entered (c.beginInformer k)) := by
  cases hlookup : c.registry.lookup k with
  | none =>
    simp only [beginInformer, hlookup]
    exact quiet_entered (c.sameReadings_beginFallback k _) (c.calls_beginFallback k _)
      (c.isFetching_beginFallback k _)
  | some e =>
    simp only [beginInformer, hlookup]
    exact quiet_entered ⟨rfl, rfl⟩ rfl rfl

theorem quiet_index (c : Cache) (k : Kind) (field : String) (extract : Extractor) :
    Quiet c (entered (c.beginIndex k field extract)) := by
  cases hlookup : c.registry.lookup k with
  | none =>
    simp only [beginIndex, hlookup]
    exact quiet_entered (c.sameReadings_beginFallback k _) (c.calls_beginFallback k _)
      (c.isFetching_beginFallback k _)
  | some e =>
    simp only [beginIndex, hlookup]
    exact quiet_entered ⟨c.hub.readings_tryStore e.store _, rfl⟩ rfl rfl

theorem quiet_start (c : Cache) (token : Token) : Quiet c (entered (c.beginStart token)) := by
  have hcall : (c.beginStart token).1.isFetching = false := rfl
  refine quiet_entered ⟨?_, ?_⟩ (c.calls_begin (.start token)) hcall <;>
    unfold beginStart <;> cases hstarted : c.started <;> cases hrunning : c.runningUnder <;>
      simp [spawnDedicated_eq, spawnInformers_eq, withLoops, withHub, hstarted, hrunning,
        Hub.readings]

/-- A poll counts nothing unless it ends a fetch. -/
theorem quiet_poll {c : Cache} {id : Nat}
    (hearly : ∀ k due answer type, c.calls[id]? = some (.fetching k due answer type) →
      c.hub.now < due) : Quiet c (c.act (.poll id)) := by
  cases hcall : c.calls[id]? with
  | none =>
    simp only [act, hcall]
    exact ⟨rfl, rfl, fun _ => rfl, fun _ => rfl⟩
  | some call =>
    have hpolled : SameReadings c (c.poll call).2 ∧
        (c.poll call).1.isFetching = call.isFetching := by
      cases call with
      | finished reply => exact ⟨⟨rfl, rfl⟩, rfl⟩
      | running token =>
        refine ⟨⟨rfl, rfl⟩, ?_⟩
        rw [poll]
        dsimp only
        split <;> rfl
      | awaitingFallback stores token =>
        refine ⟨⟨rfl, rfl⟩, ?_⟩
        simp only [poll, pollFallback]
        split <;> rfl
      | fetching k due answer type =>
        have hnow := hearly k due answer type hcall
        rw [poll, if_neg (Nat.not_le.mpr hnow)]
        exact ⟨⟨rfl, rfl⟩, rfl⟩
      | awaitingDedicated token =>
        rw [poll]
        split
        · exact ⟨⟨rfl, rfl⟩, rfl⟩
        · exact ⟨⟨rfl, rfl⟩, rfl⟩
        · refine ⟨⟨rfl, rfl⟩, ?_⟩
          simp only [pollFallback]
          split <;> rfl
      | syncing k token goal =>
        rcases hpoll : c.poll (.syncing k token goal) with ⟨call, polled⟩
        cases polled_of_poll hpoll with
        | waits _ => exact ⟨⟨rfl, rfl⟩, rfl⟩
        | stops _ _ => exact ⟨⟨rfl, rfl⟩, rfl⟩
        | @reaches i _ _ => exact ⟨c.sameReadings_reach i goal, rfl⟩
    obtain ⟨hsame, hfetching⟩ := hpolled
    have hcalls : (c.act (.poll id)).calls = c.calls.set id (c.poll call).1 := by
      simp only [act, hcall]
      exact congrArg (·.set id (c.poll call).1) (c.calls_poll call)
    have hcount := inFlight_set hcall hcalls
    rw [hfetching] at hcount
    have hact : SameReadings c (c.act (.poll id)) := by
      simp only [act, hcall]
      exact ⟨hsame.readings, hsame.fetchLog⟩
    exact hact.quiet (Nat.add_right_cancel hcount)

theorem quiet_handleIndex (c : Cache) (h : Handle) (name : String) (extract : Extractor) :
    Quiet c (c.handleIndex h name extract).2 :=
  SameReadings.quiet ⟨readings_indexStores _ c.hub h.stores, rfl⟩ rfl

/-! ## Uses -/

/-- What a use counts: a read where it is served, a fetch that has ended by how it ended, or
nothing. -/
inductive Counts (c : Cache) (u : Use) : Prop
  | read {q : Read} {path : String} {call : Call} {fetches : List FetchRecord}
      (hread : c.read? u = some q) (hserved : Served c q path call fetches)
      (hcounted : Counted c (c.use u) path call fetches)
  | ended {id due : Nat} {k : Kind} {answer : Answer Object} {type : Option ResourceType}
      {outcome : String} {reply : Reply} (hpoll : u = .move (.act (.poll id)))
      (hcall : c.calls[id]? = some (.fetching k due answer type)) (hdue : due ≤ c.hub.now)
      (hended : Ended k type answer outcome reply)
      (hclosed : Closed c (c.use u) id outcome reply)
  | nothing (hquiet : Quiet c (c.use u))

/-- A use that neither reads nor ends a fetch counts nothing. -/
theorem quiet_use {c : Cache} {u : Use} (hread : c.read? u = none)
    (hearly : ∀ id k due answer type, u = .move (.act (.poll id)) →
      c.calls[id]? = some (.fetching k due answer type) → c.hub.now < due) :
    Quiet c (c.use u) := by
  cases u with
  | move m =>
    cases m with
    | act a =>
      cases a with
      | request r =>
        cases r with
        | get k key | list k o => cases hread
        | informer k => exact c.quiet_informer k
        | index k field extract => exact c.quiet_index k field extract
        | start token => exact c.quiet_start token
        | waitForSync token =>
          show Quiet c (entered (.awaitingDedicated token, c))
          exact quiet_entered ⟨rfl, rfl⟩ rfl rfl
      | poll id => exact quiet_poll fun k due answer type => hearly id k due answer type rfl
      | step loop =>
        exact ⟨rfl, rfl, fun path => c.hub.counter_stepOnce loop (by simp [Series.reads,
          Series.events]) (by simp [Series.reads, Series.restarts]),
          fun outcome => c.hub.counter_stepOnce loop (by simp [Series.refills, Series.events])
            (by simp [Series.refills, Series.restarts])⟩
      | outside s => exact SameReadings.quiet ⟨c.hub.readings_meet s, rfl⟩ rfl
      | addIndex k name extract =>
        simp only [use, move, act]
        split
        · exact c.quiet_handleIndex _ name extract
        · exact SameReadings.quiet ⟨rfl, rfl⟩ rfl
      | reconnect connector => exact SameReadings.quiet ⟨rfl, rfl⟩ rfl
    | subscribe topic => exact SameReadings.quiet ⟨rfl, rfl⟩ rfl
    | unsubscribe sub => exact SameReadings.quiet ⟨rfl, rfl⟩ rfl
    | receive sub => exact SameReadings.quiet ⟨c.hub.readings_receive sub, rfl⟩ rfl
    | addIndex k name extract =>
      simp only [use, move]
      split
      · exact c.quiet_handleIndex _ name extract
      · exact SameReadings.quiet ⟨rfl, rfl⟩ rfl
  | get t key | list t o =>
    -- the type is not known, or there would be a read
    simp only [read?] at hread
    cases hkind : c.scheme.kindOf t with
    | error e =>
      simp only [use, ofType, hkind]
      exact quiet_entered ⟨rfl, rfl⟩ rfl rfl
    | ok k =>
      rw [hkind] at hread
      cases hread
  | informer t => exact quiet_ofType t c.quiet_informer
  | index t field extract => exact quiet_ofType t fun k => c.quiet_index k field extract

theorem counts_use (c : Cache) (u : Use) : Counts c u := by
  cases hread : c.read? u with
  | some q =>
    obtain ⟨path, call, fetches, hserved, hcounted⟩ := c.counted_read q
    exact .read hread hserved (use_of_read hread ▸ hcounted)
  | none =>
    by_cases hends : ∃ id k due answer type, u = .move (.act (.poll id)) ∧
        c.calls[id]? = some (.fetching k due answer type) ∧ due ≤ c.hub.now
    · obtain ⟨id, k, due, answer, type, rfl, hcall, hdue⟩ := hends
      obtain ⟨outcome, reply, hended, hclosed⟩ := closed_poll hcall hdue
      exact .ended rfl hcall hdue hended hclosed
    · refine .nothing (quiet_use hread fun id k due answer type hu hcall => ?_)
      exact Nat.not_le.mp fun hdue => hends ⟨id, k, due, answer, type, hu, hcall, hdue⟩

/-! ## The accounts -/

/-- What was fetched is what was read on the remote path, and has ended or is in flight. -/
structure Accounted (c : Cache) : Prop where
  fetches : c.hub.counter (.reads "remote") = c.fetchLog.length
  outcomes : c.fetchLog.length =
    c.hub.counter (.refills "hit") + c.hub.counter (.refills "not_found") +
      c.hub.counter (.refills "error") + c.inFlight

/-- A read fetches once and waits for it on the remote path, and on no other path. -/
theorem Served.fetches_of_path {c : Cache} {q : Read} {path : String} {call : Call}
    {fetches : List FetchRecord} (hserved : Served c q path call fetches) :
    fetches.length = (if path = "remote" then 1 else 0) ∧
      (if call.isFetching then 1 else 0) = if path = "remote" then 1 else 0 := by
  cases hserved with
  | stored _ _ | listed _ | fetched _ _ => exact ⟨by simp, by simp [Call.isFetching]⟩
  | got _ | gathered _ => exact ⟨by simp, by simp [isFetching_beginFallback]⟩

theorem Accounted.use {c : Cache} (hc : c.Accounted) (u : Use) : (c.use u).Accounted := by
  obtain ⟨hfetches, houtcomes⟩ := hc
  cases c.counts_use u with
  | @read q path call fetches _ hserved hcounted =>
    obtain ⟨hlength, hwaits⟩ := hserved.fetches_of_path
    have hinFlight := inFlight_concat hcounted.calls
    have hremote := hcounted.counters (.reads "remote")
    have hsame (outcome : String) :
        (c.use u).hub.counter (.refills outcome) = c.hub.counter (.refills outcome) :=
      (hcounted.counters _).trans (by simp [Series.reads, Series.refills])
    have hlog : (c.use u).fetchLog.length = c.fetchLog.length + fetches.length := by
      rw [hcounted.fetchLog, List.length_append]
    have hpath : (if Series.reads "remote" = .reads path then 1 else 0) =
        if path = "remote" then 1 else 0 := by
      simp [Series.reads, eq_comm]
    refine ⟨?_, ?_⟩
    · rw [hremote, hlog, hlength, hpath, hfetches]
    · rw [hlog, hlength, hinFlight, hwaits, hsame, hsame, hsame]
      omega
  | @ended id due k answer type outcome reply _ hcall _ hended hclosed =>
    have hinFlight := inFlight_set hcall hclosed.calls
    have hremote := hclosed.counters (.reads "remote")
    have houtcome (other : String) : (c.use u).hub.counter (.refills other) =
        c.hub.counter (.refills other) + if other = outcome then 1 else 0 :=
      (hclosed.counters _).trans (by simp [Series.refills])
    rw [if_neg (by simp [Series.reads, Series.refills])] at hremote
    simp only [Call.isFetching, Bool.false_eq_true, if_true, if_false] at hinFlight
    refine ⟨?_, ?_⟩
    · rw [hremote, hclosed.fetchLog]
      exact hfetches
    · -- exactly one of the three counters has gone up
      rw [hclosed.fetchLog, houtcome, houtcome, houtcome]
      cases hended <;> simp <;> omega
  | nothing hquiet =>
    refine ⟨?_, ?_⟩
    · rw [hquiet.reads, hquiet.fetchLog]
      exact hfetches
    · rw [hquiet.fetchLog, hquiet.refills, hquiet.refills, hquiet.refills, hquiet.inFlight]
      exact houtcomes

theorem Pristine.accounted {c : Cache} (hc : c.Pristine) (uses : List Use) :
    (c.useAll uses).Accounted := by
  induction uses using List.reverseRecOn with
  | nil =>
    refine ⟨?_, ?_⟩ <;>
      simp [Hub.counter, hc.metrics, hc.fetchLog, inFlight, hc.calls, Numbers.of]
  | append_singleton uses u ih =>
    rw [useAll_concat]
    exact ih.use u

/-- After a cache has settled, no fetch is in flight that is due. -/
theorem lt_due_of_settle {c : Cache} {k : Kind} {due : Nat} {answer : Answer Object}
    {type : Option ResourceType} (hcall : .fetching k due answer type ∈ c.settle.calls) :
    c.settle.hub.now < due := by
  obtain ⟨-, hrests⟩ := pollAll_rests (c.withHub c.hub.settle) c.calls
  have hsame : (c.settle.poll (.fetching k due answer type)).1 = .fetching k due answer type := by
    have hwith := poll_withCalls (pollAll (c.withHub c.hub.settle) c.calls).2
      (pollAll (c.withHub c.hub.settle) c.calls).1 (.fetching k due answer type)
    exact (congrArg Prod.fst hwith).trans (hrests _ hcall)
  by_contra hdue
  rw [poll, if_pos (Nat.le_of_not_lt hdue)] at hsame
  cases hsame

/-- Every read is counted once, and every fetch twice.

Let a cache be used in any way: calls by kind and by type, indices, subscriptions, steps of loops
and polls of calls one at a time and in any order, events, the clock, and a connector that answers
differently from one use to the next.  Then a read becomes one call and is counted on one path,
that on which it is served, while no other counter changes.  A fetch that is due ends when its
call is polled: it is counted as a hit, as not found or as an error, and it counts as not found
exactly if the failure that the fetch had, and that the caller gets, is that the object does not
exist.  Nothing else that happens touches any of these counters or the fetches.

So at every point the reads on the remote path are the fetches that were made, and these are the
hits, those that were not found, those that failed, and those in flight.  When a cache has
settled, none of the latter is due. -/
theorem reads_and_fetches_are_accounted {c : Cache} (hc : c.Pristine) (uses : List Use) :
    let last := c.useAll uses
    (∀ u q, last.read? u = some q → ∃ path call fetches, Served last q path call fetches ∧
      Counted last (last.use u) path call fetches) ∧
    (∀ id k due answer type, last.calls[id]? = some (.fetching k due answer type) →
      due ≤ last.hub.now → ∃ outcome reply, Ended k type answer outcome reply ∧
        Closed last (last.use (.move (.act (.poll id)))) id outcome reply) ∧
    (∀ u, last.read? u = none →
      (∀ id k due answer type, u = .move (.act (.poll id)) →
        last.calls[id]? = some (.fetching k due answer type) → last.hub.now < due) →
      Quiet last (last.use u)) ∧
    last.hub.counter (.reads "remote") = last.fetchLog.length ∧
    last.hub.counter (.reads "remote") =
      last.hub.counter (.refills "hit") + last.hub.counter (.refills "not_found") +
        last.hub.counter (.refills "error") + last.inFlight ∧
    ∀ k due answer type, .fetching k due answer type ∈ last.settle.calls →
      last.settle.hub.now < due := by
  intro last
  have haccounted : last.Accounted := hc.accounted uses
  refine ⟨fun u q hread => ?_, fun id k due answer type hcall hdue => closed_poll hcall hdue,
    fun u hread hearly => quiet_use hread hearly, haccounted.fetches,
    haccounted.fetches.trans haccounted.outcomes,
    fun k due answer type hcall => lt_due_of_settle hcall⟩
  obtain ⟨path, call, fetches, hserved, hcounted⟩ := last.counted_read q
  exact ⟨path, call, fetches, hserved, use_of_read hread ▸ hcounted⟩

/-- Three fetches overlap.  Two have ended, one of which found no object, while the first is still
in flight; in the end it has found its object, a list was served by the store, and a read by the
fallback. -/
theorem reads_and_fetches_are_accounted_over_three_fetches :
    let widget : Kind := ⟨"example.io", "v1", "Widget"⟩
    let gadget : Kind := ⟨"example.io", "v1", "Gadget"⟩
    let key (name : String) : ObjectKey := ⟨some "ops", name⟩
    let found : Object := { metadata := { name := some "w1", ns := some "ops" } }
    let script : Script :=
      { kinds := [(widget, true), (gadget, true)]
        remote :=
          [⟨widget.key, "ops/w1", 50, .ok found⟩, ⟨widget.key, "ops/w3", 0, .error "lost"⟩] }
    let new : Cache := { connector := script.connector }
    let request (r : Request) : Use := .move (.act (.request r))
    let poll (id : Nat) : Use := .move (.act (.poll id))
    let early : List Use :=
      [request (.get widget (key "w1")), request (.get widget (key "w2")),
        request (.get widget (key "w3")), poll 0, poll 1, poll 2]
    let late : List Use :=
      early ++ [.move (.act (.outside (.advance 50))), poll 0, request (.list widget {}),
        request (.get gadget (key "g1"))]
    let numbers (c : Cache) : List Nat :=
      [.reads "remote", .refills "hit", .refills "not_found", .refills "error"].map c.hub.counter
    ∃ c : Cache, new.addDedicatedAll [widget] = .ok c ∧ c.Pristine ∧
      numbers (c.useAll early) = [3, 0, 1, 1] ∧ (c.useAll early).inFlight = 1 ∧
      (c.useAll early).reply? 1 = some (.failed (.notFound widget.key "ops/w2")) ∧
      numbers (c.useAll late) = [3, 1, 1, 1] ∧ (c.useAll late).inFlight = 0 ∧
      (c.useAll late).hub.counter (.reads "store") = 1 ∧
      (c.useAll late).hub.counter (.reads "fallback") = 1 := by
  intro widget gadget key found script new request poll early late numbers
  obtain ⟨c, hbuilt, hearly, hreply, hlate, hstore, hlookup, hnone⟩ :
      ∃ c : Cache, new.addDedicatedAll [widget] = .ok c ∧ numbers (c.useAll early) = [3, 0, 1, 1] ∧
        (c.useAll early).reply? 1 = some (.failed (.notFound widget.key "ops/w2")) ∧
        numbers (c.useAll late) = [3, 1, 1, 1] ∧
        (c.useAll late).hub.counter (.reads "store") = 1 ∧
        (c.useAll late.dropLast).registry.lookup gadget = none ∧
        (c.useAll late.dropLast).hub.counter (.reads "fallback") = 0 :=
    ⟨_, rfl, by decide +kernel, by decide +kernel, by decide +kernel, by decide +kernel,
      by decide +kernel, by decide +kernel⟩
  have hc : c.Pristine := (pristine_new _ {} {}).addDedicatedAll hbuilt
  obtain ⟨-, -, -, -, hthen, -⟩ := reads_and_fetches_are_accounted hc early
  obtain ⟨-, -, -, -, hnow, -⟩ := reads_and_fetches_are_accounted hc late
  obtain ⟨hreads, -⟩ := reads_and_fetches_are_accounted hc late.dropLast
  have hfallback : (c.useAll late).hub.counter (.reads "fallback") = 1 := by
    obtain ⟨path, call, fetches, hserved, hcounted⟩ :=
      hreads (request (.get gadget (key "g1"))) (.get gadget (key "g1") none) rfl
    have hcount := hcounted.counters (.reads "fallback")
    rw [← useAll_concat, hnone] at hcount
    cases hserved with
    | got _ => exact hcount
    | stored hsome _ | fetched hsome _ => cases hlookup.symm.trans hsome
  have hinFlight {last : Cache} {remote hit absent failed : Nat}
      (hnumbers : numbers last = [remote, hit, absent, failed])
      (haccount : last.hub.counter (.reads "remote") =
        last.hub.counter (.refills "hit") + last.hub.counter (.refills "not_found") +
          last.hub.counter (.refills "error") + last.inFlight) :
      remote = hit + absent + failed + last.inFlight := by
    simp only [numbers, List.map_cons, List.map_nil, List.cons.injEq, and_true] at hnumbers
    omega
  refine ⟨c, hbuilt, hc, hearly, ?_, hreply, hlate, ?_, hstore, hfallback⟩
  · have haccount := hinFlight hearly hthen
    omega
  · have haccount := hinFlight hlate hnow
    omega

end Cache

end WatchCache
