import WatchCache.Proofs.Hub.Service

set_option autoImplicit false

/-!
# Watching a source

What a store has seen of a source at any moment at which nothing happens: of a scripted source
the sessions whose time has come, of a channel all that it was fed.  A loop that cannot tell when
to resync the subscription that it has just made sees nothing more, although nobody cancelled it.
-/

namespace WatchCache.Hub

variable {base : Hub} {l : Loop} {kind : Kind}

/-! ## The beginning -/

section

variable {source : Source} (hloops : base.loops = []) (hopening : l.phase = .opening)
  (hsource : base.sources[l.source]? = some source)

include hloops hopening hsource

theorem shows_spawn : Shows base l kind ⟨base.now, base.cancelled, .opening, source, [], 0⟩
    (base.spawn l).2 where
  now := rfl
  cancelled := rfl
  loops := by simp [spawn, hloops, ← hopening]
  source := hsource
  stores := rfl
  topics := rfl
  subscribers := rfl
  counters := fun _ _ => rfl
  restarts := rfl

/-- A loop whose token was cancelled before makes one subscription and is over. -/
theorem returned_of_spawn (hresync : l.resync ≠ some 0)
    (hcancelled : base.cancelled.contains l.token = true) : Returned l (base.serve l []) := by
  have hv : Shows base l default
      ⟨base.now, base.cancelled, .opening, source, [], 0⟩ (base.spawn l).2 :=
    shows_spawn hloops hopening hsource
  cases hdeadline : l.deadline? base.now with
  | some deadline =>
    exact hv.returned hresync (leads_start rfl hdeadline) (by simp) (by simp) hcancelled
  | none =>
    have hsettled := hv.settle hresync (leads_breakDown rfl hdeadline) (.stopped rfl)
    exact ⟨hsettled.loops, hsettled.cancelled ▸ hcancelled⟩

end

/-! ## Whatever happens -/

/-- How a loop stands after stimuli: it has returned, or it keeps its timetable, or it kept it
until it broke down after the first `n` of them; `served` is what its subscriptions have brought
by then. -/
inductive Stands (base : Hub) (l : Loop) (kind : Kind) (sessions : List (List Item))
    (src : Nat → Source) (served : List Stimulus → Nat → List Event) (stimuli : List Stimulus) :
    Prop
  | returned (hreturned : Returned l (base.serve l stimuli))
  | keeps (past : List Nat) (time : Nat) (hkeeps : Keeps base l kind sessions src (served stimuli)
      (clockPoints base.now stimuli) past time (base.serve l stimuli))
  | broken (n : Nat) (past : List Nat) (time : Nat) (hn : n ≤ stimuli.length)
      (hbroken : Broken base l kind sessions src
        (if past = [] then [] else served (stimuli.take n) past.length)
        (clockPoints base.now (stimuli.take n)) past time (base.serve l stimuli))

section

variable {source : Source} {sessions : List (List Item)} {src : Nat → Source}
  {served : List Stimulus → Nat → List Event} (hloops : base.loops = [])
  (hopening : l.phase = .opening) (hsource : base.sources[l.source]? = some source)
  (hresync : l.resync ≠ some 0) (hbackoff : 0 < l.backoff)

include hloops hopening hsource hresync hbackoff

/-- A loop that is started stands in one of the three ways at once. -/
theorem stands_nil (hserves : Serves sessions src (served []))
    (hfirst : ∀ deadline, l.deadline? base.now = some deadline →
      base.cancelled.contains l.token = false →
      Leads base l kind ⟨base.now, base.cancelled, .opening, source, [], 0⟩
        (standing l sessions src (served []) 0 base.now base.now base.cancelled))
    (hscripted : ∀ rest watches, src 1 = .scripted rest watches →
      source.subscribe.2.waitTurn 0 = src 1) :
    Stands base l kind sessions src served [] := by
  have hv : Shows base l kind
      ⟨base.now, base.cancelled, .opening, source, [], 0⟩ (base.spawn l).2 :=
    shows_spawn hloops hopening hsource
  cases hcancelled : base.cancelled.contains l.token with
  | true => exact .returned (returned_of_spawn hloops hopening hsource hresync hcancelled)
  | false =>
    cases hdeadline : l.deadline? base.now with
    | some deadline =>
      have hbegin := Keeps.begin hserves hresync hbackoff hcancelled hv
        (hfirst deadline hdeadline hcancelled)
      exact .keeps [] base.now (clockPoints_nil base.now ▸ hbegin)
    | none =>
      have hbegin : Timetable l sessions [base.now] ([] ++ [base.now]) :=
        Timetable.begin hresync hbackoff base.now
      have hbroken := Broken.of_leads hresync hbegin rfl hdeadline hscripted hv (.refl _)
      exact .broken 0 [] base.now (Nat.le_refl 0) (clockPoints_nil base.now ▸ hbroken)

end

/-- A loop that stands in one of the three ways does so after one more stimulus, if it also keeps
its timetable when it is the one that is fed. -/
theorem Stands.concat {sessions : List (List Item)} {src : Nat → Source}
    {served : List Stimulus → Nat → List Event} {stimuli : List Stimulus} {s : Stimulus}
    (hresync : l.resync ≠ some 0) (hbackoff : 0 < l.backoff)
    (hkind : (base.store? l.store).map Store.kind = some kind)
    (hserves : Serves sessions src (served stimuli))
    (hstands : Stands base l kind sessions src served stimuli)
    (hother : (∀ e, s ≠ .feed l.source e) → served (stimuli ++ [s]) = served stimuli)
    (hfed : ∀ e past time, s = .feed l.source e → Keeps base l kind sessions src (served stimuli)
        (clockPoints base.now stimuli) past time (base.serve l stimuli) →
      Keeps base l kind sessions src (served (stimuli ++ [s]))
        (clockPoints base.now stimuli ++ [(base.serve l stimuli).now]) past time
        ((base.serve l stimuli).respond s)) :
    Stands base l kind sessions src served (stimuli ++ [s]) := by
  have hall : (stimuli ++ [s]).take (stimuli ++ [s]).length = stimuli ++ [s] := List.take_length
  cases hstands with
  | returned hreturned =>
    refine .returned ?_
    rw [serve_concat]
    exact hreturned.respond hresync s
  | broken n past time hn hbroken =>
    have htake : (stimuli ++ [s]).take n = stimuli.take n := List.take_append_of_le_length hn
    have hlength : n ≤ (stimuli ++ [s]).length := by
      rw [List.length_append]
      omega
    refine .broken n past time hlength ?_
    rw [serve_concat, htake]
    exact hbroken.respond hresync s
  | keeps past time hkeeps =>
    have hpoints := clockPoints_concat hkeeps.clock s
    by_cases hnone : ∀ e, s ≠ .feed l.source e
    · rcases hkeeps.respond hserves hresync hbackoff hkind hnone with
        hreturned | ⟨past', time', hkeeps'⟩ | hbroken
      · exact .returned (serve_concat base l stimuli s ▸ hreturned)
      · refine .keeps past' time' ?_
        rw [serve_concat, hpoints, hother hnone]
        exact hkeeps'
      · refine .broken _ (past ++ [time]) ((base.serve l stimuli).now + s.elapsed)
          (Nat.le_refl _) ?_
        rw [hall, serve_concat, hpoints, hother hnone, if_neg (by simp), List.length_append]
        exact hbroken
    · obtain ⟨e, rfl⟩ : ∃ e, s = .feed l.source e := by simpa using hnone
      refine .keeps past time ?_
      rw [serve_concat, hpoints]
      exact hfed e past time rfl hkeeps

/-! ## Scripted sources -/

theorem serves_scripted (sessions : List (List Item)) (watches : Nat) :
    Serves sessions (fun k => .scripted (sessions.drop k) (watches + k))
      (fun k => (sessions.take k).flatMap delivered) where
  subscribe := by
    intro k s hs
    obtain rfl : s = .scripted (sessions.drop k) (watches + k) := hs.elim id id
    have htail : sessions.drop (k + 1) = (sessions.drop k).tail := by rw [List.tail_drop]
    have hhead : sessions[k]? = (sessions.drop k).head? := by rw [List.head?_drop]
    rw [sessionAt, hhead]
    simp only [htail]
    cases sessions.drop k <;> exact ⟨rfl, rfl⟩
  silent := fun _ => rfl
  events := by
    intro k
    rw [List.take_add_one, List.flatMap_append, sessionAt]
    cases sessions[k]? <;> simp

/-- A scripted source takes no events. -/
theorem respond_feed_scripted {h : Hub} {id watches : Nat} {sessions : List (List Item)}
    (hsource : h.sources[id]? = some (.scripted sessions watches)) (e : Event) :
    h.respond (.feed id e) = h := by
  simp [respond, feed, hsource]

/-- What happens to the loop of a scripted source. -/
theorem serve_scripted {sessions : List (List Item)} {watches : Nat} (hloops : base.loops = [])
    (hopening : l.phase = .opening)
    (hsource : base.sources[l.source]? = some (.scripted sessions watches))
    (hresync : l.resync ≠ some 0) (hbackoff : 0 < l.backoff)
    (hkind : (base.store? l.store).map Store.kind = some kind) (stimuli : List Stimulus) :
    Stands base l kind sessions (fun k => .scripted (sessions.drop k) (watches + k))
      (fun _ k => (sessions.take k).flatMap delivered) stimuli := by
  have hserves := serves_scripted sessions watches
  induction stimuli using List.reverseRecOn with
  | nil =>
    refine stands_nil hloops hopening hsource hresync hbackoff hserves ?_ ?_
    · intro deadline hdeadline hlive
      exact leads_arrive (k := 0) hkind hserves hlive hdeadline (Or.inl rfl)
    · intro _ _ _
      exact (hserves.subscribe 0 _ (Or.inl rfl)).2
  | append_singleton stimuli s ih =>
    refine ih.concat hresync hbackoff hkind hserves (fun _ => rfl) ?_
    intro e past time hfeed hkeeps
    rw [hfeed, respond_feed_scripted hkeeps.shows.source]
    exact hkeeps.idle

/-! ## Channels -/

theorem serves_channel (held : Bool) (fed : List Event) :
    Serves [] (fun _ => .channel [] held [0]) (fun _ => fed) where
  subscribe := by
    intro k s hs
    rcases hs with rfl | rfl <;> exact ⟨rfl, rfl⟩
  silent := fun _ => rfl
  events := fun _ => (List.append_nil fed).symm

/-- The events that a source is fed with. -/
def fedTo (source : Nat) (stimuli : List Stimulus) : List Event :=
  stimuli.filterMap fun s =>
    match s with
    | .feed other e => if other = source then some e else none
    | _ => none

theorem fedTo_concat_feed (source : Nat) (stimuli : List Stimulus) (e : Event) :
    fedTo source (stimuli ++ [.feed source e]) = fedTo source stimuli ++ [e] := by
  simp [fedTo]

theorem fedTo_concat_of_ne {source : Nat} {s : Stimulus} (hother : ∀ e, s ≠ .feed source e)
    (stimuli : List Stimulus) : fedTo source (stimuli ++ [s]) = fedTo source stimuli := by
  cases s with
  | advance ms => simp [fedTo]
  | cancel token => simp [fedTo]
  | feed other e =>
    have hne : other ≠ source := fun heq => hother e (heq ▸ rfl)
    simp [fedTo, hne]

/-- A channel that its loop reads takes every event, and the loop applies it; the time of the
next subscription does not change. -/
theorem Keeps.respond_feed {held : Bool} {fed : List Event} {points past : List Nat} {time : Nat}
    {h : Hub} (hresync : l.resync ≠ some 0)
    (hkind : (base.store? l.store).map Store.kind = some kind)
    (hkeeps : Keeps base l kind [] (fun _ => .channel [] held [0]) (fun _ => fed) points past time
      h) (e : Event) :
    Keeps base l kind [] (fun _ => .channel [] held [0]) (fun _ => fed ++ [e])
      (points ++ [h.now]) past time (h.respond (.feed l.source e)) := by
  have hsource : h.sources[l.source]? = some (.channel [] held [0]) := hkeeps.shows.source
  have hread : h.isRead l.source = true := by
    simp [isRead, hkeeps.shows.loops, Loop.isStopped, standing, restingPhase, sessionAt]
  have hfeed : h.respond (.feed l.source e) =
      ({ h with sources := h.sources.set l.source (.channel [e] held [0]) } : Hub).settle := by
    simp [Hub.respond, Hub.feed, hsource, hread]
  rw [hfeed]
  have hv := hkeeps.shows.setSource (.channel [e] held [0])
  exact Keeps.of_leads (serves_channel held (fed ++ [e])) hresync
    (hkeeps.timetable.wait hkeeps.early) List.getLast?_concat (forall_mem_concat hkeeps.upTo)
    hkeeps.live hv (leads_queue hkeeps.live hkind rfl rfl) hkeeps.early

/-- What happens to the loop of a channel. -/
theorem serve_channel {queue : List Event} {held : Bool} (hloops : base.loops = [])
    (hopening : l.phase = .opening)
    (hsource : base.sources[l.source]? = some (.channel queue held []))
    (hresync : l.resync ≠ some 0) (hbackoff : 0 < l.backoff)
    (hkind : (base.store? l.store).map Store.kind = some kind) (stimuli : List Stimulus) :
    Stands base l kind [] (fun _ => .channel [] held [0])
      (fun stimuli _ => queue ++ fedTo l.source stimuli) stimuli := by
  induction stimuli using List.reverseRecOn with
  | nil =>
    refine stands_nil hloops hopening hsource hresync hbackoff (serves_channel held _) ?_
      fun _ _ hscripted => by cases hscripted
    intro deadline hdeadline hlive
    have hstart : Leads base l kind
        ⟨base.now, base.cancelled, .opening, .channel queue held [], [], 0⟩ _ :=
      leads_start rfl hdeadline
    have hqueue := hstart.trans (leads_queue hlive hkind rfl rfl)
    simpa [standing, restingPhase, sessionAt, fedTo, Source.subscribe, hdeadline] using hqueue
  | append_singleton stimuli s ih =>
    refine ih.concat hresync hbackoff hkind (serves_channel held _) ?_ ?_
    · intro hother
      rw [fedTo_concat_of_ne hother]
    · intro e past time hfeed hkeeps
      rw [hfeed, fedTo_concat_feed, ← List.append_assoc]
      exact hkeeps.respond_feed hresync hkind e

/-! ## On time -/

/-- How many sessions were left: those that have ended, and those after which there was another
subscription. -/
def sessionsLeft (sessions : List (List Item)) (times : List Nat) : Nat :=
  (List.range times.length).countP fun k => ends (sessionAt sessions k) || k + 1 < times.length

theorem sessionsLeft_concat (sessions : List (List Item)) (past : List Nat) (time : Nat) :
    sessionsLeft sessions (past ++ [time]) =
      past.length + if ends (sessionAt sessions past.length) then 1 else 0 := by
  have hpast : (List.range past.length).countP (fun k => ends (sessionAt sessions k) ||
      decide (k + 1 < (past ++ [time]).length)) = past.length := by
    rw [List.countP_eq_length.mpr, List.length_range]
    intro k hk
    simpa using Or.inr (List.mem_range.mp hk)
  have hlength : (past ++ [time]).length = past.length + 1 := by simp
  rw [sessionsLeft, hlength, List.range_succ, List.countP_append, ← hlength, hpast]
  simp [List.countP_cons]

/-- What a loop that began in `base` has done: it has applied some events, each of them once and
in this order, and has counted so many sessions that it left. -/
structure Account (base : Hub) (l : Loop) (s₀ : Store) (events : List Event) (left : Nat)
    (h : Hub) : Prop where
  store : h.store? l.store = some (events.foldl Store.apply s₀)
  topics : h.topics = (base.applyAll l.store events).topics
  applied : ∀ word, h.counter (.events s₀.kind.key word) =
    base.counter (.events s₀.kind.key word) + events.countP (·.word = word)
  restarts : h.counter (.restarts s₀.kind.key) = base.counter (.restarts s₀.kind.key) + left

theorem Shows.account {s₀ : Store} {v : View} {h : Hub} (hstore : base.store? l.store = some s₀)
    (hv : Shows base l s₀.kind v h) : Account base l s₀ v.events v.left h where
  store := by
    rw [hv.store?, hstore]
    rfl
  topics := hv.topics
  applied := by
    intro word
    rw [hv.counters _ (by simp [Series.restarts, Series.events])]
    exact counter_applyAll hstore _ word
  restarts := hv.restarts

/-- A loop that goes on, after it has subscribed at the times of its timetable. -/
structure OnTime (base : Hub) (l : Loop) (s₀ : Store) (sessions : List (List Item))
    (events : List Event) (points times : List Nat) (h : Hub) : Prop where
  timetable : Timetable l sessions points times
  account : Account base l s₀ events (sessionsLeft sessions times) h
  running : h.loops.any Loop.isStopped = false

/-- A loop that broke down when it subscribed at the last of the times of its timetable, where the
clock stood at the last of the points: it could not tell when to resync.  It has left the sessions
before that one. -/
structure BrokeDown (base : Hub) (l : Loop) (s₀ : Store) (sessions : List (List Item))
    (events : List Event) (points past : List Nat) (time : Nat) (h : Hub) : Prop where
  timetable : Timetable l sessions points (past ++ [time])
  clock : points.getLast? = some time
  untold : ∃ interval, l.resync = some interval ∧ l.timer.latest < time + interval
  account : Account base l s₀ events past.length h
  stopped : h.loops.all Loop.isStopped = true

section

variable {s₀ : Store} {sessions : List (List Item)} {src : Nat → Source}
  {points past : List Nat} {time : Nat} {h : Hub}

theorem Keeps.onTime {served : Nat → List Event} (hstore : base.store? l.store = some s₀)
    (hkeeps : Keeps base l s₀.kind sessions src served points past time h) :
    OnTime base l s₀ sessions (served (past.length + 1)) points (past ++ [time]) h where
  timetable := hkeeps.timetable
  account := by
    rw [sessionsLeft_concat]
    exact hkeeps.shows.account hstore
  running := by
    have hrunning := (restingPhase_busy l (sessionAt sessions past.length) time).2
    rw [hkeeps.shows.loops]
    simpa [Loop.isStopped, standing] using hrunning

/-- A loop whose token was cancelled is over. -/
theorem Stands.over {served : List Stimulus → Nat → List Event} {stimuli : List Stimulus}
    (hstands : Stands base l kind sessions src served stimuli)
    (hcancelled : (base.serve l stimuli).isCancelled l.token = true) :
    (base.serve l stimuli).loops.all Loop.isStopped = true := by
  cases hstands with
  | returned hreturned =>
    rw [hreturned.loops]
    rfl
  | keeps _ _ hkeeps => exact absurd (hcancelled.symm.trans hkeeps.live) (by simp)
  | broken _ _ _ _ hbroken =>
    obtain ⟨source, hshows⟩ := hbroken.shows
    rw [hshows.loops]
    rfl

theorem Broken.brokeDown {events : List Event} (hstore : base.store? l.store = some s₀)
    (hbroken : Broken base l s₀.kind sessions src events points past time h) :
    BrokeDown base l s₀ sessions events points past time h := by
  obtain ⟨source, hshows⟩ := hbroken.shows
  refine ⟨hbroken.timetable, hbroken.clock, Loop.deadline?_eq_none_iff.mp hbroken.untold,
    hshows.account hstore, ?_⟩
  rw [hshows.loops]
  rfl

end

/-- A loop keeps its timetable, unless it cannot tell when a resync is due.

Whenever a hub with one loop has settled and the token of the loop was cancelled, the loop is
over.  Otherwise it goes on, and has made the subscriptions of its timetable and no others.  Of a
scripted source it has applied the events of the sessions of these subscriptions, each up to where
it ends; of a channel it has applied all that was fed, and what is fed does not move the timetable.
Or it broke down after some of the stimuli, with a subscription whose resync would have been due
after the last time that can be told; of that subscription and of all that came later it has
applied nothing.

The next subscription of a timetable is due when the backoff or the interval of the resyncs has
passed, or less than a grain of the timer later. -/
theorem loop_keeps_timetable {base : Hub} {l : Loop} {s₀ : Store} (hloops : base.loops = [])
    (hopening : l.phase = .opening) (hstore : base.store? l.store = some s₀)
    (hresync : l.resync ≠ some 0) (hbackoff : 0 < l.backoff) (stimuli : List Stimulus) :
    let last := base.serve l stimuli
    let points := clockPoints base.now stimuli
    (∀ id, last.stepLoop id = none) ∧
    (∀ sessions watches, base.sources[l.source]? = some (.scripted sessions watches) →
      (last.isCancelled l.token = true → last.loops.all Loop.isStopped = true) ∧
      (last.isCancelled l.token = false →
        (∃ times,
          OnTime base l s₀ sessions ((sessions.take times.length).flatMap delivered) points times
            last ∧
          last.sources[l.source]? =
            some (.scripted (sessions.drop times.length) (watches + times.length))) ∨
        ∃ n past time, n ≤ stimuli.length ∧
          BrokeDown base l s₀ sessions ((sessions.take past.length).flatMap delivered)
            (clockPoints base.now (stimuli.take n)) past time last ∧
          last.sources[l.source]? =
            some (.scripted (sessions.drop (past.length + 1)) (watches + (past.length + 1))))) ∧
    (∀ queue held, base.sources[l.source]? = some (.channel queue held []) →
      (last.isCancelled l.token = true → last.loops.all Loop.isStopped = true) ∧
      (last.isCancelled l.token = false →
        (∃ times,
          OnTime base l s₀ [] (queue ++ fedTo l.source stimuli) points times last ∧
          last.sources[l.source]? = some (.channel [] held [0])) ∨
        ∃ n past time, n ≤ stimuli.length ∧
          BrokeDown base l s₀ []
            (if past = [] then [] else queue ++ fedTo l.source (stimuli.take n))
            (clockPoints base.now (stimuli.take n)) past time last)) ∧
    (∀ session time due, l.next session time = some due →
      ∃ delay, (if ends session then delay = l.backoff else l.resync = some delay) ∧
        (time + delay ≤ l.timer.latest →
          time + delay ≤ due ∧ due < time + delay + l.timer.grain)) := by
  intro last points
  have hkind : (base.store? l.store).map Store.kind = some s₀.kind := by
    rw [hstore]
    rfl
  have hpaced : base.Paced := by
    intro other hother
    rw [hloops] at hother
    cases hother
  refine ⟨(serve_rests hpaced hresync stimuli).2, ?_, ?_, fun _ _ _ => Loop.next_bounds⟩
  · intro sessions watches hsource
    have hstands := serve_scripted hloops hopening hsource hresync hbackoff hkind stimuli
    refine ⟨hstands.over, fun hlive => ?_⟩
    cases hstands with
    | returned hreturned => exact absurd (hreturned.cancelled.symm.trans hlive) (by simp)
    | keeps past time hkeeps =>
      have hlength : (past ++ [time]).length = past.length + 1 := by simp
      refine Or.inl ⟨past ++ [time], ?_, ?_⟩
      · rw [hlength]
        exact hkeeps.onTime hstore
      · rw [hlength]
        exact hkeeps.shows.source
    | broken n past time hn hbroken =>
      have hbefore : (if past = [] then [] else (sessions.take past.length).flatMap delivered) =
          (sessions.take past.length).flatMap delivered := by
        cases past <;> rfl
      rw [hbefore] at hbroken
      exact Or.inr ⟨n, past, time, hn, hbroken.brokeDown hstore, hbroken.source _ _ rfl⟩
  · intro queue held hsource
    have hstands := serve_channel hloops hopening hsource hresync hbackoff hkind stimuli
    refine ⟨hstands.over, fun hlive => ?_⟩
    cases hstands with
    | returned hreturned => exact absurd (hreturned.cancelled.symm.trans hlive) (by simp)
    | keeps _ _ hkeeps => exact Or.inl ⟨_, hkeeps.onTime hstore, hkeeps.shows.source⟩
    | broken n past time hn hbroken =>
      exact Or.inr ⟨n, past, time, hn, hbroken.brokeDown hstore⟩

/-- A session that ends and is followed up after the backoff, one that a resync leaves, and then
none; and a channel that is resynced although it is fed. -/
theorem loop_keeps_timetable_two_sources :
    let kind : Kind := ⟨"example.io", "v1", "Widget"⟩
    let o : Object := { metadata := { name := some "w", ns := some "ops" } }
    let sessions : List (List Item) :=
      [[.event (.restarted [o]), .failure (.remote "gone"), .event (.deleted o), .ended],
        [.event (.applied o)]]
    let scripted : Hub := ((Hub.newStore {} kind 4).2.addSource (.ofSessions sessions)).2
    let channel : Hub := ((Hub.newStore {} kind 4).2.addSource .newChannel).2
    let l : Loop := { store := 0, source := 0, resync := some 20, backoff := 5, token := "stop" }
    let jumps : List Stimulus := [.advance 3, .advance 10, .cancel "other", .advance 100]
    let feeds : List Stimulus :=
      [.advance 15, .feed 0 (.applied o), .advance 4, .feed 0 (.deleted o), .advance 1]
    (sessions.take 3).flatMap delivered = [.restarted [o], .deleted o, .applied o] ∧
      OnTime scripted l (.new kind) sessions ((sessions.take 3).flatMap delivered)
        [0, 3, 13, 13, 113] [0, 13, 113] (scripted.serve l jumps) ∧
      (scripted.serve l jumps).sources[0]? = some (.scripted [] 3) ∧
      OnTime channel l (.new kind) [] [.applied o, .deleted o] [0, 15, 15, 19, 19, 20] [0, 20]
        (channel.serve l feeds) := by
  intro kind o sessions scripted channel l jumps feeds
  have hjumps : Timetable l sessions [0, 3, 13, 13, 113] [0, 13, 113] := by
    refine ⟨rfl, fun k time hk => ?_⟩
    match k with
    | 0 | 1 | 2 =>
      cases hk
      decide +kernel
    | k + 3 => simp at hk
  have hfeeds : Timetable l [] [0, 15, 15, 19, 19, 20] [0, 20] := by
    refine ⟨rfl, fun k time hk => ?_⟩
    match k with
    | 0 | 1 =>
      cases hk
      decide +kernel
    | k + 2 => simp at hk
  have hjumpsLive : (scripted.serve l jumps).isCancelled l.token = false := by decide +kernel
  have hfeedsLive : (channel.serve l feeds).isCancelled l.token = false := by decide +kernel
  have hjumpsRuns : (scripted.serve l jumps).loops.all Loop.isStopped = false := by decide +kernel
  have hfeedsRuns : (channel.serve l feeds).loops.all Loop.isStopped = false := by decide +kernel
  obtain ⟨-, hscripted, -, -⟩ := @loop_keeps_timetable scripted l (.new kind) rfl rfl rfl
    (by decide) (by decide) jumps
  obtain ⟨-, -, hchannel, -⟩ := @loop_keeps_timetable channel l (.new kind) rfl rfl rfl
    (by decide) (by decide) feeds
  obtain ⟨times, honTime, hsource⟩ := ((hscripted sessions 0 rfl).2 hjumpsLive).resolve_right
    fun ⟨_, _, _, _, hbroke, _⟩ => absurd (hbroke.stopped.symm.trans hjumpsRuns) (by simp)
  obtain ⟨times', honTime', -⟩ := ((hchannel [] true rfl).2 hfeedsLive).resolve_right
    fun ⟨_, _, _, _, hbroke⟩ => absurd (hbroke.stopped.symm.trans hfeedsRuns) (by simp)
  have hpoints : clockPoints scripted.now jumps = [0, 3, 13, 13, 113] := by decide
  have hpoints' : clockPoints channel.now feeds = [0, 15, 15, 19, 19, 20] := by decide
  rw [hpoints] at honTime
  rw [hpoints'] at honTime'
  obtain rfl := honTime.timetable.unique hjumps
  obtain rfl := honTime'.timetable.unique hfeeds
  exact ⟨by decide +kernel, honTime, hsource, honTime'⟩

/-- The longest interval that can be asked for leads past the last time that can be told: the loop
subscribes, and is over before it takes the listing, although its token was not cancelled. -/
theorem loop_with_longest_interval_breaks_down :
    let kind : Kind := ⟨"example.io", "v1", "Widget"⟩
    let o : Object := { metadata := { name := some "w", ns := some "ops" } }
    let script : Source := .ofSessions [[.event (.restarted [o])]]
    let base : Hub := ((Hub.newStore {} kind 4).2.addSource script).2
    let l : Loop :=
      { store := 0, source := 0, resync := some (CacheOptions.ofSeconds (Decimal.twoPow 64 - 1))
        backoff := 1000, token := "main" }
    let last := base.serve l []
    last.loops.any Loop.isStopped = true ∧ last.isCancelled "main" = false ∧
      last.sources[0]? = some (.scripted [] 1) ∧
      (last.store? 0).map Store.size = some 0 ∧ (last.store? 0).map Store.synced = some false := by
  decide +kernel

end WatchCache.Hub
