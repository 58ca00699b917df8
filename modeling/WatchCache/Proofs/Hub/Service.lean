import WatchCache.Proofs.Hub.Stimulus
import WatchCache.Proofs.Hub.Timetable

set_option autoImplicit false

/-!
# A loop keeps its timetable

The only loop of a hub is either stopped, because its token was cancelled, or has broken down with
its last subscription, or stands as `standing` says: it has made the subscriptions of its timetable
and no other one, has applied the events of their sessions and counted those that it left.  Every
stimulus keeps it so.
-/

namespace WatchCache

/-- A scripted source has no turns: waiting for one and leaving are the same. -/
theorem Source.leave_of_waitTurn {s : Source} {loop other watches : Nat}
    {rest : List (List Item)} (hwaits : s.waitTurn loop = .scripted rest watches) :
    s.leave other = .scripted rest watches := by
  cases s with
  | scripted sessions watches => exact hwaits
  | channel queue held turns => cases hwaits

namespace Hub

/-! ## Standing -/

/-- What a loop does after all items of a session were taken. -/
def restingPhase (l : Loop) (session : List Item) (time : Nat) : Phase :=
  if ends session then .backingOff (l.timer.after time l.backoff)
  else .streaming [] (l.deadline? time).join

/-- A loop at rest: its last subscription was number `k`, and was made at some time. -/
def standing (l : Loop) (sessions : List (List Item)) (src : Nat → Source)
    (served : Nat → List Event) (k time now : Nat) (cancelled : List Token) : View where
  now := now
  cancelled := cancelled
  phase := restingPhase l (sessionAt sessions k) time
  source := src (k + 1)
  events := served (k + 1)
  left := k + if ends (sessionAt sessions k) then 1 else 0

/-- A source yields sessions: `src` is the source after so many subscriptions, and `served` are
the events that these have brought. -/
structure Serves (sessions : List (List Item)) (src : Nat → Source)
    (served : Nat → List Event) : Prop where
  subscribe : ∀ k s, s = src k ∨ s = (src k).leave 0 →
    s.subscribe.1 = sessionAt sessions k ∧ s.subscribe.2.waitTurn 0 = src (k + 1)
  silent : ∀ k, (src k).receive? 0 = none
  events : ∀ k, served (k + 1) = served k ++ delivered (sessionAt sessions k)

variable {base : Hub} {l : Loop} {kind : Kind} {sessions : List (List Item)}
  {src : Nat → Source} {served : Nat → List Event} {k time now : Nat} {cancelled : List Token}

theorem standing_atRest (hserves : Serves sessions src served)
    (hlive : cancelled.contains l.token = false)
    (hearly : ∀ due, l.next (sessionAt sessions k) time = some due → now < due) :
    (standing l sessions src served k time now cancelled).AtRest l := by
  cases hends : ends (sessionAt sessions k) with
  | true =>
    refine .backingOff (l.timer.after time l.backoff) ?_ hlive (hearly _ ?_)
    · simp [standing, restingPhase, hends]
    · simp [Loop.next, hends]
  | false =>
    refine .waiting (l.deadline? time).join ?_ hlive (hserves.silent (k + 1)) ?_
    · simp [standing, restingPhase, hends]
    · cases hdeadline : (l.deadline? time).join with
      | none => rfl
      | some due =>
        have hlater := hearly due (by simp [Loop.next, hends, hdeadline])
        exact decide_eq_false (Nat.not_le.mpr hlater)

section

variable (hkind : (base.store? l.store).map Store.kind = some kind)
  (hserves : Serves sessions src served) (hlive : cancelled.contains l.token = false)

include hkind hserves hlive

/-- A new subscription is made, and all of its items are taken. -/
theorem leads_arrive {deadline : Option Nat} (hdeadline : l.deadline? now = some deadline)
    {s : Source} (hs : s = src k ∨ s = (src k).leave 0) :
    Leads base l kind ⟨now, cancelled, .opening, s, served k, k⟩
      (standing l sessions src served k now now cancelled) := by
  obtain ⟨hitems, hsource⟩ := hserves.subscribe k s hs
  have hstart : Leads base l kind ⟨now, cancelled, .opening, s, served k, k⟩
      ⟨now, cancelled, .streaming s.subscribe.1 deadline, s.subscribe.2.waitTurn 0, served k, k⟩ :=
    leads_start rfl hdeadline
  rw [hitems, hsource] at hstart
  refine hstart.trans ?_
  rw [standing, hserves.events, restingPhase, hdeadline, Option.join_some]
  exact leads_session hlive hkind rfl

/-- When the delay is over, the loop is about to subscribe again. -/
theorem leads_next {due : Nat} (hdue : l.next (sessionAt sessions k) time = some due)
    (hle : due ≤ now) : ∃ s, (s = src (k + 1) ∨ s = (src (k + 1)).leave 0) ∧
      Leads base l kind (standing l sessions src served k time now cancelled)
        ⟨now, cancelled, .opening, s, served (k + 1), k + 1⟩ := by
  cases hends : ends (sessionAt sessions k) with
  | true =>
    obtain rfl : l.timer.after time l.backoff = due := by simpa [Loop.next, hends] using hdue
    refine ⟨src (k + 1), Or.inl rfl, ?_⟩
    simp only [standing, restingPhase, hends, if_true]
    exact leads_wake hlive rfl hle
  | false =>
    have hdeadline : (l.deadline? time).join = some due := by simpa [Loop.next, hends] using hdue
    refine ⟨(src (k + 1)).leave 0, Or.inr rfl, ?_⟩
    have hover : (some due).any (· ≤ now) = true := by simpa using hle
    simp only [standing, restingPhase, hends, hdeadline]
    exact leads_resync hlive hkind rfl (hserves.silent (k + 1)) hover

end

/-! ## Keeping the timetable -/

/-- The loop has kept its timetable up to now, and its last subscription was made at `time`. -/
structure Keeps (base : Hub) (l : Loop) (kind : Kind) (sessions : List (List Item))
    (src : Nat → Source) (served : Nat → List Event) (points past : List Nat) (time : Nat)
    (h : Hub) : Prop where
  timetable : Timetable l sessions points (past ++ [time])
  clock : points.getLast? = some h.now
  upTo : ∀ p ∈ points, p ≤ h.now
  live : h.cancelled.contains l.token = false
  shows : Shows base l kind
    (standing l sessions src served past.length time h.now h.cancelled) h

/-- The loop had kept its timetable when the clock stood at the last of the points, at which it
subscribed and broke down. -/
structure Broken (base : Hub) (l : Loop) (kind : Kind) (sessions : List (List Item))
    (src : Nat → Source) (events : List Event) (points past : List Nat) (time : Nat)
    (h : Hub) : Prop where
  timetable : Timetable l sessions points (past ++ [time])
  clock : points.getLast? = some time
  untold : l.deadline? time = none
  source : ∀ rest watches, src (past.length + 1) = .scripted rest watches →
    h.sources[l.source]? = some (src (past.length + 1))
  shows : ∃ source,
    Shows base l kind ⟨h.now, h.cancelled, .stopped, source, events, past.length⟩ h

theorem forall_mem_concat {points : List Nat} (hupTo : ∀ p ∈ points, p ≤ now) :
    ∀ p ∈ points ++ [now], p ≤ now := by
  intro p hp
  rcases List.mem_append.mp hp with hold | hnew
  · exact hupTo p hold
  · exact Nat.le_of_eq (List.mem_singleton.mp hnew)

/-- The loop has returned, and its token was cancelled. -/
structure Returned (l : Loop) (h : Hub) : Prop where
  loops : h.loops = [{ l with phase := .stopped }]
  cancelled : h.cancelled.contains l.token = true

/-- A loop that is about to subscribe and cannot tell when to resync breaks down. -/
theorem Broken.of_leads (hresync : l.resync ≠ some 0) {v : View} {points past : List Nat}
    {events : List Event} {h : Hub} (htimetable : Timetable l sessions points (past ++ [now]))
    (hclock : points.getLast? = some now) (hover : l.deadline? now = none)
    {s : Source} (hs : ∀ rest watches, src (past.length + 1) = .scripted rest watches →
      s.subscribe.2.waitTurn 0 = src (past.length + 1))
    (hv : Shows base l kind v h)
    (hleads : Leads base l kind v ⟨now, cancelled, .opening, s, events, past.length⟩) :
    Broken base l kind sessions src events points past now h.settle := by
  have hsettled := hv.settle hresync (hleads.trans (leads_breakDown rfl hover)) (.stopped rfl)
  refine ⟨htimetable, hclock, hover, fun rest watches hscripted => ?_, ?_⟩
  · have hwaits := hs rest watches hscripted
    rw [hsettled.source, hscripted]
    exact congrArg some (Source.leave_of_waitTurn (hwaits.trans hscripted))
  · obtain rfl : h.settle.now = now := hsettled.now
    obtain rfl : h.settle.cancelled = cancelled := hsettled.cancelled
    exact ⟨_, hsettled⟩

section

variable (hserves : Serves sessions src served) (hresync : l.resync ≠ some 0)

include hserves hresync

/-- A loop that comes to stand as its timetable says keeps it. -/
theorem Keeps.of_leads {v : View} {points past : List Nat} {h : Hub}
    (htimetable : Timetable l sessions points (past ++ [time]))
    (hclock : points.getLast? = some now) (hupTo : ∀ p ∈ points, p ≤ now)
    (hlive : cancelled.contains l.token = false) (hv : Shows base l kind v h)
    (hleads : Leads base l kind v
      (standing l sessions src served past.length time now cancelled))
    (hearly : ∀ due, l.next (sessionAt sessions past.length) time = some due → now < due) :
    Keeps base l kind sessions src served points past time h.settle := by
  have hsettled := hv.settle hresync hleads (standing_atRest hserves hlive hearly)
  obtain rfl : h.settle.now = now := hsettled.now
  obtain rfl : h.settle.cancelled = cancelled := hsettled.cancelled
  exact ⟨htimetable, hclock, hupTo, hlive, hsettled⟩

variable (hbackoff : 0 < l.backoff)

include hbackoff

theorem Keeps.begin {v : View} {h : Hub} (hlive : cancelled.contains l.token = false)
    (hv : Shows base l kind v h)
    (hleads : Leads base l kind v (standing l sessions src served 0 now now cancelled)) :
    Keeps base l kind sessions src served [now] [] now h.settle :=
  Keeps.of_leads hserves hresync (Timetable.begin hresync hbackoff now) rfl
    (fun _ hp => Nat.le_of_eq (List.mem_singleton.mp hp)) hlive hv hleads
    fun _ hdue => Loop.lt_of_next hresync hbackoff hdue

variable (hkind : (base.store? l.store).map Store.kind = some kind)

include hkind

/-- The clock stops at one more point: the loop subscribes if the delay is over, and either stands
after that or breaks down; it waits otherwise. -/
theorem Keeps.settle {points past : List Nat} {h : Hub}
    (htimetable : Timetable l sessions points (past ++ [time])) (hupTo : ∀ p ∈ points, p ≤ now)
    (hlive : cancelled.contains l.token = false)
    (hv : Shows base l kind (standing l sessions src served past.length time now cancelled) h) :
    (∃ past' time', Keeps base l kind sessions src served (points ++ [now]) past' time' h.settle) ∨
      Broken base l kind sessions src (served (past.length + 1)) (points ++ [now]) (past ++ [time])
        now h.settle := by
  have hclock : (points ++ [now]).getLast? = some now := List.getLast?_concat
  by_cases hover : ∃ due, l.next (sessionAt sessions past.length) time = some due ∧ due ≤ now
  · obtain ⟨due, hdue, hle⟩ := hover
    obtain ⟨s, hs, hnext⟩ := leads_next hkind hserves hlive hdue hle
    have hsubscribe := htimetable.subscribe hresync hbackoff hupTo hdue hle
    have hlength : (past ++ [time]).length = past.length + 1 := by simp
    rw [← hlength] at hs hnext ⊢
    cases hdeadline : l.deadline? now with
    | none =>
      exact Or.inr (Broken.of_leads hresync hsubscribe hclock hdeadline
        (fun _ _ _ => (hserves.subscribe _ s hs).2) hv hnext)
    | some deadline =>
      have harrive := hnext.trans (leads_arrive hkind hserves hlive hdeadline hs)
      exact Or.inl ⟨past ++ [time], now, Keeps.of_leads hserves hresync hsubscribe hclock
        (forall_mem_concat hupTo) hlive hv harrive fun due' hdue' =>
          Loop.lt_of_next hresync hbackoff hdue'⟩
  · have hearly : ∀ due, l.next (sessionAt sessions past.length) time = some due → now < due :=
      fun due hdue => Nat.not_le.mp fun hle => hover ⟨due, hdue, hle⟩
    exact Or.inl ⟨past, time, Keeps.of_leads hserves hresync (htimetable.wait hearly) hclock
      (forall_mem_concat hupTo) hlive hv (.refl _) hearly⟩

end

/-! ## Stopping -/

/-- A loop that gets to where it waits or takes items finds its token cancelled. -/
theorem Shows.returned {v w : View} {h : Hub} (hresync : l.resync ≠ some 0)
    (hv : Shows base l kind v h) (hleads : Leads base l kind v w) (hopened : w.phase ≠ .opening)
    (hrunning : w.phase ≠ .stopped) (hcancelled : w.cancelled.contains l.token = true) :
    Returned l h.settle := by
  have hstop := hleads.trans (leads_stop hopened hrunning hcancelled)
  have hsettled := hv.settle hresync hstop (.stopped rfl)
  refine ⟨hsettled.loops, ?_⟩
  rw [hsettled.cancelled]
  exact hcancelled

theorem Returned.settle {h : Hub} (hresync : l.resync ≠ some 0) (hreturned : Returned l h) :
    Returned l h.settle := by
  have hrest : h.stepLoop 0 = none := by
    unfold stepLoop
    rw [hreturned.loops]
    rfl
  rw [settle_of_reaches hreturned.loops hresync .refl hrest]
  exact ⟨hreturned.loops, hreturned.cancelled⟩

/-- A loop that has returned does nothing any more. -/
theorem Returned.respond {h : Hub} (hresync : l.resync ≠ some 0) (hreturned : Returned l h)
    (s : Stimulus) : Returned l (h.respond s) := by
  cases s with
  | advance ms => exact Returned.settle hresync ⟨hreturned.loops, hreturned.cancelled⟩
  | cancel token =>
    refine Returned.settle hresync ⟨hreturned.loops, ?_⟩
    exact List.contains_iff_mem.mpr
      (List.mem_cons_of_mem token (List.contains_iff_mem.mp hreturned.cancelled))
  | feed source e =>
    rw [Hub.respond]
    split
    · next hfeed =>
      obtain ⟨queue, held, turns, -, rfl⟩ := feed_ok hfeed
      exact Returned.settle hresync ⟨hreturned.loops, hreturned.cancelled⟩
    · exact hreturned

/-- A loop that has broken down does nothing any more. -/
theorem Broken.respond {events : List Event} {points past : List Nat} {h : Hub}
    (hresync : l.resync ≠ some 0)
    (hbroken : Broken base l kind sessions src events points past time h) (s : Stimulus) :
    Broken base l kind sessions src events points past time (h.respond s) := by
  obtain ⟨source, hshows⟩ := hbroken.shows
  have hsettle {g : Hub} (hsource : ∀ rest watches, src (past.length + 1) = .scripted rest watches →
        g.sources[l.source]? = some (src (past.length + 1))) {source : Source}
      (hv : Shows base l kind ⟨g.now, g.cancelled, .stopped, source, events, past.length⟩ g) :
      Broken base l kind sessions src events points past time g.settle := by
    have hsame : g.settle = g.resolveWaits :=
      settle_of_reaches hv.loops hresync .refl (hv.rests (.stopped rfl))
    rw [hsame]
    exact { hbroken with source := hsource, shows := ⟨source, hv.resolveWaits⟩ }
  cases s with
  | advance ms => exact hsettle hbroken.source { hshows with now := rfl }
  | cancel token => exact hsettle hbroken.source { hshows with cancelled := rfl }
  | feed other e =>
    rw [Hub.respond]
    split
    · next hfeed =>
      obtain ⟨queue, held, turns, hchannel, rfl⟩ := feed_ok hfeed
      by_cases hother : other = l.source
      · subst hother
        refine hsettle (fun rest watches hscripted => ?_) (hshows.setSource _)
        have hsource := hbroken.source rest watches hscripted
        rw [hscripted, hchannel] at hsource
        cases hsource
      · have hunchanged : (h.sources.set other (.channel (queue ++ [e]) held turns))[l.source]? =
            h.sources[l.source]? := List.getElem?_set_ne hother
        refine hsettle (fun rest watches hscripted => ?_) { hshows with source := ?_ }
        · exact hunchanged.trans (hbroken.source rest watches hscripted)
        · exact hunchanged.trans hshows.source
    · exact hbroken

/-! ## Stimuli -/

/-- The next subscription is not due yet. -/
theorem Keeps.early {points past : List Nat} {h : Hub}
    (hkeeps : Keeps base l kind sessions src served points past time h) (due : Nat)
    (hdue : l.next (sessionAt sessions past.length) time = some due) : h.now < due := by
  have hnone := List.find?_eq_none.mp (hkeeps.timetable.find?_last hdue) h.now
    (List.mem_of_getLast? hkeeps.clock)
  simpa using hnone

/-- A stimulus without effect changes nothing. -/
theorem Keeps.idle {points past : List Nat} {h : Hub}
    (hkeeps : Keeps base l kind sessions src served points past time h) :
    Keeps base l kind sessions src served (points ++ [h.now]) past time h where
  timetable := hkeeps.timetable.wait hkeeps.early
  clock := List.getLast?_concat
  upTo := forall_mem_concat hkeeps.upTo
  live := hkeeps.live
  shows := hkeeps.shows

theorem restingPhase_busy (l : Loop) (session : List Item) (time : Nat) :
    restingPhase l session time ≠ .opening ∧ restingPhase l session time ≠ .stopped := by
  unfold restingPhase
  split <;> simp

section

variable (hserves : Serves sessions src served) (hresync : l.resync ≠ some 0)
  (hbackoff : 0 < l.backoff) (hkind : (base.store? l.store).map Store.kind = some kind)

include hserves hresync hbackoff hkind

/-- A loop that is not fed keeps its timetable or breaks down, or returns when its token is
cancelled. -/
theorem Keeps.respond {points past : List Nat} {h : Hub}
    (hkeeps : Keeps base l kind sessions src served points past time h) {s : Stimulus}
    (hother : ∀ e, s ≠ .feed l.source e) :
    Returned l (h.respond s) ∨
      (∃ past' time', Keeps base l kind sessions src served (points ++ [h.now + s.elapsed]) past'
        time' (h.respond s)) ∨
      Broken base l kind sessions src (served (past.length + 1)) (points ++ [h.now + s.elapsed])
        (past ++ [time]) (h.now + s.elapsed) (h.respond s) := by
  obtain ⟨hopened, hrunning⟩ := restingPhase_busy l (sessionAt sessions past.length) time
  cases s with
  | advance ms =>
    have hv : Shows base l kind (standing l sessions src served past.length time (h.now + ms)
        h.cancelled) (h.advance ms) := { hkeeps.shows with now := rfl }
    exact Or.inr (Keeps.settle hserves hresync hbackoff hkind hkeeps.timetable
      (fun p hp => Nat.le_add_right_of_le (hkeeps.upTo p hp)) hkeeps.live hv)
  | cancel token =>
    have hv : Shows base l kind (standing l sessions src served past.length time h.now
        (token :: h.cancelled)) (h.cancel token) := { hkeeps.shows with cancelled := rfl }
    cases hcancelled : (token :: h.cancelled).contains l.token with
    | true => exact Or.inl (hv.returned hresync (.refl _) hopened hrunning hcancelled)
    | false =>
      exact Or.inr (Keeps.settle hserves hresync hbackoff hkind hkeeps.timetable hkeeps.upTo
        hcancelled hv)
  | feed source e =>
    have hne : source ≠ l.source := fun heq => hother e (heq ▸ rfl)
    right
    rw [Hub.respond]
    split
    · next hfeed =>
      obtain ⟨queue, held, turns, -, rfl⟩ := feed_ok hfeed
      refine Keeps.settle hserves hresync hbackoff hkind hkeeps.timetable hkeeps.upTo hkeeps.live
        { hkeeps.shows with source := ?_ }
      exact (List.getElem?_set_ne hne).trans hkeeps.shows.source
    · exact Or.inl ⟨past, time, hkeeps.idle⟩

end

end Hub

end WatchCache
