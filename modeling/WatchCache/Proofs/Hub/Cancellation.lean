import WatchCache.Proofs.Hub.Channel

set_option autoImplicit false

/-!
# Loops that are cancelled

When the token of a loop is cancelled and its delay is over at the same time, either of them may
be seen first: a loop that looks at the end of its delay goes on and makes one more subscription
before it looks at its token.  `Move` adds this choice to the acts of a hub.  `Winds` says what any
move makes of a loop whose token is cancelled, and all that is said of such loops comes from it: a
cancelled loop applies nothing, subscribes at most once, and has returned when the hub is at rest.
-/

namespace WatchCache

namespace Phase

/-- How many subscriptions a loop makes at most before it returns, once its token is cancelled. -/
def openingsLeft : Phase → Nat
  | .opening | .backingOff _ => 1
  | .streaming _ _ | .stopped => 0

/-- How many steps a loop makes at most before it returns, once its token is cancelled. -/
def stepsLeft : Phase → Nat
  | .opening | .backingOff _ => 2
  | .streaming _ _ => 1
  | .stopped => 0

theorem eq_stopped_of_stepsLeft {p : Phase} (hleft : p.stepsLeft = 0) : p = .stopped := by
  cases p with
  | stopped => rfl
  | opening | streaming _ _ | backingOff _ => cases hleft

end Phase

namespace Hub

/-! ## Moves -/

/-- What happens to a hub, one thing at a time. -/
inductive Move where
  | act (a : Act)
  /-- The delay of a loop ends, whether its token is cancelled or not. -/
  | wake (id : Nat)

/-- The hub in which a loop whose delay is over goes on. -/
def wakeUp (h : Hub) (id : Nat) : Hub :=
  match (h.loops[id]?).map Loop.phase with
  | some (.backingOff due) => if due ≤ h.now then h.setPhase id .opening else h
  | _ => h

/-- The hub after a move. -/
def move (h : Hub) : Move → Hub
  | .act a => h.act a
  | .wake id => h.wakeUp id

/-- The hub after moves. -/
def drive (h : Hub) (moves : List Move) : Hub := moves.foldl move h

/-- The loop that makes a move. -/
def Move.loop? : Move → Option Nat
  | .act (.step id) => some id
  | .wake id => some id
  | _ => none

/-- Whether a move is a step of a loop. -/
def Move.isStepOf (id : Nat) : Move → Bool
  | .act (.step other) => other = id
  | _ => false

/-- What moves yield, in order. -/
def collect {α : Type} (f : Hub → Move → List α) : Hub → List Move → List α
  | _, [] => []
  | h, m :: rest => f h m ++ collect f (h.move m) rest

/-- What a move delivers. -/
def gives (h : Hub) : Move → List Delivery
  | .act a => h.delivers a
  | .wake _ => []

/-- A subscription: who made it, and to which source. -/
structure Opening where
  loop : Nat
  source : Nat
  deriving DecidableEq, Repr

/-- The subscription that a move makes. -/
def opens (h : Hub) : Move → List Opening
  | .act (.step id) =>
    match h.loops[id]? with
    | some l => if l.phase = .opening then [⟨id, l.source⟩] else []
    | none => []
  | _ => []

/-- The event that a move puts into a channel. -/
def arrives (source : Nat) (h : Hub) : Move → List Event
  | .act a => h.accepted source a
  | .wake _ => []

/-- All deliveries of moves. -/
def deliveries : Hub → List Move → List Delivery := collect gives

/-- All subscriptions that moves make. -/
def openings : Hub → List Move → List Opening := collect opens

/-- The events that moves put into a channel. -/
def arrivals (source : Nat) : Hub → List Move → List Event := collect (arrives source)

@[simp] theorem drive_nil (h : Hub) : h.drive [] = h := rfl

theorem drive_append (h : Hub) (first second : List Move) :
    h.drive (first ++ second) = (h.drive first).drive second := List.foldl_append

@[simp] theorem drive_concat (h : Hub) (moves : List Move) (m : Move) :
    h.drive (moves ++ [m]) = (h.drive moves).move m := h.drive_append moves [m]

@[simp] theorem collect_concat {α : Type} (f : Hub → Move → List α) (h : Hub)
    (moves : List Move) (m : Move) :
    collect f h (moves ++ [m]) = collect f h moves ++ f (h.drive moves) m := by
  induction moves generalizing h with
  | nil => simp [collect]
  | cons first rest ih =>
    rw [List.cons_append, collect, ih, collect, List.append_assoc]
    rfl

/-- Acts are moves, and deliver the same. -/
theorem drive_acts (h : Hub) (acts : List Act) : h.drive (acts.map .act) = h.play acts := by
  rw [drive, List.foldl_map]
  rfl

section

variable {h h' : Hub} {id source : Nat} {l : Loop} {queue : List Event}

/-! ## Waking up -/

theorem wakeUp_cases (h : Hub) (id : Nat) :
    h.wakeUp id = h ∨ ∃ l due, h.loops[id]? = some l ∧ l.phase = .backingOff due ∧ due ≤ h.now ∧
      h.wakeUp id = h.setPhase id .opening := by
  unfold wakeUp
  split
  · next due hphase =>
    obtain ⟨l, hl, hl'⟩ := Option.map_eq_some_iff.mp hphase
    split
    · next hdue => exact Or.inr ⟨l, due, hl, hl', hdue, rfl⟩
    · exact Or.inl rfl
  · exact Or.inl rfl

/-- As long as the token of a loop is not cancelled, there is no choice: the end of the delay is
the step that the loop makes. -/
theorem wakeUp_of_live (hl : h.loops[id]? = some l) {due : Nat} (hphase : l.phase = .backingOff due)
    (hlive : h.isCancelled l.token = false) : h.wakeUp id = h.stepOnce id := by
  simp only [wakeUp, stepOnce, stepLoop, hl, Option.map_some, hphase, hlive]
  by_cases hdue : due ≤ h.now <;> simp [hdue]

theorem alike_wakeUp (h : Hub) (id : Nat) : Alike (h.wakeUp id) h := by
  rcases h.wakeUp_cases id with hsame | ⟨l, due, -, -, -, hwakes⟩
  · exact hsame.symm ▸ .refl h
  · exact hwakes.symm ▸ alike_setPhase h id .opening

theorem alike_move (h : Hub) (m : Move) : Alike (h.move m) (h.deliverAll (h.gives m)) := by
  cases m with
  | act a => exact h.alike_act a
  | wake id => exact h.alike_wakeUp id

/-- The stores, what they published and the counters of their events come from the deliveries. -/
theorem alike_drive (h : Hub) (moves : List Move) :
    Alike (h.drive moves) (h.deliverAll (h.deliveries moves)) := by
  induction moves using List.reverseRecOn with
  | nil => exact .refl h
  | append_singleton moves m ih =>
    rw [drive_concat, deliveries, collect_concat, deliverAll_append]
    exact (alike_move _ m).trans (ih.deliverAll _)

/-! ## Tokens and loops under any move -/

/-- No token stops being cancelled. -/
theorem isCancelled_move {token : Token} (hcancelled : h.isCancelled token = true) (m : Move) :
    (h.move m).isCancelled token = true := by
  cases m with
  | wake id =>
    rcases h.wakeUp_cases id with hsame | ⟨l, due, -, -, -, hwakes⟩
    · exact (isCancelled_congr (congrArg Hub.cancelled hsame) token).trans hcancelled
    · exact (isCancelled_congr (congrArg Hub.cancelled hwakes :) token).trans hcancelled
  | act a =>
    cases a with
    | step id => exact (h.isCancelled_stepOnce id token).trans hcancelled
    | outside s => exact isCancelled_meet hcancelled s
    | start l => exact hcancelled
    | release source => exact hcancelled

/-- A loop with a cancelled token rests only when it has returned. -/
theorem stopped_of_rest (hl : h.loops[id]? = some l) (hcancelled : h.isCancelled l.token = true)
    (hrest : h.stepLoop id = none) : l.phase = .stopped := by
  have hstuck {h' : Hub} (hstep : Step h id l h') : False := by
    rw [hstep.stepLoop_eq hl] at hrest
    cases hrest
  cases hphase : l.phase with
  | stopped => rfl
  | opening =>
    cases hdeadline : l.deadline? h.now with
    | some deadline => exact (hstuck (.start hphase hdeadline)).elim
    | none => exact (hstuck (.breakDown hphase hdeadline)).elim
  | streaming items deadline =>
    exact (hstuck (.stop (by simp [hphase]) (by simp [hphase]) hcancelled)).elim
  | backingOff due =>
    exact (hstuck (.stop (by simp [hphase]) (by simp [hphase]) hcancelled)).elim

/-! ## What becomes of a cancelled loop -/

/-- What a move makes of the phase of a loop whose token is cancelled. -/
inductive Winds (id : Nat) (phase : Phase) : Move → Phase → Prop
  | other {m : Move} (hother : m.loop? ≠ some id) : Winds id phase m phase
  | subscribes (hopening : phase = .opening) (items : List Item) (deadline : Option Nat) :
      Winds id phase (.act (.step id)) (.streaming items deadline)
  | breaksDown (hopening : phase = .opening) : Winds id phase (.act (.step id)) .stopped
  | returns (hopened : phase ≠ .opening) : Winds id phase (.act (.step id)) .stopped
  | sleeps : Winds id phase (.wake id) phase
  | wakes {due : Nat} (hwaits : phase = .backingOff due) : Winds id phase (.wake id) .opening

/-- A move of another loop leaves a loop alone. -/
theorem getElem?_loops_of_step (hl : h.loops[id]? = some l) {other : Nat} (hne : other ≠ id) :
    (h.stepOnce other).loops[id]? = some l := by
  rcases h.stepOnce_cases other with ⟨-, hsame⟩ | ⟨r, hr, hstep⟩
  · rw [hsame]
    exact hl
  · obtain ⟨p, hp⟩ := hstep.exists_phase hr
    rw [hp, getElem?_setPhase hr, if_neg hne.symm]
    exact hl

theorem winds_step (hl : h.loops[id]? = some l) (hcancelled : h.isCancelled l.token = true) :
    ∃ p, (h.stepOnce id).loops[id]? = some { l with phase := p } ∧
      Winds id l.phase (.act (.step id)) p := by
  have hset (g : Hub) (p : Phase) (hg : g.loops = (h.setPhase id p).loops) :
      g.loops[id]? = some { l with phase := p } := by
    rw [hg, getElem?_setPhase hl, if_pos rfl]
  -- Every step but the first one of a subscription looks at the token before anything else.
  have hdead (hlive : h.isCancelled l.token = false) : False := by
    cases hlive.symm.trans hcancelled
  rcases h.stepOnce_cases id with ⟨hrest, hsame⟩ | ⟨r, hr, hstep⟩
  · have hstopped := stopped_of_rest hl hcancelled hrest
    refine ⟨.stopped, ?_, .returns (by simp [hstopped])⟩
    rw [hsame, ← hstopped]
    exact hl
  · cases hl.symm.trans hr
    generalize h.stepOnce id = after at hstep
    cases hstep with
    | start hphase _ => exact ⟨_, hset _ _ rfl, .subscribes hphase _ _⟩
    | breakDown hphase _ => exact ⟨_, hset _ .stopped rfl, .breaksDown hphase⟩
    | stop hopened _ _ => exact ⟨_, hset _ _ rfl, .returns hopened⟩
    | item _ hlive => exact (hdead hlive).elim
    | event _ hlive _ => exact (hdead hlive).elim
    | resync _ hlive _ _ => exact (hdead hlive).elim
    | wake _ hlive _ => exact (hdead hlive).elim

/-- A cancelled loop winds down whatever happens. -/
theorem winds_move (hl : h.loops[id]? = some l) (hcancelled : h.isCancelled l.token = true)
    (m : Move) :
    ∃ p, (h.move m).loops[id]? = some { l with phase := p } ∧ Winds id l.phase m p := by
  have hkept {m : Move} (hloops : (h.move m).loops[id]? = some l) (hother : m.loop? ≠ some id) :
      ∃ p, (h.move m).loops[id]? = some { l with phase := p } ∧ Winds id l.phase m p :=
    ⟨l.phase, hloops, .other hother⟩
  cases m with
  | wake other =>
    by_cases heq : other = id
    · subst heq
      rcases h.wakeUp_cases other with hsame | ⟨r, due, hr, hphase, -, hwakes⟩
      · exact ⟨l.phase, (congrArg (·.loops[other]?) hsame).trans hl, .sleeps⟩
      · cases hl.symm.trans hr
        refine ⟨.opening, ?_, .wakes hphase⟩
        show (h.wakeUp other).loops[other]? = _
        rw [hwakes, getElem?_setPhase hl, if_pos rfl]
    · refine hkept ?_ (by simpa [Move.loop?] using heq)
      show (h.wakeUp other).loops[id]? = some l
      rcases h.wakeUp_cases other with hsame | ⟨r, due, hr, -, -, hwakes⟩
      · rw [hsame]
        exact hl
      · rw [hwakes, getElem?_setPhase hr, if_neg (Ne.symm heq)]
        exact hl
  | act a =>
    cases a with
    | step other =>
      by_cases heq : other = id
      · subst heq
        exact winds_step hl hcancelled
      · exact hkept (getElem?_loops_of_step hl heq) (by simpa [Move.loop?] using heq)
    | outside s =>
      exact hkept ((congrArg (·[id]?) (h.loops_meet s)).trans hl) (by simp [Move.loop?])
    | start r =>
      have hlt := (List.getElem?_eq_some_iff.mp hl).1
      exact hkept ((List.getElem?_append_left hlt).trans hl) (by simp [Move.loop?])
    | release source => exact hkept hl (by simp [Move.loop?])

/-- A cancelled loop has no event to apply. -/
theorem delivery?_of_cancelled (hl : h.loops[id]? = some l)
    (hcancelled : h.isCancelled l.token = true) : h.delivery? id = none := by
  simp [delivery?, hl, nextEvent?, hcancelled]

theorem ne_of_mem_gives (hl : h.loops[id]? = some l) (hcancelled : h.isCancelled l.token = true)
    {m : Move} {d : Delivery} (hd : d ∈ h.gives m) : d.loop ≠ id := by
  cases m with
  | wake other => cases hd
  | act a =>
    cases a with
    | step other =>
      have hdelivery := Option.mem_toList.mp hd
      obtain ⟨-, -, -, hloop, -⟩ := delivery?_eq_some_iff.mp hdelivery
      rintro heq
      obtain rfl : other = id := hloop.symm.trans heq
      cases (delivery?_of_cancelled hl hcancelled).symm.trans hdelivery
    | outside s => cases hd
    | start r => cases hd
    | release source => cases hd

/-- The moves of a cancelled loop change no store, and nothing is published by them. -/
theorem alike_own_move (hl : h.loops[id]? = some l) (hcancelled : h.isCancelled l.token = true)
    {m : Move} (hown : m.loop? = some id) : Alike (h.move m) h := by
  have hnothing : h.gives m = [] := by
    cases m with
    | wake other => rfl
    | act a =>
      cases a with
      | step other =>
        cases hown
        show (h.delivery? id).toList = []
        rw [delivery?_of_cancelled hl hcancelled]
        rfl
      | outside s => rfl
      | start r => rfl
      | release source => rfl
  have hmove := h.alike_move m
  rwa [hnothing] at hmove

/-! ## Subscriptions and steps that are left -/

theorem countP_opens_of_other {m : Move} (hother : m.loop? ≠ some id) :
    (h.opens m).countP (·.loop = id) = 0 := by
  cases m with
  | wake other => rfl
  | act a =>
    cases a with
    | step other =>
      have hne : other ≠ id := fun heq => hother (congrArg some heq)
      simp only [opens]
      split
      · split <;> simp [hne]
      · rfl
    | outside s => rfl
    | start r => rfl
    | release source => rfl

theorem Winds.openings_le (hl : h.loops[id]? = some l) {m : Move} {p : Phase}
    (hwinds : Winds id l.phase m p) :
    (h.opens m).countP (·.loop = id) + p.openingsLeft ≤ l.phase.openingsLeft := by
  cases hwinds with
  | other hother => simp [countP_opens_of_other hother]
  | subscribes hopening items deadline => simp [opens, hl, hopening, Phase.openingsLeft]
  | breaksDown hopening => simp [opens, hl, hopening, Phase.openingsLeft]
  | returns hopened => simp [opens, hl, hopened, Phase.openingsLeft]
  | sleeps => simp [opens]
  | wakes hwaits => simp [opens, hwaits, Phase.openingsLeft]

theorem Winds.steps_le {phase : Phase} {m : Move} {p : Phase} (hwinds : Winds id phase m p) :
    p.stepsLeft ≤ phase.stepsLeft - [m].countP (·.isStepOf id) := by
  cases hwinds with
  | @other m hother =>
    have hno : m.isStepOf id = false := by
      cases m with
      | wake other => rfl
      | act a =>
        cases a with
        | step other => simpa [Move.isStepOf, Move.loop?] using hother
        | outside s => rfl
        | start r => rfl
        | release source => rfl
    simp [hno]
  | subscribes hopening items deadline => simp [hopening, Move.isStepOf, Phase.stepsLeft]
  | breaksDown _ | returns _ => exact Nat.zero_le _
  | sleeps => simp [Move.isStepOf]
  | wakes hwaits => simp [hwaits, Move.isStepOf, Phase.stepsLeft]

/-- How far a cancelled loop has come after any moves. -/
structure Wound (cut : Hub) (id : Nat) (l : Loop) (moves : List Move) (p : Phase) : Prop where
  loop : (cut.drive moves).loops[id]? = some { l with phase := p }
  cancelled : (cut.drive moves).isCancelled l.token = true
  nothing : ∀ d ∈ cut.deliveries moves, d.loop ≠ id
  openings : (cut.openings moves).countP (·.loop = id) + p.openingsLeft ≤ l.phase.openingsLeft
  steps : p.stepsLeft ≤ l.phase.stepsLeft - moves.countP (·.isStepOf id)

theorem exists_wound (hl : h.loops[id]? = some l) (hcancelled : h.isCancelled l.token = true)
    (moves : List Move) : ∃ p, Wound h id l moves p := by
  induction moves using List.reverseRecOn with
  | nil =>
    refine ⟨l.phase, hl, hcancelled, fun d hd => absurd hd List.not_mem_nil, ?_, ?_⟩
    · exact Nat.le_of_eq (Nat.zero_add _)
    · exact Nat.le_refl _
  | append_singleton moves m ih =>
    obtain ⟨p, hbefore⟩ := ih
    obtain ⟨p', hloop, hwinds⟩ := winds_move hbefore.loop hbefore.cancelled m
    refine ⟨p', ?_, ?_, fun d hd => ?_, ?_, ?_⟩
    · rw [drive_concat]
      exact hloop
    · rw [drive_concat]
      exact isCancelled_move hbefore.cancelled m
    · rw [deliveries, collect_concat] at hd
      rcases List.mem_append.mp hd with hold | hnew
      · exact hbefore.nothing d hold
      · exact ne_of_mem_gives hbefore.loop hbefore.cancelled hnew
    · have hopenings := hbefore.openings
      have hmore := hwinds.openings_le hbefore.loop
      rw [Hub.openings] at hopenings ⊢
      rw [collect_concat, List.countP_append]
      dsimp only at hmore
      omega
    · have hsteps := hbefore.steps
      have hmore := hwinds.steps_le
      rw [List.countP_append]
      dsimp only at hmore
      omega

/-- A cancelled loop has returned when the hub is at rest. -/
theorem Wound.stopped {moves : List Move} {p : Phase} (hwound : Wound h id l moves p)
    (hrest : ∀ other, (h.drive moves).stepLoop other = none) : p = .stopped :=
  stopped_of_rest hwound.loop hwound.cancelled (hrest id)

/-! ## What scripted sources count -/

theorem watches_step (hl : h.loops[id]? = some l) (hstep : Step h id l h')
    {sessions : List (List Item)} {n : Nat}
    (hsource : h.sources[source]? = some (.scripted sessions n)) :
    ∃ rest, h'.sources[source]? =
      some (.scripted rest (n + (h.opens (.act (.step id))).countP (·.source = source))) := by
  have hopens : h.opens (.act (.step id)) =
      if l.phase = .opening then [⟨id, l.source⟩] else [] := by
    simp [opens, hl]
  rw [hopens]
  by_cases hreads : l.source = source
  swap
  · refine ⟨sessions, (hstep.sources_of_ne hreads).trans ?_⟩
    rw [hsource]
    split <;> simp [hreads]
  subst hreads
  have hleft : (h.modifySource l.source (·.leave id)).sources[l.source]? =
      some (.scripted sessions n) := by
    simp [modifySource, hsource, Source.leave]
  cases hstep with
  | start hphase _ =>
    refine ⟨sessions.tail, ?_⟩
    cases sessions <;>
      simp [hphase, openStream, Hub.setPhase, modifySource, hsource, Source.subscribe,
        Source.waitTurn]
  | breakDown hphase _ =>
    refine ⟨sessions.tail, ?_⟩
    rw [breakDown_eq]
    cases sessions <;>
      simp [hphase, Hub.setPhase, modifySource, hsource, Source.subscribe, Source.leave]
  | stop hopened _ _ =>
    rw [if_neg hopened]
    exact ⟨sessions, hleft⟩
  | @item item items deadline hphase _ =>
    rw [hphase, if_neg (by simp)]
    refine ⟨sessions, ?_⟩
    cases item with
    | event e =>
      rw [takeItem, (apply_frame _ _ _).2.2.1]
      exact hsource
    | failure error => exact hsource
    | ended => exact hsource
  | event _ _ hreceive =>
    rw [hsource] at hreceive
    cases hreceive
  | resync hphase _ _ _ =>
    rw [hphase, if_neg (by simp)]
    exact ⟨sessions, hleft⟩
  | wake hphase _ _ =>
    rw [hphase, if_neg (by simp)]
    exact ⟨sessions, hsource⟩

/-- A scripted source counts the subscriptions that are made to it. -/
theorem watches_move {sessions : List (List Item)} {n : Nat}
    (hsource : h.sources[source]? = some (.scripted sessions n)) (m : Move) :
    ∃ rest, (h.move m).sources[source]? =
      some (.scripted rest (n + (h.opens m).countP (·.source = source))) := by
  cases m with
  | wake id =>
    refine ⟨sessions, ?_⟩
    rcases h.wakeUp_cases id with hsame | ⟨l, due, -, -, -, hwakes⟩
    · exact (congrArg (·.sources[source]?) hsame).trans hsource
    · exact (congrArg (·.sources[source]?) hwakes).trans hsource
  | act a =>
    cases a with
    | start l => exact ⟨sessions, hsource⟩
    | release other =>
      refine ⟨sessions, ?_⟩
      by_cases heq : other = source
      · subst heq
        simp [move, Hub.act, Hub.release, modifySource, hsource, opens]
      · simp [move, Hub.act, Hub.release, modifySource, hsource, opens, heq]
    | step id =>
      rcases h.stepOnce_cases id with ⟨hrest, hsame⟩ | ⟨l, hl, hstep⟩
      · have hnothing : h.opens (.act (.step id)) = [] := by
          simp only [opens]
          split
          · next l hl =>
            refine if_neg fun hphase => ?_
            simp only [stepLoop, hl, hphase] at hrest
            split at hrest <;> cases hrest
          · rfl
        rw [hnothing]
        exact ⟨sessions, (congrArg (·.sources[source]?) hsame).trans hsource⟩
      · exact watches_step hl hstep hsource
    | outside s =>
      refine ⟨sessions, ?_⟩
      show (h.meet s).sources[source]? = some (.scripted sessions n)
      cases s with
      | advance ms => exact hsource
      | cancel token => exact hsource
      | feed other e =>
        rcases h.meet_feed_cases other e with hsame | ⟨queue, held, turns, hother, hfed⟩
        · rw [hsame]
          exact hsource
        · have hne : other ≠ source := by
            rintro rfl
            cases hother.symm.trans hsource
          rw [hfed]
          exact (List.getElem?_set_ne hne).trans hsource

theorem watches_drive {sessions : List (List Item)} {n : Nat}
    (hsource : h.sources[source]? = some (.scripted sessions n)) (moves : List Move) :
    ∃ rest, (h.drive moves).sources[source]? =
      some (.scripted rest (n + (h.openings moves).countP (·.source = source))) := by
  induction moves using List.reverseRecOn with
  | nil => exact ⟨sessions, hsource⟩
  | append_singleton moves m ih =>
    obtain ⟨middle, hmiddle⟩ := ih
    obtain ⟨rest, hrest⟩ := watches_move hmiddle m
    refine ⟨rest, ?_⟩
    rw [drive_concat, hrest, Hub.openings, collect_concat, List.countP_append, Nat.add_assoc]

/-! ## Channels -/

/-- Who reads from a channel has no delay that could end. -/
theorem Line.wakeUp (hline : Line h source queue) (id : Nat) : Line (h.wakeUp id) source queue := by
  rcases h.wakeUp_cases id with hsame | ⟨l, due, hl, hphase, -, hwakes⟩
  · exact hsame.symm ▸ hline
  · rw [hwakes]
    obtain ⟨held, turns, hsource, hturns⟩ := hline.channel
    have hreads : l.source ≠ source := by
      intro heq
      have hreader := hline.readers id l hl heq
      rw [hphase] at hreader
      simp at hreader
    refine hline.setPhase hl rfl rfl rfl hsource (fun heq => absurd heq hreads) fun other => ?_
    rw [hturns]
    split
    · next heq =>
      subst heq
      refine iff_of_false ?_ fun hnow => hreads hnow.1
      rintro ⟨r, deadline, hr, hrsource, -⟩
      cases hl.symm.trans hr
      exact hreads hrsource
    · rfl

theorem Line.move (hline : Line h source queue) {m : Move}
    (hopening : ∀ l, m = .act (.start l) → l.phase = .opening) :
    ∃ queue', Line (h.move m) source queue' ∧
      queue ++ h.arrives source m = takenFrom source (h.gives m) ++ queue' := by
  cases m with
  | wake id => exact ⟨queue, hline.wakeUp id, List.append_nil queue⟩
  | act a => exact hline.act fun l ha => hopening l (congrArg Move.act ha)

/-- What was in the queue and what came is what was taken and what is in the queue. -/
theorem Line.drive (hline : Line h source queue) {moves : List Move}
    (hopening : ∀ l, .act (.start l) ∈ moves → l.phase = .opening) :
    ∃ queue', Line (h.drive moves) source queue' ∧
      queue ++ arrivals source h moves = takenFrom source (h.deliveries moves) ++ queue' := by
  induction moves using List.reverseRecOn with
  | nil => exact ⟨queue, hline, List.append_nil queue⟩
  | append_singleton moves m ih =>
    obtain ⟨middle, hmiddle, hbefore⟩ :=
      ih fun l hl => hopening l (List.mem_append_left [m] hl)
    obtain ⟨queue', hline', hafter⟩ := hmiddle.move (m := m) fun l hm => hopening l (by simp [hm])
    refine ⟨queue', (drive_concat h moves m).symm ▸ hline', ?_⟩
    rw [arrivals, deliveries] at hbefore ⊢
    rw [collect_concat, collect_concat, takenFrom_append, ← List.append_assoc, hbefore,
      List.append_assoc, hafter, List.append_assoc]

end

/-- A cancelled loop returns.

In a hub that has come so far by any moves, the token of a loop is cancelled; then come any further
moves, among them the choice between a cancellation and the end of a delay.  From then on the loop
applies nothing: the stores, what they published and what subscribers get come from the deliveries
of other loops, and no move of the loop changes any of them.  It makes at most one subscription,
as the scripted sources count them.  It has returned when no loop can make a step, when it has made
two steps, and when the hub settles.  The events that were in a channel at the time of the
cancellation and those that come later are taken by other loops in their order, and all of them if
the hub is at rest and some reader goes on. -/
theorem cancelled_loops_return {base : Hub} {before : List Move} {id : Nat} {l : Loop}
    (hl : (base.drive before).loops[id]? = some l)
    (hcancelled : (base.drive before).isCancelled l.token = true) (after : List Move) :
    let cut := base.drive before
    let last := cut.drive after
    let given := cut.deliveries after
    let opened := cut.openings after
    ((∀ d ∈ given, d.loop ≠ id) ∧ Alike last (cut.deliverAll given) ∧
      ∀ first m rest, after = first ++ m :: rest → m.loop? = some id →
        Alike (cut.drive (first ++ [m])) (cut.drive first)) ∧
    (opened.countP (·.loop = id) ≤ 1 ∧
      ∀ (source : Nat) (sessions : List (List Item)) (n : Nat),
        cut.sources[source]? = some (.scripted sessions n) →
        ∃ rest, last.sources[source]? =
          some (.scripted rest (n + opened.countP (·.source = source)))) ∧
    (∃ phase, last.loops[id]? = some { l with phase := phase } ∧
      ((∀ other, last.stepLoop other = none) → phase = .stopped) ∧
      (2 ≤ after.countP (·.isStepOf id) → phase = .stopped) ∧
      (last.Paced → last.settle.loops[id]? = some { l with phase := .stopped })) ∧
    ∀ (source : Nat) (queue : List Event) (held : Bool),
      base.sources[source]? = some (.channel queue held []) →
      (∀ r ∈ base.loops, r.source ≠ source) →
      (∀ r, .act (.start r) ∈ before ++ after → r.phase = .opening) →
      ∃ queued left, (∃ held turns, cut.sources[source]? = some (.channel queued held turns)) ∧
        (∃ held turns, last.sources[source]? = some (.channel left held turns)) ∧
        queued ++ arrivals source cut after = takenFrom source given ++ left ∧
        ((∀ other, last.stepLoop other = none) →
          (∃ r ∈ last.loops, r.source = source ∧ (r.isStopped = false ∨
            last.isCancelled r.token = false ∧ r.deadline? last.now ≠ none)) →
          left = []) := by
  intro cut last given opened
  obtain ⟨phase, hwound⟩ := exists_wound hl hcancelled after
  refine ⟨⟨hwound.nothing, cut.alike_drive after, ?_⟩, ⟨?_, ?_⟩,
    ⟨phase, hwound.loop, hwound.stopped, fun hsteps => ?_, fun hpaced => ?_⟩, ?_⟩
  · rintro first m rest - hown
    obtain ⟨p, hfirst⟩ := exists_wound hl hcancelled first
    rw [drive_concat]
    exact alike_own_move hfirst.loop hfirst.cancelled hown
  · have hmost : l.phase.openingsLeft ≤ 1 := by cases l.phase <;> simp [Phase.openingsLeft]
    have hopenings : opened.countP (·.loop = id) + phase.openingsLeft ≤ l.phase.openingsLeft :=
      hwound.openings
    omega
  · intro source sessions n hsource
    exact watches_drive hsource after
  · have hmost : l.phase.stepsLeft ≤ 2 := by cases l.phase <;> simp [Phase.stepsLeft]
    have hleft := hwound.steps
    exact Phase.eq_stopped_of_stepsLeft (by omega)
  · obtain ⟨ids, hsettle, hrest⟩ := settle_eq_play hpaced
    rw [← drive_acts] at hsettle
    obtain ⟨p, hsettled⟩ := exists_wound hwound.loop hwound.cancelled ((ids.map Act.step).map .act)
    have hloops : last.settle.loops[id]? = some { l with phase := p } :=
      (congrArg (·.loops[id]?) hsettle).trans hsettled.loop
    have htoken : last.settle.isCancelled l.token = true :=
      (congrArg (·.isCancelled l.token) hsettle).trans hsettled.cancelled
    rw [hloops, show p = .stopped from stopped_of_rest hloops htoken (hrest id)]
  · intro source queue held hsource hunread hopening
    have hbegin : Line base source queue := by
      refine ⟨⟨held, [], hsource, fun id => ?_⟩, fun id r hr hreads => ?_⟩
      · refine ⟨fun hmem => absurd hmem List.not_mem_nil, ?_⟩
        rintro ⟨r, deadline, hr, hreads, -⟩
        exact absurd hreads (hunread r (List.mem_of_getElem? hr))
      · exact absurd hreads (hunread r (List.mem_of_getElem? hr))
    obtain ⟨queued, hcut, -⟩ :=
      hbegin.drive fun r hr => hopening r (List.mem_append_left after hr)
    obtain ⟨left, hlast, hall⟩ :=
      hcut.drive fun r hr => hopening r (List.mem_append_right before hr)
    obtain ⟨heldThen, turnsThen, hthen, -⟩ := hcut.channel
    obtain ⟨heldNow, turnsNow, hnow, -⟩ := hlast.channel
    refine ⟨queued, left, ⟨heldThen, turnsThen, hthen⟩, ⟨heldNow, turnsNow, hnow⟩, hall, ?_⟩
    rintro hrest ⟨r, hr, hreads, hlive⟩
    exact hlast.queue_eq_nil hrest hr hreads (hlive.imp_right not_mayEnd)

/-- The delay of a loop is over when its token is cancelled, and it subscribes once more, to a
session with an event that it does not apply; of two loops on a channel, the one that shares the
token leaves the queued event to the other one. -/
theorem cancelled_loops_return_late_wake :
    let kind : Kind := ⟨"example.io", "v1", "Widget"⟩
    let o : Object := { metadata := { name := some "w" } }
    let stores : Hub := (Hub.newStore (Hub.newStore {} kind 4).2 kind 4).2
    let base : Hub := ((stores.addSource .newChannel).2.addSource
      (.ofSessions [[.ended], [.event (.applied o)]])).2
    let red : Loop := { store := 0, source := 0, resync := some 5, backoff := 1, token := "red" }
    let green : Loop := { store := 0, source := 1, resync := none, backoff := 1, token := "red" }
    let blue : Loop := { store := 1, source := 0, resync := none, backoff := 1, token := "blue" }
    let before : List Move := [.act (.start red), .act (.start green), .act (.start blue),
      .act (.step 0), .act (.step 1), .act (.step 2), .act (.step 1),
      .act (.outside (.feed 0 (.restarted []))), .act (.outside (.advance 1)),
      .act (.outside (.cancel "red"))]
    let after : List Move := [.wake 1, .act (.step 1), .act (.step 1), .act (.step 0),
      .act (.step 2)]
    let cut := base.drive before
    let last := cut.drive after
    let given : List Delivery := [⟨2, 0, 1, .restarted []⟩]
    cut.loops[1]? = some { green with phase := .backingOff 1 } ∧ cut.isCancelled "red" = true ∧
      cut.deliveries after = given ∧ Alike last (cut.deliverAll given) ∧
      cut.openings after = [⟨1, 1⟩] ∧ (∃ rest, last.sources[1]? = some (.scripted rest 2)) ∧
      (∀ id, last.stepLoop id = none) ∧
      last.loops[1]? = some { green with phase := .stopped } ∧
      ∃ held turns, last.sources[0]? = some (.channel [] held turns) := by
  intro kind o stores base red green blue before after cut last given
  have hloop : cut.loops[1]? = some { green with phase := .backingOff 1 } := by decide +kernel
  have hcancelled : cut.isCancelled "red" = true := by decide +kernel
  have hgiven : cut.deliveries after = given := by decide +kernel
  have hopened : cut.openings after = [⟨1, 1⟩] := by decide +kernel
  have hopening : ∀ r, .act (.start r) ∈ before ++ after → r.phase = .opening := by
    intro r hr
    have hstarted : r = red ∨ r = green ∨ r = blue := by simpa [before, after] using hr
    rcases hstarted with rfl | rfl | rfl <;> rfl
  have hlength : last.loops.length = 3 := by decide +kernel
  have hrest : ∀ id, last.stepLoop id = none
    | 0 => Option.isNone_iff_eq_none.mp (by decide +kernel)
    | 1 => Option.isNone_iff_eq_none.mp (by decide +kernel)
    | 2 => Option.isNone_iff_eq_none.mp (by decide +kernel)
    | id + 3 => by
      rw [stepLoop, List.getElem?_eq_none (by omega)]
  have hlive : ∃ r ∈ last.loops, r.source = 0 ∧ (r.isStopped = false ∨
      last.isCancelled r.token = false ∧ r.deadline? last.now ≠ none) := by decide +kernel
  have hscript : cut.sources[1]? = some (.scripted [[.event (.applied o)]] 1) := by decide +kernel
  obtain ⟨⟨-, halike, -⟩, ⟨-, hwatches⟩, ⟨phase, hphase, hstopped, -, -⟩, hchannel⟩ :=
    cancelled_loops_return hloop hcancelled after
  obtain ⟨queued, left, -, hleft, -, hempty⟩ :=
    hchannel 0 [] true rfl (fun r hr => absurd hr List.not_mem_nil) hopening
  obtain rfl := hstopped hrest
  obtain rfl := hempty hrest hlive
  have hwatched : ∃ rest, last.sources[1]? =
      some (.scripted rest (1 + (cut.openings after).countP (·.source = 1))) :=
    hwatches 1 _ 1 hscript
  rw [hopened] at hwatched
  exact ⟨hloop, hcancelled, hgiven, hgiven ▸ halike, hopened, hwatched, hrest, hphase, hleft⟩

end Hub

end WatchCache
