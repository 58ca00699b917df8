import WatchCache.Proofs.Hub.Ledger

set_option autoImplicit false

/-!
# Channels with many readers

Any number of loops may read from one channel.  Those that have a subscription stand in line, and
the first of them receives the next event; `Line` is what every act keeps of that.  An event
leaves the queue only when a loop applies it, so what was sent is at any moment what the ledger
says was taken, followed by the queue; and a hub at rest holds nothing back from a loop that goes
on.
-/

namespace WatchCache.Hub

/-! ## The line of a channel -/

/-- A loop has a subscription to a channel. -/
def Waits (h : Hub) (source id : Nat) : Prop :=
  ∃ l deadline, h.loops[id]? = some l ∧ l.source = source ∧ l.phase = .streaming [] deadline

/-- Why a loop may be over: its token was cancelled, or it could not tell when to resync. -/
def MayEnd (h : Hub) (l : Loop) : Prop :=
  h.isCancelled l.token = true ∨ l.deadline? h.now = none

/-- A channel with its queue: those who stand in line are the loops that have a subscription, and
a loop that has none is about to make one or is over for a reason. -/
structure Line (h : Hub) (source : Nat) (queue : List Event) : Prop where
  channel : ∃ held turns, h.sources[source]? = some (.channel queue held turns) ∧
    ∀ id, id ∈ turns ↔ h.Waits source id
  readers : ∀ (id : Nat) (l : Loop), h.loops[id]? = some l → l.source = source →
    l.phase = .opening ∨ (∃ deadline, l.phase = .streaming [] deadline) ∨
      l.phase = .stopped ∧ h.MayEnd l

section

variable {h h' : Hub} {source id : Nat} {l : Loop} {queue : List Event}

theorem getElem?_setPhase (hl : h.loops[id]? = some l) (p : Phase) (other : Nat) :
    (h.setPhase id p).loops[other]? =
      if other = id then some { l with phase := p } else h.loops[other]? := by
  rw [setPhase, List.getElem?_modify]
  by_cases heq : id = other
  · subst heq
    simp [hl]
  · simp [heq, Ne.symm heq]

theorem loops_setPhase_self (hl : h.loops[id]? = some l) :
    (h.setPhase id l.phase).loops = h.loops := by
  refine List.ext_getElem? fun other => ?_
  rw [getElem?_setPhase hl]
  split
  · next heq => exact heq ▸ hl.symm
  · rfl

theorem waits_setPhase (hl : h.loops[id]? = some l) {p : Phase}
    (hloops : h'.loops = (h.setPhase id p).loops) (other : Nat) :
    h'.Waits source other ↔
      if other = id then l.source = source ∧ ∃ deadline, p = .streaming [] deadline
      else h.Waits source other := by
  unfold Waits
  rw [hloops, getElem?_setPhase hl]
  by_cases heq : other = id
  · simp only [if_pos heq, Option.some.injEq]
    constructor
    · rintro ⟨_, deadline, rfl, hsource, hphase⟩
      exact ⟨hsource, deadline, hphase⟩
    · rintro ⟨hsource, deadline, hphase⟩
      exact ⟨_, deadline, rfl, hsource, hphase⟩
  · simp only [if_neg heq]

/-- A reason for a loop to be over stays one. -/
theorem MayEnd.mono (hend : h.MayEnd l)
    (hcancelled : ∀ token, h.isCancelled token = true → h'.isCancelled token = true)
    (hnow : h.now ≤ h'.now) {p : Phase} : h'.MayEnd { l with phase := p } :=
  hend.imp (hcancelled l.token) (Loop.deadline?_mono hnow)

theorem not_mayEnd (hlive : h.isCancelled l.token = false ∧ l.deadline? h.now ≠ none) :
    ¬h.MayEnd l := by
  rintro (hcancelled | hover)
  · cases hlive.1.symm.trans hcancelled
  · exact hlive.2 hover

/-- The line stays right when a loop goes to another phase, if that phase is one of a reader and
the loop is in line exactly if it has a subscription. -/
theorem Line.setPhase (hline : Line h source queue) (hl : h.loops[id]? = some l) {p : Phase}
    (hloops : h'.loops = (h.setPhase id p).loops) (hcancelled : h'.cancelled = h.cancelled)
    (hnow : h'.now = h.now) {queue' : List Event} {held : Bool} {turns : List Nat}
    (hsource : h'.sources[source]? = some (.channel queue' held turns))
    (hphase : l.source = source → p = .opening ∨ (∃ deadline, p = .streaming [] deadline) ∨
      p = .stopped ∧ h.MayEnd l)
    (hturns : ∀ other, other ∈ turns ↔
      if other = id then l.source = source ∧ ∃ deadline, p = .streaming [] deadline
      else h.Waits source other) : Line h' source queue' where
  channel := ⟨held, turns, hsource, fun other =>
    (hturns other).trans (waits_setPhase hl hloops other).symm⟩
  readers := by
    intro other r hr hreads
    rw [MayEnd, isCancelled, hcancelled, hnow]
    rw [hloops, getElem?_setPhase hl] at hr
    split at hr
    · cases hr
      exact hphase hreads
    · exact hline.readers other r hr hreads

theorem Step.cancelled (hstep : Step h id l h') : h'.cancelled = h.cancelled := by
  cases hstep with
  | start _ _ | breakDown _ _ | stop _ _ _ | resync _ _ _ _ | wake _ _ _ => rfl
  | @item item items deadline _ _ =>
    cases item with
    | event e => exact (apply_frame _ _ _).2.1
    | failure error => rfl
    | ended => rfl
  | event _ _ _ => exact (apply_frame _ _ _).2.1

theorem isCancelled_stepOnce (h : Hub) (id : Nat) (token : Token) :
    (h.stepOnce id).isCancelled token = h.isCancelled token := by
  rcases h.stepOnce_cases id with ⟨-, hsame⟩ | ⟨l, -, hstep⟩
  · rw [hsame]
  · exact isCancelled_congr hstep.cancelled token

/-- A step changes no loop but the one that makes it, and that one only in its phase. -/
theorem Step.exists_phase (hl : h.loops[id]? = some l) (hstep : Step h id l h') :
    ∃ p, h'.loops = (h.setPhase id p).loops := by
  cases hstep with
  | start _ _ => exact ⟨_, rfl⟩
  | breakDown _ _ | stop _ _ _ => exact ⟨.stopped, rfl⟩
  | @item item items deadline _ _ =>
    cases item with
    | event e => exact ⟨_, (apply_frame (h.setPhase id (.streaming items deadline)) _ _).2.2.2.1⟩
    | failure error => exact ⟨_, rfl⟩
    | ended => exact ⟨_, rfl⟩
  | event _ _ _ => exact ⟨l.phase, (apply_frame _ _ _).2.2.2.1.trans (loops_setPhase_self hl).symm⟩
  | resync _ _ _ _ => exact ⟨.opening, rfl⟩
  | wake _ _ _ => exact ⟨.opening, rfl⟩

theorem Step.sources_of_ne (hstep : Step h id l h') (hne : l.source ≠ source) :
    h'.sources[source]? = h.sources[source]? := by
  have hmodify (f : Source → Source) :
      (h.modifySource l.source f).sources[source]? = h.sources[source]? := by
    rw [modifySource, List.getElem?_modify]
    simp [hne]
  cases hstep with
  | start _ _ => exact hmodify _
  | breakDown _ _ =>
    rw [breakDown_eq]
    exact hmodify _
  | stop _ _ _ => exact hmodify _
  | @item item items deadline _ _ =>
    cases item with
    | event e => rw [takeItem, (apply_frame _ _ _).2.2.1]; rfl
    | failure error => rfl
    | ended => rfl
  | event _ _ _ =>
    rw [takeEvent, (apply_frame _ _ _).2.2.1]
    exact List.getElem?_set_ne hne
  | resync _ _ _ _ => exact hmodify _
  | wake _ _ _ => rfl

/-! ## One step -/

theorem mem_join (id other : Nat) (turns : List Nat) :
    other ∈ Source.join id turns ↔ other = id ∨ other ∈ turns := by
  unfold Source.join
  split
  · next hin =>
    refine ⟨Or.inr, fun h => h.elim (fun heq => ?_) fun hmem => hmem⟩
    exact heq ▸ List.contains_iff_mem.mp hin
  · rw [List.mem_append, List.mem_singleton, or_comm]

theorem receive?_channel {e : Event} {held : Bool} {turns : List Nat} {t : Source}
    (hreceive : (Source.channel queue held turns).receive? id = some (e, t)) :
    ∃ rest others, queue = e :: rest ∧ Source.join id turns = id :: others ∧
      t = .channel rest held (others ++ [id]) := by
  unfold Source.receive? at hreceive
  split at hreceive
  · next first rest held' turns' heq =>
    cases heq
    split at hreceive
    · next head others hjoin =>
      split at hreceive
      · next hhead =>
        cases hreceive
        exact ⟨rest, others, rfl, hhead ▸ hjoin, rfl⟩
      · cases hreceive
    · cases hreceive
  · cases hreceive

/-- The events that loops took from a source. -/
def takenFrom (source : Nat) (ds : List Delivery) : List Event :=
  (ds.filter (·.source = source)).map Delivery.event

theorem takenFrom_append (source : Nat) (first second : List Delivery) :
    takenFrom source (first ++ second) = takenFrom source first ++ takenFrom source second := by
  simp [takenFrom]

theorem takenFrom_delivery? (hl : h.loops[id]? = some l) :
    takenFrom source (h.delivery? id).toList =
      if l.source = source then (h.nextEvent? id l).toList else [] := by
  unfold delivery?
  rw [hl, Option.bind_some]
  cases h.nextEvent? id l with
  | none => simp [takenFrom]
  | some e =>
    by_cases heq : l.source = source <;> simp [takenFrom, heq]

/-- A loop that gives its subscription up, to make another one or for good, leaves the line. -/
theorem Line.leave (hline : Line h source queue) (hl : h.loops[id]? = some l) {p : Phase}
    (hloops : h'.loops = (h.setPhase id p).loops) (hcancelled : h'.cancelled = h.cancelled)
    (hnow : h'.now = h.now) {f : Source → Source}
    (hsources : h'.sources = (h.modifySource source f).sources)
    (hleave : ∀ queue held turns, f (.channel queue held turns) =
      .channel queue held (turns.filter (· ≠ id)))
    (hphase : p = .opening ∨ p = .stopped ∧ h.MayEnd l) : Line h' source queue := by
  obtain ⟨held, turns, hsource, hturns⟩ := hline.channel
  have hsource' : h'.sources[source]? = some (.channel queue held (turns.filter (· ≠ id))) := by
    simp [hsources, modifySource, hsource, hleave]
  have hout : ∀ deadline, p ≠ .streaming [] deadline := by
    rintro deadline rfl
    simp at hphase
  refine hline.setPhase hl hloops hcancelled hnow hsource' (fun _ => hphase.imp_right Or.inr)
    fun other => ?_
  rw [List.mem_filter, hturns]
  by_cases heq : other = id <;> simp [heq, hout]

/-- The steps of the readers of other sources leave the line alone. -/
theorem Line.step_of_ne (hline : Line h source queue) (hl : h.loops[id]? = some l)
    (hstep : Step h id l h') (hne : l.source ≠ source) : Line h' source queue := by
  obtain ⟨held, turns, hsource, hturns⟩ := hline.channel
  obtain ⟨p, hp⟩ := hstep.exists_phase hl
  refine hline.setPhase hl hp hstep.cancelled hstep.now_eq ((hstep.sources_of_ne hne).trans hsource)
    (fun heq => absurd heq hne) fun other => ?_
  rw [hturns]
  split
  · next heq =>
    subst heq
    refine iff_of_false ?_ fun h => hne h.1
    rintro ⟨r, _, hr, hrsource, -⟩
    cases hl.symm.trans hr
    exact hne hrsource
  · rfl

/-- A step takes from the queue the event that it delivers, and the line stays right. -/
theorem Line.step (hline : Line h source queue) (hl : h.loops[id]? = some l)
    (hstep : Step h id l h') : ∃ queue', Line h' source queue' ∧
      queue = takenFrom source (h.delivery? id).toList ++ queue' := by
  rw [takenFrom_delivery? hl]
  by_cases hreads : l.source = source
  swap
  · rw [if_neg hreads]
    exact ⟨queue, hline.step_of_ne hl hstep hreads, rfl⟩
  subst hreads
  rw [if_pos rfl]
  have hcancelled := hstep.cancelled
  have hnow := hstep.now_eq
  have hreaders := hline.readers id l hl rfl
  obtain ⟨held, turns, hsource, hturns⟩ := hline.channel
  cases hstep with
  | @start deadline hphase hdeadline =>
    have hloops : (h.openStream id l deadline).loops =
        (h.setPhase id (.streaming [] deadline)).loops := by
      simp [openStream, Hub.setPhase, Hub.modifySource, hsource, Source.subscribe]
    have hsource' : (h.openStream id l deadline).sources[l.source]? =
        some (.channel queue held (Source.join id turns)) := by
      simp [openStream, Hub.setPhase, modifySource, hsource, Source.subscribe, Source.waitTurn]
    refine ⟨queue, hline.setPhase hl hloops hcancelled hnow hsource'
      (fun _ => Or.inr (Or.inl ⟨_, rfl⟩)) fun other => ?_, by simp [nextEvent?, hphase]⟩
    rw [mem_join, hturns]
    by_cases heq : other = id <;> simp [heq]
  | breakDown hphase hover =>
    have hsources : (h.breakDown id l).sources =
        (h.modifySource l.source fun s => s.subscribe.2.leave id).sources := by
      rw [breakDown_eq]
      rfl
    exact ⟨queue, hline.leave hl rfl hcancelled hnow hsources (fun _ _ _ => rfl)
      (Or.inr ⟨rfl, Or.inr hover⟩), by simp [nextEvent?, hphase]⟩
  | stop hopened hrunning hstopped =>
    exact ⟨queue, hline.leave hl rfl hcancelled hnow rfl (fun _ _ _ => rfl)
      (Or.inr ⟨rfl, Or.inl hstopped⟩), by simp [nextEvent?, hstopped]⟩
  | item hphase hlive =>
    rw [hphase] at hreaders
    simp at hreaders
  | @event deadline e source' hphase hlive hreceive =>
    rw [hsource, Option.bind_some] at hreceive
    obtain ⟨rest, others, rfl, hjoin, rfl⟩ := receive?_channel hreceive
    have hloops : (h.takeEvent l e (.channel rest held (others ++ [id]))).loops =
        (h.setPhase id l.phase).loops :=
      (apply_frame _ _ _).2.2.2.1.trans (loops_setPhase_self hl).symm
    have hsource' : (h.takeEvent l e (.channel rest held (others ++ [id]))).sources[l.source]? =
        some (.channel rest held (others ++ [id])) := by
      rw [takeEvent, (apply_frame _ _ _).2.2.1]
      exact List.getElem?_set_self (List.getElem?_eq_some_iff.mp hsource).1
    refine ⟨rest, hline.setPhase hl hloops hcancelled hnow hsource'
      (fun _ => Or.inr (Or.inl ⟨deadline, hphase⟩)) fun other => ?_,
      by simp [nextEvent?, hlive, hphase, hsource, hreceive]⟩
    -- the loop was first in line and goes behind all others
    have hline' : other ∈ others ++ [id] ↔ other = id ∨ h.Waits l.source other := by
      rw [← hturns, ← mem_join, hjoin, List.mem_append, List.mem_singleton, List.mem_cons,
        or_comm]
    rw [hline']
    by_cases heq : other = id <;> simp [heq, hphase]
  | resync hphase hlive hsilent _ =>
    exact ⟨queue, hline.leave hl rfl hcancelled hnow rfl (fun _ _ _ => rfl) (Or.inl rfl), by
      simp [nextEvent?, hlive, hphase, hsilent]⟩
  | wake hphase hlive _ =>
    rw [hphase] at hreaders
    simp at hreaders

/-! ## Any acts -/

/-- The line depends on the loops, on who was cancelled, and on who stands in line. -/
theorem Line.congr (hline : Line h source queue) {queue' : List Event} (hloops : h'.loops = h.loops)
    (hcancelled : ∀ token, h.isCancelled token = true → h'.isCancelled token = true)
    (hnow : h.now ≤ h'.now)
    (hchannel : ∀ held turns, h.sources[source]? = some (.channel queue held turns) →
      ∃ held', h'.sources[source]? = some (.channel queue' held' turns)) :
    Line h' source queue' where
  channel := by
    obtain ⟨held, turns, hsource, hturns⟩ := hline.channel
    obtain ⟨held', hsource'⟩ := hchannel held turns hsource
    refine ⟨held', turns, hsource', fun other => ?_⟩
    rw [hturns, Waits, Waits, hloops]
  readers := by
    intro other r hr hreads
    rw [hloops] at hr
    rcases hline.readers other r hr hreads with hopening | hwaiting | ⟨hstopped, hgone⟩
    · exact Or.inl hopening
    · exact Or.inr (Or.inl hwaiting)
    · exact Or.inr (Or.inr ⟨hstopped, hgone.mono hcancelled hnow⟩)

/-- One more loop, which has no subscription yet. -/
theorem Line.spawn (hline : Line h source queue) (hopening : l.phase = .opening) :
    Line (h.spawn l).2 source queue where
  channel := by
    obtain ⟨held, turns, hsource, hturns⟩ := hline.channel
    refine ⟨held, turns, hsource, fun other => ?_⟩
    rw [hturns, Waits, Waits, Hub.spawn]
    refine exists_congr fun r => exists_congr fun deadline => ?_
    simp only [List.getElem?_append]
    split
    · rfl
    · next hge =>
      rw [List.getElem?_eq_none (Nat.le_of_not_lt hge), List.getElem?_singleton]
      constructor
      · rintro ⟨hnone, -⟩
        cases hnone
      · rintro ⟨hsome, -, hphase⟩
        split at hsome
        · cases hsome
          rw [hopening] at hphase
          cases hphase
        · cases hsome
  readers := by
    intro other r hr hreads
    simp only [Hub.spawn, List.getElem?_append] at hr
    split at hr
    · exact hline.readers other r hr hreads
    · rw [List.getElem?_singleton] at hr
      split at hr
      · cases hr
        exact Or.inl hopening
      · cases hr

/-- The event that an act puts into a channel. -/
def accepted (h : Hub) (source : Nat) : Act → List Event
  | .outside (.feed other e) =>
    match h.feed other e with
    | .ok _ => if other = source then [e] else []
    | .error _ => []
  | _ => []

/-- The events that were put into a channel by acts, in order. -/
def sent (source : Nat) : Hub → List Act → List Event
  | _, [] => []
  | h, a :: rest => h.accepted source a ++ sent source (h.act a) rest

@[simp] theorem sent_concat (source : Nat) (h : Hub) (acts : List Act) (a : Act) :
    sent source h (acts ++ [a]) = sent source h acts ++ (h.play acts).accepted source a := by
  induction acts generalizing h with
  | nil => simp [sent]
  | cons first rest ih =>
    rw [List.cons_append, sent, ih, sent, List.append_assoc]
    rfl

/-- A stimulus puts what it sends at the end of the queue. -/
theorem Line.meet (hline : Line h source queue) (s : Stimulus) :
    Line (h.meet s) source (queue ++ h.accepted source (.outside s)) := by
  cases s with
  | advance ms =>
    simp only [accepted, List.append_nil]
    exact hline.congr rfl (fun _ => id) (Nat.le_add_right h.now ms) fun held _ hsource =>
      ⟨held, hsource⟩
  | cancel token =>
    simp only [accepted, List.append_nil]
    refine hline.congr rfl (fun other hgone => ?_) (Nat.le_refl _) fun held _ hsource =>
      ⟨held, hsource⟩
    exact List.contains_iff_mem.mpr (List.mem_cons_of_mem token (List.contains_iff_mem.mp hgone))
  | feed other e =>
    simp only [accepted, Hub.meet]
    cases hfeed : h.feed other e with
    | error _ =>
      rw [List.append_nil]
      exact hline
    | ok fed =>
      obtain ⟨queue', held', turns', hother, rfl⟩ := feed_ok hfeed
      dsimp only
      split
      · next heq =>
        subst heq
        refine hline.congr rfl (fun _ => id) (Nat.le_refl _) fun held turns hsource => ?_
        cases hother.symm.trans hsource
        exact ⟨_, List.getElem?_set_self (List.getElem?_eq_some_iff.mp hother).1⟩
      · next hne =>
        rw [List.append_nil]
        exact hline.congr rfl (fun _ => id) (Nat.le_refl _) fun held turns hsource =>
          ⟨held, (List.getElem?_set_ne hne).trans hsource⟩

theorem Line.act (hline : Line h source queue) {a : Act}
    (hopening : ∀ l, a = .start l → l.phase = .opening) :
    ∃ queue', Line (h.act a) source queue' ∧
      queue ++ h.accepted source a = takenFrom source (h.delivers a) ++ queue' := by
  cases a with
  | outside s => exact ⟨_, hline.meet s, by simp [delivers, takenFrom]⟩
  | step id =>
    have hnothing : h.accepted source (.step id) = [] := rfl
    rw [hnothing, List.append_nil]
    rcases h.stepOnce_cases id with ⟨hrest, hsame⟩ | ⟨l, hl, hstep⟩
    · refine ⟨queue, ?_, by simp [delivers, delivery?_eq_none_of_rest hrest, takenFrom]⟩
      show Line (h.stepOnce id) source queue
      exact hsame.symm ▸ hline
    · exact hline.step hl hstep
  | start l =>
    exact ⟨queue, hline.spawn (hopening l rfl), by simp [accepted, delivers, takenFrom]⟩
  | release other =>
    refine ⟨queue, hline.congr rfl (fun _ => id) (Nat.le_refl _) fun held turns hsource => ?_, by
      simp [accepted, delivers, takenFrom]⟩
    by_cases heq : other = source
    · subst heq
      exact ⟨false, by simp [Hub.act, Hub.release, Hub.modifySource, hsource]⟩
    · refine ⟨held, ?_⟩
      simp [Hub.act, Hub.release, Hub.modifySource, hsource, heq]

/-- What was in the queue and what was sent is what was taken and what is in the queue. -/
theorem Line.play (hline : Line h source queue) {acts : List Act}
    (hopening : ∀ l, .start l ∈ acts → l.phase = .opening) :
    ∃ queue', Line (h.play acts) source queue' ∧
      queue ++ sent source h acts = takenFrom source (h.ledger acts) ++ queue' := by
  induction acts using List.reverseRecOn with
  | nil => exact ⟨queue, hline, by simp [sent, takenFrom]⟩
  | append_singleton acts a ih =>
    obtain ⟨middle, hmiddle, hbefore⟩ :=
      ih fun l hl => hopening l (List.mem_append_left [a] hl)
    obtain ⟨queue', hline', hafter⟩ := hmiddle.act (a := a) fun l ha => hopening l (by simp [ha])
    refine ⟨queue', (play_concat h acts a).symm ▸ hline', ?_⟩
    rw [sent_concat, ledger_concat, takenFrom_append, ← List.append_assoc, hbefore,
      List.append_assoc, hafter, List.append_assoc]

/-- A channel has nothing left when its readers are at rest, unless all of them are over. -/
theorem Line.queue_eq_nil (hline : Line h source queue) (hrest : ∀ id, h.stepLoop id = none)
    (hmem : l ∈ h.loops) (hsource : l.source = source)
    (hlive : l.isStopped = false ∨ ¬h.MayEnd l) : queue = [] := by
  have hstuck {other : Nat} {r : Loop} {h'' : Hub} (hr : h.loops[other]? = some r)
      (hstep : Step h other r h'') : False := by
    have hnone := hrest other
    rw [hstep.stepLoop_eq hr] at hnone
    cases hnone
  obtain ⟨id, hl⟩ := List.getElem?_of_mem hmem
  obtain ⟨held, turns, hchannel, hturns⟩ := hline.channel
  rcases hline.readers id l hl hsource with hopening | ⟨deadline, hwaiting⟩ | ⟨hover, hgone⟩
  · cases hdeadline : l.deadline? h.now with
    | some deadline => exact (hstuck hl (.start hopening hdeadline)).elim
    | none => exact (hstuck hl (.breakDown hopening hdeadline)).elim
  · -- somebody is first in line, and could take an event or return
    have hin : id ∈ turns := (hturns id).mpr ⟨l, deadline, hl, hsource, hwaiting⟩
    cases hline' : turns with
    | nil =>
      rw [hline'] at hin
      cases hin
    | cons first others =>
      obtain ⟨r, deadline', hr, hrsource, hrphase⟩ :=
        (hturns first).mp (hline' ▸ List.mem_cons_self)
      cases hcancelled : h.isCancelled r.token with
      | true => exact (hstuck hr (.stop (by simp [hrphase]) (by simp [hrphase]) hcancelled)).elim
      | false =>
        cases queue with
        | nil => rfl
        | cons e rest =>
          have hreceive : (h.sources[r.source]?).bind (·.receive? first) =
              some (e, .channel rest held (others ++ [first])) := by
            simp [hrsource, hchannel, hline', Source.receive?, Source.join]
          exact (hstuck hr (.event hrphase hcancelled hreceive)).elim
  · rcases hlive with hrunning | hreason
    · simp [Loop.isStopped, hover] at hrunning
    · exact absurd hgone hreason

end

/-! ## Deliveries of loops -/

/-- A loop keeps its source and its store. -/
theorem exists_loop_act {h : Hub} {id : Nat} {l : Loop} (hl : h.loops[id]? = some l) (a : Act) :
    ∃ r, (h.act a).loops[id]? = some r ∧ r.source = l.source ∧ r.store = l.store := by
  cases a with
  | outside s => exact ⟨l, (congrArg (·[id]?) (h.loops_meet s)).trans hl, rfl, rfl⟩
  | step other =>
    rcases h.stepOnce_cases other with ⟨-, hsame⟩ | ⟨r, hr, hstep⟩
    · exact ⟨l, (congrArg (fun g : Hub => g.loops[id]?) hsame).trans hl, rfl, rfl⟩
    · obtain ⟨p, hp⟩ := hstep.exists_phase hr
      have hlookup : (h.stepOnce other).loops[id]? = _ :=
        (congrArg (·[id]?) hp).trans (getElem?_setPhase hr p id)
      split at hlookup
      · next heq =>
        subst heq
        cases hl.symm.trans hr
        exact ⟨_, hlookup, rfl, rfl⟩
      · exact ⟨l, hlookup.trans hl, rfl, rfl⟩
  | start r => exact ⟨l, (List.getElem?_append_left (List.getElem?_eq_some_iff.mp hl).1).trans hl,
      rfl, rfl⟩
  | release source => exact ⟨l, hl, rfl, rfl⟩

/-- Every entry of the ledger is of a loop, its source and its store. -/
theorem exists_loop_of_mem_ledger {h : Hub} {acts : List Act} {d : Delivery}
    (hd : d ∈ h.ledger acts) :
    ∃ l, (h.play acts).loops[d.loop]? = some l ∧ l.source = d.source ∧ l.store = d.store := by
  induction acts using List.reverseRecOn with
  | nil => cases hd
  | append_singleton acts a ih =>
    rw [ledger_concat] at hd
    have hbefore : ∃ l, (h.play acts).loops[d.loop]? = some l ∧ l.source = d.source ∧
        l.store = d.store := by
      rcases List.mem_append.mp hd with hold | hnew
      · exact ih hold
      · cases a with
        | step id =>
          obtain ⟨l, hl, -, rfl, hsource, hstore⟩ :=
            delivery?_eq_some_iff.mp (Option.mem_toList.mp hnew)
          exact ⟨l, hl, hsource.symm, hstore.symm⟩
        | outside s => cases hnew
        | start l => cases hnew
        | release source => cases hnew
    obtain ⟨l, hl, hsource, hstore⟩ := hbefore
    obtain ⟨r, hr, hrsource, hrstore⟩ := exists_loop_act hl a
    rw [play_concat]
    exact ⟨r, hr, hrsource.trans hsource, hrstore.trans hstore⟩

/-! ## Every event once -/

/-- What is sent into a channel is applied once, by one loop.

A channel that no loop reads yet is given to any number of loops, which step in any order while
they are started and cancelled, the clock moves and events are sent.  The events that were sent
are at any moment those that the ledger says loops took, in its order, followed by those in the
queue; so every loop applies its events in the order in which they were sent.  The stores, what
they published and the counters of events are what the ledger makes of them.  When no loop can
make a step, nothing is in the queue as long as some loop goes on; and every loop does whose token
was not cancelled, if it can tell when to resync. -/
theorem channel_delivers_each_event_once {base : Hub} {source : Nat} {queue : List Event}
    {held : Bool} (hsource : base.sources[source]? = some (.channel queue held []))
    (hunread : ∀ l ∈ base.loops, l.source ≠ source) (acts : List Act)
    (hopening : ∀ l, .start l ∈ acts → l.phase = .opening) :
    let last := base.play acts
    let ledger := base.ledger acts
    let all := queue ++ sent source base acts
    Alike last (base.deliverAll ledger) ∧
    (∀ d ∈ ledger, ∃ l, last.loops[d.loop]? = some l ∧ l.source = d.source ∧
      l.store = d.store) ∧
    ∃ queued held' turns, last.sources[source]? = some (.channel queued held' turns) ∧
      all = takenFrom source ledger ++ queued ∧
      (∀ id, (takenFrom source (ledger.filter (·.loop = id))).Sublist all) ∧
      ((∀ id, last.stepLoop id = none) →
        (∃ l ∈ last.loops, l.source = source ∧ (l.isStopped = false ∨
          last.isCancelled l.token = false ∧ l.deadline? last.now ≠ none)) →
        queued = []) := by
  intro last ledger all
  have hbegin : Line base source queue := by
    refine ⟨⟨held, [], hsource, fun id => ?_⟩, fun id l hl hreads => ?_⟩
    · refine ⟨fun hmem => absurd hmem List.not_mem_nil, ?_⟩
      rintro ⟨l, deadline, hl, hreads, -⟩
      exact absurd hreads (hunread l (List.mem_of_getElem? hl))
    · exact absurd hreads (hunread l (List.mem_of_getElem? hl))
  obtain ⟨queued, hline, hall⟩ := hbegin.play hopening
  obtain ⟨held', turns, hchannel, -⟩ := hline.channel
  refine ⟨alike_play base acts, fun d hd => exists_loop_of_mem_ledger hd, queued, held', turns,
    hchannel, hall, fun id => ?_, ?_⟩
  · have htaken : (takenFrom source (ledger.filter (·.loop = id))).Sublist
        (takenFrom source ledger) :=
      (List.filter_sublist.filter _).map Delivery.event
    have hprefix : (takenFrom source ledger).Sublist all := by
      rw [show all = takenFrom source ledger ++ queued from hall]
      exact List.sublist_append_left _ queued
    exact htaken.trans hprefix
  · rintro hrest ⟨l, hl, hreads, hlive⟩
    exact hline.queue_eq_nil hrest hl hreads (hlive.imp_right not_mayEnd)

/-- Two loops take turns; one is resynced while it waits and the other one is cancelled, the
channel is let go of, and the last event finds the loop that is left. -/
theorem channel_delivers_each_event_once_two_loops :
    let kind : Kind := ⟨"example.io", "v1", "Widget"⟩
    let o : Object := { metadata := { name := some "w" } }
    let base : Hub := ((Hub.newStore (Hub.newStore {} kind 4).2 kind 4).2.addSource .newChannel).2
    let red : Loop := { store := 0, source := 0, resync := some 5, backoff := 1, token := "red" }
    let blue : Loop := { store := 1, source := 0, resync := none, backoff := 1, token := "blue" }
    let acts : List Act := [.outside (.feed 0 (.restarted [])), .start red, .start blue, .step 0,
      .step 1, .outside (.feed 0 (.applied o)), .step 0, .step 1, .step 0,
      .outside (.feed 0 (.deleted o)), .outside (.advance 5), .step 0, .step 1, .step 0, .step 0,
      .release 0, .outside (.cancel "blue"), .outside (.feed 0 (.restarted [o])), .step 0, .step 1,
      .step 0]
    let last := base.play acts
    let ledger : List Delivery := [⟨0, 0, 0, .restarted []⟩, ⟨1, 0, 1, .applied o⟩,
      ⟨0, 0, 0, .deleted o⟩, ⟨0, 0, 0, .restarted [o]⟩]
    base.ledger acts = ledger ∧ Alike last (base.deliverAll ledger) ∧
      sent 0 base acts = takenFrom 0 ledger ∧ (∀ id, last.stepLoop id = none) ∧
      ∃ held turns, last.sources[0]? = some (.channel [] held turns) := by
  intro kind o base red blue acts last ledger
  have hopening : ∀ l, .start l ∈ acts → l.phase = .opening := by
    intro l hl
    have hstarted : l = red ∨ l = blue := by simpa [acts] using hl
    rcases hstarted with rfl | rfl <;> rfl
  have hledger : base.ledger acts = ledger := by decide +kernel
  have hlength : last.loops.length = 2 := by decide +kernel
  have hrest : ∀ id, last.stepLoop id = none
    | 0 => Option.isNone_iff_eq_none.mp (by decide +kernel)
    | 1 => Option.isNone_iff_eq_none.mp (by decide +kernel)
    | id + 2 => by
      rw [stepLoop, List.getElem?_eq_none (by omega)]
  have hlive : ∃ l ∈ last.loops, l.source = 0 ∧ (l.isStopped = false ∨
      last.isCancelled l.token = false ∧ l.deadline? last.now ≠ none) := by decide +kernel
  have hsource : base.sources[0]? = some (.channel [] true []) := rfl
  obtain ⟨halike, -, queued, held, turns, hchannel, hall, -, hempty⟩ :=
    channel_delivers_each_event_once hsource (by decide) acts hopening
  rw [hledger] at halike hall
  obtain rfl : queued = [] := hempty hrest hlive
  rw [List.append_nil] at hall
  exact ⟨hledger, halike, hall, hrest, held, turns, hchannel⟩

end WatchCache.Hub
