import WatchCache.Proofs.Hub.Channel

set_option autoImplicit false

/-!
# Scripted sources

A scripted source hands out its sessions one after the other, and the loop that reads from it
takes the events of each session in their order.  `Progress` says how far the loop has come: what
it has taken, what its subscription still holds and what the sessions after it hold are together
what the script holds.  Only a loop that has returned leaves something behind.
-/

namespace WatchCache

/-- The events that a subscription still holds for a loop. -/
def Phase.pending : Phase → List Event
  | .streaming items _ => delivered items
  | _ => []

@[simp] theorem delivered_event (e : Event) (items : List Item) :
    delivered (.event e :: items) = e :: delivered items := rfl

@[simp] theorem delivered_failure (error : CacheError) (items : List Item) :
    delivered (.failure error :: items) = delivered items := rfl

/-- The events of a script. -/
def eventsOf (script : List (List Item)) : List Event := script.flatMap delivered

namespace Hub

/-- Events were taken from a source with a script, of which these sessions are left. -/
structure Progress (h : Hub) (source : Nat) (script rest : List (List Item))
    (taken : List Event) : Prop where
  left : ∃ watches, h.sources[source]? = some (.scripted rest watches)
  order : taken <+: eventsOf script
  unread : (∀ l ∈ h.loops, l.source ≠ source) → taken ++ eventsOf rest = eventsOf script
  reading : ∀ l ∈ h.loops, l.source = source → l.phase ≠ .stopped →
    taken ++ l.phase.pending ++ eventsOf rest = eventsOf script

/-- No two loops read from one source. -/
def OneReader (h : Hub) : Prop := (h.loops.map Loop.source).Nodup

section

variable {h h' : Hub} {source id : Nat} {l : Loop} {script rest : List (List Item)}
  {taken : List Event}

/-- Nothing was taken yet. -/
theorem progress_new (hsource : h.sources[source]? = some (.ofSessions script))
    (hopening : ∀ l ∈ h.loops, l.source = source → l.phase = .opening) :
    Progress h source script script [] where
  left := ⟨0, hsource⟩
  order := List.nil_prefix
  unread := fun _ => rfl
  reading := by
    intro l hl hreads _
    rw [hopening l hl hreads]
    rfl

/-- Whoever has the same loops and the same sources is as far. -/
theorem Progress.congr (hp : Progress h source script rest taken) (hloops : h'.loops = h.loops)
    (hsources : h'.sources = h.sources) : Progress h' source script rest taken where
  left := by
    rw [hsources]
    exact hp.left
  order := hp.order
  unread := by
    rw [hloops]
    exact hp.unread
  reading := by
    rw [hloops]
    exact hp.reading

/-- Loops that were there have not moved, and new ones have not begun. -/
theorem Progress.grow (hp : Progress h source script rest taken)
    (hsources : h.sources <+: h'.sources) {started : List Loop}
    (hloops : h'.loops = h.loops ++ started) (hopening : ∀ l ∈ started, l.phase = .opening)
    (hone : h'.OneReader) : Progress h' source script rest taken where
  left := by
    obtain ⟨watches, hsource⟩ := hp.left
    obtain ⟨hlt, hsome⟩ := List.getElem?_eq_some_iff.mp hsource
    exact ⟨watches, hsome ▸ List.prefix_iff_getElem?.mp hsources source hlt⟩
  order := hp.order
  unread := by
    intro hnobody
    refine hp.unread fun l hl => hnobody l ?_
    rw [hloops]
    exact List.mem_append_left _ hl
  reading := by
    intro l hl hreads hrunning
    rw [hloops] at hl
    rcases List.mem_append.mp hl with hold | hnew
    · exact hp.reading l hold hreads hrunning
    · -- a new loop is the only reader of its source
      rw [OneReader, hloops, List.map_append] at hone
      have hnobody : ∀ other ∈ h.loops, other.source ≠ source := by
        intro other hother heq
        exact (List.nodup_append.mp hone).2.2 _ (List.mem_map_of_mem hother) _
          (List.mem_map_of_mem hnew) (heq.trans hreads.symm)
      rw [hopening l hnew]
      exact (congrArg (· ++ eventsOf rest) (List.append_nil taken)).trans (hp.unread hnobody)

/-- Loops and sources that a stimulus leaves alone. -/
theorem Progress.meet (hp : Progress h source script rest taken) (s : Stimulus) :
    Progress (h.meet s) source script rest taken where
  left := by
    obtain ⟨watches, hsource⟩ := hp.left
    refine ⟨watches, ?_⟩
    cases s with
    | advance ms => exact hsource
    | cancel token => exact hsource
    | feed other e =>
      rcases h.meet_feed_cases other e with hsame | ⟨queue, held, turns, hchannel, hfed⟩
      · rw [hsame]
        exact hsource
      · have hne : other ≠ source := by
          rintro rfl
          rw [hsource] at hchannel
          cases hchannel
        rw [hfed]
        exact (List.getElem?_set_ne hne).trans hsource
  order := hp.order
  unread := by
    rw [loops_meet]
    exact hp.unread
  reading := by
    rw [loops_meet]
    exact hp.reading

/-! ## One step -/

/-- A loop after a change of the phase of one of them. -/
theorem mem_loops_setPhase (hl : h.loops[id]? = some l) {p : Phase}
    (hloops : h'.loops = (h.setPhase id p).loops) {r : Loop} (hr : r ∈ h'.loops) :
    r = { l with phase := p } ∨ ∃ other, other ≠ id ∧ h.loops[other]? = some r := by
  rw [hloops] at hr
  obtain ⟨other, hother⟩ := List.mem_iff_getElem?.mp hr
  rw [getElem?_setPhase hl] at hother
  split at hother
  · exact Or.inl (Option.some.inj hother).symm
  · next hne => exact Or.inr ⟨other, hne, hother⟩

/-- The reader of a source is a single loop. -/
theorem OneReader.eq (hone : h.OneReader) (hl : h.loops[id]? = some l) {other : Nat} {r : Loop}
    (hr : h.loops[other]? = some r) (hsame : r.source = l.source) : other = id := by
  have hsource : (h.loops.map Loop.source)[id]? = some l.source := by simp [hl]
  have hsource' : (h.loops.map Loop.source)[other]? = some l.source := by simp [hr, hsame]
  have hlt := (List.getElem?_eq_some_iff.mp hsource').1
  exact (List.getElem?_inj hlt hone).mp (hsource'.trans hsource.symm)

/-- The reader goes to another phase, and takes what the two phases differ by; or it returns. -/
theorem Progress.setPhase (hp : Progress h l.source script rest taken) (hone : h.OneReader)
    (hl : h.loops[id]? = some l) (hrunning : l.phase ≠ .stopped) {p : Phase}
    (hloops : h'.loops = (h.setPhase id p).loops) {rest' : List (List Item)} {watches : Nat}
    (hsource : h'.sources[l.source]? = some (.scripted rest' watches)) {new : List Event}
    (hevents : l.phase.pending ++ eventsOf rest = new ++ (p.pending ++ eventsOf rest') ∨
      p = .stopped ∧ new = []) :
    Progress h' l.source script rest' (taken ++ new) := by
  have hall := hp.reading l (List.mem_of_getElem? hl) rfl hrunning
  rw [List.append_assoc] at hall
  refine ⟨⟨watches, hsource⟩, ?_, fun hnobody => ?_, fun r hr hreads hgoing => ?_⟩
  · rcases hevents with hsame | ⟨-, rfl⟩
    · rw [← hall, hsame, ← List.append_assoc]
      exact List.prefix_append _ _
    · rw [List.append_nil]
      exact hp.order
  · have hmem : { l with phase := p } ∈ h'.loops := by
      rw [hloops]
      refine List.mem_of_getElem? (i := id) ?_
      rw [getElem?_setPhase hl, if_pos rfl]
    exact absurd (show ({ l with phase := p } : Loop).source = l.source from rfl) (hnobody _ hmem)
  · rcases mem_loops_setPhase hl hloops hr with rfl | ⟨other, hne, hother⟩
    · rcases hevents with hsame | ⟨hstopped, -⟩
      · rw [← hall, hsame, List.append_assoc, List.append_assoc]
      · exact absurd hstopped hgoing
    · exact absurd (hone.eq hl hother hreads) hne

/-- The steps of other loops leave a source alone. -/
theorem Progress.step_of_ne (hp : Progress h source script rest taken)
    (hl : h.loops[id]? = some l) (hstep : Step h id l h') (hne : l.source ≠ source) :
    Progress h' source script rest taken := by
  obtain ⟨p, hloops⟩ := hstep.exists_phase hl
  refine ⟨?_, hp.order, fun hnobody => hp.unread fun r hr hreads => ?_, fun r hr hreads => ?_⟩
  · rw [hstep.sources_of_ne hne]
    exact hp.left
  · obtain ⟨other, hother⟩ := List.mem_iff_getElem?.mp hr
    refine hnobody r ?_ hreads
    rw [hloops]
    refine List.mem_of_getElem? (i := other) ?_
    rw [getElem?_setPhase hl, if_neg, hother]
    rintro rfl
    exact hne (Option.some.inj (hl.symm.trans hother) ▸ hreads)
  · rcases mem_loops_setPhase hl hloops hr with rfl | ⟨other, -, hother⟩
    · exact absurd hreads hne
    · exact hp.reading r (List.mem_of_getElem? hother) hreads

/-- A new subscription holds the next session. -/
theorem Progress.openStream (hp : Progress h l.source script rest taken) (hone : h.OneReader)
    (hl : h.loops[id]? = some l) (hphase : l.phase = .opening) (deadline : Option Nat) :
    Progress (h.openStream id l deadline) l.source script rest.tail (taken ++ []) := by
  obtain ⟨watches, hsource⟩ := hp.left
  have hloops : (h.openStream id l deadline).loops =
      (h.setPhase id (.streaming (Source.scripted rest watches).subscribe.1 deadline)).loops := by
    simp [Hub.openStream, Hub.setPhase, modifySource, hsource]
  have hnext : (h.openStream id l deadline).sources[l.source]? =
      some (.scripted rest.tail (watches + 1)) := by
    cases rest <;>
      simp [Hub.openStream, Hub.setPhase, modifySource, hsource, Source.subscribe, Source.waitTurn]
  refine hp.setPhase hone hl (by simp [hphase]) hloops hnext (Or.inl ?_)
  cases rest <;> simp [hphase, Phase.pending, eventsOf, Source.subscribe]

/-- The loop takes the event of an item, if it is one. -/
theorem Progress.takeItem (hp : Progress h l.source script rest taken) (hone : h.OneReader)
    (hl : h.loops[id]? = some l) {item : Item} {items : List Item} {deadline : Option Nat}
    (hphase : l.phase = .streaming (item :: items) deadline) :
    Progress (h.takeItem id l item items deadline) l.source script rest
      (taken ++ item.event?.toList) := by
  obtain ⟨watches, hsource⟩ := hp.left
  have hrunning : l.phase ≠ .stopped := by simp [hphase]
  cases item with
  | event e =>
    obtain ⟨-, -, hsources, hloops, -⟩ :=
      apply_frame (h.setPhase id (.streaming items deadline)) l.store e
    have hsame := (congrArg (·[l.source]?) hsources).trans hsource
    refine hp.setPhase hone hl hrunning hloops hsame (Or.inl ?_)
    simp [hphase, Phase.pending, Item.event?]
  | failure error =>
    refine hp.setPhase hone hl hrunning rfl hsource (Or.inl ?_)
    simp [hphase, Phase.pending, Item.event?]
  | ended =>
    have hloops : (h.takeItem id l .ended items deadline).loops =
        (h.setPhase id (.backingOff (l.timer.after h.now l.backoff))).loops := rfl
    refine hp.setPhase hone hl hrunning hloops hsource (Or.inl ?_)
    simp [hphase, Phase.pending, Item.event?]

/-- A step takes the next event of the script, or none. -/
theorem Progress.step (hp : Progress h source script rest taken) (hone : h.OneReader)
    (hl : h.loops[id]? = some l) (hstep : Step h id l h') :
    ∃ rest', Progress h' source script rest'
      (taken ++ takenFrom source (h.delivery? id).toList) := by
  rw [takenFrom_delivery? hl]
  by_cases hreads : l.source = source
  swap
  · rw [if_neg hreads, List.append_nil]
    exact ⟨rest, hp.step_of_ne hl hstep hreads⟩
  subst hreads
  rw [if_pos rfl]
  obtain ⟨watches, hsource⟩ := hp.left
  have hleft : (h.modifySource l.source (·.leave id)).sources[l.source]? =
      some (.scripted rest watches) := by
    simp [modifySource, hsource, Source.leave]
  cases hstep with
  | @start deadline hphase _ =>
    have hnothing : h.nextEvent? id l = none := by simp [nextEvent?, hphase]
    rw [hnothing]
    exact ⟨rest.tail, hp.openStream hone hl hphase deadline⟩
  | breakDown hphase _ =>
    have hnothing : h.nextEvent? id l = none := by simp [nextEvent?, hphase]
    rw [hnothing]
    have hloops : (h.breakDown id l).loops = (h.setPhase id .stopped).loops := rfl
    have hnext : (h.breakDown id l).sources[l.source]? =
        some (.scripted rest.tail (watches + 1)) := by
      rw [breakDown_eq]
      cases rest <;>
        simp [Hub.setPhase, modifySource, hsource, Source.subscribe, Source.leave]
    exact ⟨rest.tail, hp.setPhase hone hl (by simp [hphase]) hloops hnext (Or.inr ⟨rfl, rfl⟩)⟩
  | stop hopened hrunning hcancelled =>
    have hnothing : h.nextEvent? id l = none := by simp [nextEvent?, hcancelled]
    rw [hnothing]
    have hloops : (h.stop id l).loops = (h.setPhase id .stopped).loops := rfl
    exact ⟨rest, hp.setPhase hone hl hrunning hloops hleft (Or.inr ⟨rfl, rfl⟩)⟩
  | @item item items deadline hphase hlive =>
    have hnext : h.nextEvent? id l = item.event? := by simp [nextEvent?, hlive, hphase]
    rw [hnext]
    exact ⟨rest, hp.takeItem hone hl hphase⟩
  | event hphase hlive hreceive =>
    rw [hsource] at hreceive
    cases hreceive
  | resync hphase hlive hsilent hdue =>
    have hnothing : h.nextEvent? id l = none := by
      simp [nextEvent?, hlive, hphase, hsilent]
    rw [hnothing]
    have hloops : (h.reopen id l).loops = (h.setPhase id .opening).loops := rfl
    refine ⟨rest, hp.setPhase hone hl (by simp [hphase]) hloops hleft (Or.inl ?_)⟩
    simp [hphase, Phase.pending]
  | wake hphase hlive hdue =>
    have hnothing : h.nextEvent? id l = none := by simp [nextEvent?, hlive, hphase]
    rw [hnothing]
    refine ⟨rest, hp.setPhase hone hl (by simp [hphase]) rfl hsource (Or.inl ?_)⟩
    simp [hphase, Phase.pending]

end

end Hub

end WatchCache
