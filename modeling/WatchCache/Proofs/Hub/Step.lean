import WatchCache.Hub.Run

set_option autoImplicit false

/-!
# The steps of a loop

`Step` lists what a loop can do, one rule for each choice of `stepLoop` and with all that is known
when it is made; a loop makes a step exactly as one of the rules says.
-/

namespace WatchCache

/-! ## Times -/

section

variable (t : Timer) (time : Nat)

/-- Nobody is woken early, nor late by a whole grain. -/
theorem Timer.le_roundUp : time ≤ t.roundUp time ∧ t.roundUp time < time + t.grain := by
  have hpos := t.grain_pos
  have hrest := Nat.mod_lt (time + (t.grain - 1)) hpos
  have hwhole := Nat.div_add_mod' (time + (t.grain - 1)) t.grain
  unfold roundUp
  omega

/-- A delay that ends at a time that can be told is told to this time. -/
theorem Timer.after_of_le {now delay : Nat} (hlatest : now + delay ≤ t.latest) :
    t.after now delay = t.roundUp (now + delay) := by
  rw [after, until?, if_pos hlatest]
  rfl

theorem Timer.lt_after (now : Nat) {delay : Nat} (hdelay : 0 < delay) :
    now < t.after now delay := by
  have hlongest := t.longest_pos
  have hcut := (t.le_roundUp (now + t.longest)).1
  have htold := (t.le_roundUp (now + delay)).1
  unfold after until?
  split
  · rw [Option.getD_some]
    omega
  · rw [Option.getD_none]
    omega

end

/-- A subscription that a resync ends is ended after the interval, as the timer tells it. -/
theorem Loop.deadline?_eq_some_some {l : Loop} {now due : Nat}
    (hdeadline : l.deadline? now = some (some due)) :
    ∃ interval, l.resync = some interval ∧ now + interval ≤ l.timer.latest ∧
      l.timer.roundUp (now + interval) = due := by
  unfold deadline? at hdeadline
  split at hdeadline
  · cases hdeadline
  · next interval hinterval =>
    obtain ⟨other, hother, hsame⟩ := Option.map_eq_some_iff.mp hdeadline
    cases hsame
    unfold Timer.until? at hother
    split at hother
    · next hlatest =>
      cases hother
      exact ⟨interval, hinterval, hlatest, rfl⟩
    · cases hother

/-- The resync of a subscription comes later than it. -/
theorem Loop.lt_of_deadline? {l : Loop} {now due : Nat} (hresync : l.resync ≠ some 0)
    (hdeadline : l.deadline? now = some (some due)) : now < due := by
  obtain ⟨interval, hinterval, -, rfl⟩ := deadline?_eq_some_some hdeadline
  have hpos : interval ≠ 0 := fun hzero => hresync (hzero ▸ hinterval)
  have hlater := (l.timer.le_roundUp (now + interval)).1
  omega

/-- A loop breaks down where the interval of its resyncs leads past the last time that can be
told. -/
theorem Loop.deadline?_eq_none_iff {l : Loop} {now : Nat} :
    l.deadline? now = none ↔ ∃ interval, l.resync = some interval ∧
      l.timer.latest < now + interval := by
  unfold deadline? Timer.until?
  cases l.resync with
  | none => simp
  | some interval => simp

theorem Loop.deadline?_mono {l : Loop} {now later : Nat} (hle : now ≤ later)
    (hover : l.deadline? now = none) : l.deadline? later = none := by
  obtain ⟨interval, hresync, hlatest⟩ := deadline?_eq_none_iff.mp hover
  exact deadline?_eq_none_iff.mpr ⟨interval, hresync, by omega⟩

namespace Hub

/-! ## Steps -/

/-- An event reaches a store, the topic of the store and the measurements, and nothing else. -/
theorem apply_frame (h : Hub) (id : Nat) (e : Event) :
    (h.apply id e).now = h.now ∧ (h.apply id e).cancelled = h.cancelled ∧
      (h.apply id e).sources = h.sources ∧ (h.apply id e).loops = h.loops ∧
      (h.apply id e).subscribers = h.subscribers ∧ (h.apply id e).waits = h.waits := by
  unfold apply
  cases h.stores[id]? with
  | none => exact ⟨rfl, rfl, rfl, rfl, rfl, rfl⟩
  | some cell =>
    dsimp only
    split <;> exact ⟨rfl, rfl, rfl, rfl, rfl, rfl⟩

/-- A channel that takes an event keeps it at the end of its queue. -/
theorem feed_ok {h h' : Hub} {source : Nat} {e : Event} (hfeed : h.feed source e = .ok h') :
    ∃ queue held turns, h.sources[source]? = some (.channel queue held turns) ∧
      h' = { h with sources := h.sources.set source (.channel (queue ++ [e]) held turns) } := by
  unfold feed at hfeed
  split at hfeed
  · next queue held turns hsource =>
    split at hfeed
    · cases hfeed
      exact ⟨queue, held, turns, hsource, rfl⟩
    · cases hfeed
  · cases hfeed

/-- Applies the event that a channel had for the loop. -/
def takeEvent (h : Hub) (l : Loop) (e : Event) (source : Source) : Hub :=
  ({ h with sources := h.sources.set l.source source }).apply l.store e

theorem breakDown_eq (h : Hub) (id : Nat) (l : Loop) :
    h.breakDown id l =
      (h.modifySource l.source fun s => s.subscribe.2.leave id).setPhase id .stopped := by
  simp [breakDown, stop, modifySource, List.modify_modify_eq, Function.comp_def]

/-- What a loop can do now. -/
inductive Step (h : Hub) (id : Nat) (l : Loop) : Hub → Prop
  | start {deadline : Option Nat} (hphase : l.phase = .opening)
      (hdeadline : l.deadline? h.now = some deadline) : Step h id l (h.openStream id l deadline)
  | breakDown (hphase : l.phase = .opening) (hover : l.deadline? h.now = none) :
      Step h id l (h.breakDown id l)
  | stop (hopened : l.phase ≠ .opening) (hrunning : l.phase ≠ .stopped)
      (hcancelled : h.isCancelled l.token = true) : Step h id l (h.stop id l)
  | item {item : Item} {items : List Item} {deadline : Option Nat}
      (hphase : l.phase = .streaming (item :: items) deadline)
      (hlive : h.isCancelled l.token = false) :
      Step h id l (h.takeItem id l item items deadline)
  | event {deadline : Option Nat} {e : Event} {source : Source}
      (hphase : l.phase = .streaming [] deadline) (hlive : h.isCancelled l.token = false)
      (hreceive : (h.sources[l.source]?).bind (·.receive? id) = some (e, source)) :
      Step h id l (h.takeEvent l e source)
  | resync {deadline : Option Nat} (hphase : l.phase = .streaming [] deadline)
      (hlive : h.isCancelled l.token = false)
      (hsilent : (h.sources[l.source]?).bind (·.receive? id) = none)
      (hdue : deadline.any (· ≤ h.now) = true) : Step h id l (h.reopen id l)
  | wake {due : Nat} (hphase : l.phase = .backingOff due) (hlive : h.isCancelled l.token = false)
      (hdue : due ≤ h.now) : Step h id l (h.setPhase id .opening)

/-- A loop steps as one of the rules says. -/
theorem Step.of_stepLoop {h h' : Hub} {id : Nat} (hstep : h.stepLoop id = some h') :
    ∃ l, h.loops[id]? = some l ∧ Step h id l h' := by
  unfold stepLoop at hstep
  cases hl : h.loops[id]? with
  | none =>
    rw [hl] at hstep
    cases hstep
  | some l =>
    refine ⟨l, rfl, ?_⟩
    rw [hl] at hstep
    dsimp only at hstep
    cases hphase : l.phase with
    | stopped =>
      rw [hphase] at hstep
      cases hstep
    | opening =>
      rw [hphase] at hstep
      dsimp only at hstep
      cases hdeadline : l.deadline? h.now with
      | some deadline =>
        rw [hdeadline] at hstep
        cases hstep
        exact .start hphase hdeadline
      | none =>
        rw [hdeadline] at hstep
        cases hstep
        exact .breakDown hphase hdeadline
    | streaming items deadline =>
      rw [hphase] at hstep
      dsimp only at hstep
      split at hstep
      · next hcancelled =>
        cases hstep
        exact .stop (by simp [hphase]) (by simp [hphase]) hcancelled
      · next hlive =>
        rw [Bool.not_eq_true] at hlive
        cases items with
        | cons item rest =>
          cases hstep
          exact .item hphase hlive
        | nil =>
          simp only [stepStream] at hstep
          split at hstep
          · next hreceive =>
            cases hstep
            exact .event hphase hlive hreceive
          · next hsilent =>
            split at hstep
            · next hdue =>
              cases hstep
              exact .resync hphase hlive hsilent hdue
            · cases hstep
    | backingOff due =>
      rw [hphase] at hstep
      dsimp only at hstep
      split at hstep
      · next hcancelled =>
        cases hstep
        exact .stop (by simp [hphase]) (by simp [hphase]) hcancelled
      · next hlive =>
        split at hstep
        · next hdue =>
          cases hstep
          exact .wake hphase (Bool.not_eq_true _ ▸ hlive) hdue
        · cases hstep

theorem Step.stepLoop_eq {h h' : Hub} {id : Nat} {l : Loop} (hl : h.loops[id]? = some l)
    (hstep : Step h id l h') : h.stepLoop id = some h' := by
  unfold stepLoop
  rw [hl]
  cases hstep with
  | start hphase hdeadline => simp only [hphase, hdeadline]
  | breakDown hphase hover => simp only [hphase, hover]
  | stop hopened hrunning hcancelled =>
    cases hphase : l.phase with
    | opening => exact absurd hphase hopened
    | stopped => exact absurd hphase hrunning
    | streaming items deadline => simp [hphase, hcancelled]
    | backingOff due => simp [hphase, hcancelled]
  | item hphase hlive =>
    simp only [hphase, hlive]
    rfl
  | event hphase hlive hreceive =>
    simp only [hphase, hlive, stepStream, hreceive]
    rfl
  | resync hphase hlive hsilent hdue =>
    simp only [hphase, hlive, stepStream, hsilent, hdue]
    rfl
  | wake hphase hlive hdue =>
    simp only [hphase, hlive, hdue]
    rfl

end Hub

end WatchCache
