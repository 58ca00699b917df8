import Mathlib.Data.List.Basic
import Mathlib.Logic.Relation
import WatchCache.Proofs.Hub.Step

set_option autoImplicit false

/-!
# Settling

Every step of a loop lowers `work`, as long as no loop makes subscriptions without a delay
between them.  So `settle` ends where no loop can make a step, and a chain of steps that ends
there is the one that `settle` makes.
-/

namespace WatchCache

/-! ## Totals -/

/-- The sum of a number of every member of a list. -/
def total {α : Type} (f : α → Nat) (l : List α) : Nat := l.foldr (fun a n => f a + n) 0

theorem foldr_add_eq {α : Type} (f : α → Nat) (start : Nat) (l : List α) :
    l.foldr (fun a n => f a + n) start = total f l + start := by
  induction l with
  | nil => exact (Nat.zero_add start).symm
  | cons a rest ih => rw [List.foldr_cons, ih, total, total, List.foldr_cons, Nat.add_assoc]

theorem total_modify {α : Type} (f : α → Nat) (g : α → α) {l : List α} {i : Nat} {a : α}
    (h : l[i]? = some a) : total f (l.modify i g) + f a = total f l + f (g a) := by
  induction l generalizing i with
  | nil => cases h
  | cons b rest ih =>
    cases i with
    | zero =>
      cases h
      simp only [List.modify_zero_cons, total, List.foldr_cons]
      omega
    | succ i =>
      have hrest := ih (i := i) (by simpa using h)
      simp only [List.modify_succ_cons, total, List.foldr_cons] at hrest ⊢
      omega

/-! ## Sources -/

namespace Source

theorem remaining_subscribe (s : Source) :
    s.subscribe.2.remaining + s.subscribe.1.length = s.remaining := by
  cases s with
  | scripted sessions n =>
    cases sessions with
    | nil => rfl
    | cons session rest =>
      simp only [subscribe, remaining, List.flatten_cons, List.length_append]
      omega
  | channel queue held turns => rfl

@[simp] theorem remaining_waitTurn (loop : Nat) (s : Source) :
    (s.waitTurn loop).remaining = s.remaining := by
  cases s <;> rfl

@[simp] theorem remaining_leave (loop : Nat) (s : Source) :
    (s.leave loop).remaining = s.remaining := by
  cases s <;> rfl

theorem remaining_receive? {loop : Nat} {s t : Source} {e : Event}
    (h : s.receive? loop = some (e, t)) : t.remaining + 1 = s.remaining := by
  unfold receive? at h
  split at h
  · split at h
    · split at h
      · cases h
        rfl
      · cases h
    · cases h
  · cases h

end Source

namespace Hub

/-! ## Work -/

theorem work_eq (h : Hub) :
    h.work = total (fun s => 4 * s.remaining) h.sources +
      total (fun l => phaseWork h.now l.phase) h.loops := by
  rw [work, foldr_add_eq, foldr_add_eq, Nat.add_zero]

theorem work_setPhase {h : Hub} {id : Nat} {l : Loop} (hl : h.loops[id]? = some l) (p : Phase) :
    (h.setPhase id p).work + phaseWork h.now l.phase = h.work + phaseWork h.now p := by
  have hsum := total_modify (fun l => phaseWork h.now l.phase)
    (fun l => { l with phase := p }) hl
  rw [work_eq, work_eq]
  simp only [setPhase] at hsum ⊢
  omega

theorem work_modifySource {h : Hub} {id : Nat} {s : Source} (hs : h.sources[id]? = some s)
    (f : Source → Source) :
    (h.modifySource id f).work + 4 * s.remaining = h.work + 4 * (f s).remaining := by
  have hsum := total_modify (fun s => 4 * s.remaining) f hs
  rw [work_eq, work_eq]
  simp only [modifySource] at hsum ⊢
  omega

theorem modifySource_of_none {h : Hub} {id : Nat} (hs : h.sources[id]? = none)
    (f : Source → Source) : h.modifySource id f = h := by
  have hle : h.sources.length ≤ id := List.getElem?_eq_none_iff.mp hs
  rw [modifySource, List.modify_eq_self hle]

theorem work_leave (h : Hub) (id loop : Nat) :
    (h.modifySource id (·.leave loop)).work = h.work := by
  cases hs : h.sources[id]? with
  | none => rw [modifySource_of_none hs]
  | some s =>
    have hsum := work_modifySource hs (·.leave loop)
    rw [Source.remaining_leave] at hsum
    omega

theorem work_apply (h : Hub) (id : Nat) (e : Event) : (h.apply id e).work = h.work := by
  obtain ⟨hnow, -, hsources, hloops, -⟩ := apply_frame h id e
  rw [work_eq, work_eq, hloops, hsources, hnow]

theorem work_setSource {h : Hub} {id : Nat} {s : Source} (hs : h.sources[id]? = some s)
    (t : Source) :
    ({ h with sources := h.sources.set id t } : Hub).work + 4 * s.remaining =
      h.work + 4 * t.remaining := by
  rw [List.set_eq_modify]
  exact work_modifySource hs fun _ => t

/-! ## Steps lower the work -/

theorem work_openStream {h : Hub} {id : Nat} {l : Loop} (hl : h.loops[id]? = some l)
    (hphase : l.phase = .opening) {deadline : Option Nat}
    (hlater : ∀ due, deadline = some due → h.now < due) :
    (h.openStream id l deadline).work < h.work := by
  have hphaseWork (items : List Item) :
      phaseWork h.now (.streaming items deadline) = 4 * items.length + 1 := by
    cases deadline with
    | none => rfl
    | some due => simp [phaseWork, hlater due rfl]
  have hopened : phaseWork h.now l.phase = 2 := by rw [hphase, phaseWork]
  unfold openStream
  cases hs : h.sources[l.source]? with
  | none =>
    rw [modifySource_of_none hs]
    have hset := work_setPhase hl (.streaming [] deadline)
    rw [hphaseWork, hopened] at hset
    show (h.setPhase id (.streaming [] deadline)).work < h.work
    simp only [List.length_nil] at hset
    omega
  | some s =>
    have hsource := work_modifySource hs fun s => s.subscribe.2.waitTurn id
    rw [Source.remaining_waitTurn] at hsource
    have hremaining := s.remaining_subscribe
    have hset := work_setPhase (h := h.modifySource l.source fun s => s.subscribe.2.waitTurn id)
      hl (.streaming s.subscribe.1 deadline)
    have hnow : (h.modifySource l.source fun s => s.subscribe.2.waitTurn id).now = h.now := rfl
    rw [hnow, hphaseWork, hopened] at hset
    show ((h.modifySource l.source fun s => s.subscribe.2.waitTurn id).setPhase id
      (.streaming s.subscribe.1 deadline)).work < h.work
    omega

theorem work_subscribe_le (h : Hub) (id : Nat) :
    (h.modifySource id (·.subscribe.2)).work ≤ h.work := by
  cases hs : h.sources[id]? with
  | none => exact Nat.le_of_eq (congrArg work (modifySource_of_none hs _))
  | some s =>
    have hsource := work_modifySource hs (·.subscribe.2)
    have hremaining := s.remaining_subscribe
    omega

theorem work_stop {h : Hub} {id : Nat} {l : Loop} (hl : h.loops[id]? = some l)
    (hrunning : l.phase ≠ .stopped) : (h.stop id l).work < h.work := by
  have hset := work_setPhase (h := h.modifySource l.source (·.leave id)) hl .stopped
  rw [work_leave] at hset
  have hbusy : 0 < phaseWork h.now l.phase := by
    cases hphase : l.phase with
    | opening => simp [phaseWork]
    | stopped => exact absurd hphase hrunning
    | streaming items deadline =>
      rw [phaseWork]
      split <;> omega
    | backingOff due => simp [phaseWork]
  have hdone : phaseWork h.now .stopped = 0 := rfl
  show ((h.modifySource l.source (·.leave id)).setPhase id .stopped).work < h.work
  change _ + phaseWork h.now l.phase = _ + phaseWork h.now .stopped at hset
  omega

/-- A loop that waits between its subscriptions lowers the work with every step. -/
theorem Step.work_lt {h h' : Hub} {id : Nat} {l : Loop} (hl : h.loops[id]? = some l)
    (hresync : l.resync ≠ some 0) (hstep : Step h id l h') : h'.work < h.work := by
  cases hstep with
  | start hphase hdeadline =>
    refine work_openStream hl hphase fun due hdue => ?_
    exact Loop.lt_of_deadline? hresync (hdue ▸ hdeadline)
  | breakDown hphase _ =>
    have hstopped := work_stop (h := h.modifySource l.source (·.subscribe.2)) hl (by simp [hphase])
    exact Nat.lt_of_lt_of_le hstopped (h.work_subscribe_le l.source)
  | stop hopened hrunning hcancelled => exact work_stop hl hrunning
  | @item item items deadline hphase hlive =>
    cases item with
    | event e =>
      have hset := work_setPhase hl (.streaming items deadline)
      show (((h.setPhase id (.streaming items deadline)).apply l.store e)).work < h.work
      rw [work_apply]
      simp only [hphase, phaseWork, List.length_cons] at hset
      omega
    | failure error =>
      have hset := work_setPhase hl (.streaming items deadline)
      show (h.setPhase id (.streaming items deadline)).work < h.work
      simp only [hphase, phaseWork, List.length_cons] at hset
      omega
    | ended =>
      have hset := work_setPhase hl (.backingOff (l.timer.after h.now l.backoff))
      show (h.setPhase id (.backingOff (l.timer.after h.now l.backoff))).work < h.work
      simp only [hphase, phaseWork, List.length_cons] at hset
      split at hset <;> omega
  | @event deadline e source hphase hlive hreceive =>
    obtain ⟨s, hs, hreceived⟩ := Option.bind_eq_some_iff.mp hreceive
    have hremaining := Source.remaining_receive? hreceived
    rw [takeEvent, work_apply]
    have hset := work_setSource hs source
    omega
  | resync hphase hlive hsilent hdue =>
    have hset := work_setPhase (h := h.modifySource l.source (·.leave id)) hl .opening
    rw [work_leave] at hset
    show ((h.modifySource l.source (·.leave id)).setPhase id .opening).work < h.work
    change _ + phaseWork h.now l.phase = _ + phaseWork h.now .opening at hset
    simp only [hphase, phaseWork, hdue, if_true] at hset
    omega
  | wake hphase hlive hdue =>
    have hset := work_setPhase hl .opening
    simp only [hphase, phaseWork] at hset
    omega

/-! ## Settled hubs -/

/-- Every loop waits between its subscriptions. -/
def Paced (h : Hub) : Prop := ∀ l ∈ h.loops, l.resync ≠ some 0

/-- A step changes no loop but in its phase. -/
theorem Step.loops_map {h h' : Hub} {id : Nat} {l : Loop} {α : Type} {f : Loop → α}
    (hf : ∀ (l : Loop) (p : Phase), f { l with phase := p } = f l) (hstep : Step h id l h') :
    h'.loops.map f = h.loops.map f := by
  have hset (loops : List Loop) (p : Phase) :
      (loops.modify id fun l => { l with phase := p }).map f = loops.map f := by
    refine List.ext_getElem? fun i => ?_
    rw [List.getElem?_map, List.getElem?_map, List.getElem?_modify]
    cases loops[i]? with
    | none => rfl
    | some l =>
      simp only [Option.map_eq_map, Option.map_some]
      split
      · rw [hf]
      · rfl
  cases hstep with
  | start _ _ => exact hset h.loops _
  | breakDown _ _ => exact hset h.loops _
  | stop _ _ _ => exact hset h.loops _
  | @item item items deadline _ _ =>
    cases item with
    | event e =>
      obtain ⟨-, -, -, hloops, -⟩ :=
        apply_frame (h.setPhase id (.streaming items deadline)) l.store e
      show ((h.setPhase id (.streaming items deadline)).apply l.store e).loops.map f = _
      rw [hloops]
      exact hset h.loops _
    | failure error => exact hset h.loops _
    | ended => exact hset h.loops _
  | event _ _ _ =>
    obtain ⟨-, -, -, hloops, -⟩ := apply_frame _ _ _
    exact congrArg (List.map f) hloops
  | resync _ _ _ _ => exact hset h.loops _
  | wake _ _ _ => exact hset h.loops _

theorem Paced.step {h h' : Hub} {id : Nat} {l : Loop} (hpaced : h.Paced)
    (hstep : Step h id l h') : h'.Paced := by
  have hsame := hstep.loops_map (f := Loop.resync) fun _ _ => rfl
  intro other hother
  have hmem : other.resync ∈ h'.loops.map Loop.resync := List.mem_map_of_mem hother
  rw [hsame] at hmem
  obtain ⟨before, hbefore, heq⟩ := List.mem_map.mp hmem
  exact heq ▸ hpaced before hbefore

theorem stepFirst_eq_some {h h' : Hub} {order : List Nat} (hfirst : h.stepFirst order = some h') :
    ∃ id l, h.loops[id]? = some l ∧ Step h id l h' := by
  obtain ⟨id, -, hstep⟩ := List.exists_of_findSome?_eq_some hfirst
  exact ⟨id, Step.of_stepLoop hstep⟩

/-- With enough fuel the loops come to rest. -/
theorem stepFirst_settleIn (order : List Nat) {fuel : Nat} {h : Hub} (hpaced : h.Paced)
    (hfuel : h.work ≤ fuel) : (settleIn order fuel h).stepFirst order = none := by
  induction fuel generalizing h with
  | zero =>
    rw [settleIn]
    cases hfirst : h.stepFirst order with
    | none => rfl
    | some h' =>
      obtain ⟨id, l, hl, hstep⟩ := stepFirst_eq_some hfirst
      have hless := hstep.work_lt hl (hpaced l (List.mem_of_getElem? hl))
      omega
  | succ fuel ih =>
    rw [settleIn]
    cases hfirst : h.stepFirst order with
    | none => exact hfirst
    | some h' =>
      obtain ⟨id, l, hl, hstep⟩ := stepFirst_eq_some hfirst
      have hless := hstep.work_lt hl (hpaced l (List.mem_of_getElem? hl))
      exact ih (hpaced.step hstep) (by omega)

theorem mem_runOrder (h : Hub) (id : Nat) : id ∈ h.runOrder ↔ id < h.loops.length := by
  have hperm : h.runOrder.Perm (h.loops.zipIdx.map Prod.snd) := by
    unfold runOrder
    refine ((List.mergeSort_perm _ _).map Prod.snd).trans ?_
    rw [List.map_map]
    rfl
  rw [hperm.mem_iff, List.zipIdx_map_snd, List.mem_range'_1]
  omega

/-- What every step keeps is kept by settling. -/
theorem settleIn_induction {P : Hub → Prop} (order : List Nat) (fuel : Nat) {h : Hub} (hstart : P h)
    (hkept : ∀ (h h' : Hub) (id : Nat) (l : Loop), Step h id l h' → P h → P h') :
    P (settleIn order fuel h) := by
  induction fuel generalizing h with
  | zero => exact hstart
  | succ fuel ih =>
    rw [settleIn]
    cases hfirst : h.stepFirst order with
    | none => exact hstart
    | some h' =>
      obtain ⟨id, l, -, hstep⟩ := stepFirst_eq_some hfirst
      exact ih (hkept h h' id l hstep hstart)

theorem length_loops_settleIn (order : List Nat) (fuel : Nat) (h : Hub) :
    (settleIn order fuel h).loops.length = h.loops.length := by
  refine settleIn_induction order fuel (P := fun g => g.loops.length = h.loops.length) rfl ?_
  intro g g' id l hstep hlength
  have hsame := congrArg List.length (hstep.loops_map (f := fun _ => ()) fun _ _ => rfl)
  rw [List.length_map, List.length_map] at hsame
  exact hsame.trans hlength

theorem Paced.settle {h : Hub} (hpaced : h.Paced) : h.settle.Paced :=
  settleIn_induction h.runOrder h.work (P := Paced) hpaced fun _ _ _ _ hstep hbefore =>
    hbefore.step hstep

/-- Whether a loop can make a step has to do with tokens, the clock, sources and loops only. -/
theorem stepLoop_eq_none_congr {h r : Hub} (hnow : r.now = h.now)
    (hcancelled : r.cancelled = h.cancelled) (hsources : r.sources = h.sources)
    (hloops : r.loops = h.loops) {id : Nat} (hrest : h.stepLoop id = none) :
    r.stepLoop id = none := by
  by_contra hne
  obtain ⟨r', hstep⟩ := Option.ne_none_iff_exists'.mp hne
  obtain ⟨l, hl, hstep⟩ := Step.of_stepLoop hstep
  have hsame (token : Token) : r.isCancelled token = h.isCancelled token := by
    rw [isCancelled, isCancelled, hcancelled]
  have hother : ∃ h', Step h id l h' := by
    cases hstep with
    | start hphase hdeadline => exact ⟨_, .start hphase (hnow ▸ hdeadline)⟩
    | breakDown hphase hover => exact ⟨_, .breakDown hphase (hnow ▸ hover)⟩
    | stop hopened hrunning hstop => exact ⟨_, .stop hopened hrunning (hsame _ ▸ hstop)⟩
    | item hphase hlive => exact ⟨_, .item hphase (hsame _ ▸ hlive)⟩
    | event hphase hlive hreceive =>
      exact ⟨_, .event hphase (hsame _ ▸ hlive) (hsources ▸ hreceive)⟩
    | resync hphase hlive hsilent hdue =>
      exact ⟨_, .resync hphase (hsame _ ▸ hlive) (hsources ▸ hsilent) (hnow ▸ hdue)⟩
    | wake hphase hlive hdue => exact ⟨_, .wake hphase (hsame _ ▸ hlive) (hnow ▸ hdue)⟩
  obtain ⟨h', hstep'⟩ := hother
  rw [hstep'.stepLoop_eq (hloops ▸ hl)] at hrest
  cases hrest

theorem stepLoop_of_length_le {h : Hub} {id : Nat} (hid : h.loops.length ≤ id) :
    h.stepLoop id = none := by
  unfold stepLoop
  rw [List.getElem?_eq_none hid]

/-- A settled hub is at rest. -/
theorem settle_rests {h : Hub} (hpaced : h.Paced) (id : Nat) : h.settle.stepLoop id = none := by
  refine stepLoop_eq_none_congr (h := settleIn h.runOrder h.work h) (r := h.settle)
    rfl rfl rfl rfl ?_
  by_cases hid : id ∈ h.runOrder
  · have hrest := stepFirst_settleIn h.runOrder hpaced (Nat.le_refl h.work)
    exact List.findSome?_eq_none_iff.mp hrest id hid
  · rw [mem_runOrder, ← length_loops_settleIn h.runOrder h.work h] at hid
    exact stepLoop_of_length_le (Nat.le_of_not_lt hid)

/-! ## One loop -/

/-- What the steps of the only loop lead to. -/
def Reaches (h h' : Hub) : Prop :=
  Relation.ReflTransGen (fun before after : Hub => before.stepLoop 0 = some after) h h'

theorem runOrder_of_singleton {h : Hub} {l : Loop} (hl : h.loops = [l]) : h.runOrder = [0] := by
  simp [runOrder, hl]

theorem stepFirst_singleton (h : Hub) (id : Nat) : h.stepFirst [id] = h.stepLoop id :=
  List.findSome?_singleton

/-- Settling makes the steps of the only loop up to where it rests. -/
theorem settle_of_reaches {h h' : Hub} {l : Loop} (hl : h.loops = [l]) (hresync : l.resync ≠ some 0)
    (hreach : Reaches h h') (hrest : h'.stepLoop 0 = none) : h.settle = h'.resolveWaits := by
  have hpaced : h.Paced := fun other hother => by
    rw [hl, List.mem_singleton] at hother
    exact hother ▸ hresync
  -- along the steps from the front, with any fuel that covers the work that is left
  have hgeneral : ∀ fuel, h.work ≤ fuel → settleIn [0] fuel h = h' := by
    clear hl
    induction hreach using Relation.ReflTransGen.head_induction_on with
    | refl =>
      intro fuel _
      cases fuel with
      | zero => rfl
      | succ fuel => rw [settleIn, stepFirst_singleton, hrest]
    | head hstep _ ih =>
      intro fuel hfuel
      obtain ⟨other, hother, hrule⟩ := Step.of_stepLoop hstep
      have hless := hrule.work_lt hother (hpaced other (List.mem_of_getElem? hother))
      cases fuel with
      | zero => omega
      | succ fuel =>
        rw [settleIn, stepFirst_singleton, hstep]
        exact ih (hpaced.step hrule) fuel (by omega)
  rw [settle, runOrder_of_singleton hl, hgeneral h.work (Nat.le_refl _)]

end Hub

end WatchCache
