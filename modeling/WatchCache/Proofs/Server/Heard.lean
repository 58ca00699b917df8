import WatchCache.Proofs.Hub.Script
import WatchCache.Proofs.Object.Unmanaged
import WatchCache.Proofs.Store.Told
import WatchCache.Server.Watch

set_option autoImplicit false

/-!
# Where the objects of a watch come from

A watch makes events of what a server answers, and of nothing else: every object of an event was
an item of a page or the subject of a line.  The objects of earlier pages wait in the state of the
watch until the listing is complete, so the invariant is about the items and the state together.
What is passed on differs from what was heard in the record of who set which fields, and in
nothing else.
-/

namespace WatchCache

/-- The objects that an event is about. -/
def Event.objects : Event → List Object
  | .applied o | .deleted o => [o]
  | .restarted objects => objects

/-- The object that a line of a watch is about. -/
def Watch.Line.object? : Watch.Line → Option Object
  | .added o | .modified o | .deleted o => some o
  | _ => none

/-- An answer to a watch brings an object. -/
inductive Response.Brings (answer : Response) (o : Object) : Prop
  | listed {p : Watch.Page} (read : answer.read Watch.readPage = .ok p) (mem : o ∈ p.objects)
  | told {line : Watch.Line} (mem : line ∈ (Watch.linesOf answer.body).map .ofText)
      (about : line.object? = some o)

namespace Watch

/-- The objects of the pages that were listed so far. -/
def State.objects : State → List Object
  | .listing _ objects => objects
  | .watching _ => []

/-- All objects that items and a state hold have a property. -/
structure Holds (P : Object → Prop) (items : List Item) (s : State) : Prop where
  items : ∀ e, .event e ∈ items → ∀ o ∈ e.objects, P o
  state : ∀ o ∈ s.objects, P o

section

variable {P : Object → Prop} {t : Target}

theorem holds_failure (message : String) {s : State} (hs : ∀ o ∈ s.objects, P o) :
    Holds P [t.failure message] s where
  items := by
    intro e he
    cases List.mem_singleton.mp he
  state := hs

theorem holds_nothing {s : State} (hs : ∀ o ∈ s.objects, P o) : Holds P [] s where
  items := fun _ he => absurd he List.not_mem_nil
  state := hs

theorem no_objects_start : ∀ o ∈ State.start.objects, P o :=
  fun _ ho => absurd ho List.not_mem_nil

theorem no_objects_watching (version : String) : ∀ o ∈ (State.watching version).objects, P o :=
  fun _ ho => absurd ho List.not_mem_nil

theorem Holds.append {first second : List Item} {s s' : State} (hfirst : Holds P first s)
    (hsecond : Holds P second s') : Holds P (first ++ second) s' where
  items := fun e he => (List.mem_append.mp he).elim (hfirst.items e) (hsecond.items e)
  state := hsecond.state

theorem holds_onEvent {o : Object} (ho : P o) {make : Object → Event}
    (hmake : (make o).objects = [o]) : Holds P [(t.onEvent o make).1] (t.onEvent o make).2 := by
  unfold Target.onEvent
  split
  · refine ⟨fun e he => ?_, no_objects_watching _⟩
    cases List.mem_singleton.mp he
    rw [hmake]
    exact fun o' ho' => List.mem_singleton.mp ho' ▸ ho
  · exact holds_failure _ no_objects_start

theorem holds_onLine (version : String) {line : Line} (hline : ∀ o, line.object? = some o → P o) :
    Holds P (t.onLine version line).1 (t.onLine version line).2 := by
  cases line with
  | added o => exact holds_onEvent (hline o rfl) rfl
  | modified o => exact holds_onEvent (hline o rfl) rfl
  | deleted o => exact holds_onEvent (hline o rfl) rfl
  | bookmark v => exact holds_nothing (no_objects_watching v)
  | error r =>
    rw [Target.onLine]
    split
    · exact holds_failure _ no_objects_start
    · exact holds_failure _ (no_objects_watching version)
  | refusal r => exact holds_failure _ (no_objects_watching version)
  | garbage => exact holds_failure _ (no_objects_watching version)
  | unfinished => exact holds_nothing (no_objects_watching version)

theorem holds_onLines (version : String) {lines : List Line}
    (hlines : ∀ line ∈ lines, ∀ o, line.object? = some o → P o) :
    Holds P (t.onLines version lines).1 (t.onLines version lines).2 := by
  induction lines generalizing version with
  | nil => exact holds_nothing (no_objects_watching version)
  | cons line rest ih =>
    obtain ⟨hline, hrest⟩ := List.forall_mem_cons.mp hlines
    have hone : Holds P (t.onLine version line).1 (t.onLine version line).2 :=
      holds_onLine version hline
    rw [Target.onLines]
    split
    · next heq =>
      rw [heq] at hone
      exact hone.append (ih _ hrest)
    · next heq =>
      rw [heq] at hone
      exact hone

theorem holds_onPage {objects : List Object} (hobjects : ∀ o ∈ objects, P o) {p : Page}
    (hp : ∀ o ∈ p.objects, P o) : Holds P (t.onPage objects p).1 (t.onPage objects p).2 := by
  have hall : ∀ o ∈ objects ++ p.objects, P o :=
    fun o ho => (List.mem_append.mp ho).elim (hobjects o) (hp o)
  unfold Target.onPage
  dsimp only
  split
  · exact holds_nothing hall
  · split
    · exact holds_failure _ no_objects_start
    · refine ⟨fun e he => ?_, no_objects_watching _⟩
      cases List.mem_singleton.mp he
      exact hall

/-- What one answer makes of the watch holds what the answer brings and what the state held. -/
theorem holds_receive {s : State} (hs : ∀ o ∈ s.objects, P o) {answer : Response}
    (hanswer : ∀ o, answer.Brings o → P o) :
    Holds P (t.receive s answer).1 (t.receive s answer).2 := by
  cases s with
  | listing continueAt objects =>
    rw [Target.receive]
    split
    · next p hread => exact holds_onPage hs fun o ho => hanswer o (.listed hread ho)
    · exact holds_failure _ no_objects_start
  | watching version =>
    exact holds_onLines version fun line hline o ho => hanswer o (.told hline ho)

theorem holds_onFailure (f : RequestFailure) (s : State) :
    Holds P (t.onFailure f s).1 (t.onFailure f s).2 := by
  cases s with
  | listing continueAt objects => exact holds_failure _ no_objects_start
  | watching version => exact holds_failure _ (no_objects_watching version)

theorem holds_meet {s : State} (hs : ∀ o ∈ s.objects, P o)
    {outcome : Except RequestFailure Response}
    (houtcome : ∀ answer, outcome = .ok answer → ∀ o, answer.Brings o → P o) :
    Holds P (t.meet s outcome).1 (t.meet s outcome).2 := by
  cases outcome with
  | ok answer => exact holds_receive hs (houtcome answer rfl)
  | error f => exact holds_onFailure f s

/-- All objects that a watch hears of were brought by the answers that it got. -/
theorem objects_of_hear {s : State} (hs : ∀ o ∈ s.objects, P o)
    {outcomes : List (Except RequestFailure Response)}
    (houtcomes : ∀ answer, .ok answer ∈ outcomes → ∀ o, answer.Brings o → P o) {e : Event}
    (he : .event e ∈ (t.hear s outcomes).2) : ∀ o ∈ e.objects, P o := by
  induction outcomes generalizing s with
  | nil =>
    rw [Target.hear] at he
    split at he
    · next f _ => exact (holds_onFailure (.badObjectTarget f) s).items e he
    · cases he
  | cons outcome rest ih =>
    have hstep : Holds P (t.meet s outcome).1 (t.meet s outcome).2 :=
      holds_meet hs fun answer hanswer => houtcomes answer (hanswer ▸ List.mem_cons_self)
    rw [Target.hear] at he
    split at he
    · next f _ => exact (holds_onFailure (.badObjectTarget f) s).items e he
    · rcases List.mem_append.mp he with hfirst | hlater
      · exact hstep.items e hfirst
      · exact ih hstep.state
          (fun answer hanswer => houtcomes answer (List.mem_cons_of_mem _ hanswer)) hlater

end

end Watch

/-! ## Regular objects -/

namespace Watch

theorem regular_readItems :
    Reader.Yields (fun objects => ∀ o ∈ objects, o.Regular) readItems := by
  have hitems := (Object.regular_read.items.array "a sequence").orNull
  refine hitems.bind fun found hfound => Reader.yields_pure ?_
  cases found with
  | none => exact fun o ho => absurd ho List.not_mem_nil
  | some objects => exact hfound objects rfl

/-- The objects of a page that were met so far are regular. -/
def PageParts.Regular (p : PageParts) : Prop :=
  ∀ objects, p.objects = some objects → ∀ o ∈ objects, o.Regular

theorem regular_readPageMember (p : PageParts) (key : String) (hp : p.Regular) :
    Reader.Yields PageParts.Regular (readPageMember p key) := by
  unfold readPageMember
  split
  · exact Reader.yields_after _ fun metadata => Reader.yields_pure hp
  · refine regular_readItems.afterColon.bind fun objects hobjects => Reader.yields_pure ?_
    rintro _ hsame
    exact Option.some.inj hsame ▸ hobjects
  · exact Reader.yields_refuseObject _
  · exact Reader.yields_refuseObject _
  · exact Reader.yields_after _ fun value => Reader.yields_pure hp

/-- The objects of a page are regular. -/
theorem regular_readPage :
    Reader.Yields (fun p : Page => ∀ o ∈ p.objects, o.Regular) readPage := by
  have hmembers : Reader.Yields PageParts.Regular (Reader.members {} readPageMember) :=
    Reader.yields_members nofun regular_readPageMember
  refine Reader.Yields.object (hmembers.bind fun p hp => ?_) _
  dsimp only
  split
  · exact Reader.yields_refuseObject _
  · next objects hobjects => exact Reader.yields_pure (hp objects hobjects)

/-- The object that a line is about is regular. -/
def Line.Regular (line : Line) : Prop := ∀ o, line.object? = some o → o.Regular

theorem regular_readSubject (t : EventType) : Reader.Yields Line.Regular (readSubject t) := by
  have habout {make : Object → Line} (hmake : ∀ o, (make o).object? = some o) :
      Reader.Yields Line.Regular (make <$> Object.read) := by
    refine Object.regular_read.map fun o ho o' hsame => ?_
    rw [hmake] at hsame
    exact Option.some.inj hsame ▸ ho
  cases t with
  | added => exact habout fun _ => rfl
  | modified => exact habout fun _ => rfl
  | deleted => exact habout fun _ => rfl
  | bookmark => exact (Reader.yields_anything _).map fun _ _ => nofun
  | error => exact (Reader.yields_anything _).map fun _ _ => nofun

/-- The subject of an event, if it was read, is regular. -/
def EventParts.Regular (p : EventParts) : Prop := ∀ line, p = .both line → line.Regular

theorem regular_readEventMember (p : EventParts) (key : String) (hp : p.Regular) :
    Reader.Yields EventParts.Regular (readEventMember p key) := by
  have hboth {line : Line} (hline : line.Regular) : (EventParts.both line).Regular := by
    rintro _ hsame
    cases hsame
    exact hline
  unfold readEventMember
  split
  · exact (Reader.yields_anything _).map fun _ _ => nofun
  · refine Reader.yields_after _ fun t => Reader.yields_after _ fun behind => ?_
    refine Reader.yields_after _ fun _ => (regular_readSubject t).bind fun line hline => ?_
    exact Reader.yields_after _ fun _ => Reader.yields_pure (hboth hline)
  · refine Reader.yields_after _ fun _ => Reader.yields_after _ fun start => ?_
    exact Reader.yields_after _ fun _ => Reader.yields_pure nofun
  · exact (regular_readSubject _).afterColon.map fun line hline => hboth hline
  · exact Reader.yields_refuseObject _
  · exact Reader.yields_refuseObject _
  · exact Reader.yields_after _ fun _ => Reader.yields_pure hp

theorem regular_readEventObject : Reader.Yields Line.Regular readEventObject := by
  have hmembers : Reader.Yields EventParts.Regular (Reader.members .nothing readEventMember) :=
    Reader.yields_members nofun regular_readEventMember
  refine hmembers.bind fun p hp => ?_
  split
  · exact Reader.yields_pure (hp _ rfl)
  · exact Reader.yields_refuseObject _
  · exact Reader.yields_refuseObject _

theorem regular_readEventArray : Reader.Yields Line.Regular readEventArray := by
  refine Reader.yields_after _ fun type => ?_
  split
  · exact Reader.yields_refuseArray _
  · refine ((regular_readSubject _).item? false).bind fun subject hsubject => ?_
    split
    · exact Reader.yields_refuseArray _
    · exact Reader.yields_pure (hsubject _ rfl)

/-- The object that a line of a watch is about is regular. -/
theorem Line.regular_ofText (text : String) : (Line.ofText text).Regular := by
  unfold Line.ofText
  split
  · next line hline =>
    exact Reader.Yields.of_run
      (regular_readEventArray.arrayOrObject regular_readEventObject _) hline
  · split
    · nofun
    · split <;> nofun

end Watch

namespace Response

variable {answer : Response}

theorem read_eq_ok {α : Type} {r : Reader α} {a : α} (h : answer.read r = .ok a) :
    r.run answer.body = .ok a := by
  unfold read at h
  split at h
  · cases h
  · cases hrun : r.run answer.body with
    | error e =>
      rw [hrun] at h
      cases h
    | ok found =>
      rw [hrun] at h
      cases h
      rfl

/-- Every object that an answer brings is regular. -/
theorem Brings.regular {o : Object} (ho : answer.Brings o) : o.Regular := by
  cases ho with
  | listed hread hmem => exact Watch.regular_readPage.of_run (read_eq_ok hread) o hmem
  | told hmem habout =>
    obtain ⟨text, -, rfl⟩ := List.mem_map.mp hmem
    exact Watch.Line.regular_ofText text o habout

end Response

/-! ## Passing on -/

@[simp] theorem Object.key_withoutManagedFields (o : Object) :
    o.withoutManagedFields.key = o.key := rfl

/-- An item is passed on as an event exactly if it was heard as one. -/
theorem delivered_withoutManagedFields (items : List Item) :
    delivered (items.map Item.withoutManagedFields) =
      (delivered items).map Event.withoutManagedFields := by
  induction items with
  | nil => rfl
  | cons item rest ih =>
    cases item with
    | event e => exact congrArg (e.withoutManagedFields :: ·) ih
    | failure error => exact ih
    | ended => rfl

theorem mem_of_mem_delivered {items : List Item} {e : Event} (he : e ∈ delivered items) :
    .event e ∈ items := by
  induction items with
  | nil => cases he
  | cons item rest ih =>
    cases item with
    | event first =>
      rcases List.mem_cons.mp he with rfl | hrest
      · exact List.mem_cons_self
      · exact List.mem_cons_of_mem _ (ih hrest)
    | failure error => exact List.mem_cons_of_mem _ (ih he)
    | ended => cases he

/-- A table does not depend on who set which fields, apart from holding it. -/
theorem Event.effect_withoutManagedFields (e : Event) (lookup : String → Option Object) :
    e.withoutManagedFields.effect (fun key => (lookup key).map Object.withoutManagedFields) =
      fun key => (e.effect lookup key).map Object.withoutManagedFields := by
  funext key
  cases e with
  | applied o =>
    show (if key = o.key then _ else _) = Option.map _ (if key = o.key then _ else _)
    rw [apply_ite (Option.map Object.withoutManagedFields)]
    rfl
  | deleted o =>
    show (if key = o.key then _ else _) = Option.map _ (if key = o.key then _ else _)
    rw [apply_ite (Option.map Object.withoutManagedFields)]
    rfl
  | restarted objects =>
    simp only [withoutManagedFields, effect]
    rw [← List.map_reverse, List.find?_map]
    rfl

theorem Event.tableOf_withoutManagedFields (events : List Event) (key : String) :
    tableOf (events.map withoutManagedFields) key =
      (tableOf events key).map Object.withoutManagedFields := by
  suffices hall : tableOf (events.map withoutManagedFields) =
      fun key => (tableOf events key).map Object.withoutManagedFields from congrFun hall key
  induction events using List.reverseRecOn with
  | nil => rfl
  | append_singleton events e ih =>
    rw [List.map_append, List.map_singleton, tableOf_concat, tableOf_concat, ih,
      effect_withoutManagedFields]

/-! ## Fetching -/

/-- An object that was fetched is one that the server answered with. -/
theorem eq_of_fetchObject {r : Resource} {key : ObjectKey} {e : Endpoint} {o : Object}
    (hfetch : (fetchObject r key).through e = .ok o) :
    ∃ request answer raw,
      Request.ofTarget (r.path key.namespace? ++ "/" ++ key.name) = .ok request ∧
        e request = .ok answer ∧ answer.read Object.read = .ok raw ∧
        o = raw.withoutManagedFields := by
  unfold fetchObject at hfetch
  split at hfetch
  · cases hfetch
  · next request hrequest =>
    rw [Talk.through, Talk.through] at hfetch
    cases houtcome : e request with
    | error f =>
      rw [houtcome] at hfetch
      cases hfetch
    | ok answer =>
      rw [houtcome] at hfetch
      cases hread : answer.read Object.read with
      | error f =>
        simp only [Except.bind, hread] at hfetch
        cases hfetch
      | ok raw =>
        simp only [Except.bind, hread] at hfetch
        cases hfetch
        exact ⟨request, answer, raw, hrequest, houtcome, hread, rfl⟩

end WatchCache
