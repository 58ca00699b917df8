import WatchCache.Proofs.Cache.Registration
import WatchCache.Proofs.Kind

set_option autoImplicit false

/-!
# Lists of a kind and of its list identifier

The objects of a kind of the fallback can be listed under the kind itself or under its list
identifier.  Which of the two it is, is told from the name alone, so a kind whose own name ends in
`List` is taken for the list identifier of a shorter name: its objects are listed under its list
identifier only.
-/

namespace WatchCache

namespace Cache

/-- Lists for which the fallback is asked the same question are the same act. -/
theorem act_list_congr {c : Cache} {k j : Kind} {o : ListOptions} {question : Kind × Goal}
    (hk : c.asks (.list k o) = some question) (hj : c.asks (.list j o) = some question) :
    c.act (.request (.list k o)) = c.act (.request (.list j o)) := by
  have hbegin : c.begin (.list k o) = c.begin (.list j o) :=
    (begin_of_asks hk).trans (begin_of_asks hj).symm
  simp only [act, hbegin]

/-- Acts that make the same of a cache are followed by the same run. -/
theorem run_act_congr {c : Cache} {before : List Act} {a b : Act}
    (hsame : (c.run before).act a = (c.run before).act b) (later : List Act) :
    c.run (before ++ a :: later) = c.run (before ++ b :: later) := by
  rw [run_append, run_append, run_cons, run_cons, hsame]

theorem endsWith_act_congr {c : Cache} {before : List Act} {a b : Act}
    (hsame : (c.run before).act a = (c.run before).act b) (later : List Act) (id : Nat)
    (reply : Reply) :
    c.EndsWith (before ++ a :: later) id reply ↔ c.EndsWith (before ++ b :: later) id reply := by
  rcases List.eq_nil_or_concat later with rfl | ⟨middle, last, rfl⟩
  · rw [EndsWith, EndsWith, List.dropLast_concat, List.dropLast_concat, run_act_congr hsame]
  · have hdrop (first : Act) :
        (before ++ first :: middle.concat last).dropLast = before ++ first :: middle := by
      rw [List.concat_eq_append, ← List.cons_append, ← List.append_assoc, List.dropLast_concat]
    rw [EndsWith, EndsWith, hdrop, hdrop, run_act_congr hsame, run_act_congr hsame]

/-- The outcomes of a list for a kind: it is refused since its informer cannot be made, stopped
while it waits, or answered by the informer of the kind. -/
def ListedFrom (c : Cache) (before later : List Act) (r : Request) (k : Kind) (o : ListOptions)
    (reply : Reply) : Prop :=
  let last := c.run (before ++ .request r :: later)
  (¬(c.run before).Supplies k ∧ (c.run before).informers.find? k = none ∧
      ∃ e, reply = .failed e) ∨
    reply = .failed (stoppedError k) ∨
    ∃ i, last.informers.find? k = some i ∧ Answers last i (.list o none) reply

/-- When the list identifier of a kind may be used in place of the kind.

The kind has a name, and neither of its identifiers belongs to a dedicated kind.  A list under the
list identifier is always answered by the informer of the kind.  If the kind itself is not read as
a list identifier, both lists make the same of the cache, now and after any later acts, and end
with the same reply at the same time.  Otherwise the kind is the list identifier of another one,
and a list under the kind is answered by the informer of that one. -/
theorem list_identifiers_are_interchangeable {c : Cache} {before : List Act} {k : Kind}
    (hname : k.name ≠ "") (hkind : (c.run before).registry.contains k = false)
    (hlist : (c.run before).registry.contains k.list = false) (o : ListOptions)
    (later : List Act) :
    let listing (identifier : Kind) := before ++ .request (.list identifier o) :: later
    let id := (c.run before).calls.length
    (∀ reply, c.EndsWith (listing k.list) id reply →
      c.ListedFrom before later (.list k.list o) k o reply) ∧
    (k.isList = false → c.run (listing k) = c.run (listing k.list) ∧
      ∀ reply, c.EndsWith (listing k) id reply ↔ c.EndsWith (listing k.list) id reply) ∧
    (k.isList = true → ∃ j, j.list = k ∧ ∀ reply, c.EndsWith (listing k) id reply →
      c.ListedFrom before later (.list k o) j o reply) := by
  intro listing id
  have hasksList : (c.run before).asks (.list k.list o) = some (k, .list o none) := by
    rw [asks_list hlist, Kind.item_list hname]
  refine ⟨fun reply hends => hends.answers hasksList, fun hitem => ?_, fun hitem => ?_⟩
  · have hasks : (c.run before).asks (.list k o) = some (k, .list o none) := by
      rw [asks_list hkind, k.item_eq_self_iff.mpr hitem]
    have hsame := act_list_congr hasks hasksList
    exact ⟨run_act_congr hsame later, endsWith_act_congr hsame later id⟩
  · obtain ⟨j, hj, rfl⟩ := k.isList_iff.mp hitem
    have hasks : (c.run before).asks (.list j.list o) = some (j, .list o none) := by
      rw [asks_list hkind, Kind.item_list hj]
    exact ⟨j, rfl, fun reply hends => hends.answers hasks⟩

/-- A list of the widgets of one namespace, after another kind was listed. -/
theorem list_identifiers_are_interchangeable_for_widgets :
    let widget : Kind := ⟨"example.io", "v1", "Widget"⟩
    let c : Cache := { connector := Script.connector { kinds := [(widget, true)] } }
    let before : List Act := [.request (.start "main"), .request (.list ⟨"", "v1", "Pod"⟩ {})]
    let o : ListOptions := { ns := some "red" }
    let w : Object := { metadata := { name := some "w", ns := some "red" } }
    let later : List Act := [.step 0, .outside (.feed 0 (.restarted [w])), .step 0, .poll 2]
    let listing (identifier : Kind) := before ++ .request (.list identifier o) :: later
    widget.name ≠ "" ∧ (c.run before).registry.contains widget = false ∧
      (c.run before).registry.contains widget.list = false ∧ widget.isList = false ∧
      c.run (listing widget) = c.run (listing widget.list) ∧
      c.EndsWith (listing widget) 2 (.objects [w.stamp widget]) ∧
      c.EndsWith (listing widget.list) 2 (.objects [w.stamp widget]) := by
  intro widget c before o w later listing
  have hname : widget.name ≠ "" := by decide
  have hends : c.EndsWith (listing widget) 2 (.objects [w.stamp widget]) :=
    ⟨by decide +kernel, by decide +kernel⟩
  obtain ⟨-, hsame, -⟩ :=
    @list_identifiers_are_interchangeable c before widget hname rfl rfl o later
  obtain ⟨hrun, hreply⟩ := hsame (by decide +kernel)
  have hid : (c.run before).calls.length = 2 := by decide +kernel
  rw [hid] at hreply
  exact ⟨hname, rfl, rfl, by decide +kernel, hrun, hends, (hreply _).mp hends⟩

/-- A kind whose own name ends in `List`, the only one that the connector knows: its objects are
listed under its list identifier, and a list under the kind asks the connector for a kind that it
does not know. -/
theorem kind_named_list_is_not_listed :
    let allowList : Kind := ⟨"example.io", "v1", "AllowList"⟩
    let c : Cache := { connector := Script.connector { kinds := [(allowList, true)] } }
    allowList.name ≠ "" ∧ c.Supplies allowList ∧ c.registry.contains allowList = false ∧
      c.registry.contains allowList.list = false ∧
      c.EndsWith [.request (.list allowList.list {})] 0 (.objects []) ∧
      c.EndsWith [.request (.list allowList {})] 0
        (.failed (.unknownKind "example.io/v1/Allow")) := by
  intro allowList c
  have hsupplies : c.Supplies allowList := ⟨true, by decide +kernel, fun _ _ => ⟨_, rfl⟩⟩
  exact ⟨by decide, hsupplies, rfl, rfl, ⟨by decide +kernel, by decide +kernel⟩,
    by decide +kernel, by decide +kernel⟩

end Cache

end WatchCache
