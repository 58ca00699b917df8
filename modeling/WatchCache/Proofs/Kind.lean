import WatchCache.Kind

set_option autoImplicit false

/-!
# Kinds and their list identifiers

A list identifier is the kind with a longer name, so it is never the kind itself, and no two kinds
have the same one.  Nothing marks an identifier as a list but its name: the list identifier of a
kind may be a kind of its own, and a kind whose name happens to end in `List` is read as the list
identifier of another kind.
-/

namespace WatchCache.Kind

theorem toList_name_list (k : Kind) : k.list.name.toList = k.name.toList ++ listEnding := by
  simp [list]

/-- No two kinds have the same list identifier. -/
theorem list_inj {k j : Kind} : k.list = j.list ↔ k = j := by
  constructor
  · intro heq
    have hname : k.name.toList ++ listEnding = j.name.toList ++ listEnding := by
      rw [← toList_name_list, ← toList_name_list, heq]
    have hsame := String.toList_inj.mp (List.append_cancel_right hname)
    have hgroup : k.group = j.group := (congrArg group heq :)
    have hversion : k.version = j.version := (congrArg version heq :)
    cases k
    cases j
    cases hsame
    cases hgroup
    cases hversion
    rfl
  · rintro rfl
    rfl

theorem list_ne_self (k : Kind) : k.list ≠ k := by
  intro heq
  have hlength : (k.name.toList ++ listEnding).length = k.name.toList.length := by
    rw [← toList_name_list, heq]
  simp [listEnding] at hlength

/-! ## Names with the ending -/

theorem itemName?_eq_some_iff (name start : List Char) :
    itemName? name = some start ↔ start ≠ [] ∧ name = start ++ listEnding := by
  constructor
  · intro hitem
    obtain ⟨⟨hne, hname⟩, hsome⟩ := Option.ite_none_right_eq_some.mp hitem
    cases hsome
    exact ⟨hne, hname⟩
  · rintro ⟨hne, rfl⟩
    have htake : (start ++ listEnding).take ((start ++ listEnding).length - listEnding.length) =
        start := by simp
    simp only [itemName?, htake]
    exact if_pos ⟨hne, trivial⟩

theorem itemName?_list {k : Kind} (hname : k.name ≠ "") :
    itemName? k.list.name.toList = some k.name.toList := by
  rw [itemName?_eq_some_iff]
  exact ⟨fun hnil => hname (String.toList_eq_nil_iff.mp hnil), k.toList_name_list⟩

/-- A kind is read back from its list identifier. -/
theorem item_list {k : Kind} (hname : k.name ≠ "") : k.list.item = k := by
  simp only [item, itemName?_list hname, String.ofList_toList]
  rfl

/-- The identifiers that are read as lists are the list identifiers of the kinds with a name. -/
theorem isList_iff (k : Kind) : k.isList = true ↔ ∃ j : Kind, j.name ≠ "" ∧ j.list = k := by
  constructor
  · intro hlist
    obtain ⟨start, hitem⟩ := Option.isSome_iff_exists.mp hlist
    obtain ⟨hne, hname⟩ := (itemName?_eq_some_iff _ _).mp hitem
    refine ⟨{ k with name := String.ofList start }, by simpa using hne, ?_⟩
    have hsame : k.name = String.ofList start ++ String.ofList listEnding :=
      String.toList_inj.mp (by simp [hname])
    rw [list, ← hsame]
  · rintro ⟨j, hj, rfl⟩
    rw [isList, itemName?_list hj]
    rfl

/-- An identifier belongs to itself exactly if it is not read as a list. -/
theorem item_eq_self_iff (k : Kind) : k.item = k ↔ k.isList = false := by
  constructor
  · intro hitem
    rw [← Bool.not_eq_true, isList_iff]
    rintro ⟨j, hj, rfl⟩
    rw [item_list hj] at hitem
    exact j.list_ne_self hitem.symm
  · intro hlist
    have hnone : itemName? k.name.toList = none := by
      rwa [isList, Option.isSome_eq_false_iff, Option.isNone_iff_eq_none] at hlist
    simp only [item, hnone]

/-- A kind is read back from its list identifier exactly if it has a name. -/
theorem item_list_eq_iff (k : Kind) : k.list.item = k ↔ k.name ≠ "" := by
  refine ⟨fun hitem hname => ?_, item_list⟩
  -- The ending alone names nobody's list, so that identifier belongs to itself.
  have hbare : k.list.isList = false := by
    rw [isList, toList_name_list, hname]
    rfl
  have hself : k.list = k := ((item_eq_self_iff k.list).mpr hbare).symm.trans hitem
  exact k.list_ne_self hself

/-- An identifier is the list identifier of what it belongs to exactly if it is read as a list. -/
theorem list_item_eq_iff (k : Kind) : k.item.list = k ↔ k.isList = true := by
  cases hlist : k.isList with
  | false =>
    rw [(item_eq_self_iff k).mpr hlist]
    exact iff_of_false k.list_ne_self Bool.false_ne_true
  | true =>
    obtain ⟨j, hj, rfl⟩ := (isList_iff k).mp hlist
    exact iff_of_true (congrArg list (item_list hj)) rfl

end WatchCache.Kind
