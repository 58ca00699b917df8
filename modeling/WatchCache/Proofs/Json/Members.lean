import Mathlib.Data.List.Induction
import WatchCache.Json.Value

set_option autoImplicit false

/-!
# The members of JSON objects

Lists of members are written in any order and kept in the order of their keys.  What counts of
such a list is what a name is found under: `member?_sortMembers` says that sorting lets the last
member of each name count.
-/

namespace WatchCache.Json

variable {key : String} {value : Json} {ms : List (String × Json)}

theorem mem_of_member? (h : member? key ms = some value) : (key, value) ∈ ms := by
  obtain ⟨m, hfind, rfl⟩ := Option.map_eq_some_iff.mp h
  have hkey : m.1 = key := by simpa using List.find?_some hfind
  exact hkey ▸ List.mem_of_find?_eq_some hfind

theorem member?_eq_none_iff : member? key ms = none ↔ ∀ m ∈ ms, m.1 ≠ key := by
  simp only [member?, Option.map_eq_none_iff, List.find?_eq_none, decide_eq_true_eq, ne_eq]

theorem member?_cons (m : String × Json) (ms : List (String × Json)) (key : String) :
    member? key (m :: ms) = if m.1 = key then some m.2 else member? key ms := by
  unfold member?
  rw [List.find?_cons]
  split
  · next heq => rw [if_pos (by simpa using heq)]; rfl
  · next hne => rw [if_neg (by simpa using hne)]

theorem member?_append (ms rest : List (String × Json)) (key : String) :
    member? key (ms ++ rest) = (member? key ms).or (member? key rest) := by
  unfold member?
  rw [List.find?_append, Option.map_or]

theorem member?_insertMember (k : String) (v : Json) (ms : List (String × Json)) (key : String) :
    member? key (insertMember k v ms) = if k = key then some v else member? key ms := by
  induction ms with
  | nil => exact member?_cons (k, v) [] key
  | cons m rest ih =>
    obtain ⟨l, w⟩ := m
    rw [insertMember]
    split
    · next heq =>
      subst heq
      rw [member?_cons, member?_cons]
      split <;> rfl
    · next hne =>
      split
      · rw [member?_cons]
      · rw [member?_cons, member?_cons, ih]
        split
        · next hkey => rw [if_neg fun heq => hne (heq.trans hkey.symm)]
        · rfl

/-- Of members of equal names the last one counts. -/
theorem member?_sortMembers (ms : List (String × Json)) (key : String) :
    member? key (sortMembers ms) = member? key ms.reverse := by
  induction ms using List.reverseRecOn with
  | nil => rfl
  | append_singleton ms m ih =>
    rw [sortMembers, List.foldl_append, ← sortMembers, List.reverse_append]
    show member? key (insertMember m.1 m.2 (sortMembers ms)) = member? key (m :: ms.reverse)
    rw [member?_insertMember, member?_cons, ih]

theorem mem_insertMember {m : String × Json} {k : String} {v : Json}
    (h : m ∈ insertMember k v ms) : m = (k, v) ∨ m ∈ ms := by
  induction ms with
  | nil => exact Or.inl (List.mem_singleton.mp h)
  | cons first rest ih =>
    rw [insertMember] at h
    split at h
    · exact (List.mem_cons.mp h).imp_right (List.mem_cons_of_mem _)
    · split at h
      · exact List.mem_cons.mp h
      · rcases List.mem_cons.mp h with rfl | hrest
        · exact Or.inr List.mem_cons_self
        · exact (ih hrest).imp_right (List.mem_cons_of_mem _)

theorem mem_of_mem_sortMembers {m : String × Json} (h : m ∈ sortMembers ms) : m ∈ ms := by
  induction ms using List.reverseRecOn with
  | nil => exact h
  | append_singleton ms last ih =>
    rw [sortMembers, List.foldl_append, ← sortMembers] at h
    rcases mem_insertMember h with rfl | hbefore
    · exact List.mem_append_right _ (List.mem_singleton_self _)
    · exact List.mem_append_left _ (ih hbefore)

/-! ## Members that are present -/

/-- Where the last of the present members has another name, those before it count. -/
theorem get?_ofPresent_append {before after : List (String × Option Json)}
    (hafter : ∀ m ∈ after, m.1 ≠ key) :
    (ofPresent (before ++ after)).get? key = (ofPresent before).get? key := by
  rw [ofPresent, ofMembers, get?, members, member?_sortMembers, List.filterMap_append,
    List.reverse_append, member?_append, member?_eq_none_iff.mpr, Option.none_or,
    ← member?_sortMembers]
  · rfl
  · intro m hm
    obtain ⟨⟨k, v⟩, hmem, hv⟩ := List.mem_filterMap.mp (List.mem_reverse.mp hm)
    obtain ⟨w, -, rfl⟩ := Option.map_eq_some_iff.mp hv
    exact hafter (k, v) hmem

/-- A member that no other one has the name of is there exactly if it is present. -/
theorem get?_ofPresent_last {others : List (String × Option Json)}
    (hothers : ∀ m ∈ others, m.1 ≠ key) (v : Option Json) :
    (ofPresent (others ++ [(key, v)])).get? key = v := by
  cases v with
  | none =>
    have hnone : (ofPresent others).get? key = none := by
      rw [← List.nil_append others, get?_ofPresent_append hothers]
      rfl
    rw [ofPresent, List.filterMap_append]
    exact (congrArg (fun ms => (ofMembers ms).get? key) (List.append_nil _)).trans hnone
  | some w =>
    rw [ofPresent, ofMembers, get?, members, member?_sortMembers, List.filterMap_append,
      List.reverse_append, member?_append]
    have hlast : member? key [(key, w)] = some w :=
      (member?_cons (key, w) [] key).trans (if_pos rfl)
    exact congrArg (Option.or · _) hlast

end WatchCache.Json
