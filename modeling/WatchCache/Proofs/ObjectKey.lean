import WatchCache.ObjectKey.Read

set_option autoImplicit false

/-!
# Keys with a separator

Keys of tables and values of indices are written with a slash between two parts, and nothing
keeps either part from holding slashes of its own.  A first part without a slash can be read
back; the partition of all namespaces can be told from every namespace that does not begin with
its name and a slash.
-/

namespace WatchCache

/-- Two texts that agree have the same first parts, unless one of these goes on past the
separator. -/
theorem append_sep_inj {sep : Char} {a b v w : List Char} (ha : sep ∉ a)
    (hb : ∀ rest, b ≠ a ++ sep :: rest) (h : a ++ sep :: v = b ++ sep :: w) :
    a = b ∧ v = w := by
  rcases List.append_eq_append_iff.mp h with ⟨t, hbt, hv⟩ | ⟨t, hat, hw⟩
  · cases t with
    | nil => simpa [hbt] using hv
    | cons c rest =>
      have hc : sep = c := by simpa using List.head_eq_of_cons_eq hv
      exact absurd hbt (hc ▸ hb rest)
  · cases t with
    | nil => simpa [hat, eq_comm] using hw
    | cons c rest =>
      have hc : sep = c := by simpa using List.head_eq_of_cons_eq hw
      exact absurd (by simp [hat, hc]) ha

theorem toList_append_slash (first second : String) :
    (first ++ "/" ++ second).toList = first.toList ++ '/' :: second.toList := by
  simp

/-! ## Values of indices -/

/-- The namespace begins with the name of the common partition and a slash. -/
def IsReserved (ns : String) : Prop := ∃ rest, ns = allNamespaces ++ "/" ++ rest

theorem not_isReserved_of_length_lt {ns : String} (h : ns.length < 17) : ¬IsReserved ns := by
  rintro ⟨rest, rfl⟩
  have hprefix : (allNamespaces ++ "/").length = 17 := by decide
  rw [String.length_append, hprefix] at h
  omega

theorem partitioned_everywhere (value : String) :
    partitioned "" value = allNamespaces ++ "/" ++ value := rfl

theorem partitioned_of_ne {ns : String} (hns : ns ≠ "") (value : String) :
    partitioned ns value = ns ++ "/" ++ value := by
  rw [partitioned, if_neg hns]

theorem partitioned_inj {ns value other : String}
    (h : partitioned ns value = partitioned ns other) : value = other := by
  have hlist := congrArg String.toList h
  simp only [partitioned, toList_append_slash] at hlist
  have hrest := List.append_cancel_left hlist
  exact String.toList_inj.mp (List.cons.inj hrest).2

/-- A value under a namespace that is not reserved is found in the common partition only if it
is the same value. -/
theorem eq_of_partitioned_everywhere {ns value other : String} (hns : ¬IsReserved ns)
    (hne : ns ≠ "") (h : partitioned "" value = partitioned ns other) : value = other := by
  rw [partitioned_everywhere, partitioned_of_ne hne] at h
  have hlist := congrArg String.toList h
  rw [toList_append_slash, toList_append_slash] at hlist
  refine String.toList_inj.mp (append_sep_inj (by decide) (fun rest hrest => ?_) hlist).2
  refine hns ⟨String.ofList rest, String.toList_inj.mp ?_⟩
  rw [hrest, toList_append_slash, String.toList_ofList]

/-! ## Keys of tables -/

theorem tableKey_of_ne {ns : String} (hns : ns ≠ "") (name : String) :
    tableKey ns name = ns ++ "/" ++ name := by
  rw [tableKey, if_neg hns]

/-- Namespaces without slashes can be read off the keys of their objects. -/
theorem ns_eq_of_tableKey_eq {ns other name name' : String} (hns : ns ≠ "") (hother : other ≠ "")
    (hslash : '/' ∉ ns.toList) (hslash' : '/' ∉ other.toList)
    (h : tableKey ns name = tableKey other name') : ns = other := by
  rw [tableKey_of_ne hns, tableKey_of_ne hother] at h
  have hlist := congrArg String.toList h
  rw [toList_append_slash, toList_append_slash] at hlist
  refine String.toList_inj.mp (append_sep_inj hslash (fun rest hrest => ?_) hlist).1
  exact hslash' (by simp [hrest])

end WatchCache
