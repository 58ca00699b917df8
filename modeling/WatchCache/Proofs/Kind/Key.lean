import WatchCache.Proofs.Kind
import WatchCache.Proofs.Text

set_option autoImplicit false

/-!
# Keys of kinds

A key consists of two or three parts, since the core group is left out, and nothing but their
number tells the two shapes apart.  A kind is plain if its key can be cut into its parts again: no
part holds a slash, and only the group may be empty.  The texts that are read as keys are the keys
of plain kinds, each of which is read as the kind that it was written for.
-/

namespace WatchCache.Kind

open Text

/-- The parts that the key of a kind is written with. -/
def keyParts (k : Kind) : List String :=
  if k.group = "" then [k.version, k.name] else [k.group, k.version, k.name]

theorem key_eq_intercalate (k : Kind) : k.key = "/".intercalate k.keyParts := by
  rw [key, apiVersion, keyParts]
  split <;> simp [← String.toList_inj]

theorem length_keyParts (k : Kind) : k.keyParts.length = 2 ∨ k.keyParts.length = 3 := by
  rw [keyParts]
  split
  · exact Or.inl rfl
  · exact Or.inr rfl

theorem keyParts_ne_nil (k : Kind) : k.keyParts ≠ [] := by
  rw [keyParts]
  split <;> simp

/-- Two or three parts are those of a kind, as long as the group does not look left out. -/
theorem exists_keyParts {parts : List String} (hlength : parts.length = 2 ∨ parts.length = 3)
    (hne : ∀ part ∈ parts, part ≠ "") : ∃ k : Kind, k.keyParts = parts := by
  rcases hlength with htwo | hthree
  · obtain ⟨version, name, rfl⟩ := List.length_eq_two.mp htwo
    exact ⟨⟨"", version, name⟩, rfl⟩
  · obtain ⟨group, version, name, rfl⟩ := List.length_eq_three.mp hthree
    exact ⟨⟨group, version, name⟩, if_neg (hne group List.mem_cons_self)⟩

/-- A kind with a version and a name, and without a slash in any part. -/
structure Plain (k : Kind) : Prop where
  version : k.version ≠ ""
  name : k.name ≠ ""
  slash : ∀ part ∈ [k.group, k.version, k.name], '/' ∉ part.toList

theorem plain_iff (k : Kind) :
    k.Plain ↔ ∀ part ∈ k.keyParts, part ≠ "" ∧ '/' ∉ part.toList := by
  rw [keyParts]
  constructor
  · rintro ⟨hversion, hname, hslash⟩
    split <;> simp_all
  · intro hparts
    split at hparts
    · next hgroup =>
      simp only [List.forall_mem_cons] at hparts
      obtain ⟨⟨hversion, hv⟩, ⟨hname, hn⟩, -⟩ := hparts
      exact ⟨hversion, hname, by simp [hgroup, hv, hn]⟩
    · simp only [List.forall_mem_cons] at hparts
      obtain ⟨⟨-, hg⟩, ⟨hversion, hv⟩, ⟨hname, hn⟩, -⟩ := hparts
      exact ⟨hversion, hname, by simp [hg, hv, hn]⟩

/-! ## Reading -/

/-- A text is read as the kind whose parts it is cut into, or refused with its own wording. -/
theorem parseKey_cases (s : String) :
    (∃ k : Kind, parseKey s = .ok k ∧ splitString '/' s = k.keyParts ∧
      ∀ part ∈ k.keyParts, part ≠ "") ∨
    parseKey s = .error (.unknownKind
      ("invalid gvk key: " ++ s ++ " (expect v1/Kind or group/v1/Kind)")) := by
  rw [parseKey]
  split
  · next version name hs =>
    split
    · exact Or.inr rfl
    · next hne =>
      refine Or.inl ⟨_, rfl, hs, ?_⟩
      simpa [keyParts] using hne
  · next group version name hs =>
    split
    · exact Or.inr rfl
    · next hne =>
      rw [not_or, not_or] at hne
      refine Or.inl ⟨_, rfl, ?_, ?_⟩
      · rw [hs, keyParts, if_neg hne.1]
      · simpa [keyParts, hne.1] using hne.2
  · exact Or.inr rfl

theorem parseKey_of_keyParts {s : String} {k : Kind} (hs : splitString '/' s = k.keyParts)
    (hne : ∀ part ∈ k.keyParts, part ≠ "") : parseKey s = .ok k := by
  obtain ⟨group, version, name⟩ := k
  rw [keyParts] at hs hne
  by_cases hgroup : group = ""
  · subst hgroup
    simp_all [parseKey]
  · simp_all [parseKey]

/-- A text is read as a kind exactly if the kind is plain and the text is its key. -/
theorem parseKey_eq_ok_iff {s : String} {k : Kind} :
    parseKey s = .ok k ↔ k.Plain ∧ k.key = s := by
  have hparts : k.Plain ∧ k.key = s ↔
      splitString '/' s = k.keyParts ∧ ∀ part ∈ k.keyParts, part ≠ "" := by
    have hne := k.keyParts_ne_nil
    rw [plain_iff, forall₂_and, key_eq_intercalate, splitString_eq_iff, String.singleton_eq_ofList]
    tauto
  rw [hparts]
  constructor
  · intro hread
    rcases parseKey_cases s with ⟨j, hj, hs⟩ | hrefused
    · cases hread.symm.trans hj
      exact hs
    · cases hread.symm.trans hrefused
  · rintro ⟨hs, hne⟩
    exact parseKey_of_keyParts hs hne

theorem exists_parseKey_iff (s : String) : (∃ k, parseKey s = .ok k) ↔
    ∃ parts : List String, (parts.length = 2 ∨ parts.length = 3) ∧
      (∀ part ∈ parts, part ≠ "" ∧ '/' ∉ part.toList) ∧ "/".intercalate parts = s := by
  simp only [parseKey_eq_ok_iff, plain_iff, key_eq_intercalate]
  constructor
  · rintro ⟨k, hk, hs⟩
    exact ⟨k.keyParts, k.length_keyParts, hk, hs⟩
  · rintro ⟨parts, hlength, hparts, hs⟩
    obtain ⟨k, rfl⟩ := exists_keyParts hlength fun part hpart => (hparts part hpart).1
    exact ⟨k, hparts, hs⟩

/-- Keys and list identifiers are undone.

A text is read as a key exactly if slashes cut it into two or three parts of which none is empty,
and it is the key of the kind that it is read as.  A kind is read back from its key exactly if it
is plain, so no two plain kinds have the same key.  A kind is found again from its list identifier
exactly if it has a name, and an identifier from the kind that it belongs to exactly if it is read
as a list. -/
theorem keys_and_lists_read_back :
    (∀ s : String, (∃ k, parseKey s = .ok k) ↔
      ∃ parts : List String, (parts.length = 2 ∨ parts.length = 3) ∧
        (∀ part ∈ parts, part ≠ "" ∧ '/' ∉ part.toList) ∧ "/".intercalate parts = s) ∧
    (∀ (s : String) (k : Kind), parseKey s = .ok k → k.key = s) ∧
    (∀ k : Kind, parseKey k.key = .ok k ↔ k.Plain) ∧
    (∀ j k : Kind, j.Plain → k.Plain → (j.key = k.key ↔ j = k)) ∧
    (∀ k : Kind, k.list.item = k ↔ k.name ≠ "") ∧
    ∀ k : Kind, k.item.list = k ↔ k.isList = true := by
  have hread (k : Kind) : parseKey k.key = .ok k ↔ k.Plain := by
    rw [parseKey_eq_ok_iff]
    exact and_iff_left rfl
  refine ⟨exists_parseKey_iff, fun s k hs => (parseKey_eq_ok_iff.mp hs).2, hread,
    fun j k hj hk => ⟨fun heq => ?_, congrArg key⟩, item_list_eq_iff, list_item_eq_iff⟩
  have hback : parseKey j.key = .ok k := heq ▸ (hread k).mpr hk
  exact Except.ok.inj (((hread j).mpr hj).symm.trans hback)

/-- A key without a group whose name is the ending of list identifiers, and one whose parts are
those of the first behind a group. -/
theorem keys_and_lists_read_back_bare_and_grouped :
    let bare : Kind := ⟨"", "v1", "List"⟩
    let grouped : Kind := ⟨"v1", "v1", "ListList"⟩
    bare.Plain ∧ grouped.Plain ∧
      parseKey "v1/List" = .ok bare ∧ bare.key = "v1/List" ∧
      parseKey "v1/v1/ListList" = .ok grouped ∧ grouped.key = "v1/v1/ListList" ∧
      bare.key ≠ grouped.key ∧
      bare.list.item = bare ∧ bare.item.list ≠ bare ∧ grouped.item.list = grouped := by
  intro bare grouped
  obtain ⟨-, hkey, hread, hinj, hitem, hlist⟩ := keys_and_lists_read_back
  have hbare : bare.Plain := ⟨by decide, by decide, by decide⟩
  have hgrouped : grouped.Plain := ⟨by decide, by decide, by decide⟩
  have hbareRead : parseKey "v1/List" = .ok bare := (hread bare).mpr hbare
  have hgroupedRead : parseKey "v1/v1/ListList" = .ok grouped := (hread grouped).mpr hgrouped
  exact ⟨hbare, hgrouped, hbareRead, hkey _ _ hbareRead, hgroupedRead, hkey _ _ hgroupedRead,
    mt (hinj bare grouped hbare hgrouped).mp (by decide), (hitem bare).mpr (by decide),
    mt (hlist bare).mp (by decide), (hlist grouped).mpr (by decide)⟩

end WatchCache.Kind
