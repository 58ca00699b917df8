import Mathlib.Data.List.DropRight
import WatchCache.Text.Basic

set_option autoImplicit false

/-!
# Cutting and trimming what was put together

A text that was joined from pieces is cut into these pieces again, as long as none of them holds
the separator.  The same goes for the two sides of a sign that the side before it does not begin,
and for blanks around a text whose ends are not blank.
-/

namespace WatchCache.Text

/-! ## Cutting at a separator -/

variable {sep : Char}

theorem splitOn_cons_of_ne {c : Char} (hne : c ≠ sep) {s piece : List Char}
    {pieces : List (List Char)} (hsplit : splitOn sep s = piece :: pieces) :
    splitOn sep (c :: s) = (c :: piece) :: pieces := by
  rw [splitOn, if_neg hne, hsplit]

theorem splitOn_of_not_mem {s : List Char} (hnot : sep ∉ s) : splitOn sep s = [s] := by
  induction s with
  | nil => rfl
  | cons c s ih =>
    obtain ⟨hne, hrest⟩ := not_or.mp (mt List.mem_cons.mpr hnot)
    exact splitOn_cons_of_ne (Ne.symm hne) (ih hrest)

theorem splitOn_append_cons {s : List Char} (hnot : sep ∉ s) (rest : List Char) :
    splitOn sep (s ++ sep :: rest) = s :: splitOn sep rest := by
  induction s with
  | nil => simp [splitOn]
  | cons c s ih =>
    obtain ⟨hne, hrest⟩ := not_or.mp (mt List.mem_cons.mpr hnot)
    exact splitOn_cons_of_ne (Ne.symm hne) (ih hrest)

theorem joinWith_cons_cons (sep piece next : List Char) (pieces : List (List Char)) :
    joinWith sep (piece :: next :: pieces) = piece ++ sep ++ joinWith sep (next :: pieces) := rfl

theorem joinWith_cons (sep : Char) (piece : List Char) (pieces : List (List Char)) :
    joinWith [sep] (piece :: pieces) = piece ++ (pieces.map (sep :: ·)).flatten := by
  induction pieces generalizing piece with
  | nil => exact (List.append_nil piece).symm
  | cons next pieces ih =>
    rw [joinWith_cons_cons, ih]
    simp

/-- Pieces without the separator are what their join is cut into. -/
theorem splitOn_joinWith {pieces : List (List Char)} (hne : pieces ≠ [])
    (hnot : ∀ piece ∈ pieces, sep ∉ piece) : splitOn sep (joinWith [sep] pieces) = pieces := by
  induction pieces with
  | nil => exact absurd rfl hne
  | cons piece pieces ih =>
    have hpiece := hnot piece List.mem_cons_self
    cases pieces with
    | nil => exact splitOn_of_not_mem hpiece
    | cons next pieces =>
      have hrest := ih (by simp) fun p hp => hnot p (List.mem_cons_of_mem piece hp)
      rw [joinWith_cons_cons, List.append_assoc, List.singleton_append,
        splitOn_append_cons hpiece, hrest]

/-- Every character of a join stands in a piece or in the separator. -/
theorem not_mem_of_mem_splitOn {s : List Char} : ∀ piece ∈ splitOn sep s, sep ∉ piece := by
  induction s with
  | nil => simp [splitOn]
  | cons c rest ih =>
    rw [splitOn]
    split
    · exact List.forall_mem_cons.mpr ⟨List.not_mem_nil, ih⟩
    · next hne =>
      split
      · simp [Ne.symm hne]
      · next piece pieces hpieces =>
        rw [hpieces, List.forall_mem_cons] at ih
        refine List.forall_mem_cons.mpr ⟨?_, ih.2⟩
        exact List.not_mem_cons_of_ne_of_not_mem (Ne.symm hne) ih.1

/-- A text is cut into the only pieces without the separator that it is joined from. -/
theorem splitOn_eq_iff {s : List Char} {pieces : List (List Char)} :
    splitOn sep s = pieces ↔
      pieces ≠ [] ∧ (∀ piece ∈ pieces, sep ∉ piece) ∧ joinWith [sep] pieces = s := by
  constructor
  · rintro rfl
    exact ⟨splitOn_ne_nil sep s, not_mem_of_mem_splitOn, joinWith_splitOn sep s⟩
  · rintro ⟨hne, hnot, rfl⟩
    exact splitOn_joinWith hne hnot

theorem mem_joinWith {c : Char} {sep : List Char} {pieces : List (List Char)}
    (hc : c ∈ joinWith sep pieces) : c ∈ sep ∨ ∃ piece ∈ pieces, c ∈ piece := by
  induction pieces with
  | nil => cases hc
  | cons piece pieces ih =>
    cases pieces with
    | nil => exact Or.inr ⟨piece, List.mem_cons_self, hc⟩
    | cons next pieces =>
      rw [joinWith_cons_cons, List.append_assoc, List.mem_append, List.mem_append] at hc
      rcases hc with hfirst | hsep | hrest
      · exact Or.inr ⟨piece, List.mem_cons_self, hfirst⟩
      · exact Or.inl hsep
      · refine (ih hrest).imp_right ?_
        rintro ⟨other, hother, hmem⟩
        exact ⟨other, List.mem_cons_of_mem piece hother, hmem⟩

theorem mem_joinWith_of_mem {c : Char} {sep piece : List Char} {pieces : List (List Char)}
    (hpiece : piece ∈ pieces) (hc : c ∈ piece) : c ∈ joinWith sep pieces := by
  induction pieces with
  | nil => cases hpiece
  | cons first pieces ih =>
    cases pieces with
    | nil => exact List.mem_singleton.mp hpiece ▸ hc
    | cons next pieces =>
      rw [joinWith_cons_cons, List.mem_append, List.mem_append]
      rcases List.mem_cons.mp hpiece with rfl | hrest
      · exact Or.inl (Or.inl hc)
      · exact Or.inr (ih hrest)

/-- `joinWith` is the library's way of putting a separator between texts. -/
theorem intercalate_eq_joinWith (sep : List Char) (pieces : List (List Char)) :
    sep.intercalate pieces = joinWith sep pieces := by
  induction pieces with
  | nil => rfl
  | cons piece pieces ih =>
    cases pieces with
    | nil => simp [joinWith]
    | cons next pieces =>
      rw [joinWith_cons_cons, ← ih]
      simp [List.intercalate]

theorem splitString_eq_iff {s : String} {parts : List String} :
    splitString sep s = parts ↔
      parts ≠ [] ∧ (∀ part ∈ parts, sep ∉ part.toList) ∧
        (String.singleton sep).intercalate parts = s := by
  have hparts : splitString sep s = parts ↔ splitOn sep s.toList = parts.map String.toList := by
    rw [splitString]
    constructor
    · rintro rfl
      simp
    · intro h
      rw [h]
      simp
  have hjoin : joinWith [sep] (parts.map String.toList) = s.toList ↔
      (String.singleton sep).intercalate parts = s := by
    rw [← String.toList_inj, String.toList_intercalate, intercalate_eq_joinWith,
      String.toList_singleton]
  rw [hparts, splitOn_eq_iff, hjoin, List.forall_mem_map, ne_eq, List.map_eq_nil_iff]

/-! ## Cutting at a sign -/

variable {first : Char} {others before : List Char}

/-- The sign is looked for after a text that does not hold its first character. -/
theorem splitOnce_append (hnot : first ∉ before) (s : List Char) :
    splitOnce (first :: others) (before ++ s) =
      (splitOnce (first :: others) s).map fun (left, right) => (before ++ left, right) := by
  induction before with
  | nil => simp
  | cons c before ih =>
    obtain ⟨hne, hrest⟩ := not_or.mp (mt List.mem_cons.mpr hnot)
    have hother : afterStart (first :: others) (c :: (before ++ s)) = none := by
      rw [afterStart, if_neg hne]
    rw [List.cons_append, splitOnce, hother, ih hrest, Option.map_map]
    rfl

theorem splitOnce_of_not_mem (hnot : first ∉ before) :
    splitOnce (first :: others) before = none := by
  have hcut : splitOnce (first :: others) (before ++ []) = _ := splitOnce_append hnot []
  rw [List.append_nil] at hcut
  rw [hcut]
  rfl

theorem afterStart_append (pattern s : List Char) : afterStart pattern (pattern ++ s) = some s := by
  induction pattern with
  | nil => rfl
  | cons c pattern ih => rw [List.cons_append, afterStart, if_pos rfl, ih]

/-- What stands after a pattern is left of a text that begins with it, and of no other. -/
theorem afterStart_eq_some_iff {pattern s rest : List Char} :
    afterStart pattern s = some rest ↔ s = pattern ++ rest := by
  induction pattern generalizing s with
  | nil => simp [afterStart]
  | cons p pattern ih =>
    cases s with
    | nil => simp [afterStart]
    | cons c s =>
      rw [afterStart, List.cons_append, List.cons.injEq]
      by_cases hpc : p = c
      · rw [if_pos hpc, ih]
        simp [hpc]
      · rw [if_neg hpc]
        simp [Ne.symm hpc]

theorem dropStart?_eq_some_iff {pattern s rest : String} :
    dropStart? pattern s = some rest ↔ s = pattern ++ rest := by
  rw [dropStart?, Option.map_eq_some_iff]
  simp only [afterStart_eq_some_iff]
  constructor
  · rintro ⟨chars, hchars, rfl⟩
    rw [← String.toList_inj, hchars, String.toList_append, String.toList_ofList]
  · rintro rfl
    exact ⟨rest.toList, String.toList_append, String.ofList_toList⟩

theorem dropStart?_eq_none_iff {pattern s : String} :
    dropStart? pattern s = none ↔ ∀ rest, s ≠ pattern ++ rest := by
  rw [Option.eq_none_iff_forall_ne_some]
  exact forall_congr' fun _ => not_congr dropStart?_eq_some_iff

/-- A text is cut at a pattern if it holds the pattern anywhere. -/
theorem splitOnce_eq_none_iff {pattern s : List Char} :
    splitOnce pattern s = none ↔ ¬pattern <:+: s := by
  have hstart {t : List Char} : afterStart pattern t = none ↔ ¬pattern <+: t := by
    rw [Option.eq_none_iff_forall_ne_some, List.IsPrefix, not_exists]
    exact forall_congr' fun rest => not_congr (afterStart_eq_some_iff.trans eq_comm)
  induction s with
  | nil =>
    rw [splitOnce, Option.map_eq_none_iff, hstart, List.infix_nil, List.prefix_nil]
  | cons c s ih =>
    rw [List.infix_cons_iff, not_or, ← hstart, splitOnce]
    cases afterStart pattern (c :: s) with
    | none => simpa using ih
    | some rest => simp

theorem splitOnce_sign (hnot : first ∉ before) (after : List Char) :
    splitOnce (first :: others) (before ++ (first :: others ++ after)) = some (before, after) := by
  have hsign : splitOnce (first :: others) (first :: others ++ after) = some ([], after) := by
    have hstart := afterStart_append (first :: others) after
    rw [List.cons_append] at hstart ⊢
    rw [splitOnce, hstart]
  rw [splitOnce_append hnot, hsign]
  exact congrArg (fun left => some (left, after)) (List.append_nil before)

/-! ## Trimming -/

theorem trimStart_of_head {c : Char} (hc : isBlank c = false) (s : List Char) :
    trimStart (c :: s) = c :: s := by
  rw [trimStart, List.dropWhile_cons, hc]
  rfl

/-- Nothing is trimmed from a text between two characters that are not blank. -/
theorem trim_of_ends {s : List Char} (hhead : ∀ c ∈ s.head?, isBlank c = false)
    (hlast : ∀ c ∈ s.getLast?, isBlank c = false) : trim s = s := by
  have hkept {s : List Char} (hhead : ∀ c ∈ s.head?, isBlank c = false) :
      s.dropWhile isBlank = s := by
    cases s with
    | nil => rfl
    | cons c s => exact trimStart_of_head (hhead c rfl) s
  rw [trim, trimStart, hkept hhead, trimEnd, hkept, List.reverse_reverse]
  rw [List.head?_reverse]
  exact hlast

/-- A text that trimming leaves alone begins and ends without a blank. -/
theorem ends_of_trim {s : List Char} (htrim : trim s = s) :
    (∀ c ∈ s.head?, isBlank c = false) ∧ ∀ c ∈ s.getLast?, isBlank c = false := by
  have hsuffix : trimStart s <:+ s := List.dropWhile_suffix isBlank
  have hprefix : trim s <+: trimStart s := List.rdropWhile_prefix isBlank (trimStart s)
  -- Neither of the two steps can shorten the text, so neither drops anything.
  have hstart : trimStart s = s := hsuffix.eq_of_length_le (htrim ▸ hprefix).length_le
  have hend : trimEnd s = s := by rwa [trim, hstart] at htrim
  refine ⟨fun c hc => ?_, fun c hc => ?_⟩
  · obtain ⟨rest, rfl⟩ := List.head?_eq_some_iff.mp hc
    exact Bool.eq_false_iff.mpr (List.dropWhile_eq_self_iff.mp hstart (by simp))
  · obtain ⟨hne, rfl⟩ := List.mem_getLast?_eq_getLast hc
    exact Bool.eq_false_iff.mpr (List.rdropWhile_eq_self_iff.mp hend hne)

/-- Nothing is trimmed from a text without blanks. -/
theorem trim_of_forall {s : List Char} (hs : ∀ c ∈ s, isBlank c = false) : trim s = s :=
  trim_of_ends (fun c hc => hs c (List.mem_of_mem_head? hc))
    fun c hc => hs c (List.mem_of_mem_getLast? hc)

section

variable {gap : List Char} (hgap : ∀ c ∈ gap, isBlank c = true)
include hgap

theorem trimStart_append (s : List Char) : trimStart (gap ++ s) = trimStart s :=
  List.dropWhile_append_of_pos hgap

theorem trimEnd_append (s : List Char) : trimEnd (s ++ gap) = trimEnd s := by
  have hreverse : ∀ c ∈ gap.reverse, isBlank c = true := fun c hc => hgap c (List.mem_reverse.mp hc)
  rw [trimEnd, List.reverse_append, List.dropWhile_append_of_pos hreverse]
  rfl

/-- Blanks around a text are trimmed away. -/
theorem trim_append {gap' : List Char} (hgap' : ∀ c ∈ gap', isBlank c = true) (s : List Char) :
    trim (gap ++ (s ++ gap')) = trim s := by
  have hnil : gap'.dropWhile isBlank = [] := List.dropWhile_eq_nil_iff.mpr hgap'
  rw [trim, trimStart_append hgap, trimStart, List.dropWhile_append, hnil, trim, trimStart]
  split
  · next hempty => rw [List.isEmpty_iff.mp hempty]
  · exact trimEnd_append hgap' (s.dropWhile isBlank)

end

theorem trim_trimEnd (s : List Char) : trim (trimEnd s) = trim s := by
  have hnone : ∀ c ∈ ([] : List Char), isBlank c = true := fun c hc => absurd hc List.not_mem_nil
  have hbehind : ∀ c ∈ s.rtakeWhile isBlank, isBlank c = true := fun c => List.mem_rtakeWhile_imp
  have hparts : trimEnd s ++ s.rtakeWhile isBlank = s := List.rdropWhile_append_rtakeWhile
  have htrim := trim_append hnone hbehind (trimEnd s)
  rw [List.nil_append, hparts] at htrim
  exact htrim.symm

theorem mem_of_mem_trimEnd {s : List Char} {c : Char} (hc : c ∈ trimEnd s) : c ∈ s :=
  (List.rdropWhile_prefix isBlank s).subset hc

theorem trimEnd_append_of_getLast? {s : List Char} {c : Char} (hlast : s.getLast? = some c)
    (hc : isBlank c = false) (t : List Char) : trimEnd (s ++ t) = s ++ trimEnd t := by
  have hconcat (u : List Char) (d : Char) :
      trimEnd (u ++ [d]) = if isBlank d = true then trimEnd u else u ++ [d] :=
    List.rdropWhile_concat isBlank u d
  induction t using List.reverseRecOn with
  | nil =>
    obtain ⟨start, rfl⟩ := List.getLast?_eq_some_iff.mp hlast
    rw [List.append_nil, hconcat, hc]
    simp
  | append_singleton t d ih =>
    rw [← List.append_assoc, hconcat, hconcat, ih]
    split
    · rfl
    · exact List.append_assoc s t [d]

/-- Of blanks before a text that begins and ends without a blank nothing is left, and what stands
behind the text is trimmed at its end. -/
theorem trim_append_of_ends {gap s : List Char} (hgap : ∀ c ∈ gap, isBlank c = true)
    {first last : Char} (hfirst : s.head? = some first) (hhead : isBlank first = false)
    (hlast : s.getLast? = some last) (hend : isBlank last = false) (t : List Char) :
    trim (gap ++ (s ++ t)) = s ++ trimEnd t := by
  obtain ⟨rest, rfl⟩ := List.head?_eq_some_iff.mp hfirst
  rw [trim, trimStart_append hgap, List.cons_append, trimStart_of_head hhead, ← List.cons_append,
    trimEnd_append_of_getLast? hlast hend]

/-- Only blanks are trimmed away altogether. -/
theorem trim_eq_nil_iff {s : List Char} : trim s = [] ↔ ∀ c ∈ s, isBlank c = true := by
  have hend : trim s = [] ↔ ∀ c ∈ trimStart s, isBlank c = true := List.rdropWhile_eq_nil_iff
  rw [hend]
  constructor
  · intro hrest c hc
    rw [← List.takeWhile_append_dropWhile (p := isBlank) (l := s)] at hc
    rcases List.mem_append.mp hc with hleft | hright
    · exact List.mem_takeWhile_imp hleft
    · exact hrest c hright
  · intro hall c hc
    exact hall c ((List.dropWhile_suffix isBlank).subset hc)

end WatchCache.Text
