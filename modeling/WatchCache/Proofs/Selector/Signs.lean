import WatchCache.Proofs.Text
import WatchCache.Selector.Label

set_option autoImplicit false

/-!
# Signs of comparison

A comparison is cut at a sign that is looked for in the whole text: `!=` first, then `==`, then
`=`.  What stands before the own sign of a comparison never holds a character of a sign, so the
cut depends on what stands behind it alone: `Operator.FoundFirst` says when it is made there.
-/

namespace WatchCache.Selector

open Text

/-- The sign of an operator that compares with one value. -/
inductive Sign : Operator → List Char → Prop
  | equals : Sign .equals ['=']
  | doubleEquals : Sign .doubleEquals ['=', '=']
  | notEquals : Sign .notEquals ['!', '=']

theorem Sign.mem {op : Operator} {sign : List Char} (h : Sign op sign) :
    ∀ c ∈ sign, c = '!' ∨ c = '=' := by
  cases h <;> simp

theorem Sign.getLast? {op : Operator} {sign : List Char} (h : Sign op sign) :
    sign.getLast? = some '=' := by
  cases h <;> rfl

/-- No sign that is looked for earlier stands in the sign of an operator and the value behind it. -/
def Operator.FoundFirst (value : List Char) : Operator → Prop
  | .notEquals => True
  | .doubleEquals => ¬['!', '='] <:+: value
  | _ => ¬['!', '='] <:+: value ∧ ¬['=', '='] <:+: '=' :: value

instance (value : List Char) : DecidablePred (Operator.FoundFirst value)
  | .notEquals => inferInstanceAs (Decidable True)
  | .doubleEquals => inferInstanceAs (Decidable ¬['!', '='] <:+: value)
  | .equals | .isIn | .isNotIn | .exists_ | .doesNotExist =>
    inferInstanceAs (Decidable (¬['!', '='] <:+: value ∧ ¬['=', '='] <:+: '=' :: value))

/-- The first sign that is found in a text, with what stands on both of its sides. -/
def firstSign? (s : List Char) : Option (List Char × Operator × List Char) :=
  ((splitOnce ['!', '='] s).map fun (left, right) => (left, .notEquals, right)).or <|
    ((splitOnce ['=', '='] s).map fun (left, right) => (left, .doubleEquals, right)).or <|
      (splitOnce ['='] s).map fun (left, right) => (left, .equals, right)

/-- What holds no character of a sign goes to the left of the cut. -/
theorem comparison?_append {before : List Char} (hequals : '=' ∉ before) (hbang : '!' ∉ before)
    (s : List Char) :
    LabelSelector.comparison? (before ++ s) =
      (firstSign? s).map fun cut => (trim (before ++ cut.1), cut.2.1, trim cut.2.2) := by
  simp only [LabelSelector.comparison?, firstSign?, splitOnce_append hequals,
    splitOnce_append hbang, Option.map_map, Option.map_or]
  rfl

variable {value : List Char}

/-- Behind a sign of equality, the sign of inequality can only stand in the value. -/
theorem notEquals_infix_cons : ['!', '='] <:+: '=' :: value ↔ ['!', '='] <:+: value := by
  rw [List.infix_cons_iff, List.cons_prefix_cons]
  exact or_iff_right fun h => absurd h.1 (by decide)

theorem splitOnce_sign_cons (first : Char) (others : List Char) :
    splitOnce (first :: others) (first :: (others ++ value)) = some ([], value) :=
  splitOnce_sign List.not_mem_nil value

theorem firstSign?_of_notEquals (hbang : ['!', '='] <:+: value) :
    ∃ left right, firstSign? value = some (left, .notEquals, right) := by
  cases hcut : splitOnce ['!', '='] value with
  | none => exact absurd hbang (splitOnce_eq_none_iff.mp hcut)
  | some cut =>
    refine ⟨cut.1, cut.2, ?_⟩
    simp only [firstSign?, hcut, Option.map_some, Option.some_or]

theorem firstSign?_of_doubleEquals (hdouble : ['=', '='] <:+: value) :
    ∃ left op right, firstSign? value = some (left, op, right) ∧ op ≠ .equals := by
  by_cases hbang : ['!', '='] <:+: value
  · obtain ⟨left, right, hfirst⟩ := firstSign?_of_notEquals hbang
    exact ⟨left, .notEquals, right, hfirst, by decide⟩
  · have hnone := splitOnce_eq_none_iff.mpr hbang
    cases hcut : splitOnce ['=', '='] value with
    | none => exact absurd hdouble (splitOnce_eq_none_iff.mp hcut)
    | some cut =>
      refine ⟨cut.1, .doubleEquals, cut.2, ?_, by decide⟩
      simp only [firstSign?, hnone, hcut, Option.map_none, Option.none_or, Option.map_some,
        Option.some_or]

variable {op : Operator} {sign : List Char}

/-- A sign at the beginning is the one at which the text is cut, if none is found earlier. -/
theorem firstSign?_sign (hsign : Sign op sign) (hfirst : op.FoundFirst value) :
    firstSign? (sign ++ value) = some ([], op, value) := by
  cases hsign with
  | equals =>
    have hbang : splitOnce ['!', '='] (['='] ++ value) = none :=
      splitOnce_eq_none_iff.mpr (mt notEquals_infix_cons.mp hfirst.1)
    have hdouble : splitOnce ['=', '='] (['='] ++ value) = none :=
      splitOnce_eq_none_iff.mpr hfirst.2
    have hcut : splitOnce ['='] (['='] ++ value) = _ := splitOnce_sign_cons '=' []
    simp only [firstSign?, hbang, hdouble, hcut, Option.map_none, Option.none_or, Option.map_some]
  | doubleEquals =>
    have hbang : splitOnce ['!', '='] (['=', '='] ++ value) = none :=
      splitOnce_eq_none_iff.mpr
        (mt (notEquals_infix_cons.trans notEquals_infix_cons).mp hfirst)
    have hcut : splitOnce ['=', '='] (['=', '='] ++ value) = _ := splitOnce_sign_cons '=' ['=']
    simp only [firstSign?, hbang, hcut, Option.map_none, Option.none_or, Option.map_some,
      Option.some_or]
  | notEquals =>
    have hcut : splitOnce ['!', '='] (['!', '='] ++ value) = _ := splitOnce_sign_cons '!' ['=']
    simp only [firstSign?, hcut, Option.map_some, Option.some_or]

/-- If a sign is found earlier, the text is cut at the sign of another operator. -/
theorem firstSign?_of_not_foundFirst (hsign : Sign op sign) (hother : ¬op.FoundFirst value) :
    ∃ left other right, firstSign? (sign ++ value) = some (left, other, right) ∧ other ≠ op := by
  cases hsign with
  | equals =>
    by_cases hbang : ['!', '='] <:+: value
    · obtain ⟨left, right, hfirst⟩ := firstSign?_of_notEquals (notEquals_infix_cons.mpr hbang)
      exact ⟨left, .notEquals, right, hfirst, by decide⟩
    · have hdouble : ['=', '='] <:+: '=' :: value :=
        Classical.not_not.mp fun hno => hother ⟨hbang, hno⟩
      exact firstSign?_of_doubleEquals hdouble
  | doubleEquals =>
    have hbang : ['!', '='] <:+: value := Classical.not_not.mp hother
    obtain ⟨left, right, hfirst⟩ :=
      firstSign?_of_notEquals (notEquals_infix_cons.mpr (notEquals_infix_cons.mpr hbang))
    exact ⟨left, .notEquals, right, hfirst, by decide⟩
  | notEquals => exact absurd trivial hother

/-- A value without characters of signs never holds an earlier sign. -/
theorem foundFirst_of_not_mem (hequals : '=' ∉ value) (hbang : '!' ∉ value) (op : Operator) :
    op.FoundFirst value := by
  have hnot : ¬['!', '='] <:+: value := fun h => hbang (h.subset List.mem_cons_self)
  have hdouble : ¬['=', '='] <:+: '=' :: value := by
    rw [List.infix_cons_iff, List.cons_prefix_cons, not_or]
    refine ⟨fun h => hequals (h.2.subset List.mem_cons_self), ?_⟩
    exact fun h => hequals (h.subset List.mem_cons_self)
  cases op with
  | notEquals => trivial
  | doubleEquals => exact hnot
  | _ => exact ⟨hnot, hdouble⟩

end WatchCache.Selector
