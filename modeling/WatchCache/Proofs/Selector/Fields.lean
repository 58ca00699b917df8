import WatchCache.Proofs.Selector.Reading
import WatchCache.Proofs.Selector.Signs
import WatchCache.Selector.Field

set_option autoImplicit false

/-!
# Written field selectors

A comparison is written without any marks around its value, and reading looks for its sign in the
whole of it.  A value that holds a sign can therefore be cut at the wrong place.
`comparisons_read_back` says for which values this happens; all other comparisons are read back,
whatever stands beside them.
-/

namespace WatchCache

open Text
open Selector (Operator Sign)

/-- A comparison for equality or inequality whose parts reading cannot trim or cut at a comma, and
whose field holds no character of a sign. -/
structure FieldRequirement.Plain (r : FieldRequirement) : Prop where
  operator : r.operator = .equals ∨ r.operator = .doubleEquals ∨ r.operator = .notEquals
  field_ne : r.field ≠ ""
  field_trim : trim r.field.toList = r.field.toList
  field_comma : ',' ∉ r.field.toList
  field_equals : '=' ∉ r.field.toList
  field_bang : '!' ∉ r.field.toList
  value_trim : trim r.value.toList = r.value.toList
  value_comma : ',' ∉ r.value.toList

instance : DecidablePred FieldRequirement.Plain := fun r =>
  decidable_of_iff
    ((r.operator = .equals ∨ r.operator = .doubleEquals ∨ r.operator = .notEquals) ∧
      r.field ≠ "" ∧ trim r.field.toList = r.field.toList ∧ ',' ∉ r.field.toList ∧
      '=' ∉ r.field.toList ∧ '!' ∉ r.field.toList ∧ trim r.value.toList = r.value.toList ∧
      ',' ∉ r.value.toList)
    ⟨fun ⟨op, ne, ft, fc, fe, fb, vt, vc⟩ => ⟨op, ne, ft, fc, fe, fb, vt, vc⟩,
      fun ⟨op, ne, ft, fc, fe, fb, vt, vc⟩ => ⟨op, ne, ft, fc, fe, fb, vt, vc⟩⟩

namespace FieldSelector

/-! ## One comparison -/

section

variable {r : FieldRequirement}

theorem exists_sign (h : r.Plain) : ∃ sign, Sign r.operator sign ∧
    r.text.toList = r.field.toList ++ (sign ++ r.value.toList) := by
  obtain ⟨field, operator, value⟩ := r
  rcases h.operator with hop | hop | hop <;> obtain rfl : operator = _ := hop
  · exact ⟨_, .equals, by simp [FieldRequirement.text, FieldRequirement.sign]⟩
  · exact ⟨_, .doubleEquals, by simp [FieldRequirement.text, FieldRequirement.sign]⟩
  · exact ⟨_, .notEquals, by simp [FieldRequirement.text, FieldRequirement.sign]⟩

theorem field_toList_ne_nil (h : r.Plain) : r.field.toList ≠ [] :=
  mt String.toList_eq_nil_iff.mp h.field_ne

/-- A comparison begins with its field and ends with its value or, if that is empty, with its
sign. -/
theorem trim_text (h : r.Plain) : trim r.text.toList = r.text.toList := by
  obtain ⟨sign, hsign, htext⟩ := exists_sign h
  obtain ⟨hhead, -⟩ := ends_of_trim h.field_trim
  obtain ⟨-, hlast⟩ := ends_of_trim h.value_trim
  rw [htext]
  refine trim_of_ends (fun c hc => ?_) fun c hc => ?_
  · rw [List.head?_append_of_ne_nil _ (field_toList_ne_nil h)] at hc
    exact hhead c hc
  · rw [← List.append_assoc, List.getLast?_append] at hc
    rcases Option.or_eq_some_iff.mp hc with hvalue | ⟨-, hsignLast⟩
    · exact hlast c hvalue
    · rw [List.getLast?_append, hsign.getLast?] at hsignLast
      cases hsignLast
      rfl

/-- A comparison is always read, and as itself exactly if its own sign is found first. -/
theorem exists_readTerm (h : r.Plain) :
    ∃ t, readTerm r.text.toList = .ok t ∧ (t = r ↔ r.operator.FoundFirst r.value.toList) := by
  obtain ⟨sign, hsign, htext⟩ := exists_sign h
  have hfield := field_toList_ne_nil h
  have hcut := Selector.comparison?_append h.field_equals h.field_bang (sign ++ r.value.toList)
  rw [← htext] at hcut
  by_cases hfirst : r.operator.FoundFirst r.value.toList
  · rw [Selector.firstSign?_sign hsign hfirst, Option.map_some, List.append_nil, h.field_trim,
      h.value_trim] at hcut
    refine ⟨r, ?_, iff_of_true rfl hfirst⟩
    simp [readTerm, trim_text h, hcut]
  · obtain ⟨left, other, right, hsome, hother⟩ :=
      Selector.firstSign?_of_not_foundFirst hsign hfirst
    rw [hsome, Option.map_some] at hcut
    -- The field stays left of the sign, so something is left of it.
    have hleft : trim (r.field.toList ++ left) ≠ [] := by
      intro hnil
      obtain ⟨c, rest, hcons⟩ := List.exists_cons_of_ne_nil hfield
      have hblank := trim_eq_nil_iff.mp hnil c (by simp [hcons])
      have hhead := (ends_of_trim h.field_trim).1 c (by simp [hcons])
      exact Bool.noConfusion (hblank.symm.trans hhead)
    refine ⟨⟨String.ofList (trim (r.field.toList ++ left)), other, String.ofList (trim right)⟩,
      ?_, iff_of_false ?_ hfirst⟩
    · simp [readTerm, trim_text h, hcut]
    · intro heq
      exact hother (congrArg FieldRequirement.operator heq)

theorem comma_not_mem_text (h : r.Plain) : ',' ∉ r.text.toList := by
  obtain ⟨sign, hsign, htext⟩ := exists_sign h
  have hcomma : ',' ∉ sign := fun hmem => absurd (hsign.mem ',' hmem) (by decide)
  simp [htext, h.field_comma, h.value_comma, hcomma]

end

/-! ## Whole selectors -/

theorem toList_text (sel : FieldSelector) :
    sel.text.toList = joinWith [','] (sel.requirements.map fun r => r.text.toList) := by
  rw [text, String.toList_intercalate, intercalate_eq_joinWith, List.map_map]
  rfl

/-- Comparisons are read one by one, each from its own written form. -/
theorem parse_text_eq {requirements : List FieldRequirement} (hne : requirements ≠ [])
    (hplain : ∀ r ∈ requirements, r.Plain) :
    parse (text ⟨requirements⟩) =
      ((requirements.map fun r => r.text.toList).mapM readTerm).map FieldSelector.mk := by
  have hpieces : splitOn ',' (text ⟨requirements⟩).toList =
      requirements.map fun r => r.text.toList := by
    rw [toList_text]
    refine splitOn_joinWith (by simpa using hne) fun piece hpiece => ?_
    obtain ⟨r, hr, rfl⟩ := List.mem_map.mp hpiece
    exact comma_not_mem_text (hplain r hr)
  have hblank : isAllBlank (text ⟨requirements⟩).toList = false := by
    obtain ⟨r, hr⟩ := List.exists_mem_of_ne_nil requirements hne
    obtain ⟨sign, hsign, htext⟩ := exists_sign (hplain r hr)
    have hequals : '=' ∈ r.text.toList := by
      simp [htext, List.mem_of_mem_getLast? hsign.getLast?]
    refine List.all_eq_false.mpr ⟨'=', ?_, by decide⟩
    rw [toList_text]
    exact mem_joinWith_of_mem (List.mem_map.mpr ⟨r, hr, rfl⟩) hequals
  rw [parse, hblank, hpieces]
  cases (requirements.map fun r => r.text.toList).mapM readTerm <;> rfl

section

variable {requirements : List FieldRequirement}

/-- Each comparison comes back as it was exactly if its own sign is found first. -/
theorem exists_parse_text (hne : requirements ≠ []) (hplain : ∀ r ∈ requirements, r.Plain) :
    ∃ read, parse (text ⟨requirements⟩) = .ok ⟨read⟩ ∧
      List.Forall₂ (fun r t => t = r ↔ r.operator.FoundFirst r.value.toList) requirements read := by
  obtain ⟨read, hread, hall⟩ := LabelSelector.exists_mapM_map_eq_ok
    (g := fun r : FieldRequirement => r.text.toList) fun r hr => exists_readTerm (hplain r hr)
  refine ⟨read, ?_, hall⟩
  rw [parse_text_eq hne hplain, hread]
  rfl

theorem parse_text_eq_ok_iff (hne : requirements ≠ []) (hplain : ∀ r ∈ requirements, r.Plain) :
    parse (text ⟨requirements⟩) = .ok ⟨requirements⟩ ↔
      ∀ r ∈ requirements, r.operator.FoundFirst r.value.toList := by
  obtain ⟨read, hparse, hall⟩ := exists_parse_text hne hplain
  rw [hparse, Except.ok.injEq, FieldSelector.mk.injEq]
  constructor
  · rintro rfl r hr
    exact (List.forall₂_same.mp hall r hr).mp rfl
  · intro hfirst
    have hsame : List.Forall₂ (· = ·) requirements read :=
      ((List.forall₂_and_left requirements read).mpr ⟨hfirst, hall⟩).imp
        fun _ _ h => (h.2.mpr h.1).symm
    rw [List.forall₂_eq_eq_eq] at hsame
    exact hsame.symm

/-- Which comparisons are read back from the text of a selector.

The text is always read, comparison by comparison; a comparison comes back as it was exactly if
its own sign is the first that is found behind its field.  A comparison for inequality always
does.  One for equality does unless `!=` stands in its value or, if it is written with a single
`=`, unless two signs of equality stand behind its field one after the other.  So does the text
`field=value` mean the same as the selector that compares the field with the value. -/
theorem comparisons_read_back (hne : requirements ≠ []) (hplain : ∀ r ∈ requirements, r.Plain) :
    (∃ read, parse (text ⟨requirements⟩) = .ok ⟨read⟩ ∧
      List.Forall₂ (fun r t => t = r ↔ r.operator.FoundFirst r.value.toList) requirements read) ∧
    (parse (text ⟨requirements⟩) = .ok ⟨requirements⟩ ↔
      ∀ r ∈ requirements, r.operator.FoundFirst r.value.toList) ∧
    ∀ field value : String, ⟨field, .equals, value⟩ ∈ requirements →
      (parse (field ++ "=" ++ value) = .ok (oneEqual field value) ↔
        ¬['!', '='] <:+: value.toList ∧ ¬['=', '='] <:+: '=' :: value.toList) := by
  refine ⟨exists_parse_text hne hplain, parse_text_eq_ok_iff hne hplain, fun field value hmem => ?_⟩
  have hone := @parse_text_eq_ok_iff [⟨field, .equals, value⟩] (by simp)
    (List.forall_mem_singleton.mpr (hplain _ hmem))
  simp only [text, FieldRequirement.text, FieldRequirement.sign, List.map_cons, List.map_nil,
    String.intercalate_singleton, List.forall_mem_singleton] at hone
  exact hone

end

/-- Values that hold or begin with signs which are not looked for earlier. -/
theorem comparisons_read_back_signs_in_values :
    let requirements : List FieldRequirement := [⟨"spec.token", .equals, "YQ="⟩,
      ⟨"spec.color", .equals, "red=1!"⟩, ⟨"spec.size", .doubleEquals, "=1==2"⟩,
      ⟨"status.phase", .notEquals, "a!=b=="⟩]
    (∀ r ∈ requirements, r.Plain) ∧
      parse (text ⟨requirements⟩) = .ok ⟨requirements⟩ ∧
      parse ("spec.token" ++ "=" ++ "YQ=") = .ok (oneEqual "spec.token" "YQ=") := by
  intro requirements
  have hplain : ∀ r ∈ requirements, r.Plain := by decide +kernel
  have hfirst : ∀ r ∈ requirements, r.operator.FoundFirst r.value.toList := by decide +kernel
  obtain ⟨-, hback, hone⟩ := comparisons_read_back (List.cons_ne_nil _ _) hplain
  exact ⟨hplain, hback.mpr hfirst,
    (hone "spec.token" "YQ=" List.mem_cons_self).mpr (by decide +kernel)⟩

/-- A value that is padded with two signs of equality is not read back: the comparison is cut at
the padding, and its field with the rest of its value becomes another field. -/
theorem padded_value_is_not_read_back :
    FieldRequirement.Plain ⟨"spec.token", .equals, "YQ=="⟩ ∧
      (oneEqual "spec.token" "YQ==").text = "spec.token" ++ "=" ++ "YQ==" ∧
      parse ("spec.token" ++ "=" ++ "YQ==") = .ok ⟨[⟨"spec.token=YQ", .doubleEquals, ""⟩]⟩ ∧
      parse ("spec.token" ++ "=" ++ "YQ==") ≠ .ok (oneEqual "spec.token" "YQ==") := by
  have hread : parse ("spec.token" ++ "=" ++ "YQ==") =
      .ok ⟨[⟨"spec.token=YQ", .doubleEquals, ""⟩]⟩ := by decide +kernel
  refine ⟨by decide +kernel, by decide +kernel, hread, ?_⟩
  rw [hread]
  decide

end FieldSelector

end WatchCache
