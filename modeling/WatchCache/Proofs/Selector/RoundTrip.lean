import WatchCache.Proofs.Selector.Spacing

set_option autoImplicit false

/-!
# Written selectors

Each list of well-formed requirements is read back from its own written form, which is made of its
tokens without further blanks.
-/

namespace WatchCache

open Text

namespace LabelSelector

open Selector

theorem toList_text (sel : LabelSelector) :
    sel.text.toList = joinWith [','] (sel.requirements.map fun r => r.text.toList) := by
  rw [text, String.toList_intercalate, intercalate_eq_joinWith, List.map_map]
  rfl

theorem lineFeed_not_mem_text {r : Requirement} (h : r.WellFormed) : '\n' ∉ r.text.toList := by
  obtain ⟨k, op, values⟩ := r
  obtain ⟨hkey, hvalues⟩ := h
  have hkeyFeed : '\n' ∉ k.toList := not_mem_of_isKeyChar (isKeyChar_of_mem_keyPattern hkey) rfl
  have hvalueFeed {v : String} (hv : v.toList ∈ valuePattern) : '\n' ∉ v.toList :=
    not_mem_of_isKeyChar (isKeyChar_of_mem_valuePattern hv) rfl
  have hbody (hall : ∀ v ∈ values, v.toList ∈ valuePattern) :
      '\n' ∉ [','].intercalate (values.map String.toList) := by
    rw [intercalate_eq_joinWith]
    intro hmem
    rcases mem_joinWith hmem with hsep | ⟨piece, hpiece, hin⟩
    · exact absurd hsep (by decide)
    · obtain ⟨v, hv, rfl⟩ := List.mem_map.mp hpiece
      exact hvalueFeed (hall v hv) hin
  cases op with
  | equals | doubleEquals | notEquals =>
    obtain ⟨v, rfl, hv⟩ := hvalues
    simp [Requirement.text, hkeyFeed, hvalueFeed hv]
  | isIn | isNotIn =>
    simp [Requirement.text, hkeyFeed, hbody hvalues.2.1]
  | exists_ | doesNotExist => simp [Requirement.text, hkeyFeed]

/-- A list of well-formed requirements is read back from its written form. -/
theorem parse_text {sel : LabelSelector} (hsel : ∀ r ∈ sel.requirements, r.WellFormed) :
    parse sel.text = .ok sel := by
  have hspaced : Spaced sel.tokens sel.text.toList := flatten_tokens sel ▸ spaced_flatten sel.tokens
  refine (parse_spaced hsel hspaced).1 (mt mem_of_mem_enclosed ?_)
  rw [toList_text]
  intro hmem
  rcases mem_joinWith hmem with hsep | ⟨piece, hpiece, hin⟩
  · exact absurd hsep (by decide)
  · obtain ⟨r, hr, rfl⟩ := List.mem_map.mp hpiece
    exact lineFeed_not_mem_text (hsel r hr) hin

/-- Selectors and their texts correspond to each other.

All requirements that are read from a text are well formed, and well-formed requirements are read
back from their written form, each of them and in their order.  Writing and reading therefore
gives a selector back exactly if all of its requirements are well formed, which every selector
that was read from a text is; one that was made from pairs is if their keys and values match the
patterns. -/
theorem parse_text_iff_wellFormed :
    (∀ (s : String) (sel : LabelSelector), parse s = .ok sel →
      (∀ r ∈ sel.requirements, r.WellFormed) ∧ parse sel.text = .ok sel) ∧
    (∀ requirements : List Requirement, (∀ r ∈ requirements, r.WellFormed) →
      parse (text ⟨requirements⟩) = .ok ⟨requirements⟩) ∧
    (∀ sel : LabelSelector, parse sel.text = .ok sel ↔ ∀ r ∈ sel.requirements, r.WellFormed) ∧
    ∀ pairs : List (String × String), parse (ofPairs pairs).text = .ok (ofPairs pairs) ↔
      ∀ p ∈ pairs, p.1.toList ∈ keyPattern ∧ p.2.toList ∈ valuePattern := by
  have hiff (sel : LabelSelector) :
      parse sel.text = .ok sel ↔ ∀ r ∈ sel.requirements, r.WellFormed :=
    ⟨wellFormed_of_parse, parse_text⟩
  refine ⟨fun s sel hread => ?_, fun requirements => parse_text, hiff, fun pairs => ?_⟩
  · have hsel := wellFormed_of_parse hread
    exact ⟨hsel, parse_text hsel⟩
  · rw [hiff, ofPairs, List.forall_mem_map]
    refine forall₂_congr fun p hp => ⟨fun h => ?_, fun h => ?_⟩
    · obtain ⟨v, hv, hmatch⟩ := h.values
      cases hv
      exact ⟨h.key, hmatch⟩
    · exact ⟨h.1, p.2, rfl, h.2⟩

/-- Keys that are words of the syntax, a set with an empty member, and an empty value. -/
theorem parse_text_iff_wellFormed_words :
    let requirements : List Requirement := [⟨"in", .isIn, ["", "a"]⟩, ⟨"notin", .isNotIn, ["in"]⟩,
      ⟨"example.io/in", .equals, [""]⟩, ⟨"in", .exists_, []⟩, ⟨"notin", .doesNotExist, []⟩]
    text ⟨requirements⟩ = "in in (,a),notin notin (in),example.io/in=,in,!notin" ∧
      (∀ r ∈ requirements, r.WellFormed) ∧
      parse (text ⟨requirements⟩) = .ok ⟨requirements⟩ := by
  intro requirements
  have hwellFormed : ∀ r ∈ requirements, r.WellFormed := by
    intro r hr
    simp only [requirements, List.mem_cons, List.not_mem_nil, or_false] at hr
    rcases hr with rfl | rfl | rfl | rfl | rfl
    · exact ⟨by decide, by decide, by decide, by decide⟩
    · exact ⟨by decide, by decide, by decide, by decide⟩
    · exact ⟨by decide, "", rfl, by decide⟩
    · exact ⟨by decide, rfl⟩
    · exact ⟨by decide, rfl⟩
  exact ⟨by decide, hwellFormed, parse_text_iff_wellFormed.2.1 requirements hwellFormed⟩

end LabelSelector

end WatchCache
