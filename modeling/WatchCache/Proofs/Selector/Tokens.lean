import WatchCache.Proofs.Selector.Cutting
import WatchCache.Proofs.Selector.Reading
import WatchCache.Proofs.Selector.Signs

set_option autoImplicit false

/-!
# Tokens of selectors

The written form of a selector is a list of tokens, and a text is spaced if it has blanks before,
between and behind them.  `written_of_spaced` says what a spaced text of one requirement is made
of.
-/

namespace WatchCache

open Text

/-! ## Tokens with blanks -/

namespace Text

/-- A text of tokens with blanks before, between and behind them. -/
inductive Spaced : List (List Char) → List Char → Prop
  | nil {gap : List Char} (hgap : ∀ c ∈ gap, isBlank c = true) : Spaced [] gap
  | cons {gap token rest : List Char} {tokens : List (List Char)}
      (hgap : ∀ c ∈ gap, isBlank c = true) (hrest : Spaced tokens rest) :
      Spaced (token :: tokens) (gap ++ (token ++ rest))

variable {s t token : List Char} {tokens others : List (List Char)}

/-- A text that is put together from tokens, each with the blanks before it. -/
theorem spaced_flatMap {parts : List (List Char × List Char)} {last : List Char}
    (hparts : ∀ p ∈ parts, isAllBlank p.1 = true) (hlast : isAllBlank last = true) :
    Spaced (parts.map Prod.snd) (parts.flatMap (fun p => p.1 ++ p.2) ++ last) := by
  induction parts with
  | nil => exact .nil (List.all_eq_true.mp hlast)
  | cons p parts ih =>
    rw [List.forall_mem_cons] at hparts
    rw [List.flatMap_cons, List.append_assoc, List.append_assoc]
    exact .cons (List.all_eq_true.mp hparts.1) (ih hparts.2)

/-- No blanks at all are needed. -/
theorem spaced_flatten (tokens : List (List Char)) : Spaced tokens tokens.flatten := by
  have hspaced := @spaced_flatMap (tokens.map fun token => ([], token)) []
    (by simp [isAllBlank]) rfl
  simpa [Function.comp_def, List.flatMap_map] using hspaced

theorem spaced_nil_iff : Spaced [] s ↔ ∀ c ∈ s, isBlank c = true := by
  refine ⟨fun h => ?_, .nil⟩
  cases h with
  | nil hgap => exact hgap

theorem spaced_cons_iff : Spaced (token :: tokens) s ↔
    ∃ gap rest, (∀ c ∈ gap, isBlank c = true) ∧ Spaced tokens rest ∧
      s = gap ++ (token ++ rest) := by
  constructor
  · intro h
    cases h with
    | @cons gap _ rest _ hgap hrest => exact ⟨gap, rest, hgap, hrest, rfl⟩
  · rintro ⟨gap, rest, hgap, hrest, rfl⟩
    exact .cons hgap hrest

theorem spaced_singleton_iff : Spaced [token] s ↔
    ∃ gap gap', (∀ c ∈ gap, isBlank c = true) ∧ (∀ c ∈ gap', isBlank c = true) ∧
      s = gap ++ (token ++ gap') := by
  simp only [spaced_cons_iff, spaced_nil_iff]

/-- A text of tokens is cut where the first tokens end. -/
theorem Spaced.split (h : Spaced (tokens ++ others) s) :
    ∃ left right, s = left ++ right ∧ Spaced tokens left ∧ Spaced others right := by
  induction tokens generalizing s with
  | nil => exact ⟨[], s, rfl, .nil fun c hc => absurd hc List.not_mem_nil, h⟩
  | cons token tokens ih =>
    obtain ⟨gap, rest, hgap, hrest, rfl⟩ := spaced_cons_iff.mp h
    obtain ⟨left, right, rfl, hleft, hright⟩ := ih hrest
    refine ⟨gap ++ (token ++ left), right, ?_, .cons hgap hleft, hright⟩
    simp only [List.append_assoc]

/-- Blanks before the next token belong to the tokens before it. -/
theorem Spaced.append_gap (h : Spaced tokens s) {gap : List Char}
    (hgap : ∀ c ∈ gap, isBlank c = true) : Spaced tokens (s ++ gap) := by
  induction h with
  | nil hfirst =>
    refine .nil fun c hc => ?_
    rcases List.mem_append.mp hc with hleft | hright
    · exact hfirst c hleft
    · exact hgap c hright
  | cons hfirst _ ih =>
    rw [List.append_assoc, List.append_assoc]
    exact .cons hfirst ih

/-- Lists of tokens with a separator between them are spaced one by one. -/
theorem Spaced.exists_pieces {sep : Char} {groups : List (List (List Char))} (hne : groups ≠ [])
    (h : Spaced ([[sep]].intercalate groups) s) :
    ∃ pieces, s = joinWith [sep] pieces ∧ List.Forall₂ Spaced groups pieces := by
  induction groups generalizing s with
  | nil => exact absurd rfl hne
  | cons group groups ih =>
    cases groups with
    | nil =>
      refine ⟨[s], rfl, .cons ?_ .nil⟩
      simpa [List.intercalate] using h
    | cons next groups =>
      have hsplit : [[sep]].intercalate (group :: next :: groups) =
          group ++ [sep] :: [[sep]].intercalate (next :: groups) := by
        simp [List.intercalate]
      rw [hsplit] at h
      obtain ⟨left, right, rfl, hleft, hright⟩ := h.split
      obtain ⟨gap, rest, hgap, hrest, rfl⟩ := spaced_cons_iff.mp hright
      obtain ⟨pieces, rfl, hpieces⟩ := ih (by simp) hrest
      refine ⟨(left ++ gap) :: pieces, ?_, .cons (hleft.append_gap hgap) hpieces⟩
      cases hpieces with
      | cons _ _ => simp [joinWith]

/-- Every character of a spaced text is a blank or stands in a token. -/
theorem Spaced.mem (h : Spaced tokens s) :
    ∀ c ∈ s, isBlank c = true ∨ ∃ token ∈ tokens, c ∈ token := by
  intro c hc
  induction h with
  | nil hgap => exact Or.inl (hgap c hc)
  | @cons gap token rest tokens hgap _ ih =>
    rcases List.mem_append.mp hc with hblank | hc
    · exact Or.inl (hgap c hblank)
    · rcases List.mem_append.mp hc with hfirst | hrest
      · exact Or.inr ⟨token, List.mem_cons_self, hfirst⟩
      · refine (ih hrest).imp_right ?_
        rintro ⟨other, hother, hmem⟩
        exact ⟨other, List.mem_cons_of_mem token hother, hmem⟩

end Text

/-! ## The tokens of a selector -/

/-- The parts of the written form of a requirement between which blanks may stand. -/
def Selector.Requirement.tokens (r : Selector.Requirement) : List (List Char) :=
  let key := r.key.toList
  let value := (r.values.headD "").toList
  let set (word : List Char) : List (List Char) :=
    [key, [' '], word, [' '], ['(']] ++
      ([[',']].intercalate (r.values.map fun v => [v.toList]) ++ [[')']])
  match r.operator with
  | .equals => [key, ['='], value]
  | .doubleEquals => [key, ['=', '='], value]
  | .notEquals => [key, ['!', '='], value]
  | .isIn => set ['i', 'n']
  | .isNotIn => set ['n', 'o', 't', 'i', 'n']
  | .exists_ => [key]
  | .doesNotExist => [['!'], key]

/-- The parts of the written form of a selector between which blanks may stand. -/
def LabelSelector.tokens (sel : LabelSelector) : List (List Char) :=
  [[',']].intercalate (sel.requirements.map Selector.Requirement.tokens)

theorem Text.flatten_intercalate (token : List Char) (groups : List (List (List Char))) :
    ([token].intercalate groups).flatten = token.intercalate (groups.map List.flatten) := by
  induction groups with
  | nil => rfl
  | cons group groups ih =>
    cases groups with
    | nil => simp [List.intercalate]
    | cons next groups =>
      simp only [List.intercalate, List.map_cons] at ih
      simp [List.intercalate, ih]

theorem Selector.Requirement.flatten_tokens (r : Selector.Requirement) :
    r.tokens.flatten = r.text.toList := by
  obtain ⟨k, op, values⟩ := r
  have hvalues : ([[',']].intercalate (values.map fun v => [v.toList])).flatten =
      [','].intercalate (values.map String.toList) := by
    rw [Text.flatten_intercalate, List.map_map]
    simp [Function.comp_def]
  cases op <;> simp [tokens, text, String.toList_intercalate, hvalues]

namespace LabelSelector

open Selector

/-- The tokens of a selector make up its written form. -/
theorem flatten_tokens (sel : LabelSelector) : sel.tokens.flatten = sel.text.toList := by
  rw [tokens, flatten_intercalate, List.map_map, text, String.toList_intercalate, List.map_map]
  simp [Function.comp_def, Requirement.flatten_tokens]

/-! ## Ways to write a requirement -/

/-- The word of an operator that compares with a set. -/
inductive Word : Operator → List Char → Prop
  | isIn : Word .isIn ['i', 'n']
  | isNotIn : Word .isNotIn ['n', 'o', 't', 'i', 'n']

theorem Word.isKeyChar {op : Operator} {word : List Char} (h : Word op word) :
    ∀ c ∈ word, isKeyChar c = true :=
  List.all_eq_true.mp (by cases h <;> rfl)

/-- A way to write a set requirement.  There are blanks before its word, and there may be some
behind it, around each value, and around the whole. -/
structure SetForm (k : String) (op : Operator) (values : List String) where
  lead : List Char
  before : List Char
  word : List Char
  after : List Char
  pieces : List (List Char)
  behind : List Char
  isWord : Word op word
  lead_blank : ∀ c ∈ lead, isBlank c = true
  before_blank : ∀ c ∈ before, isBlank c = true
  before_ne_nil : before ≠ []
  after_blank : ∀ c ∈ after, isBlank c = true
  behind_blank : ∀ c ∈ behind, isBlank c = true
  spaced : List.Forall₂ (fun v piece => Spaced [v.toList] piece) values pieces

namespace SetForm

variable {k : String} {op : Operator} {values : List String}

/-- What stands between the parentheses. -/
def body (f : SetForm k op values) : List Char := joinWith [','] f.pieces

/-- What stands before the parentheses, without the blanks at the beginning. -/
def head (f : SetForm k op values) : List Char := k.toList ++ (f.before ++ (f.word ++ f.after))

/-- The requirement without blanks around it. -/
def term (f : SetForm k op values) : List Char := f.head ++ '(' :: (f.body ++ [')'])

/-- The whole text. -/
def text (f : SetForm k op values) : List Char := f.lead ++ (f.term ++ f.behind)

end SetForm

/-- How a well-formed requirement can be written, with blanks around its parts. -/
inductive Written : Requirement → List Char → Prop
  | comparison {k v : String} {op : Operator} {sign left right : List Char}
      (hkey : k.toList ∈ keyPattern) (hvalue : v.toList ∈ valuePattern) (hsign : Sign op sign)
      (hleft : Spaced [k.toList] left) (hright : Spaced [v.toList] right) :
      Written ⟨k, op, [v]⟩ (left ++ (sign ++ right))
  | set {k : String} {values : List String} {op : Operator} (hkey : k.toList ∈ keyPattern)
      (hvalues : ∀ v ∈ values, v.toList ∈ valuePattern) (hne : values ≠ [])
      (hsome : ¬∀ v ∈ values, v = "") (f : SetForm k op values) : Written ⟨k, op, values⟩ f.text
  | present {k : String} {s : List Char} (hkey : k.toList ∈ keyPattern)
      (hs : Spaced [k.toList] s) : Written ⟨k, .exists_, []⟩ s
  | absent {k : String} {lead s : List Char} (hkey : k.toList ∈ keyPattern)
      (hlead : ∀ c ∈ lead, isBlank c = true) (hs : Spaced [k.toList] s) :
      Written ⟨k, .doesNotExist, []⟩ (lead ++ (['!'] ++ s))

theorem blank_gap {gap gap' : List Char} (hgap : ∀ c ∈ gap, isBlank c = true)
    (hgap' : ∀ c ∈ gap', isBlank c = true) : ∀ c ∈ gap ++ ' ' :: gap', isBlank c = true := by
  intro c hc
  rcases List.mem_append.mp hc with hleft | hright
  · exact hgap c hleft
  · rcases List.mem_cons.mp hright with rfl | hrest
    · rfl
    · exact hgap' c hrest

theorem written_of_spaced {r : Requirement} (h : r.WellFormed) {s : List Char}
    (hs : Spaced r.tokens s) : Written r s := by
  obtain ⟨k, op, values⟩ := r
  obtain ⟨hkey, hvalues⟩ := h
  have hcomparison {sign : List Char} (hsign : Sign op sign)
      (hvalue : ∃ v, values = [v] ∧ v.toList ∈ valuePattern)
      (hs : Spaced ([k.toList] ++ [sign, (values.headD "").toList]) s) :
      Written ⟨k, op, values⟩ s := by
    obtain ⟨v, rfl, hv⟩ := hvalue
    obtain ⟨left, rest, rfl, hleft, hrest⟩ := hs.split
    obtain ⟨gap, right, hgap, hright, rfl⟩ := spaced_cons_iff.mp hrest
    rw [← List.append_assoc]
    exact .comparison hkey hv hsign (hleft.append_gap hgap) hright
  have hset {word : List Char} (hword : Word op word)
      (hfits : values ≠ [] ∧ (∀ v ∈ values, v.toList ∈ valuePattern) ∧ ¬∀ v ∈ values, v = "")
      (hs : Spaced (k.toList :: [' '] :: word :: [' '] :: ['('] ::
        ([[',']].intercalate (values.map fun v => [v.toList]) ++ [[')']])) s) :
      Written ⟨k, op, values⟩ s := by
    obtain ⟨lead, s₁, hlead, hs₁, rfl⟩ := spaced_cons_iff.mp hs
    obtain ⟨gap₁, s₂, hgap₁, hs₂, rfl⟩ := spaced_cons_iff.mp hs₁
    obtain ⟨gap₂, s₃, hgap₂, hs₃, rfl⟩ := spaced_cons_iff.mp hs₂
    obtain ⟨gap₃, s₄, hgap₃, hs₄, rfl⟩ := spaced_cons_iff.mp hs₃
    obtain ⟨gap₄, s₅, hgap₄, hs₅, rfl⟩ := spaced_cons_iff.mp hs₄
    obtain ⟨body, s₆, rfl, hbody, hs₆⟩ := hs₅.split
    obtain ⟨gap₅, behind, hgap₅, hbehind, rfl⟩ := spaced_singleton_iff.mp hs₆
    obtain ⟨pieces, hjoin, hpieces⟩ :=
      (hbody.append_gap hgap₅).exists_pieces (by simpa using hfits.1)
    have hwritten := Written.set hkey hfits.2.1 hfits.1 hfits.2.2
      ⟨lead, gap₁ ++ ' ' :: gap₂, word, gap₃ ++ ' ' :: gap₄, pieces, behind, hword, hlead,
        blank_gap hgap₁ hgap₂, by simp, blank_gap hgap₃ hgap₄, hbehind,
        List.forall₂_map_left_iff.mp hpieces⟩
    simpa [SetForm.text, SetForm.term, SetForm.head, SetForm.body, ← hjoin] using hwritten
  cases op with
  | equals => exact hcomparison .equals hvalues hs
  | doubleEquals => exact hcomparison .doubleEquals hvalues hs
  | notEquals => exact hcomparison .notEquals hvalues hs
  | isIn => exact hset .isIn hvalues hs
  | isNotIn => exact hset .isNotIn hvalues hs
  | exists_ =>
    obtain rfl : values = [] := hvalues
    exact .present hkey hs
  | doesNotExist =>
    obtain rfl : values = [] := hvalues
    obtain ⟨lead, rest, hlead, hrest, rfl⟩ := spaced_cons_iff.mp hs
    exact .absent hkey hlead hrest

end LabelSelector

end WatchCache
