import Mathlib.Computability.Language
import WatchCache.Proofs.Text
import WatchCache.Selector.Format

set_option autoImplicit false

/-!
# Label keys and values as regular languages

The two patterns that label keys and values have to match, written with the operations on
languages as they are written with those of regular expressions.  The checks of
`WatchCache.Selector` accept exactly the texts of these languages; from there on only the
characters matter that a text of such a language can hold.
-/

namespace WatchCache.Selector

open Text
open scoped Computability

/-! ## Languages -/

/-- The texts of one character of a class. -/
def one (p : Char → Bool) : Language Char := {s | ∃ c, p c = true ∧ s = [c]}

/-- A language with the empty text. -/
def optional (l : Language Char) : Language Char := 1 + l

/-- `[A-Za-z0-9]([-A-Za-z0-9_.]*[A-Za-z0-9])?` -/
def namePattern : Language Char :=
  one Char.isAlphanum * optional ((one isNameChar)∗ * one Char.isAlphanum)

/-- `[a-z0-9]([-a-z0-9]*[a-z0-9])?` -/
def partPattern : Language Char :=
  one isDomainEdge * optional ((one isDomainChar)∗ * one isDomainEdge)

/-- `(part(\.part)*/)?name` -/
def keyPattern : Language Char :=
  optional (partPattern * (one (· == '.') * partPattern)∗ * one (· == '/')) * namePattern

/-- `(([A-Za-z0-9][-A-Za-z0-9_.]*)?[A-Za-z0-9])?` -/
def valuePattern : Language Char :=
  optional (optional (one Char.isAlphanum * (one isNameChar)∗) * one Char.isAlphanum)

variable {p edge inner : Char → Bool} {s t : List Char} {l : Language Char}

theorem mem_one_iff : s ∈ one p ↔ ∃ c, p c = true ∧ s = [c] := Iff.rfl

theorem mem_optional_iff : s ∈ optional l ↔ s = [] ∨ s ∈ l := by
  rw [optional, Language.mem_add, Language.mem_one]

theorem mem_kstar_one_iff : s ∈ (one p)∗ ↔ s.all p = true := by
  rw [Language.mem_kstar, List.all_eq_true]
  constructor
  · rintro ⟨pieces, rfl, hpieces⟩ c hc
    obtain ⟨piece, hpiece, hmem⟩ := List.mem_flatten.mp hc
    obtain ⟨d, hd, rfl⟩ := hpieces piece hpiece
    exact List.mem_singleton.mp hmem ▸ hd
  · intro hall
    refine ⟨s.map fun c => [c], ?_, ?_⟩
    · rw [← List.flatMap_def, List.flatMap_singleton']
    · intro piece hpiece
      obtain ⟨c, hc, rfl⟩ := List.mem_map.mp hpiece
      exact ⟨c, hall c hc, rfl⟩

/-! ## Bounded texts -/

/-- A text with edge characters at both ends, which may be one character, and inner characters
between. -/
inductive Bounded (edge inner : Char → Bool) : List Char → Prop
  | single {c : Char} (hc : edge c = true) : Bounded edge inner [c]
  | wide {c d : Char} {middle : List Char} (hc : edge c = true) (hmiddle : middle.all inner = true)
      (hd : edge d = true) : Bounded edge inner (c :: (middle ++ [d]))

theorem Bounded.all (hs : Bounded edge inner s) (hedge : ∀ c, edge c = true → inner c = true) :
    ∀ c ∈ s, inner c = true := by
  intro c hc
  cases hs with
  | single hfirst => exact List.mem_singleton.mp hc ▸ hedge _ hfirst
  | wide hfirst hmiddle hlast =>
    rcases List.mem_cons.mp hc with rfl | hrest
    · exact hedge _ hfirst
    · rcases List.mem_append.mp hrest with hinner | hend
      · exact List.all_eq_true.mp hmiddle c hinner
      · exact List.mem_singleton.mp hend ▸ hedge _ hlast

theorem isBounded_iff (hedge : ∀ c, edge c = true → inner c = true) :
    isBounded edge inner s = true ↔ Bounded edge inner s := by
  constructor
  · intro hbounded
    simp only [isBounded, Bool.and_eq_true, Option.any_eq_true] at hbounded
    obtain ⟨⟨⟨c, hhead, hc⟩, d, hlast, hd⟩, hall⟩ := hbounded
    obtain ⟨rest, rfl⟩ := List.head?_eq_some_iff.mp hhead
    rcases List.eq_nil_or_concat' rest with rfl | ⟨middle, last, rfl⟩
    · exact .single hc
    · rw [← List.cons_append, List.getLast?_concat] at hlast
      cases hlast
      rw [List.all_cons, List.all_append, Bool.and_eq_true, Bool.and_eq_true] at hall
      exact .wide hc hall.2.1 hd
  · intro hs
    have hall := List.all_eq_true.mpr (hs.all hedge)
    cases hs with
    | single hc => simp [isBounded, hc, hedge _ hc]
    | @wide c d middle hc hmiddle hd =>
      have hlast : (c :: (middle ++ [d])).getLast? = some d := by
        rw [← List.cons_append, List.getLast?_concat]
      rw [isBounded, hall]
      simp [hc, hd, hlast]

/-- The pattern that asks for the first edge character. -/
theorem mem_first_iff :
    s ∈ one edge * optional ((one inner)∗ * one edge) ↔ Bounded edge inner s := by
  rw [Language.mem_mul]
  constructor
  · rintro ⟨_, ⟨c, hc, rfl⟩, rest, hrest, rfl⟩
    rcases mem_optional_iff.mp hrest with rfl | hwide
    · exact .single hc
    · obtain ⟨middle, hmiddle, _, ⟨d, hd, rfl⟩, rfl⟩ := Language.mem_mul.mp hwide
      exact .wide hc (mem_kstar_one_iff.mp hmiddle) hd
  · intro hs
    cases hs with
    | @single c hc => exact ⟨[c], ⟨c, hc, rfl⟩, [], mem_optional_iff.mpr (Or.inl rfl), rfl⟩
    | @wide c d middle hc hmiddle hd =>
      have hrest : middle ++ [d] ∈ (one inner)∗ * one edge :=
        Language.append_mem_mul (mem_kstar_one_iff.mpr hmiddle) ⟨d, hd, rfl⟩
      exact ⟨[c], ⟨c, hc, rfl⟩, middle ++ [d], mem_optional_iff.mpr (Or.inr hrest), rfl⟩

/-- The pattern that asks for the last edge character. -/
theorem mem_last_iff :
    s ∈ optional (one edge * (one inner)∗) * one edge ↔ Bounded edge inner s := by
  rw [Language.mem_mul]
  constructor
  · rintro ⟨start, hstart, _, ⟨d, hd, rfl⟩, rfl⟩
    rcases mem_optional_iff.mp hstart with rfl | hwide
    · exact .single hd
    · obtain ⟨_, ⟨c, hc, rfl⟩, middle, hmiddle, rfl⟩ := Language.mem_mul.mp hwide
      exact .wide hc (mem_kstar_one_iff.mp hmiddle) hd
  · intro hs
    cases hs with
    | @single d hd => exact ⟨[], mem_optional_iff.mpr (Or.inl rfl), [d], ⟨d, hd, rfl⟩, rfl⟩
    | @wide c d middle hc hmiddle hd =>
      have hstart : c :: middle ∈ one edge * (one inner)∗ :=
        Language.append_mem_mul (mem_one_iff.mpr ⟨c, hc, rfl⟩) (mem_kstar_one_iff.mpr hmiddle)
      exact ⟨c :: middle, mem_optional_iff.mpr (Or.inr hstart), [d], ⟨d, hd, rfl⟩, rfl⟩

/-! ## Names and values -/

theorem isAlphanum_iff {c : Char} :
    c.isAlphanum = true ↔ (c.isUpper = true ∨ c.isLower = true) ∨ c.isDigit = true := by
  have hclasses : c.isAlphanum = ((c.isUpper || c.isLower) || c.isDigit) := rfl
  rw [hclasses, Bool.or_eq_true, Bool.or_eq_true]

theorem isNameChar_of_isAlphanum {c : Char} (hc : c.isAlphanum = true) : isNameChar c = true := by
  simp [isNameChar, hc]

theorem isDomainChar_of_isDomainEdge {c : Char} (hc : isDomainEdge c = true) :
    isDomainChar c = true := by
  simp [isDomainChar, hc]

theorem isName_iff : isName s = true ↔ s ∈ namePattern := by
  rw [isName, isBounded_iff fun _ => isNameChar_of_isAlphanum, namePattern, mem_first_iff]

theorem isValue_iff : isValue s = true ↔ s ∈ valuePattern := by
  rw [isValue, Bool.or_eq_true, List.isEmpty_iff, isName_iff, valuePattern, mem_optional_iff,
    mem_last_iff, namePattern, mem_first_iff]

theorem isNameChar_of_mem_namePattern (hs : s ∈ namePattern) : ∀ c ∈ s, isNameChar c = true :=
  (mem_first_iff.mp hs).all fun _ => isNameChar_of_isAlphanum

theorem isNameChar_of_mem_valuePattern (hs : s ∈ valuePattern) : ∀ c ∈ s, isNameChar c = true := by
  rcases mem_optional_iff.mp hs with rfl | hname
  · exact fun c hc => absurd hc List.not_mem_nil
  · exact (mem_last_iff.mp hname).all fun _ => isNameChar_of_isAlphanum

/-! ## Domains -/

theorem isDomainChar_of_mem_partPattern (hs : s ∈ partPattern) :
    ∀ c ∈ s, isDomainChar c = true :=
  (mem_first_iff.mp hs).all fun _ => isDomainChar_of_isDomainEdge

/-- Parts with a point before each. -/
theorem exists_parts {pieces : List (List Char)}
    (hpieces : ∀ piece ∈ pieces, piece ∈ one (· == '.') * partPattern) :
    ∃ rest : List (List Char), (∀ part ∈ rest, part ∈ partPattern) ∧
      pieces = rest.map ('.' :: ·) := by
  induction pieces with
  | nil => exact ⟨[], fun part hpart => absurd hpart List.not_mem_nil, rfl⟩
  | cons piece pieces ih =>
    obtain ⟨rest, hall, rfl⟩ := ih fun y hy => hpieces y (List.mem_cons_of_mem piece hy)
    obtain ⟨_, ⟨c, hc, rfl⟩, part, hpart, rfl⟩ :=
      Language.mem_mul.mp (hpieces piece List.mem_cons_self)
    obtain rfl : c = '.' := by simpa using hc
    exact ⟨part :: rest, List.forall_mem_cons.mpr ⟨hpart, hall⟩, rfl⟩

/-- A domain is its parts with points between. -/
theorem mem_domain_iff :
    s ∈ partPattern * (one (· == '.') * partPattern)∗ ↔
      ∃ first rest, first ∈ partPattern ∧ (∀ part ∈ rest, part ∈ partPattern) ∧
        s = joinWith ['.'] (first :: rest) := by
  rw [Language.mem_mul]
  constructor
  · rintro ⟨first, hfirst, tail, htail, rfl⟩
    obtain ⟨pieces, rfl, hpieces⟩ := Language.mem_kstar.mp htail
    obtain ⟨rest, hall, rfl⟩ := exists_parts hpieces
    exact ⟨first, rest, hfirst, hall, (joinWith_cons '.' first rest).symm⟩
  · rintro ⟨first, rest, hfirst, hall, rfl⟩
    rw [joinWith_cons]
    refine ⟨first, hfirst, _, Language.mem_kstar.mpr ⟨_, rfl, fun piece hpiece => ?_⟩, rfl⟩
    obtain ⟨part, hpart, rfl⟩ := List.mem_map.mp hpiece
    exact Language.append_mem_mul (mem_one_iff.mpr ⟨'.', rfl, rfl⟩) (hall part hpart)

theorem isDomain_iff : isDomain s = true ↔ s ∈ partPattern * (one (· == '.') * partPattern)∗ := by
  have hpart (part : List Char) :
      isBounded isDomainEdge isDomainChar part = true ↔ part ∈ partPattern := by
    rw [isBounded_iff fun _ => isDomainChar_of_isDomainEdge, partPattern, mem_first_iff]
  rw [mem_domain_iff, isDomain, List.all_eq_true]
  constructor
  · intro hall
    have hjoin := joinWith_splitOn '.' s
    cases hsplit : splitOn '.' s with
    | nil => exact absurd hsplit (splitOn_ne_nil '.' s)
    | cons first rest =>
      rw [hsplit] at hall hjoin
      refine ⟨first, rest, (hpart first).mp (hall first List.mem_cons_self), ?_, hjoin.symm⟩
      exact fun part hmem => (hpart part).mp (hall part (List.mem_cons_of_mem first hmem))
  · rintro ⟨first, rest, hfirst, hrest, rfl⟩
    have hparts : ∀ part ∈ first :: rest, part ∈ partPattern :=
      List.forall_mem_cons.mpr ⟨hfirst, hrest⟩
    rw [splitOn_joinWith (by simp) fun part hmem hpoint => ?_]
    · exact fun part hmem => (hpart part).mpr (hparts part hmem)
    · have hpoint' := isDomainChar_of_mem_partPattern (hparts part hmem) '.' hpoint
      cases hpoint'

/-! ## Keys -/

/-- A character of a label key. -/
def isKeyChar (c : Char) : Bool := isNameChar c || c == '/'

theorem isNameChar_of_isDomainChar {c : Char} (hc : isDomainChar c = true) :
    isNameChar c = true := by
  simp only [isDomainChar, isDomainEdge, Bool.or_eq_true] at hc
  rcases hc with (hlower | hdigit) | hdash
  · exact isNameChar_of_isAlphanum (isAlphanum_iff.mpr (Or.inl (Or.inr hlower)))
  · exact isNameChar_of_isAlphanum (isAlphanum_iff.mpr (Or.inr hdigit))
  · simp [isNameChar, hdash]

theorem isNameChar_of_mem_domain (hs : s ∈ partPattern * (one (· == '.') * partPattern)∗) :
    ∀ c ∈ s, isNameChar c = true := by
  obtain ⟨first, rest, hfirst, hrest, rfl⟩ := mem_domain_iff.mp hs
  intro c hc
  rcases mem_joinWith hc with hpoint | ⟨part, hpart, hmem⟩
  · rw [List.mem_singleton.mp hpoint]
    rfl
  · have hmatches : part ∈ partPattern := by
      rcases List.mem_cons.mp hpart with rfl | htail
      · exact hfirst
      · exact hrest part htail
    exact isNameChar_of_isDomainChar (isDomainChar_of_mem_partPattern hmatches c hmem)

/-- A key is a name, or a domain and a name. -/
theorem mem_keyPattern_iff : s ∈ keyPattern ↔
    s ∈ namePattern ∨ ∃ domain name, s = domain ++ '/' :: name ∧ name ∈ namePattern ∧
      domain ∈ partPattern * (one (· == '.') * partPattern)∗ := by
  rw [keyPattern, Language.mem_mul]
  constructor
  · rintro ⟨start, hstart, name, hname, rfl⟩
    rcases mem_optional_iff.mp hstart with rfl | hslash
    · exact Or.inl hname
    · obtain ⟨domain, hdomain, _, ⟨c, hc, rfl⟩, rfl⟩ := Language.mem_mul.mp hslash
      obtain rfl : c = '/' := by simpa using hc
      refine Or.inr ⟨domain, name, ?_, hname, hdomain⟩
      rw [List.append_assoc, List.singleton_append]
  · rintro (hname | ⟨domain, name, rfl, hname, hdomain⟩)
    · exact ⟨[], mem_optional_iff.mpr (Or.inl rfl), s, hname, rfl⟩
    · have hstart : domain ++ ['/'] ∈
          partPattern * (one (· == '.') * partPattern)∗ * one (· == '/') :=
        Language.append_mem_mul hdomain ⟨'/', rfl, rfl⟩
      refine ⟨domain ++ ['/'], mem_optional_iff.mpr (Or.inr hstart), name, hname, ?_⟩
      rw [List.append_assoc, List.singleton_append]

theorem slash_not_mem (hs : ∀ c ∈ s, isNameChar c = true) : '/' ∉ s := by
  intro hslash
  cases hs '/' hslash

theorem isKey_iff : isKey s = true ↔ s ∈ keyPattern := by
  rw [mem_keyPattern_iff]
  constructor
  · intro hkey
    have hjoin := joinWith_splitOn '/' s
    unfold isKey at hkey
    split at hkey
    · next name hsplit =>
      rw [hsplit] at hjoin
      obtain rfl : name = s := hjoin
      exact Or.inl (isName_iff.mp hkey)
    · next domain name hsplit =>
      rw [hsplit] at hjoin
      obtain ⟨hdomain, hname⟩ := Bool.and_eq_true_iff.mp hkey
      refine Or.inr ⟨domain, name, ?_, isName_iff.mp hname, isDomain_iff.mp hdomain⟩
      rw [← hjoin, joinWith_cons_cons, List.append_assoc]
      rfl
    · cases hkey
  · rintro (hname | ⟨domain, name, rfl, hname, hdomain⟩)
    · have hslash := slash_not_mem (isNameChar_of_mem_namePattern hname)
      rw [isKey, splitOn_of_not_mem hslash]
      exact isName_iff.mpr hname
    · have hslash := slash_not_mem (isNameChar_of_mem_namePattern hname)
      have hdomainSlash := slash_not_mem (isNameChar_of_mem_domain hdomain)
      rw [isKey, splitOn_append_cons hdomainSlash, splitOn_of_not_mem hslash]
      exact Bool.and_eq_true_iff.mpr ⟨isDomain_iff.mpr hdomain, isName_iff.mpr hname⟩

instance : DecidablePred (· ∈ keyPattern) := fun s => decidable_of_iff (isKey s = true) isKey_iff

instance : DecidablePred (· ∈ valuePattern) :=
  fun s => decidable_of_iff (isValue s = true) isValue_iff

theorem isKeyChar_of_mem_keyPattern (hs : s ∈ keyPattern) : ∀ c ∈ s, isKeyChar c = true := by
  have hname {c : Char} (hc : isNameChar c = true) : isKeyChar c = true := by
    rw [isKeyChar, hc]
    rfl
  rcases mem_keyPattern_iff.mp hs with hkey | ⟨domain, name, rfl, hkey, hdomain⟩
  · exact fun c hc => hname (isNameChar_of_mem_namePattern hkey c hc)
  · intro c hc
    rcases List.mem_append.mp hc with hleft | hright
    · exact hname (isNameChar_of_mem_domain hdomain c hleft)
    · rcases List.mem_cons.mp hright with rfl | hrest
      · rfl
      · exact hname (isNameChar_of_mem_namePattern hkey c hrest)

theorem ne_nil_of_mem_keyPattern (hs : s ∈ keyPattern) : s ≠ [] := by
  rintro rfl
  cases isKey_iff.mpr hs

end WatchCache.Selector
