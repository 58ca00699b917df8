import WatchCache.Proofs.Selector.Format
import WatchCache.Selector.Label

set_option autoImplicit false

/-!
# What a selector text can give

A requirement is well formed if its key and its values match their patterns and if there are as
many values as its operator compares with.  Every requirement that is read from a text is well
formed, in whichever of the ways it was read.
-/

namespace WatchCache

open Text

namespace Selector

/-! ## Well-formed requirements -/

/-- How many values an operator compares with, and which ones. -/
def Operator.Fits (values : List String) : Operator → Prop
  | .equals | .doubleEquals | .notEquals => ∃ v, values = [v] ∧ v.toList ∈ valuePattern
  | .isIn | .isNotIn =>
    values ≠ [] ∧ (∀ v ∈ values, v.toList ∈ valuePattern) ∧ ¬∀ v ∈ values, v = ""
  | .exists_ | .doesNotExist => values = []

/-- A requirement whose key and values match their patterns. -/
structure Requirement.WellFormed (r : Requirement) : Prop where
  key : r.key.toList ∈ keyPattern
  values : r.operator.Fits r.values

/-! ## Characters that keys and values do not hold -/

theorem toNat_between {c first last : Char} (hfirst : first.val ≤ c.val)
    (hlast : c.val ≤ last.val) : first.toNat ≤ c.toNat ∧ c.toNat ≤ last.toNat :=
  ⟨UInt32.le_iff_toNat_le.mp hfirst, UInt32.le_iff_toNat_le.mp hlast⟩

theorem toNat_of_isNameChar {c : Char} (hc : isNameChar c = true) :
    '-'.toNat ≤ c.toNat ∧ c.toNat ≤ 'z'.toNat := by
  have hclasses : ((((c.isUpper = true ∨ c.isLower = true) ∨ c.isDigit = true) ∨ c = '-') ∨
      c = '_') ∨ c = '.' := by
    simpa only [isNameChar, isAlphanum_iff, Bool.or_eq_true, beq_iff_eq] using hc
  rcases hclasses with ((((hupper | hlower) | hdigit) | rfl) | rfl) | rfl
  · obtain ⟨hfirst, hlast⟩ := of_decide_eq_true hupper
    obtain ⟨hleft, hright⟩ := toNat_between hfirst hlast
    exact ⟨Nat.le_trans (by decide) hleft, Nat.le_trans hright (by decide)⟩
  · obtain ⟨hfirst, hlast⟩ := Bool.and_eq_true_iff.mp hlower
    obtain ⟨hleft, hright⟩ := toNat_between (of_decide_eq_true hfirst) (of_decide_eq_true hlast)
    exact ⟨Nat.le_trans (by decide) hleft, hright⟩
  · obtain ⟨hfirst, hlast⟩ := Bool.and_eq_true_iff.mp hdigit
    obtain ⟨hleft, hright⟩ := toNat_between (of_decide_eq_true hfirst) (of_decide_eq_true hlast)
    exact ⟨Nat.le_trans (by decide) hleft, Nat.le_trans hright (by decide)⟩
  all_goals decide

theorem isBlank_of_isKeyChar {c : Char} (hc : isKeyChar c = true) : isBlank c = false := by
  have hrange : '-'.toNat ≤ c.toNat ∧ c.toNat ≤ 'z'.toNat := by
    rcases Bool.or_eq_true_iff.mp hc with hname | hslash
    · exact toNat_of_isNameChar hname
    · obtain rfl : c = '/' := by simpa using hslash
      decide
  have hlow : '-'.toNat = 0x2D := rfl
  have hhigh : 'z'.toNat = 0x7A := rfl
  simp only [isBlank, Bool.or_eq_false_iff, Bool.and_eq_false_iff, decide_eq_false_iff_not,
    beq_eq_false_iff_ne]
  omega

theorem not_mem_of_isKeyChar {s : List Char} (hs : ∀ c ∈ s, isKeyChar c = true) {d : Char}
    (hd : isKeyChar d = false) : d ∉ s :=
  fun hmem => Bool.noConfusion ((hs d hmem).symm.trans hd)

theorem isKeyChar_of_mem_valuePattern {s : List Char} (hs : s ∈ valuePattern) :
    ∀ c ∈ s, isKeyChar c = true := by
  intro c hc
  rw [isKeyChar, isNameChar_of_mem_valuePattern hs c hc]
  rfl

end Selector

namespace LabelSelector

open Selector

/-! ## Requirements one by one -/

theorem bind_eq_ok_iff {α β ε : Type} {x : Except ε α} {f : α → Except ε β} {b : β} :
    x >>= f = .ok b ↔ ∃ a, x = .ok a ∧ f a = .ok b := by
  cases x <;> simp [bind, Except.bind]

theorem exists_mapM_map_eq_ok {α β γ ε : Type} {f : α → Except ε γ} {g : β → α} {l : List β}
    {p : β → γ → Prop} (hread : ∀ x ∈ l, ∃ y, f (g x) = .ok y ∧ p x y) :
    ∃ out, (l.map g).mapM f = .ok out ∧ List.Forall₂ p l out := by
  induction l with
  | nil => exact ⟨[], rfl, .nil⟩
  | cons x l ih =>
    obtain ⟨y, hfirst, hy⟩ := hread x List.mem_cons_self
    obtain ⟨out, hrest, hout⟩ := ih fun z hz => hread z (List.mem_cons_of_mem x hz)
    refine ⟨y :: out, ?_, .cons hy hout⟩
    rw [List.map_cons, List.mapM_cons, hfirst, hrest]
    rfl

theorem mapM_eq_ok_of_forall₂ {α β ε : Type} {f : α → Except ε β} {l : List α} {out : List β}
    (hread : List.Forall₂ (fun y x => f x = .ok y) out l) : l.mapM f = .ok out := by
  induction hread with
  | nil => rfl
  | cons hfirst _ ih =>
    rw [List.mapM_cons, hfirst, ih]
    rfl

/-- If one of them cannot be read, the answer is an error of one of them. -/
theorem exists_mapM_eq_error {α β ε : Type} {f : α → Except ε β} {p : ε → Prop} {l : List α}
    (hfail : ∃ x ∈ l, ∃ e, f x = .error e) (hall : ∀ x ∈ l, ∀ e, f x = .error e → p e) :
    ∃ e, l.mapM f = .error e ∧ p e := by
  induction l with
  | nil =>
    obtain ⟨x, hx, -⟩ := hfail
    exact absurd hx List.not_mem_nil
  | cons x l ih =>
    rw [List.mapM_cons]
    cases hfirst : f x with
    | error e => exact ⟨e, rfl, hall x List.mem_cons_self e hfirst⟩
    | ok y =>
      obtain ⟨z, hz, e, he⟩ := hfail
      have hrest : z ∈ l := (List.mem_cons.mp hz).resolve_left fun hsame => by
        rw [hsame, hfirst] at he
        cases he
      obtain ⟨e, hread, hp⟩ :=
        ih ⟨z, hrest, _, he⟩ fun w hw => hall w (List.mem_cons_of_mem x hw)
      exact ⟨e, by rw [hread]; rfl, hp⟩

theorem forall_right_of_forall₂ {α β : Type} {p : α → β → Prop} {q : β → Prop} {l : List α}
    {out : List β} (h : List.Forall₂ p l out) (hq : ∀ y ∈ l, ∀ x, p y x → q x) :
    ∀ x ∈ out, q x := by
  induction h with
  | nil => exact fun x hx => absurd hx List.not_mem_nil
  | @cons y x l out hfirst _ ih =>
    refine List.forall_mem_cons.mpr ⟨hq y List.mem_cons_self x hfirst, ih fun z hz => ?_⟩
    exact hq z (List.mem_cons_of_mem y hz)

theorem exists_of_mapM_eq_ok {α β ε : Type} {f : α → Except ε β} {l : List α} {out : List β}
    (hread : l.mapM f = .ok out) : ∀ x ∈ out, ∃ a ∈ l, f a = .ok x := by
  induction l generalizing out with
  | nil =>
    cases hread
    exact fun x hx => absurd hx List.not_mem_nil
  | cons a l ih =>
    rw [List.mapM_cons] at hread
    obtain ⟨y, hfirst, hread⟩ := bind_eq_ok_iff.mp hread
    obtain ⟨rest, hrest, hread⟩ := bind_eq_ok_iff.mp hread
    cases hread
    intro x hx
    rcases List.mem_cons.mp hx with rfl | hmem
    · exact ⟨a, List.mem_cons_self, hfirst⟩
    · obtain ⟨b, hb, hfb⟩ := ih hrest x hmem
      exact ⟨b, List.mem_cons_of_mem a hb, hfb⟩

/-! ## Reading keys and values -/

theorem readKey_eq_ok_iff (key : List Char) (k : String) :
    readKey key = .ok k ↔ k.toList = key ∧ key ∈ keyPattern := by
  rw [← isKey_iff, readKey]
  cases hkey : isKey key with
  | false => simp
  | true =>
    simp only [if_true, Except.ok.injEq, and_true]
    exact ⟨fun h => by rw [← h, String.toList_ofList], fun h => by rw [← h, String.ofList_toList]⟩

theorem readLabelValue_eq_ok_iff (value : List Char) (v : String) :
    readLabelValue value = .ok v ↔ v.toList = value ∧ value ∈ valuePattern := by
  rw [← isValue_iff, readLabelValue]
  cases hvalue : isValue value with
  | false => simp
  | true =>
    simp only [if_true, Except.ok.injEq, and_true]
    exact ⟨fun h => by rw [← h, String.toList_ofList], fun h => by rw [← h, String.ofList_toList]⟩

/-! ## What a text can give -/

theorem wellFormed_of_readSet {term key values : List Char} {op : Operator} {r : Requirement}
    (hop : op = .isIn ∨ op = .isNotIn) (hread : readSet term key op values = .ok r) :
    r.WellFormed := by
  obtain ⟨texts, hvalues, hread⟩ := bind_eq_ok_iff.mp hread
  split at hread
  · cases hread
  · next hsome =>
    obtain ⟨k, hkey, hread⟩ := bind_eq_ok_iff.mp hread
    cases hread
    obtain ⟨htoList, hpattern⟩ := (readKey_eq_ok_iff key k).mp hkey
    have hmatch : ∀ v ∈ texts, v.toList ∈ valuePattern := by
      intro v hv
      obtain ⟨piece, -, hpiece⟩ := exists_of_mapM_eq_ok hvalues v hv
      obtain ⟨hsame, hmem⟩ := (readLabelValue_eq_ok_iff _ v).mp hpiece
      exact hsame ▸ hmem
    have hnotAll : ¬∀ v ∈ texts, v = "" := by simpa using hsome
    have hne : texts ≠ [] := by
      rintro rfl
      exact hnotAll fun v hv => absurd hv List.not_mem_nil
    refine ⟨htoList ▸ hpattern, ?_⟩
    rcases hop with rfl | rfl
    · exact ⟨hne, hmatch, hnotAll⟩
    · exact ⟨hne, hmatch, hnotAll⟩

/-- The operators that a comparison can have. -/
theorem operator_of_comparison? {term key value : List Char} {op : Operator}
    (hcut : comparison? term = some (key, op, value)) :
    op = .notEquals ∨ op = .doubleEquals ∨ op = .equals := by
  have hat {sign : List Char} {first : Operator}
      (hsign : (splitOnce sign term).map (fun cut => (trim cut.1, first, trim cut.2)) =
        some (key, op, value)) : op = first := by
    obtain ⟨cut, -, hsome⟩ := Option.map_eq_some_iff.mp hsign
    cases hsome
    rfl
  rcases Option.or_eq_some_iff.mp hcut with hnot | ⟨-, hrest⟩
  · exact Or.inl (hat hnot)
  · rcases Option.or_eq_some_iff.mp hrest with hdouble | ⟨-, hone⟩
    · exact Or.inr (Or.inl (hat hdouble))
    · exact Or.inr (Or.inr (hat hone))

theorem wellFormed_of_readPlain {term : List Char} {r : Requirement}
    (hread : readPlain term = .ok r) : r.WellFormed := by
  have hkeyed {key : List Char} {k : String} (hkey : readKey key = .ok k) :
      k.toList ∈ keyPattern := by
    obtain ⟨hsame, hmem⟩ := (readKey_eq_ok_iff key k).mp hkey
    exact hsame ▸ hmem
  unfold readPlain at hread
  split at hread
  · obtain ⟨k, hkey, hread⟩ := bind_eq_ok_iff.mp hread
    cases hread
    exact ⟨hkeyed hkey, rfl⟩
  · split at hread
    · next key op value hcut =>
      obtain ⟨k, hkey, hread⟩ := bind_eq_ok_iff.mp hread
      obtain ⟨v, hvalue, hread⟩ := bind_eq_ok_iff.mp hread
      cases hread
      obtain ⟨hsame, hmem⟩ := (readLabelValue_eq_ok_iff value v).mp hvalue
      have hone : ∃ w, [v] = [w] ∧ w.toList ∈ valuePattern := ⟨v, rfl, hsame ▸ hmem⟩
      refine ⟨hkeyed hkey, ?_⟩
      rcases operator_of_comparison? hcut with rfl | rfl | rfl
      · exact hone
      · exact hone
      · exact hone
    · obtain ⟨k, hkey, hread⟩ := bind_eq_ok_iff.mp hread
      cases hread
      exact ⟨hkeyed hkey, rfl⟩

/-- The operators that a set requirement can have. -/
theorem operator_of_setTerm? {term key values : List Char} {op : Operator}
    (hset : setTerm? term = some (key, op, values)) : op = .isIn ∨ op = .isNotIn := by
  simp only [setTerm?] at hset
  split at hset
  · cases hset
  · split at hset
    · cases hset
      exact Or.inl rfl
    · cases hset
      exact Or.inr rfl
    · cases hset

theorem wellFormed_of_readTerm {raw : List Char} {r : Requirement} (hread : readTerm raw = .ok r) :
    r.WellFormed := by
  simp only [readTerm] at hread
  split at hread
  · cases hread
  · split at hread
    · next key op values hset => exact wellFormed_of_readSet (operator_of_setTerm? hset) hread
    · exact wellFormed_of_readPlain hread

/-- Whatever text a selector was read from, its requirements are well formed. -/
theorem wellFormed_of_parse {s : String} {sel : LabelSelector} (hread : parse s = .ok sel) :
    ∀ r ∈ sel.requirements, r.WellFormed := by
  unfold parse at hread
  split at hread
  · cases hread
    exact fun r hr => absurd hr List.not_mem_nil
  · split at hread
    · cases hread
    · obtain ⟨requirements, hterms, hread⟩ := bind_eq_ok_iff.mp hread
      cases hread
      intro r hr
      obtain ⟨raw, -, hraw⟩ := exists_of_mapM_eq_ok hterms r hr
      exact wellFormed_of_readTerm hraw

end LabelSelector

end WatchCache
