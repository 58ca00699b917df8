import WatchCache.Proofs.Text
import WatchCache.Selector.Label

set_option autoImplicit false

/-!
# Commas and parentheses

A selector text is cut at its commas outside parentheses.  A text is whole if it stays in one piece
wherever it stands, which a text without commas and parentheses does, and also one whose commas all
stand between a pair of parentheses at its end.  `enclosed` collects what stands between
parentheses; in a join of whole texts that is what stands there in each of them.
-/

namespace WatchCache.LabelSelector

open Text

/-- The characters between parentheses; `depth` of these are open. -/
def enclosed : Nat → List Char → List Char
  | _, [] => []
  | depth, '(' :: rest => enclosed (depth + 1) rest
  | depth, ')' :: rest => enclosed (depth - 1) rest
  | 0, _ :: rest => enclosed 0 rest
  | depth + 1, c :: rest => c :: enclosed (depth + 1) rest

theorem mem_of_mem_enclosed {depth : Nat} {s : List Char} {c : Char} (hc : c ∈ enclosed depth s) :
    c ∈ s := by
  fun_induction enclosed depth s with
  | case1 => exact hc
  | case2 depth rest ih => exact List.mem_cons_of_mem '(' (ih hc)
  | case3 depth rest ih => exact List.mem_cons_of_mem ')' (ih hc)
  | case4 first rest _ _ ih => exact List.mem_cons_of_mem first (ih hc)
  | case5 depth first rest _ _ ih =>
    rcases List.mem_cons.mp hc with rfl | hrest
    · exact List.mem_cons_self
    · exact List.mem_cons_of_mem first (ih hrest)

theorem foldr_consFirst (s piece : List Char) (pieces : List (List Char)) :
    s.foldr consFirst (piece :: pieces) = (s ++ piece) :: pieces := by
  induction s with
  | nil => rfl
  | cons c s ih => rw [List.foldr_cons, ih, consFirst, List.cons_append]

/-! ## Texts without parentheses -/

/-- A character that neither cuts nor opens or closes a parenthesis goes into the piece. -/
theorem splitTerms_cons {depth : Int32} {c : Char} (hopen : '(' ≠ c) (hclose : ')' ≠ c)
    (hcomma : depth = 0 → ',' ≠ c) (rest : List Char) :
    splitTerms depth (c :: rest) = (splitTerms depth rest).map (consFirst c) := by
  by_cases hcut : ',' = c
  · have hinside : depth ≠ 0 := fun hzero => hcomma hzero hcut
    rw [← hcut, splitTerms, if_neg hinside]
  · rw [splitTerms] <;> simp_all [eq_comm]

theorem splitTerms_append {depth : Int32} {s : List Char} (hopen : '(' ∉ s) (hclose : ')' ∉ s)
    (hcomma : depth = 0 → ',' ∉ s) (rest : List Char) :
    splitTerms depth (s ++ rest) = (splitTerms depth rest).map (s.foldr consFirst) := by
  induction s with
  | nil =>
    rw [List.nil_append]
    cases splitTerms depth rest <;> rfl
  | cons c s ih =>
    rw [List.mem_cons, not_or] at hopen hclose
    have hcomma' (hdepth : depth = 0) : ',' ≠ c ∧ ',' ∉ s :=
      not_or.mp (mt List.mem_cons.mpr (hcomma hdepth))
    rw [List.cons_append, splitTerms_cons hopen.1 hclose.1 fun hdepth => (hcomma' hdepth).1,
      ih hopen.2 hclose.2 fun hdepth => (hcomma' hdepth).2]
    cases splitTerms depth rest <;> rfl

theorem enclosed_zero_cons {c : Char} (hopen : '(' ≠ c) (hclose : ')' ≠ c) (rest : List Char) :
    enclosed 0 (c :: rest) = enclosed 0 rest := by
  rw [enclosed] <;> simp_all [eq_comm]

theorem enclosed_succ_cons {depth : Nat} {c : Char} (hopen : '(' ≠ c) (hclose : ')' ≠ c)
    (rest : List Char) : enclosed (depth + 1) (c :: rest) = c :: enclosed (depth + 1) rest := by
  rw [enclosed] <;> simp_all [eq_comm]

/-- Outside parentheses nothing is collected, inside everything is. -/
theorem enclosed_append {s : List Char} (hopen : '(' ∉ s) (hclose : ')' ∉ s) (rest : List Char) :
    enclosed 0 (s ++ rest) = enclosed 0 rest ∧
      ∀ depth, enclosed (depth + 1) (s ++ rest) = s ++ enclosed (depth + 1) rest := by
  induction s with
  | nil => exact ⟨rfl, fun _ => rfl⟩
  | cons c s ih =>
    rw [List.mem_cons, not_or] at hopen hclose
    obtain ⟨houtside, hinside⟩ := ih hopen.2 hclose.2
    refine ⟨?_, fun depth => ?_⟩
    · rw [List.cons_append, enclosed_zero_cons hopen.1 hclose.1, houtside]
    · rw [List.cons_append, enclosed_succ_cons hopen.1 hclose.1, hinside, List.cons_append]

/-- A text without commas and parentheses. -/
def Flat (s : List Char) : Prop := ∀ c ∈ s, c ∉ ['(', ')', ',']

theorem Flat.not_mem {s : List Char} (h : Flat s) {c : Char} (hc : c ∈ ['(', ')', ',']) : c ∉ s :=
  fun hmem => h c hmem hc

theorem Flat.enclosed_append {s : List Char} (h : Flat s) (rest : List Char) :
    enclosed 0 (s ++ rest) = enclosed 0 rest :=
  (LabelSelector.enclosed_append (h.not_mem (by decide)) (h.not_mem (by decide)) rest).1

theorem Flat.enclosed {s : List Char} (h : Flat s) : enclosed 0 s = [] := by
  have hnil : LabelSelector.enclosed 0 (s ++ []) = [] := h.enclosed_append []
  rwa [List.append_nil] at hnil

/-! ## Whole texts -/

/-- A text that is taken as a whole into one piece and closes all parentheses that it opens. -/
structure Whole (term : List Char) : Prop where
  pieces : ∀ rest, splitTerms 0 (term ++ rest) = (splitTerms 0 rest).map (term.foldr consFirst)
  enclosed : ∀ rest, enclosed 0 (term ++ rest) = enclosed 0 term ++ enclosed 0 rest

theorem Flat.whole {s : List Char} (h : Flat s) : Whole s where
  pieces :=
    splitTerms_append (h.not_mem (by decide)) (h.not_mem (by decide)) fun _ => h.not_mem (by decide)
  enclosed := by
    intro rest
    rw [h.enclosed_append, h.enclosed, List.nil_append]

theorem whole_append {s t : List Char} (hs : Whole s) (ht : Whole t) : Whole (s ++ t) where
  pieces := by
    intro rest
    rw [List.append_assoc, hs.pieces, ht.pieces]
    cases splitTerms 0 rest <;> simp [Except.map]
  enclosed := by
    intro rest
    rw [List.append_assoc, hs.enclosed, ht.enclosed, hs.enclosed, List.append_assoc]

/-- Of one pair of parentheses, everything between them is enclosed. -/
theorem enclosed_parentheses {body : List Char} (hopen : '(' ∉ body) (hclose : ')' ∉ body)
    (rest : List Char) :
    enclosed 0 ('(' :: (body ++ ')' :: rest)) = body ++ enclosed 0 rest := by
  rw [enclosed, (enclosed_append hopen hclose _).2, enclosed]

theorem whole_parentheses {body : List Char} (hopen : '(' ∉ body) (hclose : ')' ∉ body) :
    Whole ('(' :: (body ++ [')'])) where
  pieces := by
    intro rest
    -- One parenthesis is open over the body, so a comma in it does not cut.
    have hbody : splitTerms 1 (body ++ ')' :: rest) =
        (splitTerms 1 (')' :: rest)).map (body.foldr consFirst) :=
      splitTerms_append hopen hclose (fun h => absurd h (by decide)) (')' :: rest)
    have hclosed : splitTerms 1 (')' :: rest) = (splitTerms 0 rest).map (consFirst ')') := by
      rw [splitTerms, if_neg (by decide)]
      rfl
    rw [List.cons_append, splitTerms, List.append_assoc, List.singleton_append, Int32.zero_add,
      hbody, hclosed]
    cases splitTerms 0 rest with
    | error u => rfl
    | ok pieces => simp [Except.map]
  enclosed := by
    intro rest
    have hnone := enclosed_parentheses hopen hclose []
    rw [List.cons_append, List.append_assoc, List.singleton_append,
      enclosed_parentheses hopen hclose, hnone]
    simp [LabelSelector.enclosed]

variable {terms : List (List Char)}

theorem splitTerms_joinWith (hne : terms ≠ []) (hwhole : ∀ term ∈ terms, Whole term) :
    splitTerms 0 (joinWith [','] terms) = .ok terms := by
  induction terms with
  | nil => exact absurd rfl hne
  | cons term terms ih =>
    have hterm := (hwhole term List.mem_cons_self).pieces
    cases terms with
    | nil =>
      have hcut := hterm []
      rw [List.append_nil] at hcut
      rw [joinWith, hcut]
      simp [splitTerms, Except.map, foldr_consFirst]
    | cons next terms =>
      have hrest := ih (by simp) fun t ht => hwhole t (List.mem_cons_of_mem term ht)
      rw [joinWith_cons_cons, List.append_assoc, hterm, List.singleton_append, splitTerms,
        if_pos rfl, hrest]
      simp [Except.map, foldr_consFirst]

/-- What is enclosed in a join of whole texts is enclosed in one of them. -/
theorem mem_enclosed_joinWith_iff (hwhole : ∀ term ∈ terms, Whole term) {c : Char} :
    c ∈ enclosed 0 (joinWith [','] terms) ↔ ∃ term ∈ terms, c ∈ enclosed 0 term := by
  induction terms with
  | nil => simp [joinWith, enclosed]
  | cons term terms ih =>
    have hterm := hwhole term List.mem_cons_self
    have hrest := ih fun t ht => hwhole t (List.mem_cons_of_mem term ht)
    cases terms with
    | nil => simp [joinWith]
    | cons next terms =>
      rw [joinWith_cons_cons, List.append_assoc, hterm.enclosed, List.singleton_append,
        enclosed_zero_cons (by decide) (by decide), List.mem_append, hrest]
      exact (List.exists_mem_cons_iff (c ∈ enclosed 0 ·) term _).symm

end WatchCache.LabelSelector
