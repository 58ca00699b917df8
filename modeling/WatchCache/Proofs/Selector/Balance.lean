import WatchCache.Proofs.Selector.Cutting

set_option autoImplicit false

/-!
# Balanced parentheses

Counting says whether a selector text can be cut: no start of it may close more parentheses than it
opens, and the whole has to close as many.  Counting also says where it is cut, which is at every
comma that has as many closed as opened before it, and nowhere else.

The scan counts in 32 bits.  `Cuts` is the cut with an exact count; `splitTerms_eq_ok_iff` says that
the scan makes it as long as the open parentheses can be counted, and
`terms_beyond_the_count_are_misread` what becomes of a text that opens more.
-/

namespace WatchCache.LabelSelector

open Text

variable {depth : Nat} {c : Char} {s : List Char}

/-! ## Counting -/

/-- Some start of the text closes more than it opens and `depth` before it. -/
def Overclosed (depth : Nat) (s : List Char) : Prop :=
  ∃ start, start <+: s ∧ depth + start.count '(' < start.count ')'

/-- The text closes as many as it opens and `depth` before it. -/
def Closes (depth : Nat) (s : List Char) : Prop := s.count ')' = depth + s.count '('

instance (depth : Nat) (s : List Char) : Decidable (Closes depth s) :=
  inferInstanceAs (Decidable (_ = _))

/-- The parentheses of a text, and the `depth` before it, are all closed and none too early. -/
structure Balanced (depth : Nat) (s : List Char) : Prop where
  starts : ¬Overclosed depth s
  total : Closes depth s

/-- None of the parentheses is closed too early, but some are not closed at all. -/
structure Unclosed (depth : Nat) (s : List Char) : Prop where
  starts : ¬Overclosed depth s
  total : s.count ')' < depth + s.count '('

theorem not_overclosed_nil : ¬Overclosed depth [] := by
  rintro ⟨start, hstart, hlt⟩
  rw [List.prefix_nil.mp hstart] at hlt
  simp at hlt

theorem overclosed_closing : Overclosed 0 (')' :: s) :=
  ⟨[')'], List.prefix_cons_iff.mpr (Or.inr ⟨[], rfl, List.nil_prefix⟩), by decide⟩

theorem Balanced.not_unclosed (h : Balanced depth s) : ¬Unclosed depth s :=
  fun hopen => absurd h.total hopen.total.ne

theorem Overclosed.append {before : List Char} (h : Overclosed depth before) (after : List Char) :
    Overclosed depth (before ++ after) := by
  obtain ⟨start, hstart, hlt⟩ := h
  exact ⟨start, hstart.trans (List.prefix_append before after), hlt⟩

theorem Balanced.before {before after : List Char} (h : Balanced depth (before ++ after))
    (hbefore : Closes depth before) : Balanced depth before :=
  ⟨fun hover => h.starts (hover.append after), hbefore⟩

/-- Behind a comma that is not enclosed the count starts again. -/
theorem Balanced.after {before after : List Char} (h : Balanced depth (before ++ ',' :: after))
    (hbefore : Closes depth before) : Balanced 0 after := by
  unfold Closes at hbefore
  constructor
  · rintro ⟨start, hstart, hlt⟩
    refine h.starts ⟨before ++ ',' :: start, ?_, ?_⟩
    · exact (List.prefix_append_right_inj before).mpr ((List.prefix_cons_inj ',').mpr hstart)
    · simp only [List.count_append, List.count_cons]
      simp
      omega
  · have htotal := h.total
    simp only [Closes, List.count_append, List.count_cons] at htotal ⊢
    simp at htotal
    omega

section

variable {next : Nat} (hnext : depth + [c].count '(' = next + [c].count ')')
include hnext

/-- One character changes the depth at which the rest of the text starts. -/
theorem overclosed_cons_iff : Overclosed depth (c :: s) ↔ Overclosed next s := by
  constructor
  · rintro ⟨start, hstart, hlt⟩
    rcases List.prefix_cons_iff.mp hstart with rfl | ⟨rest, rfl, hrest⟩
    · simp at hlt
    · simp only [List.count_cons, List.count_nil] at hnext hlt
      exact ⟨rest, hrest, by omega⟩
  · rintro ⟨rest, hrest, hlt⟩
    refine ⟨c :: rest, (List.prefix_cons_inj c).mpr hrest, ?_⟩
    simp only [List.count_cons, List.count_nil] at hnext ⊢
    omega

theorem closes_cons_iff : Closes depth (c :: s) ↔ Closes next s := by
  simp only [Closes, List.count_cons, List.count_nil] at hnext ⊢
  omega

theorem balanced_cons_iff : Balanced depth (c :: s) ↔ Balanced next s := by
  constructor
  · exact fun h => ⟨mt (overclosed_cons_iff hnext).mpr h.starts, (closes_cons_iff hnext).mp h.total⟩
  · exact fun h => ⟨mt (overclosed_cons_iff hnext).mp h.starts, (closes_cons_iff hnext).mpr h.total⟩

theorem unclosed_cons (h : Unclosed next s) : Unclosed depth (c :: s) where
  starts := mt (overclosed_cons_iff hnext).mp h.starts
  total := by
    have htotal := h.total
    simp only [List.count_cons, List.count_nil] at hnext ⊢
    omega

end

/-! ## Scanning -/

/-- A text is scanned from its start, together with the depth that it starts at.

The scan ends behind the text or at a parenthesis that closes too much.  Until then each character
is a comma at which the text is cut, or is kept and leads to the next depth. -/
@[elab_as_elim]
theorem scan_induction {motive : Nat → List Char → Prop}
    (closed : motive 0 [])
    (unclosed : ∀ depth, motive (depth + 1) [])
    (overclosed : ∀ s, motive 0 (')' :: s))
    (cut : ∀ s, motive 0 s → motive 0 (',' :: s))
    (kept : ∀ depth next c s, depth + [c].count '(' = next + [c].count ')' →
      (depth = 0 → ',' ≠ c) → motive next s → motive depth (c :: s))
    (depth : Nat) (s : List Char) : motive depth s := by
  induction s generalizing depth with
  | nil =>
    cases depth with
    | zero => exact closed
    | succ depth => exact unclosed depth
  | cons c s ih =>
    by_cases hover : depth = 0 ∧ ')' = c
    · obtain ⟨rfl, rfl⟩ := hover
      exact overclosed s
    · by_cases hcomma : depth = 0 ∧ ',' = c
      · obtain ⟨rfl, rfl⟩ := hcomma
        exact cut s (ih 0)
      · refine kept depth (depth + [c].count '(' - [c].count ')') c s ?_ (not_and.mp hcomma) (ih _)
        by_cases hclose : ')' = c
        · have hdepth : depth ≠ 0 := fun hzero => hover ⟨hzero, hclose⟩
          have hone : [c].count ')' = 1 := by rw [← hclose]; rfl
          omega
        · have hnone : [c].count ')' = 0 := by simp [Ne.symm hclose]
          omega

/-! ## The cut -/

variable {pieces : List (List Char)}

theorem joinWith_consFirst (sep : List Char) (c : Char) (pieces : List (List Char)) :
    joinWith sep (consFirst c pieces) = c :: joinWith sep pieces := by
  match pieces with
  | [] | [_] | _ :: _ :: _ => rfl

theorem consFirst_append {left : List (List Char)} (hne : left ≠ []) (c : Char)
    (right : List (List Char)) : consFirst c (left ++ right) = consFirst c left ++ right := by
  cases left with
  | nil => exact absurd rfl hne
  | cons piece pieces => rfl

/-- How a text is cut, character by character: a comma outside parentheses begins a new piece, and
every other character goes into the piece that begins behind it. -/
inductive Cuts : Nat → List Char → List (List Char) → Prop
  | closed : Cuts 0 [] [[]]
  | cut {s : List Char} {pieces : List (List Char)} :
      Cuts 0 s pieces → Cuts 0 (',' :: s) ([] :: pieces)
  | kept {depth next : Nat} {c : Char} {s : List Char} {pieces : List (List Char)} :
      depth + [c].count '(' = next + [c].count ')' → (depth = 0 → ',' ≠ c) →
      Cuts next s pieces → Cuts depth (c :: s) (consFirst c pieces)

theorem Cuts.balanced (h : Cuts depth s pieces) : Balanced depth s := by
  induction h with
  | closed => exact ⟨not_overclosed_nil, rfl⟩
  | cut hs ih => exact (balanced_cons_iff (by decide)).mpr ih
  | kept hnext hcomma hs ih => exact (balanced_cons_iff hnext).mpr ih

/-- A text can be cut exactly if its parentheses are balanced. -/
theorem exists_cuts_iff : (∃ pieces, Cuts depth s pieces) ↔ Balanced depth s := by
  refine ⟨fun ⟨pieces, hcuts⟩ => hcuts.balanced, fun hbalanced => ?_⟩
  induction depth, s using scan_induction with
  | closed => exact ⟨_, .closed⟩
  | unclosed depth => exact absurd hbalanced.total (by simp [Closes])
  | overclosed s => exact absurd overclosed_closing hbalanced.starts
  | cut s ih =>
    obtain ⟨pieces, hcuts⟩ := ih ((balanced_cons_iff (by decide)).mp hbalanced)
    exact ⟨_, .cut hcuts⟩
  | kept depth next c s hnext hcomma ih =>
    obtain ⟨pieces, hcuts⟩ := ih ((balanced_cons_iff hnext).mp hbalanced)
    exact ⟨_, .kept hnext hcomma hcuts⟩

/-- There is one way to cut a text. -/
theorem Cuts.unique {others : List (List Char)} (h : Cuts depth s pieces)
    (h' : Cuts depth s others) : pieces = others := by
  induction h generalizing others with
  | closed =>
    cases h'
    rfl
  | cut hs ih =>
    cases h' with
    | cut hs' => rw [ih hs']
    | kept hnext' hcomma' hs' => exact absurd rfl (hcomma' rfl)
  | kept hnext hcomma hs ih =>
    cases h' with
    | cut hs' => exact absurd rfl (hcomma rfl)
    | kept hnext' hcomma' hs' =>
      obtain rfl := Nat.add_right_cancel (hnext.symm.trans hnext')
      rw [ih hs']

/-- Every piece is a text that is not cut any further, the first one at the depth of the whole. -/
theorem Cuts.singles (h : Cuts depth s pieces) :
    ∃ first rest, pieces = first :: rest ∧ Cuts depth first [first] ∧
      ∀ piece ∈ rest, Cuts 0 piece [piece] := by
  induction h with
  | closed => exact ⟨[], [], rfl, .closed, List.forall_mem_nil _⟩
  | cut hs ih =>
    obtain ⟨first, rest, rfl, hfirst, hrest⟩ := ih
    exact ⟨[], first :: rest, rfl, .closed, List.forall_mem_cons.mpr ⟨hfirst, hrest⟩⟩
  | @kept depth next c s others hnext hcomma hs ih =>
    obtain ⟨first, rest, rfl, hfirst, hrest⟩ := ih
    exact ⟨c :: first, rest, rfl, .kept hnext hcomma hfirst, hrest⟩

theorem Cuts.single_of_mem (h : Cuts 0 s pieces) {piece : List Char} (hpiece : piece ∈ pieces) :
    Cuts 0 piece [piece] := by
  obtain ⟨first, rest, rfl, hfirst, hrest⟩ := h.singles
  rcases List.mem_cons.mp hpiece with rfl | hlater
  · exact hfirst
  · exact hrest piece hlater

theorem Cuts.ne_nil (h : Cuts depth s pieces) : pieces ≠ [] := by
  obtain ⟨first, rest, rfl, -⟩ := h.singles
  exact List.cons_ne_nil first rest

/-- The pieces make up the text again. -/
theorem Cuts.joinWith (h : Cuts depth s pieces) : Text.joinWith [','] pieces = s := by
  induction h with
  | closed => rfl
  | cut hs ih =>
    obtain ⟨first, rest, rfl, -⟩ := hs.singles
    rw [joinWith_cons_cons, ih]
    rfl
  | kept hnext hcomma hs ih => rw [joinWith_consFirst, ih]

/-- A text is cut at a comma behind a text that can be cut itself. -/
theorem Cuts.append_comma {before after : List Char} {left right : List (List Char)}
    (h : Cuts depth before left) (hafter : Cuts 0 after right) :
    Cuts depth (before ++ ',' :: after) (left ++ right) := by
  induction h with
  | closed => exact .cut hafter
  | cut hs ih => exact .cut ih
  | @kept depth next c s others hnext hcomma hs ih =>
    rw [← consFirst_append hs.ne_nil]
    exact .kept hnext hcomma ih

/-- Every comma outside parentheses separates two pieces. -/
theorem Cuts.exists_around {before after : List Char}
    (h : Cuts depth (before ++ ',' :: after) pieces) (hbefore : Closes depth before) :
    ∃ left right, Cuts depth before left ∧ Cuts 0 after right ∧ pieces = left ++ right := by
  obtain ⟨left, hleft⟩ := exists_cuts_iff.mpr (h.balanced.before hbefore)
  obtain ⟨right, hright⟩ := exists_cuts_iff.mpr (h.balanced.after hbefore)
  exact ⟨left, right, hleft, hright, h.unique (hleft.append_comma hright)⟩

/-- A text that is not cut holds no comma outside parentheses. -/
theorem Cuts.not_closes {before after : List Char}
    (h : Cuts depth (before ++ ',' :: after) [before ++ ',' :: after]) : ¬Closes depth before := by
  intro hbefore
  obtain ⟨left, right, hleft, hright, hpieces⟩ := h.exists_around hbefore
  rcases List.append_eq_singleton_iff.mp hpieces.symm with ⟨hnil, -⟩ | ⟨-, hnil⟩
  · exact hleft.ne_nil hnil
  · exact hright.ne_nil hnil

/-! ## Counting in 32 bits -/

/-- As far as the text closes none of its parentheses, and of the `depth` before it, too early, the
open ones can be counted. -/
def Countable (depth : Nat) (s : List Char) : Prop :=
  ∀ start, start <+: s → ¬Overclosed depth start →
    depth + start.count '(' ≤ start.count ')' + 2147483647

theorem Countable.depth_le (h : Countable depth s) : depth ≤ 2147483647 :=
  h [] List.nil_prefix not_overclosed_nil

theorem Countable.of_cons {next : Nat} (h : Countable depth (c :: s))
    (hnext : depth + [c].count '(' = next + [c].count ')') : Countable next s := by
  intro start hstart hover
  have hcount := h (c :: start) ((List.prefix_cons_inj c).mpr hstart)
    (mt (overclosed_cons_iff hnext).mp hover)
  simp only [List.count_cons, List.count_nil] at hnext hcount
  omega

theorem countable_of_length_le (hlength : depth + s.length ≤ 2147483647) : Countable depth s := by
  intro start hstart _
  have hshorter := hstart.length_le
  have hcount : start.count '(' ≤ start.length := List.count_le_length
  omega

theorem ofNat_eq_zero_iff (hdepth : depth ≤ 2147483647) : Int32.ofNat depth = 0 ↔ depth = 0 := by
  rw [← Int32.toInt_inj, Int32.toInt_ofNat_of_lt (by omega)]
  simp

theorem not_ofNat_lt_zero (hdepth : depth ≤ 2147483647) : ¬Int32.ofNat depth < 0 := by
  rw [Int32.lt_iff_toInt_lt, Int32.toInt_ofNat_of_lt (by omega)]
  simp

/-- A character that neither cuts nor closes too much goes into the first piece. -/
theorem splitTerms_kept {next : Nat} (hnext : depth + [c].count '(' = next + [c].count ')')
    (hcomma : depth = 0 → ',' ≠ c) (hcount : Countable depth (c :: s)) :
    splitTerms (.ofNat depth) (c :: s) = (splitTerms (.ofNat next) s).map (consFirst c) := by
  by_cases hopen : '(' = c
  · subst hopen
    have hdeeper : next = depth + 1 := hnext.symm
    rw [hdeeper, splitTerms, Int32.ofNat_add]
    rfl
  · by_cases hclose : ')' = c
    · subst hclose
      have hdeeper : depth = next + 1 := hnext
      have hless : Int32.ofNat depth - 1 = .ofNat next := by
        rw [hdeeper, Int32.ofNat_add]
        exact Int32.add_sub_cancel _ _
      rw [splitTerms, hless, if_neg (not_ofNat_lt_zero (hcount.of_cons hnext).depth_le)]
    · have hsame : depth = next := by simpa [Ne.symm hopen, Ne.symm hclose] using hnext
      rw [splitTerms_cons hopen hclose fun hzero =>
        hcomma ((ofNat_eq_zero_iff hcount.depth_le).mp hzero), hsame]

/-- What the parentheses of a text have to be like for the outcome of a scan, and how the text is
cut by it. -/
def Fits (depth : Nat) (s : List Char) : Except Unbalanced (List (List Char)) → Prop
  | .ok pieces => Cuts depth s pieces
  | .error .closing => Overclosed depth s
  | .error .opening => Unclosed depth s

/-- A scan that counts the open parentheses makes the cut, or says why there is none. -/
theorem fits_splitTerms (hcount : Countable depth s) :
    Fits depth s (splitTerms (.ofNat depth) s) := by
  induction depth, s using scan_induction with
  | closed => exact .closed
  | unclosed depth =>
    have hopen : Int32.ofNat (depth + 1) ≠ 0 := fun hzero =>
      Nat.succ_ne_zero depth ((ofNat_eq_zero_iff hcount.depth_le).mp hzero)
    rw [splitTerms, if_neg hopen]
    exact ⟨not_overclosed_nil, by simp⟩
  | overclosed s => exact overclosed_closing
  | cut s ih =>
    have hfits := ih (hcount.of_cons (by decide))
    have hcut : splitTerms (.ofNat 0) (',' :: s) = (splitTerms (.ofNat 0) s).map ([] :: ·) := by
      rw [splitTerms, if_pos (by decide)]
    rw [hcut]
    rcases hoff : splitTerms (.ofNat 0) s with (_ | _) | pieces <;> rw [hoff] at hfits
    · exact unclosed_cons (by decide) hfits
    · exact (overclosed_cons_iff (by decide)).mpr hfits
    · exact .cut hfits
  | kept depth next c s hnext hcomma ih =>
    have hfits := ih (hcount.of_cons hnext)
    rw [splitTerms_kept hnext hcomma hcount]
    rcases hoff : splitTerms (.ofNat next) s with (_ | _) | pieces <;> rw [hoff] at hfits
    · exact unclosed_cons hnext hfits
    · exact (overclosed_cons_iff hnext).mpr hfits
    · exact .kept hnext hcomma hfits

theorem splitTerms_eq_ok_iff (hcount : Countable depth s) :
    splitTerms (.ofNat depth) s = .ok pieces ↔ Cuts depth s pieces := by
  have hfits := fits_splitTerms hcount
  constructor
  · intro hcut
    rwa [hcut] at hfits
  · intro hcuts
    rcases hoff : splitTerms (.ofNat depth) s with (_ | _) | others <;> rw [hoff] at hfits
    · exact absurd hfits hcuts.balanced.not_unclosed
    · exact absurd hfits hcuts.balanced.starts
    · rw [hcuts.unique hfits]

/-- The complaint is about a closing parenthesis as soon as one has no partner, and about an
opening one only if all closing ones have theirs. -/
theorem splitTerms_eq_error_iff (hcount : Countable depth s) {u : Unbalanced} :
    splitTerms (.ofNat depth) s = .error u ↔
      (u = .closing ∧ Overclosed depth s) ∨ (u = .opening ∧ Unclosed depth s) := by
  have hfits := fits_splitTerms hcount
  rcases hcut : splitTerms (.ofNat depth) s with (_ | _) | pieces <;> rw [hcut] at hfits
  · have hopen : Unclosed depth s := hfits
    simp [hopen, hopen.starts, eq_comm]
  · have hover : Overclosed depth s := hfits
    have hopen : ¬Unclosed depth s := fun h => h.starts hover
    simp [hover, hopen, eq_comm]
  · have hbalanced : Balanced depth s := Cuts.balanced hfits
    simp [hbalanced.starts, hbalanced.not_unclosed]

/-- Selector texts are cut at the commas outside parentheses.

As long as the open parentheses of a text can be counted, which takes no more than 2147483647 of
them at any point before the text is refused: the text is cut exactly if its parentheses are
balanced.  The pieces make it up again, with commas between them; the parentheses of each piece are
balanced and enclose all of its commas; and every comma of the text that is not enclosed has pieces
on both of its sides. -/
theorem terms_are_cut_at_outer_commas (s : List Char) (hcount : Countable 0 s) :
    ((∃ pieces, splitTerms 0 s = .ok pieces) ↔ Balanced 0 s) ∧
    ∀ pieces, splitTerms 0 s = .ok pieces →
      pieces ≠ [] ∧ joinWith [','] pieces = s ∧
      (∀ piece ∈ pieces, Balanced 0 piece ∧
        ∀ before after, piece = before ++ ',' :: after → ¬Closes 0 before) ∧
      ∀ before after, s = before ++ ',' :: after → Closes 0 before →
        ∃ left right, pieces = left ++ right ∧ left ≠ [] ∧ right ≠ [] ∧
          joinWith [','] left = before ∧ joinWith [','] right = after := by
  have hcut (pieces : List (List Char)) : splitTerms 0 s = .ok pieces ↔ Cuts 0 s pieces :=
    splitTerms_eq_ok_iff hcount
  refine ⟨(exists_congr hcut).trans exists_cuts_iff, fun pieces hpieces => ?_⟩
  have hcuts : Cuts 0 s pieces := (hcut pieces).mp hpieces
  refine ⟨hcuts.ne_nil, hcuts.joinWith, fun piece hpiece => ?_, ?_⟩
  · have hsingle : Cuts 0 piece [piece] := hcuts.single_of_mem hpiece
    refine ⟨hsingle.balanced, ?_⟩
    rintro before after rfl
    exact hsingle.not_closes
  · rintro before after rfl hbefore
    obtain ⟨left, right, hleft, hright, rfl⟩ := hcuts.exists_around hbefore
    exact ⟨left, right, rfl, hleft.ne_nil, hright.ne_nil, hleft.joinWith, hright.joinWith⟩

/-- Commas at two depths, characters of several bytes and an empty piece at the end. -/
theorem terms_are_cut_at_outer_commas_nested :
    let first := "é in (a,(ß,),c)".toList
    let s := first ++ ',' :: "😀(,),".toList
    let pieces := [first, "😀(,)".toList, []]
    Countable 0 s ∧ Balanced 0 s ∧ splitTerms 0 s = .ok pieces ∧ joinWith [','] pieces = s ∧
      (∀ piece ∈ pieces, Balanced 0 piece) ∧
      (∀ before after, first = before ++ ',' :: after → ¬Closes 0 before) ∧
      Closes 0 first ∧ ∃ left right, pieces = left ++ right ∧ left ≠ [] ∧ right ≠ [] ∧
        joinWith [','] left = first ∧ joinWith [','] right = "😀(,),".toList := by
  intro first s pieces
  have hcut : splitTerms 0 s = .ok pieces := by decide +kernel
  have hfirst : Closes 0 first := by decide +kernel
  have hcount : Countable 0 s := countable_of_length_le (by decide +kernel)
  obtain ⟨hbalanced, hpieces⟩ := terms_are_cut_at_outer_commas s hcount
  obtain ⟨-, hjoin, hinside, haround⟩ := hpieces pieces hcut
  exact ⟨hcount, hbalanced.mp ⟨pieces, hcut⟩, hcut, hjoin,
    fun piece hpiece => (hinside piece hpiece).1, (hinside first List.mem_cons_self).2, hfirst,
    haround first _ rfl hfirst⟩

/-! ## Texts with more parentheses -/

theorem splitTerms_replicate (depth : Int32) (n : Nat) (rest : List Char) :
    splitTerms depth (List.replicate n '(' ++ rest) =
      (splitTerms (depth + .ofNat n) rest).map ((List.replicate n '(').foldr consFirst) := by
  induction n generalizing depth with
  | zero =>
    rw [List.replicate_zero, List.nil_append, show Int32.ofNat 0 = 0 from rfl, Int32.add_zero]
    cases splitTerms depth rest <;> rfl
  | succ n ih =>
    have hdeeper : depth + 1 + .ofNat n = depth + .ofNat (n + 1) := by
      rw [Int32.add_assoc, Int32.ofNat_add, Int32.add_comm 1]
      rfl
    rw [List.replicate_succ, List.cons_append, splitTerms, ih, hdeeper]
    cases splitTerms (depth + .ofNat (n + 1)) rest <;> rfl

theorem balanced_nested (n : Nat) :
    Balanced 0 (List.replicate n '(' ++ List.replicate n ')') := by
  constructor
  · rintro ⟨start, hstart, hlt⟩
    rw [List.prefix_iff_eq_take.mp hstart, List.take_append, List.take_replicate,
      List.length_replicate, List.take_replicate] at hlt
    simp [List.count_replicate] at hlt
    omega
  · simp [Closes, List.count_replicate]

/-- Texts that open more parentheses than can be counted are misread: one that is balanced is
refused, and one that closes none of its parentheses is taken as one piece. -/
theorem terms_beyond_the_count_are_misread :
    let nested := List.replicate 2147483649 '(' ++ List.replicate (2147483648 + 1) ')'
    let unclosed := List.replicate 4294967296 '('
    Balanced 0 nested ∧ splitTerms 0 nested = .error .closing ∧
      ¬Balanced 0 unclosed ∧ splitTerms 0 unclosed = .ok [unclosed] := by
  intro nested unclosed
  refine ⟨balanced_nested 2147483649, ?_, fun h => ?_, ?_⟩
  · have hover : (0 : Int32) + .ofNat 2147483649 - 1 < 0 := by decide
    have hclose : List.replicate (2147483648 + 1) ')' = ')' :: List.replicate 2147483648 ')' :=
      List.replicate_succ
    have hscan := splitTerms_replicate 0 2147483649 (List.replicate (2147483648 + 1) ')')
    rw [hclose, splitTerms, if_pos hover] at hscan
    exact hscan
  · have htotal := h.total
    rw [Closes, List.count_replicate_self, List.count_replicate] at htotal
    simp at htotal
  · have hnone : (0 : Int32) + .ofNat 4294967296 = 0 := by decide
    have hscan := splitTerms_replicate 0 4294967296 []
    rw [List.append_nil, hnone, splitTerms, if_pos rfl] at hscan
    rw [hscan, Except.map, foldr_consFirst, List.append_nil]

end WatchCache.LabelSelector
