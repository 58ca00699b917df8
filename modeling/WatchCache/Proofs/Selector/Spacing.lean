import WatchCache.Proofs.Selector.Tokens

set_option autoImplicit false

/-!
# Blanks in selector texts

Blanks may be put before, between and behind the tokens of a selector without a change of meaning.
Every kind of blank may stand at each of these places, save that a line feed between parentheses
makes the text unreadable.
-/

namespace WatchCache

open Text

namespace LabelSelector

open Selector

/-! ## Parts of a term -/

section

variable {key gap : List Char}

theorem isSetKeyChar_of_isKeyChar {c : Char} (hc : isKeyChar c = true) : isSetKeyChar c = true := by
  have hne {d : Char} (hd : isKeyChar d = false) : (c == d) = false := by
    refine beq_eq_false_iff_ne.mpr ?_
    rintro rfl
    cases hc.symm.trans hd
  have hbang : (c == '!') = false := hne rfl
  have hequals : (c == '=') = false := hne rfl
  have hopen : (c == '(') = false := hne rfl
  have hclose : (c == ')') = false := hne rfl
  have hcomma : (c == ',') = false := hne rfl
  simp only [isSetKeyChar, isBlank_of_isKeyChar hc, hbang, hequals, hopen, hclose, hcomma]
  rfl

theorem isSetKeyChar_of_isBlank {c : Char} (hc : isBlank c = true) : isSetKeyChar c = false := by
  simp [isSetKeyChar, hc]

/-- The key of a set requirement is all that stands before a character that no key holds. -/
theorem takeWhile_key (hkey : ∀ c ∈ key, isKeyChar c = true) {rest : List Char}
    (hrest : ∀ c ∈ rest.head?, isSetKeyChar c = false) :
    (key ++ rest).takeWhile isSetKeyChar = key ∧ (key ++ rest).dropWhile isSetKeyChar = rest := by
  have hall : ∀ c ∈ key, isSetKeyChar c = true := fun c hc => isSetKeyChar_of_isKeyChar (hkey c hc)
  rw [List.takeWhile_append_of_pos hall, List.dropWhile_append_of_pos hall]
  cases rest with
  | nil => simp
  | cons c rest => simp [hrest c rfl]

/-- Blanks do not belong to the key of a set requirement. -/
theorem isSetKeyChar_of_head (hgap : ∀ c ∈ gap, isBlank c = true) {rest : List Char}
    (hrest : ∀ c ∈ rest.head?, isSetKeyChar c = false) :
    ∀ c ∈ (gap ++ rest).head?, isSetKeyChar c = false := by
  cases gap with
  | nil => exact hrest
  | cons d gap =>
    rintro c ⟨⟩
    exact isSetKeyChar_of_isBlank (hgap d List.mem_cons_self)

/-- A text is no set requirement if no word stands behind its key. -/
theorem setTerm?_eq_none (hkey : ∀ c ∈ key, isKeyChar c = true)
    (hgap : ∀ c ∈ gap, isBlank c = true) {rest : List Char}
    (hrest : ∀ c ∈ rest.head?, isSetKeyChar c = false ∧ isBlank c = false) :
    setTerm? (key ++ (gap ++ rest)) = none := by
  obtain ⟨-, hdrop⟩ := takeWhile_key hkey (isSetKeyChar_of_head hgap fun c hc => (hrest c hc).1)
  have hbody : trimStart (gap ++ rest) = rest := by
    rw [trimStart_append hgap]
    cases rest with
    | nil => rfl
    | cons c rest => exact trimStart_of_head (hrest c rfl).2 rest
  have hword {first : Char} {others : List Char} (hfirst : isSetKeyChar first = true) :
      afterStart (first :: others) rest = none := by
    cases rest with
    | nil => rfl
    | cons c rest =>
      have hne : first ≠ c := by
        rintro rfl
        cases hfirst.symm.trans (hrest first rfl).1
      rw [afterStart, if_neg hne]
  have hin : afterStart ['i', 'n'] rest = none := hword rfl
  have hnotIn : afterStart ['n', 'o', 't', 'i', 'n'] rest = none := hword rfl
  simp only [setTerm?, hdrop, hbody, hin, hnotIn, Option.bind_none, ite_self]

theorem betweenParentheses?_parentheses (body : List Char) :
    betweenParentheses? ('(' :: (body ++ [')'])) = if '\n' ∈ body then none else some body := by
  by_cases hfeed : '\n' ∈ body <;> simp [betweenParentheses?, hfeed]

theorem trim_of_isKeyChar (hkey : ∀ c ∈ key, isKeyChar c = true) : trim key = key :=
  trim_of_forall fun c hc => isBlank_of_isKeyChar (hkey c hc)

theorem trim_of_spaced (hkey : ∀ c ∈ key, isKeyChar c = true) {s : List Char}
    (hs : Spaced [key] s) : trim s = key := by
  obtain ⟨lead, behind, hlead, hbehind, rfl⟩ := spaced_singleton_iff.mp hs
  rw [trim_append hlead hbehind, trim_of_isKeyChar hkey]

/-- A text that begins with a key is no negation. -/
theorem readPlain_key {rest : List Char} (hkey : key ∈ keyPattern) :
    readPlain (key ++ rest) = match comparison? (key ++ rest) with
      | some (k, op, value) => (do .ok ⟨← readKey k, op, [← readLabelValue value]⟩)
      | none => (do .ok ⟨← readKey (key ++ rest), .exists_, []⟩) := by
  unfold readPlain
  split
  · next after hbang =>
    cases key with
    | nil => exact absurd rfl (ne_nil_of_mem_keyPattern hkey)
    | cons c key =>
      cases hbang
      cases isKeyChar_of_mem_keyPattern hkey '!' List.mem_cons_self
  · rfl

theorem comparison?_eq_none {s : List Char} (hequals : '=' ∉ s) (hbang : '!' ∉ s) :
    comparison? s = none := by
  simp only [comparison?, splitOnce_of_not_mem hbang, splitOnce_of_not_mem hequals,
    Option.map_none, Option.none_or]

theorem readTerm_plain {raw term : List Char} (htrim : trim raw = term) (hne : term ≠ [])
    (hset : setTerm? term = none) : readTerm raw = readPlain term := by
  simp only [readTerm, htrim, hset, if_neg hne]

end

/-! ## Reading spaced requirements -/

section

variable {k v : String}

theorem readKey_toList (hkey : k.toList ∈ keyPattern) : readKey k.toList = .ok k :=
  (readKey_eq_ok_iff k.toList k).mpr ⟨rfl, hkey⟩

theorem readLabelValue_toList (hvalue : v.toList ∈ valuePattern) :
    readLabelValue v.toList = .ok v :=
  (readLabelValue_eq_ok_iff v.toList v).mpr ⟨rfl, hvalue⟩

/-- A key does not begin with a blank. -/
theorem exists_head {key : List Char} (hkey : key ∈ keyPattern) :
    ∃ first, key.head? = some first ∧ isBlank first = false := by
  have hne := ne_nil_of_mem_keyPattern hkey
  exact ⟨key.head hne, List.head?_eq_some_head hne,
    isBlank_of_isKeyChar (isKeyChar_of_mem_keyPattern hkey _ (List.head_mem hne))⟩

/-- A character that is neither a blank nor a character of a key does not stand in a spaced key. -/
theorem not_mem_of_spaced {key s : List Char} (hkey : ∀ c ∈ key, isKeyChar c = true)
    (hs : Spaced [key] s) {d : Char} (hchar : isKeyChar d = false) (hblank : isBlank d = false) :
    d ∉ s := by
  intro hmem
  rcases hs.mem d hmem with hgap | ⟨token, htoken, hd⟩
  · cases hgap.symm.trans hblank
  · rw [List.mem_singleton.mp htoken] at hd
    cases (hkey d hd).symm.trans hchar

/-- A comparison is cut at its sign, whatever blanks there are. -/
theorem comparison?_spaced {key value left right sign : List Char} {op : Operator}
    (hkey : ∀ c ∈ key, isKeyChar c = true) (hvalue : ∀ c ∈ value, isKeyChar c = true)
    (hsign : Sign op sign) (hleft : Spaced [key] left) (hright : Spaced [value] right) :
    comparison? (left ++ (sign ++ trimEnd right)) = some (key, op, value) := by
  have hfirst : op.FoundFirst (trimEnd right) :=
    foundFirst_of_not_mem (mt mem_of_mem_trimEnd (not_mem_of_spaced hvalue hright rfl rfl))
      (mt mem_of_mem_trimEnd (not_mem_of_spaced hvalue hright rfl rfl)) op
  rw [comparison?_append (not_mem_of_spaced hkey hleft rfl rfl)
    (not_mem_of_spaced hkey hleft rfl rfl), firstSign?_sign hsign hfirst]
  simp only [Option.map_some, List.append_nil, trim_of_spaced hkey hleft, trim_trimEnd,
    trim_of_spaced hvalue hright]

theorem readTerm_comparison (hkey : k.toList ∈ keyPattern) (hvalue : v.toList ∈ valuePattern)
    {op : Operator} {sign left right : List Char} (hsign : Sign op sign)
    (hleft : Spaced [k.toList] left) (hright : Spaced [v.toList] right) :
    readTerm (left ++ (sign ++ right)) = .ok ⟨k, op, [v]⟩ := by
  have hkeyChars := isKeyChar_of_mem_keyPattern hkey
  have hvalueChars := isKeyChar_of_mem_valuePattern hvalue
  obtain ⟨lead, gap, hlead, hgap, rfl⟩ := spaced_singleton_iff.mp hleft
  obtain ⟨first, hfirst, hhead⟩ := exists_head hkey
  -- Trimming goes no further than to the key on the left and to the sign on the right.
  have htrim : trim (lead ++ (k.toList ++ gap) ++ (sign ++ right)) =
      k.toList ++ (gap ++ (sign ++ trimEnd right)) := by
    have hfirst' : (k.toList ++ (gap ++ sign)).head? = some first := by
      rw [List.head?_append, hfirst]
      rfl
    have hlast : (k.toList ++ (gap ++ sign)).getLast? = some '=' := by
      rw [List.getLast?_append, List.getLast?_append, hsign.getLast?]
      rfl
    have hends := trim_append_of_ends hlead hfirst' hhead hlast rfl right
    simpa using hends
  have hset : setTerm? (k.toList ++ (gap ++ (sign ++ trimEnd right))) = none := by
    refine setTerm?_eq_none hkeyChars hgap fun c hc => ?_
    have hne : sign ≠ [] := List.ne_nil_of_mem (List.mem_of_mem_getLast? hsign.getLast?)
    rw [List.head?_append_of_ne_nil _ hne] at hc
    rcases hsign.mem c (List.mem_of_mem_head? hc) with rfl | rfl <;> exact ⟨rfl, rfl⟩
  have hbefore : Spaced [k.toList] (k.toList ++ gap) :=
    spaced_singleton_iff.mpr ⟨[], gap, fun c hc => absurd hc List.not_mem_nil, hgap, rfl⟩
  have hcut : comparison? (k.toList ++ (gap ++ (sign ++ trimEnd right))) =
      some (k.toList, op, v.toList) := by
    rw [← List.append_assoc]
    exact comparison?_spaced hkeyChars hvalueChars hsign hbefore hright
  have hne : k.toList ++ (gap ++ (sign ++ trimEnd right)) ≠ [] :=
    List.append_ne_nil_of_left_ne_nil (ne_nil_of_mem_keyPattern hkey) _
  rw [readTerm_plain htrim hne hset, readPlain_key hkey, hcut]
  simp only [readKey_toList hkey, readLabelValue_toList hvalue]
  rfl

theorem readTerm_exists {s : List Char} (hkey : k.toList ∈ keyPattern)
    (hs : Spaced [k.toList] s) : readTerm s = .ok ⟨k, .exists_, []⟩ := by
  have hkeyChars := isKeyChar_of_mem_keyPattern hkey
  have hset : setTerm? (k.toList ++ ([] ++ [])) = none :=
    setTerm?_eq_none hkeyChars (fun c hc => absurd hc List.not_mem_nil)
      fun c hc => absurd hc (by simp)
  have hcut : comparison? (k.toList ++ []) = none := by
    rw [List.append_nil]
    exact comparison?_eq_none (not_mem_of_isKeyChar hkeyChars rfl)
      (not_mem_of_isKeyChar hkeyChars rfl)
  rw [List.append_nil, List.append_nil] at hset
  rw [readTerm_plain (trim_of_spaced hkeyChars hs) (ne_nil_of_mem_keyPattern hkey) hset,
    ← List.append_nil k.toList, readPlain_key hkey, hcut, List.append_nil]
  simp only [readKey_toList hkey]
  rfl

theorem readTerm_doesNotExist {lead s : List Char} (hkey : k.toList ∈ keyPattern)
    (hlead : ∀ c ∈ lead, isBlank c = true) (hs : Spaced [k.toList] s) :
    readTerm (lead ++ (['!'] ++ s)) = .ok ⟨k, .doesNotExist, []⟩ := by
  have hkeyChars := isKeyChar_of_mem_keyPattern hkey
  have htrim : trim (lead ++ (['!'] ++ s)) = ['!'] ++ trimEnd s :=
    trim_append_of_ends hlead rfl rfl rfl rfl s
  have hset : setTerm? ([] ++ ([] ++ '!' :: trimEnd s)) = none := by
    refine setTerm?_eq_none (fun c hc => absurd hc List.not_mem_nil)
      (fun c hc => absurd hc List.not_mem_nil) ?_
    rintro c ⟨⟩
    exact ⟨rfl, rfl⟩
  rw [readTerm_plain htrim (by simp) hset, List.singleton_append]
  simp only [readPlain, trim_trimEnd, trim_of_spaced hkeyChars hs, readKey_toList hkey]
  rfl

end

/-! ## Reading spaced sets -/

namespace SetForm

variable {k : String} {op : Operator} {values : List String}

theorem setTerm?_term (f : SetForm k op values) (hkey : k.toList ∈ keyPattern) :
    setTerm? f.term = if '\n' ∈ f.body then none else some (k.toList, op, f.body) := by
  have hterm : f.term =
      k.toList ++ (f.before ++ (f.word ++ (f.after ++ '(' :: (f.body ++ [')'])))) := by
    simp [term, head]
  rw [hterm]
  have hbefore := f.before_blank
  have hapart := f.before_ne_nil
  have hafter := f.after_blank
  have hword := f.isWord
  generalize f.body = body, f.before = before, f.word = word, f.after = after at *
  have hhead : ∀ c ∈ (before ++ (word ++ (after ++ '(' :: (body ++ [')'])))).head?,
      isSetKeyChar c = false := by
    intro c hc
    rw [List.head?_append_of_ne_nil _ hapart] at hc
    exact isSetKeyChar_of_isBlank (hbefore c (List.mem_of_mem_head? hc))
  obtain ⟨htake, hdrop⟩ := takeWhile_key (isKeyChar_of_mem_keyPattern hkey) hhead
  have hstart : trimStart (before ++ (word ++ (after ++ '(' :: (body ++ [')'])))) =
      word ++ (after ++ '(' :: (body ++ [')'])) := by
    rw [trimStart_append hbefore]
    cases hword <;> rfl
  have hshorter : (before ++ (word ++ (after ++ '(' :: (body ++ [')'])))).length ≠
      (word ++ (after ++ '(' :: (body ++ [')']))).length := by
    have hpos := List.length_pos_iff.mpr hapart
    rw [List.length_append]
    omega
  have hvalues : (afterStart word (word ++ (after ++ '(' :: (body ++ [')'])))).bind
      (fun rest => betweenParentheses? (trimStart rest)) =
        if '\n' ∈ body then none else some body := by
    have hopen : trimStart (after ++ '(' :: (body ++ [')'])) = '(' :: (body ++ [')']) :=
      trimStart_append hafter _
    rw [afterStart_append, Option.bind_some, hopen, betweenParentheses?_parentheses]
  simp only [setTerm?, htake, hdrop, hstart, ne_nil_of_mem_keyPattern hkey, hshorter, or_self,
    if_false]
  -- Neither of the two words begins with the other one.
  cases hword with
  | isIn =>
    have hother : afterStart ['n', 'o', 't', 'i', 'n']
        (['i', 'n'] ++ (after ++ '(' :: (body ++ [')']))) = none := rfl
    rw [hvalues, hother]
    split_ifs <;> rfl
  | isNotIn =>
    have hother : afterStart ['i', 'n']
        (['n', 'o', 't', 'i', 'n'] ++ (after ++ '(' :: (body ++ [')']))) = none := rfl
    rw [hvalues, hother]
    split_ifs <;> rfl

variable (f : SetForm k op values) (hkey : k.toList ∈ keyPattern)
  (hvalues : ∀ v ∈ values, v.toList ∈ valuePattern) {c : Char}

include hkey in
/-- Before the parentheses stand the characters of the key, of the word and blanks. -/
theorem not_mem_head (hchar : isKeyChar c = false) (hblank : isBlank c = false) : c ∉ f.head := by
  have hgap {gap : List Char} (hgap : ∀ d ∈ gap, isBlank d = true) : c ∉ gap := fun hmem =>
    Bool.noConfusion ((hgap c hmem).symm.trans hblank)
  simp only [head, List.mem_append, not_or]
  exact ⟨not_mem_of_isKeyChar (isKeyChar_of_mem_keyPattern hkey) hchar, hgap f.before_blank,
    not_mem_of_isKeyChar f.isWord.isKeyChar hchar, hgap f.after_blank⟩

include hvalues in
theorem not_mem_piece (hchar : isKeyChar c = false) (hblank : isBlank c = false) :
    ∀ piece ∈ f.pieces, c ∉ piece :=
  forall_right_of_forall₂ f.spaced fun v hv _ hpiece =>
    not_mem_of_spaced (isKeyChar_of_mem_valuePattern (hvalues v hv)) hpiece hchar hblank

include hvalues in
/-- A character between the parentheses is a comma or stands in a spaced value. -/
theorem not_mem_body (hcomma : c ≠ ',') (hchar : isKeyChar c = false) (hblank : isBlank c = false) :
    c ∉ f.body := by
  intro hmem
  rcases mem_joinWith hmem with hsep | ⟨piece, hpiece, hin⟩
  · exact hcomma (List.mem_singleton.mp hsep)
  · exact f.not_mem_piece hvalues hchar hblank piece hpiece hin

include hkey hvalues in
theorem not_mem_term (hother : c ∉ ['(', ')', ',']) (hchar : isKeyChar c = false)
    (hblank : isBlank c = false) : c ∉ f.term := by
  simp only [List.mem_cons, List.not_mem_nil, or_false, not_or] at hother
  have hinside : c ∉ '(' :: (f.body ++ [')']) := by
    simp only [List.mem_cons, List.mem_append, List.not_mem_nil, or_false, not_or]
    exact ⟨hother.1, f.not_mem_body hvalues hother.2.2 hchar hblank, hother.2.1⟩
  rw [term, List.mem_append, not_or]
  exact ⟨f.not_mem_head hkey hchar hblank, hinside⟩

include hkey in
/-- The two ends of a set requirement are its key and a parenthesis. -/
theorem trim_text : trim f.text = f.term := by
  obtain ⟨first, hfirst, hhead⟩ := exists_head hkey
  have hfirst' : f.term.head? = some first := by
    simp only [term, head, List.head?_append, hfirst, Option.some_or]
  have hlast : f.term.getLast? = some ')' := by
    simp [term, List.getLast?_append, List.getLast?_cons]
  have hnil : trimEnd f.behind = [] := List.rdropWhile_eq_nil_iff.mpr f.behind_blank
  rw [text, trim_append_of_ends f.lead_blank hfirst' hhead hlast rfl, hnil, List.append_nil]

include hkey hvalues in
theorem readSet_body (hne : values ≠ []) (hsome : ¬∀ v ∈ values, v = "") (raw : List Char) :
    readSet raw k.toList op f.body = .ok ⟨k, op, values⟩ := by
  have hsplit : splitOn ',' f.body = f.pieces := by
    refine splitOn_joinWith (fun hnone => hne ?_) (f.not_mem_piece hvalues rfl rfl)
    exact List.forall₂_nil_right_iff.mp (hnone ▸ f.spaced)
  have hread : f.pieces.mapM (fun v => readLabelValue (trim v)) = .ok values := by
    refine mapM_eq_ok_of_forall₂ (((List.forall₂_and_left values f.pieces).mpr
      ⟨hvalues, f.spaced⟩).imp fun v piece h => ?_)
    rw [trim_of_spaced (isKeyChar_of_mem_valuePattern h.1) h.2, readLabelValue_toList h.1]
  have hnotAll : (values.all fun v => decide (v = "")) = false := by
    simpa [List.all_eq_false] using hsome
  rw [readSet, hsplit, hread]
  show (if (values.all fun v => decide (v = "")) = true then _ else _) = _
  rw [hnotAll, readKey_toList hkey]
  rfl

include hkey hvalues in
/-- What is no set requirement is taken for a key, which no parenthesis can stand in. -/
theorem readPlain_term : readPlain f.term =
    .error (.invalidSelector ("invalid label key " ++ quote (String.ofList f.term))) := by
  have hcut : comparison? f.term = none :=
    comparison?_eq_none (f.not_mem_term hkey hvalues (by decide) rfl rfl)
      (f.not_mem_term hkey hvalues (by decide) rfl rfl)
  have hkeyless : isKey f.term = false := by
    refine Bool.eq_false_iff.mpr fun h => ?_
    have hopen : '(' ∈ f.term := List.mem_append_right _ List.mem_cons_self
    cases isKeyChar_of_mem_keyPattern (isKey_iff.mp h) '(' hopen
  have hplain : readPlain f.term = match comparison? f.term with
      | some (k, op, value) => (do .ok ⟨← readKey k, op, [← readLabelValue value]⟩)
      | none => (do .ok ⟨← readKey f.term, .exists_, []⟩) := by
    rw [term, head, List.append_assoc]
    exact readPlain_key hkey
  rw [hplain, hcut]
  simp only [readKey, hkeyless]
  rfl

include hkey hvalues in
/-- A set requirement is read back unless a line feed stands between its parentheses. -/
theorem readTerm_text (hne : values ≠ []) (hsome : ¬∀ v ∈ values, v = "") :
    readTerm f.text =
      if '\n' ∈ f.body then
        .error (.invalidSelector ("invalid label key " ++ quote (String.ofList (trim f.text))))
      else .ok ⟨k, op, values⟩ := by
  have htrim := f.trim_text hkey
  have hset := f.setTerm?_term hkey
  have hterm : f.term ≠ [] := by simp [term]
  split
  · next hfeed =>
    rw [if_pos hfeed] at hset
    rw [readTerm_plain htrim hterm hset, htrim]
    exact f.readPlain_term hkey hvalues
  · next hfeed =>
    rw [if_neg hfeed] at hset
    simp only [readTerm, htrim, if_neg hterm, hset]
    exact f.readSet_body hkey hvalues hne hsome f.term

end SetForm

/-! ## Reading spaced selectors -/

section

variable {r : Requirement} {s : List Char}

theorem other_of_mem {c : Char} (hc : c ∈ ['(', ')', ',']) :
    isKeyChar c = false ∧ isBlank c = false := by
  simp only [List.mem_cons, List.not_mem_nil, or_false] at hc
  rcases hc with rfl | rfl | rfl <;> exact ⟨rfl, rfl⟩

theorem flat_of_spaced {key : List Char} (hkey : ∀ c ∈ key, isKeyChar c = true)
    (hs : Spaced [key] s) : Flat s :=
  fun _ hc hin => not_mem_of_spaced hkey hs (other_of_mem hin).1 (other_of_mem hin).2 hc

theorem flat_of_blank (hs : ∀ c ∈ s, isBlank c = true) : Flat s :=
  fun c hc hin => Bool.noConfusion ((hs c hc).symm.trans (other_of_mem hin).2)

/-- A written requirement has no parentheses, or one pair of them around its values. -/
theorem Written.flat_or_parentheses (h : Written r s) :
    (Flat s ∧ readTerm s = .ok r) ∨
    ∃ before body after, s = before ++ ('(' :: (body ++ [')']) ++ after) ∧
      Flat before ∧ Flat after ∧ '(' ∉ body ∧ ')' ∉ body ∧
      readTerm s = if '\n' ∈ body then
          .error (.invalidSelector ("invalid label key " ++ quote (String.ofList (trim s))))
        else .ok r := by
  cases h with
  | comparison hkey hvalue hsign hleft hright =>
    refine Or.inl ⟨?_, readTerm_comparison hkey hvalue hsign hleft hright⟩
    refine List.forall_mem_append.mpr ⟨flat_of_spaced (isKeyChar_of_mem_keyPattern hkey) hleft,
      List.forall_mem_append.mpr ⟨fun c hc => ?_,
        flat_of_spaced (isKeyChar_of_mem_valuePattern hvalue) hright⟩⟩
    rcases hsign.mem c hc with rfl | rfl <;> decide
  | set hkey hvalues hne hsome f =>
    have hhead : Flat f.head := fun c hc hin =>
      f.not_mem_head hkey (other_of_mem hin).1 (other_of_mem hin).2 hc
    exact Or.inr ⟨f.lead ++ f.head, f.body, f.behind, by simp [SetForm.text, SetForm.term],
      List.forall_mem_append.mpr ⟨flat_of_blank f.lead_blank, hhead⟩,
      flat_of_blank f.behind_blank, f.not_mem_body hvalues (by decide) rfl rfl,
      f.not_mem_body hvalues (by decide) rfl rfl, f.readTerm_text hkey hvalues hne hsome⟩
  | present hkey hs =>
    exact Or.inl ⟨flat_of_spaced (isKeyChar_of_mem_keyPattern hkey) hs, readTerm_exists hkey hs⟩
  | absent hkey hlead hs =>
    refine Or.inl ⟨?_, readTerm_doesNotExist hkey hlead hs⟩
    refine List.forall_mem_append.mpr ⟨flat_of_blank hlead, List.forall_mem_append.mpr
      ⟨List.forall_mem_singleton.mpr ?_, flat_of_spaced (isKeyChar_of_mem_keyPattern hkey) hs⟩⟩
    decide

theorem Written.whole (h : Written r s) : Whole s := by
  rcases h.flat_or_parentheses with ⟨hflat, -⟩ | ⟨before, body, after, rfl, hbefore, hafter, hopen,
    hclose, -⟩
  · exact hflat.whole
  · exact whole_append hbefore.whole (whole_append (whole_parentheses hopen hclose) hafter.whole)

theorem Written.exists_not_blank (h : Written r s) : ∃ c ∈ s, isBlank c = false := by
  rcases h.flat_or_parentheses with ⟨-, hread⟩ | ⟨before, body, after, rfl, -⟩
  · by_contra hnone
    have hblank : trim s = [] :=
      trim_eq_nil_iff.mpr fun c hc => Bool.of_not_eq_false fun hc' => hnone ⟨c, hc, hc'⟩
    simp [LabelSelector.readTerm, hblank] at hread
  · exact ⟨'(', by simp, rfl⟩

/-- A written requirement is read back unless it encloses a line feed. -/
theorem Written.readTerm (h : Written r s) :
    readTerm s = if '\n' ∈ enclosed 0 s then
        .error (.invalidSelector ("invalid label key " ++ quote (String.ofList (trim s))))
      else .ok r := by
  rcases h.flat_or_parentheses with ⟨hflat, hread⟩ | ⟨before, body, after, hs, hbefore, hafter,
    hopen, hclose, hread⟩
  · rw [hread, hflat.enclosed, if_neg List.not_mem_nil]
  · have hbody : enclosed 0 s = body := by
      rw [hs, hbefore.enclosed_append, List.cons_append, List.append_assoc, List.singleton_append,
        enclosed_parentheses hopen hclose, hafter.enclosed, List.append_nil]
    rw [hread, hbody]

end

/-! ## Whole selectors -/

section

variable {requirements : List Requirement} {s : String}

/-- Requirements with blanks around their tokens are written one by one. -/
theorem exists_written (hne : requirements ≠ []) (hrequirements : ∀ r ∈ requirements, r.WellFormed)
    (hs : Spaced (tokens ⟨requirements⟩) s.toList) : ∃ pieces,
      s.toList = joinWith [','] pieces ∧ List.Forall₂ Written requirements pieces := by
  obtain ⟨pieces, hpieces, hspaced⟩ := hs.exists_pieces (by simpa using hne)
  have hboth := (List.forall₂_and_left requirements pieces).mpr
    ⟨hrequirements, List.forall₂_map_left_iff.mp hspaced⟩
  exact ⟨pieces, hpieces, hboth.imp fun _ _ h => written_of_spaced h.1 h.2⟩

/-- A text of written requirements is read requirement by requirement. -/
theorem parse_eq_mapM {pieces : List (List Char)} (hne : requirements ≠ [])
    (hpieces : s.toList = joinWith [','] pieces)
    (hwritten : List.Forall₂ Written requirements pieces) :
    parse s = (do .ok ⟨← pieces.mapM LabelSelector.readTerm⟩) := by
  have hsome : pieces ≠ [] := by
    rintro rfl
    cases hwritten
    exact hne rfl
  have hblank : isAllBlank s.toList = false := by
    obtain ⟨piece, hpiece⟩ := List.exists_mem_of_ne_nil pieces hsome
    obtain ⟨c, hc, hvisible⟩ :=
      forall_right_of_forall₂ hwritten (fun _ _ _ h => h.exists_not_blank) piece hpiece
    refine List.all_eq_false.mpr ⟨c, ?_, by simp [hvisible]⟩
    rw [hpieces]
    exact mem_joinWith_of_mem hpiece hc
  have hterms : splitTerms 0 s.toList = .ok pieces := by
    rw [hpieces]
    exact splitTerms_joinWith hsome (forall_right_of_forall₂ hwritten fun _ _ _ h => h.whole)
  rw [parse, hblank, hterms]
  rfl

end

/-- A selector with blanks around its tokens is read back unless its text encloses a line feed. -/
theorem parse_spaced {sel : LabelSelector} (hsel : ∀ r ∈ sel.requirements, r.WellFormed)
    {s : String} (hs : Spaced sel.tokens s.toList) :
    ('\n' ∉ enclosed 0 s.toList → parse s = .ok sel) ∧
      ('\n' ∈ enclosed 0 s.toList → ∃ detail, parse s = .error (.invalidSelector detail)) := by
  obtain ⟨requirements⟩ := sel
  by_cases hne : requirements = []
  · subst hne
    have hblank : ∀ c ∈ s.toList, isBlank c = true := spaced_nil_iff.mp hs
    have hparse : parse s = .ok everything := by
      rw [parse, isAllBlank, List.all_eq_true.mpr hblank]
      rfl
    refine ⟨fun _ => hparse, fun hfeed => ?_⟩
    rw [(flat_of_blank hblank).enclosed] at hfeed
    exact absurd hfeed List.not_mem_nil
  · obtain ⟨pieces, hpieces, hwritten⟩ := exists_written hne hsel hs
    have hwhole : ∀ piece ∈ pieces, Whole piece :=
      forall_right_of_forall₂ hwritten fun _ _ _ h => h.whole
    rw [parse_eq_mapM hne hpieces hwritten, hpieces, mem_enclosed_joinWith_iff hwhole]
    constructor
    · intro hfeed
      have hnone : ∀ piece ∈ pieces, '\n' ∉ enclosed 0 piece :=
        fun piece hpiece hin => hfeed ⟨piece, hpiece, hin⟩
      have hread : List.Forall₂ (fun r piece => LabelSelector.readTerm piece = .ok r)
          requirements pieces :=
        (((List.forall₂_and_left pieces requirements).mpr ⟨hnone, hwritten.flip⟩).imp
          fun _ _ h => h.2.readTerm.trans (if_neg h.1)).flip
      rw [mapM_eq_ok_of_forall₂ hread]
      rfl
    · rintro ⟨piece, hpiece, hfeed⟩
      have hall : ∀ piece ∈ pieces, ∀ e, LabelSelector.readTerm piece = .error e →
          ∃ detail, e = .invalidSelector detail := by
        refine forall_right_of_forall₂ hwritten fun r _ piece h e he => ?_
        rw [h.readTerm] at he
        split at he
        · cases he
          exact ⟨_, rfl⟩
        · cases he
      have hfail : ∀ piece ∈ pieces, '\n' ∈ enclosed 0 piece →
          ∃ e, LabelSelector.readTerm piece = .error e :=
        forall_right_of_forall₂ hwritten fun r _ piece h hin => ⟨_, h.readTerm.trans (if_pos hin)⟩
      obtain ⟨e, hread, detail, rfl⟩ :=
        exists_mapM_eq_error ⟨piece, hpiece, hfail piece hpiece hfeed⟩ hall
      exact ⟨detail, by rw [hread]; rfl⟩

/-- Blanks before, between and behind the tokens of a selector.

The tokens of a selector that was read make up its written form.  A text that has any blanks
before, between and behind them is read as the same selector, unless a line feed stands between
parentheses: then it is refused. -/
theorem spaced_texts_are_read_back {t : String} {sel : LabelSelector} (hread : parse t = .ok sel) :
    sel.tokens.flatten = sel.text.toList ∧
    ∀ s : String, Spaced sel.tokens s.toList →
      (parse s = .ok sel ↔ '\n' ∉ enclosed 0 s.toList) ∧
      (parse s ≠ .ok sel → ∃ detail, parse s = .error (.invalidSelector detail)) := by
  refine ⟨flatten_tokens sel, fun s hs => ?_⟩
  obtain ⟨hback, hrefused⟩ := parse_spaced (wellFormed_of_parse hread) hs
  by_cases hfeed : '\n' ∈ enclosed 0 s.toList
  · obtain ⟨detail, herror⟩ := hrefused hfeed
    have hnot : parse s ≠ .ok sel := by
      rw [herror]
      simp
    exact ⟨iff_of_false hnot (not_not_intro hfeed), fun _ => ⟨detail, herror⟩⟩
  · exact ⟨iff_of_true (hback hfeed) hfeed, fun hnot => absurd (hback hfeed) hnot⟩

/-- Line feeds stand outside the parentheses here, and other blanks everywhere. -/
theorem spaced_texts_are_read_back_all_places :
    let sel : LabelSelector := ⟨[⟨"env", .isIn, ["a", ""]⟩, ⟨"x.io/y", .doesNotExist, []⟩,
      ⟨"z", .notEquals, ["1"]⟩]⟩
    let s := "\n env \n\u2003in \u00a0(\ta\r, \u3000)\n,\n!\nx.io/y\t, z\n!=\u0085 1\n"
    parse "env in (a,),!x.io/y,z!=1" = .ok sel ∧ Spaced sel.tokens s.toList ∧
      parse s = .ok sel := by
  intro sel s
  have hread : parse "env in (a,),!x.io/y,z!=1" = .ok sel := by decide +kernel
  let parts : List (List Char × List Char) :=
      [(['\n', ' '], ['e', 'n', 'v']), ([], [' ']), (['\n', '\u2003'], ['i', 'n']), ([], [' ']),
        (['\u00a0'], ['(']), (['\t'], ['a']), (['\r'], [',']), ([' ', '\u3000'], []), ([], [')']),
        (['\n'], [',']), (['\n'], ['!']), (['\n'], ['x', '.', 'i', 'o', '/', 'y']),
        (['\t'], [',']), ([' '], ['z']), (['\n'], ['!', '=']), (['\u0085', ' '], ['1'])]
  have htokens : sel.tokens = parts.map Prod.snd := by decide +kernel
  have htext : s.toList = parts.flatMap (fun p => p.1 ++ p.2) ++ ['\n'] := by decide +kernel
  have hspaced : Spaced sel.tokens s.toList := by
    rw [htokens, htext]
    exact spaced_flatMap (by decide) (by decide)
  exact ⟨hread, hspaced, ((spaced_texts_are_read_back hread).2 s hspaced).1.mpr (by decide +kernel)⟩

/-- A line feed before a value, between the parentheses of a set. -/
theorem line_feed_between_parentheses_is_refused :
    let sel : LabelSelector := ⟨[⟨"env", .isIn, ["a", "b"]⟩]⟩
    parse "env in (a,b)" = .ok sel ∧ Spaced sel.tokens "env in (a,\nb)".toList ∧
      parse "env in (a,\nb)" =
        .error (.invalidSelector "invalid label key \"env in (a,\\nb)\"") ∧
      parse "env in (a,\nb)" ≠ .ok sel := by
  intro sel
  have hspaced : Spaced sel.tokens "env in (a,\nb)".toList := by
    have hparts := @spaced_flatMap
      [([], ['e', 'n', 'v']), ([], [' ']), ([], ['i', 'n']), ([], [' ']), ([], ['(']), ([], ['a']),
        ([], [',']), (['\n'], ['b']), ([], [')'])]
      [] (by decide) (by decide)
    exact hparts
  exact ⟨by decide +kernel, hspaced, by decide +kernel, by decide +kernel⟩

end LabelSelector

end WatchCache
