import WatchCache.Object.Field
import WatchCache.Proofs.Text

set_option autoImplicit false

/-!
# Fields of objects, step by step

A path other than those of name, namespace, labels and annotations is written as a pointer and read
from it again.  `Json.Walk` follows the segments of a path without a pointer, from one part of a
value to the next; `Object.Reads` says with it which texts a path reads from an object.  Both
escapes cancel out, so a pointer leads to where the walk does.
-/

namespace WatchCache

open Text

/-! ## Positions -/

theorem digitChar_of_isDigit {c : Char} (hc : c.isDigit = true) :
    c.toNat - 48 < 10 ∧ Nat.digitChar (c.toNat - 48) = c := by
  obtain ⟨hlow, hhigh⟩ := Bool.and_eq_true_iff.mp hc
  have hfirst : 48 ≤ c.toNat := UInt32.le_iff_toNat_le.mp (of_decide_eq_true hlow)
  have hlast : c.toNat ≤ 57 := UInt32.le_iff_toNat_le.mp (of_decide_eq_true hhigh)
  refine ⟨by omega, Char.toNat_inj.mp ?_⟩
  rw [Nat.toNat_digitChar_of_lt_ten (by omega)]
  omega

/-- More digits behind those of a number go on counting from it. -/
theorem toDigits_append_foldl {digits : List Char} (hdigits : ∀ c ∈ digits, c.isDigit = true)
    {n : Nat} (hpos : 0 < n) :
    Nat.toDigits 10 n ++ digits =
      Nat.toDigits 10 (digits.foldl (fun n d => n * 10 + (d.toNat - 48)) n) := by
  induction digits generalizing n with
  | nil => simp
  | cons c digits ih =>
    rw [List.forall_mem_cons] at hdigits
    obtain ⟨hlt, hchar⟩ := digitChar_of_isDigit hdigits.1
    have hnext : Nat.toDigits 10 n ++ [c] = Nat.toDigits 10 (n * 10 + (c.toNat - 48)) := by
      have happend := @Nat.toDigits_append_toDigits 10 n _ (by decide) hpos hlt
      rwa [Nat.toDigits_of_lt_base hlt, hchar, Nat.mul_comm] at happend
    calc Nat.toDigits 10 n ++ c :: digits
        = (Nat.toDigits 10 n ++ [c]) ++ digits := by simp
      _ = Nat.toDigits 10 (n * 10 + (c.toNat - 48)) ++ digits := by rw [hnext]
      _ = _ := ih hdigits.2 (by omega)

theorem ofDigits_toDigits (n : Nat) : ofDigits (Nat.toDigits 10 n) = n := by
  have hcount : ofDigits (Nat.toDigits 10 n) = Nat.ofDigitChars 10 (Nat.toDigits 10 n) 0 := by
    simp only [ofDigits, Nat.ofDigitChars_eq_foldl, Nat.mul_comm 10]
    rfl
  rw [hcount, Nat.ofDigitChars_ten_toDigits]

/-- A number is written with a zero at the beginning only if it is zero. -/
theorem eq_nil_of_toDigits {n : Nat} {rest : List Char} (h : Nat.toDigits 10 n = '0' :: rest) :
    rest = [] := by
  induction n using Nat.strongRecOn generalizing rest with
  | _ n ih =>
    rw [Nat.toDigits_eq_if (by decide)] at h
    split at h
    · exact (List.cons.inj h).2.symm
    · next hlarge =>
      obtain ⟨first, front, hfront⟩ := List.exists_cons_of_ne_nil (@Nat.toDigits_ne_nil (n / 10) 10)
      rw [hfront, List.cons_append, List.cons.injEq] at h
      obtain ⟨rfl, -⟩ := h
      -- The digits before the last one would begin with a zero, too, and so would be a zero.
      obtain rfl := ih (n / 10) (by omega) hfront
      have hzero : n / 10 = 0 := by
        rw [← ofDigits_toDigits (n / 10), hfront]
        rfl
      omega

theorem word64?_eq_some_iff {s : List Char} (hplus : ∀ rest, s ≠ '+' :: rest) {n : Nat} :
    word64? (String.ofList s) = some n ↔
      s ≠ [] ∧ (∀ c ∈ s, c.isDigit = true) ∧ ofDigits s < Decimal.twoPow 64 ∧ ofDigits s = n := by
  have hdigits : word64? (String.ofList s) =
      if s ≠ [] ∧ s.all Char.isDigit ∧ ofDigits s < Decimal.twoPow 64 then some (ofDigits s)
      else none := by
    rw [word64?, String.toList_ofList]
    split
    · exact absurd rfl (hplus _)
    · rfl
  rw [hdigits]
  simp [and_assoc]

/-- A segment names a position if it is the position, written in decimal digits. -/
theorem itemIndex?_eq_some_iff {segment : List Char} {i : Nat} :
    itemIndex? segment = some i ↔ i < Decimal.twoPow 64 ∧ segment = Nat.toDigits 10 i := by
  constructor
  · intro h
    unfold itemIndex? at h
    split at h
    · cases h
    · cases h
    · next hplus hzero =>
      obtain ⟨hne, hdigits, hword, rfl⟩ := (word64?_eq_some_iff hplus).mp h
      refine ⟨hword, ?_⟩
      obtain ⟨c, rest, rfl⟩ := List.exists_cons_of_ne_nil hne
      by_cases hc : c = '0'
      · subst hc
        cases rest with
        | nil => rfl
        | cons next rest => exact absurd rfl (hzero next rest)
      · rw [List.forall_mem_cons] at hdigits
        obtain ⟨hlt, hchar⟩ := digitChar_of_isDigit hdigits.1
        have hpos : 0 < c.toNat - 48 := by
          refine Nat.pos_of_ne_zero fun hz => hc ?_
          rw [← hchar, hz]
          rfl
        have hmore := toDigits_append_foldl hdigits.2 hpos
        rw [Nat.toDigits_of_lt_base hlt, hchar] at hmore
        simpa [ofDigits] using hmore
  · rintro ⟨hword, hsegment⟩
    have hdigits : ∀ c ∈ segment, c.isDigit = true := fun c hc =>
      Nat.isDigit_of_mem_toDigits (by decide) (by decide) (hsegment ▸ hc)
    have hplus (rest : List Char) : segment ≠ '+' :: rest := by
      rintro rfl
      cases hdigits '+' List.mem_cons_self
    have hcount : ofDigits segment = i := hsegment ▸ ofDigits_toDigits i
    unfold itemIndex?
    split
    · exact absurd rfl (hplus _)
    · cases eq_nil_of_toDigits hsegment.symm
    · exact (word64?_eq_some_iff hplus).mpr
        ⟨hsegment ▸ Nat.toDigits_ne_nil, hdigits, hcount.symm ▸ hword, hcount⟩

/-! ## Walks -/

namespace Json

/-- A segment selects a part of a value: the member of an object that has exactly this key, or the
item of an array at the position that it writes in decimal digits.  A position is a word, as the
length of an array is. -/
inductive Selects : List Char → Json → Json → Prop
  | member {members : List (String × Json)} {key : String} {v : Json}
      (h : member? key members = some v) : Selects key.toList (.object members) v
  | item {items : List Json} {i : Nat} {v : Json} (hword : i < Decimal.twoPow 64)
      (h : items[i]? = some v) : Selects (Nat.toDigits 10 i) (.array items) v

/-- The segments of a path lead from a value to a part of it. -/
inductive Walk : List (List Char) → Json → Json → Prop
  | here (j : Json) : Walk [] j j
  | step {segment : List Char} {segments : List (List Char)} {j part v : Json}
      (h : Selects segment j part) (hrest : Walk segments part v) : Walk (segment :: segments) j v

/-- The text of a string, a number or a truth value. -/
inductive ScalarText : Json → String → Prop
  | string (s : String) : ScalarText (.string s) s
  | number (n : Number) : ScalarText (.number n) n.text
  | true_ : ScalarText (.bool true) "true"
  | false_ : ScalarText (.bool false) "false"

/-- The texts of the scalars among the items of an array, in their order. -/
inductive ItemTexts : List Json → List String → Prop
  | nil : ItemTexts [] []
  | scalar {item : Json} {s : String} {items : List Json} {texts : List String}
      (h : ScalarText item s) (hrest : ItemTexts items texts) :
      ItemTexts (item :: items) (s :: texts)
  | other {item : Json} {items : List Json} {texts : List String} (h : ∀ s, ¬ScalarText item s)
      (hrest : ItemTexts items texts) : ItemTexts (item :: items) texts

/-- The texts that a value is read as. -/
inductive Renders : Json → List String → Prop
  | scalar {j : Json} {s : String} (h : ScalarText j s) : Renders j [s]
  | array {items : List Json} {texts : List String} (h : ItemTexts items texts) :
      Renders (.array items) texts
  | null : Renders .null []
  | object (members : List (String × Json)) : Renders (.object members) []

variable {j v : Json} {s : String} {segment : List Char} {segments : List (List Char)}

theorem child?_eq_some_iff : j.child? segment = some v ↔ Selects segment j v := by
  constructor
  · intro h
    cases j with
    | object members =>
      have hmember := Selects.member h
      rwa [String.toList_ofList] at hmember
    | array items =>
      obtain ⟨i, hi, hitem⟩ := Option.bind_eq_some_iff.mp h
      obtain ⟨hword, rfl⟩ := itemIndex?_eq_some_iff.mp hi
      exact .item hword hitem
    | _ => cases h
  · intro h
    cases h with
    | member hmember => rwa [child?, String.ofList_toList]
    | item hword hitem =>
      rw [child?, itemIndex?_eq_some_iff.mpr ⟨hword, rfl⟩]
      exact hitem

theorem foldlM_child?_eq_some_iff :
    segments.foldlM (fun j segment => j.child? segment) j = some v ↔ Walk segments j v := by
  induction segments generalizing j with
  | nil =>
    constructor
    · intro h
      cases h
      exact .here _
    · intro h
      cases h
      rfl
  | cons segment segments ih =>
    rw [List.foldlM_cons, Option.bind_eq_bind, Option.bind_eq_some_iff]
    simp only [ih, child?_eq_some_iff]
    constructor
    · rintro ⟨part, hpart, hrest⟩
      exact .step hpart hrest
    · intro h
      cases h with
      | step hpart hrest => exact ⟨_, hpart, hrest⟩

theorem scalarText?_eq_some_iff : j.scalarText? = some s ↔ ScalarText j s := by
  constructor
  · intro h
    cases j with
    | bool b => cases b <;> cases h <;> constructor
    | string | number => cases h; constructor
    | _ => cases h
  · intro h
    cases h <;> rfl

theorem filterMap_eq_of_itemTexts {items : List Json} {texts : List String}
    (h : ItemTexts items texts) : items.filterMap scalarText? = texts := by
  induction h with
  | nil => rfl
  | scalar h _ ih => rw [List.filterMap_cons_some (scalarText?_eq_some_iff.mpr h), ih]
  | other h _ ih =>
    have hnone := Option.eq_none_iff_forall_ne_some.mpr fun s =>
      mt scalarText?_eq_some_iff.mp (h s)
    rw [List.filterMap_cons_none hnone, ih]

theorem exists_itemTexts (items : List Json) : ∃ texts, ItemTexts items texts := by
  induction items with
  | nil => exact ⟨[], .nil⟩
  | cons item items ih =>
    obtain ⟨texts, htexts⟩ := ih
    by_cases h : ∃ s, ScalarText item s
    · obtain ⟨s, hs⟩ := h
      exact ⟨s :: texts, .scalar hs htexts⟩
    · exact ⟨texts, .other (not_exists.mp h) htexts⟩

theorem texts_eq_of_renders {texts : List String} (h : Renders j texts) : j.texts = texts := by
  cases h with
  | scalar h =>
    have hsome := scalarText?_eq_some_iff.mpr h
    cases h <;> rfl
  | array h => exact filterMap_eq_of_itemTexts h
  | null => rfl
  | object => rfl

theorem exists_renders (j : Json) : ∃ texts, Renders j texts := by
  cases j with
  | null => exact ⟨[], .null⟩
  | bool b => cases b <;> exact ⟨_, .scalar (by constructor)⟩
  | number n => exact ⟨_, .scalar (.number n)⟩
  | string s => exact ⟨_, .scalar (.string s)⟩
  | array items =>
    obtain ⟨texts, htexts⟩ := exists_itemTexts items
    exact ⟨texts, .array htexts⟩
  | object members => exact ⟨[], .object members⟩

end Json

/-! ## Pointers -/

theorem unescapeSegment_cons {c : Char} (hc : c ≠ '~') (rest : List Char) :
    unescapeSegment (c :: rest) = c :: unescapeSegment rest := by
  rw [unescapeSegment] <;> simp [hc]

/-- What is written for the characters of a segment is read as the segment. -/
theorem unescapeSegment_flatMap (segment : List Char) :
    unescapeSegment (segment.flatMap escapeSegmentChar) = segment := by
  induction segment with
  | nil => rfl
  | cons c rest ih =>
    rw [List.flatMap_cons, escapeSegmentChar]
    split
    · next htilde =>
      rw [htilde]
      exact congrArg ('~' :: ·) ih
    · split
      · next hslash =>
        rw [hslash]
        exact congrArg ('/' :: ·) ih
      · next htilde _ => rw [List.singleton_append, unescapeSegment_cons htilde, ih]

theorem slash_not_mem_flatMap (segment : List Char) : '/' ∉ segment.flatMap escapeSegmentChar := by
  rw [List.mem_flatMap]
  rintro ⟨c, -, hslash⟩
  rw [escapeSegmentChar] at hslash
  split at hslash
  · exact absurd hslash (by decide)
  · split at hslash
    · exact absurd hslash (by decide)
    · next hne => exact hne (List.mem_singleton.mp hslash).symm

/-- A pointer is cut into an empty piece and the segments of its path, as they are written. -/
theorem splitOn_pointerOf (path : List Char) :
    splitOn '/' (pointerOf path) =
      [] :: (splitOn '.' path).map fun segment => segment.flatMap escapeSegmentChar := by
  have hjoin : pointerOf path = joinWith ['/']
      ([] :: (splitOn '.' path).map fun segment => segment.flatMap escapeSegmentChar) := by
    rw [joinWith_cons, List.map_map, List.nil_append, pointerOf, List.flatMap_def]
    rfl
  rw [hjoin]
  refine splitOn_joinWith (by simp) (List.forall_mem_cons.mpr ⟨List.not_mem_nil, ?_⟩)
  rw [List.forall_mem_map]
  exact fun segment _ => slash_not_mem_flatMap segment

/-- A pointer leads to where the segments of its path lead. -/
theorem pointer?_pointerOf (path : List Char) (j : Json) :
    j.pointer? (pointerOf path) =
      (splitOn '.' path).foldlM (fun j segment => j.child? segment) j := by
  rw [Json.pointer?, splitOn_pointerOf]
  simp only [List.foldlM_map, unescapeSegment_flatMap]

/-! ## Paths -/

namespace Object

/-- The segments of a text are what stands between its points. -/
structure Segments (s : String) (segments : List (List Char)) : Prop where
  nonempty : segments ≠ []
  pointless : ∀ segment ∈ segments, '.' ∉ segment
  joined : joinWith ['.'] segments = s.toList

/-- The paths that are looked up in the metadata. -/
inductive LookedUp : String → Prop
  | name : LookedUp "metadata.name"
  | ns : LookedUp "metadata.namespace"
  | label (k : String) : LookedUp ("metadata.labels." ++ k)
  | annotated (k : String) : LookedUp ("metadata.annotations." ++ k)

/-- Where the walk along a path starts, and along what. -/
inductive Start (o : Object) : String → Json → String → Prop
  | metadata (rest : String) : Start o ("metadata." ++ rest) o.metadata.toJson rest
  | body {path : String} (h : ∀ rest, path ≠ "metadata." ++ rest) : Start o path o.bodyJson path

/-- What a path without points before it reads from an object. -/
inductive Reads (o : Object) : String → List String → Prop
  | name : Reads o "metadata.name" o.metadata.name.toList
  | ns : Reads o "metadata.namespace" o.metadata.ns.toList
  | label (k : String) :
      Reads o ("metadata.labels." ++ k) (o.metadata.labels.bind (·.get? k)).toList
  | annotated (k : String) :
      Reads o ("metadata.annotations." ++ k) (o.metadata.annotations.bind (·.get? k)).toList
  | reached {path rest : String} {root v : Json} {segments : List (List Char)}
      {texts : List String} (hother : ¬LookedUp path) (hstart : Start o path root rest)
      (hcut : Segments rest segments) (hwalk : root.Walk segments v) (htexts : v.Renders texts) :
      Reads o path texts
  | lost {path rest : String} {root : Json} {segments : List (List Char)}
      (hother : ¬LookedUp path) (hstart : Start o path root rest) (hcut : Segments rest segments)
      (hlost : ∀ v, ¬root.Walk segments v) : Reads o path []

variable {o : Object} {path rest : String} {root : Json} {segments : List (List Char)}
  {texts : List String}

theorem segments_iff : Segments rest segments ↔ splitOn '.' rest.toList = segments := by
  constructor
  · intro h
    rw [← h.joined]
    exact splitOn_joinWith h.nonempty h.pointless
  · rintro rfl
    exact ⟨splitOn_ne_nil '.' rest.toList, not_mem_of_mem_splitOn,
      joinWith_splitOn '.' rest.toList⟩

theorem pointer?_eq_some_iff (hcut : Segments rest segments) {v : Json} :
    root.pointer? (pointerOf rest.toList) = some v ↔ root.Walk segments v := by
  rw [pointer?_pointerOf, segments_iff.mp hcut, Json.foldlM_child?_eq_some_iff]

/-- A path that is not looked up is written as a pointer. -/
theorem fieldAt_of_start (hother : ¬LookedUp path) (h : Start o path root rest) :
    fieldAt path o = ((root.pointer? (pointerOf rest.toList)).map Json.texts).getD [] := by
  have hname : path ≠ "metadata.name" := fun heq => hother (heq ▸ .name)
  have hns : path ≠ "metadata.namespace" := fun heq => hother (heq ▸ .ns)
  have hlabel : dropStart? "metadata.labels." path = none :=
    dropStart?_eq_none_iff.mpr fun k heq => hother (heq ▸ .label k)
  have hannotated : dropStart? "metadata.annotations." path = none :=
    dropStart?_eq_none_iff.mpr fun k heq => hother (heq ▸ .annotated k)
  rw [fieldAt, if_neg hname, if_neg hns]
  simp only [hlabel, hannotated]
  cases h with
  | metadata => rw [dropStart?_eq_some_iff.mpr rfl]
  | body h => rw [dropStart?_eq_none_iff.mpr h]

theorem fieldAt_label (k : String) (o : Object) :
    fieldAt ("metadata.labels." ++ k) o = (o.metadata.labels.bind (·.get? k)).toList := by
  have hname : "metadata.labels." ++ k ≠ "metadata.name" := by simp [← String.toList_inj]
  have hns : "metadata.labels." ++ k ≠ "metadata.namespace" := by simp [← String.toList_inj]
  rw [fieldAt, if_neg hname, if_neg hns, dropStart?_eq_some_iff.mpr rfl]

theorem fieldAt_annotated (k : String) (o : Object) :
    fieldAt ("metadata.annotations." ++ k) o =
      (o.metadata.annotations.bind (·.get? k)).toList := by
  have hname : "metadata.annotations." ++ k ≠ "metadata.name" := by simp [← String.toList_inj]
  have hns : "metadata.annotations." ++ k ≠ "metadata.namespace" := by simp [← String.toList_inj]
  have hlabel : dropStart? "metadata.labels." ("metadata.annotations." ++ k) = none :=
    dropStart?_eq_none_iff.mpr fun rest => by simp [← String.toList_inj]
  rw [fieldAt, if_neg hname, if_neg hns, hlabel, dropStart?_eq_some_iff.mpr rfl]

theorem exists_reads (o : Object) (path : String) : ∃ texts, Reads o path texts := by
  by_cases hlooked : LookedUp path
  · cases hlooked with
    | name => exact ⟨_, .name⟩
    | ns => exact ⟨_, .ns⟩
    | label k => exact ⟨_, .label k⟩
    | annotated k => exact ⟨_, .annotated k⟩
  · obtain ⟨root, rest, hstart⟩ : ∃ root rest, Start o path root rest := by
      by_cases h : ∃ rest, path = "metadata." ++ rest
      · obtain ⟨rest, rfl⟩ := h
        exact ⟨_, rest, .metadata rest⟩
      · exact ⟨_, path, .body (not_exists.mp h)⟩
    have hcut := segments_iff.mpr (Eq.refl (splitOn '.' rest.toList))
    by_cases hwalk : ∃ v, root.Walk (splitOn '.' rest.toList) v
    · obtain ⟨v, hv⟩ := hwalk
      obtain ⟨texts, htexts⟩ := Json.exists_renders v
      exact ⟨texts, .reached hlooked hstart hcut hv htexts⟩
    · exact ⟨[], .lost hlooked hstart hcut (not_exists.mp hwalk)⟩

theorem fieldAt_eq_of_reads (h : Reads o path texts) : fieldAt path o = texts := by
  cases h with
  | name => rfl
  | ns => rfl
  | label k => exact fieldAt_label k o
  | annotated k => exact fieldAt_annotated k o
  | reached hother hstart hcut hwalk htexts =>
    rw [fieldAt_of_start hother hstart, (pointer?_eq_some_iff hcut).mpr hwalk]
    exact Json.texts_eq_of_renders htexts
  | lost hother hstart hcut hlost =>
    have hnone := Option.eq_none_iff_forall_ne_some.mpr fun v =>
      mt (pointer?_eq_some_iff hcut).mp (hlost v)
    rw [fieldAt_of_start hother hstart, hnone]
    rfl

theorem fieldAt_eq_iff_reads : fieldAt path o = texts ↔ Reads o path texts := by
  refine ⟨?_, fieldAt_eq_of_reads⟩
  rintro rfl
  obtain ⟨texts, h⟩ := exists_reads o path
  rwa [fieldAt_eq_of_reads h]

theorem dropWhile_eq_iff {chars : List Char} :
    chars.dropWhile (· == '.') = rest.toList ↔ ∃ points,
      chars = List.replicate points '.' ++ rest.toList ∧ rest.toList.head? ≠ some '.' := by
  constructor
  · intro hrest
    have hpoints : ∀ c ∈ chars.takeWhile (· == '.'), c = '.' := fun c hc =>
      beq_iff_eq.mp (List.all_eq_true.mp List.all_takeWhile c hc)
    refine ⟨(chars.takeWhile (· == '.')).length, ?_, fun hhead => ?_⟩
    · rw [← List.eq_replicate_of_mem hpoints, ← hrest, List.takeWhile_append_dropWhile]
    · have hnot := List.head?_dropWhile_not (· == '.') chars
      rw [hrest, hhead] at hnot
      cases hnot
  · rintro ⟨points, rfl, hhead⟩
    have hpoints : ∀ c ∈ List.replicate points '.', (c == '.') = true := fun c hc =>
      beq_iff_eq.mpr (List.eq_of_mem_replicate hc)
    rw [List.dropWhile_append_of_pos hpoints]
    cases hchars : rest.toList with
    | nil => rfl
    | cons c chars =>
      rw [hchars] at hhead
      exact List.dropWhile_cons_of_neg (by simpa using hhead)

/-- What an extractor takes out of an object is what its path reads from it.

The points before a path do not count.  Name, namespace, labels and annotations are looked up, a
label or an annotation by all that stands behind the prefix; every other path is walked, segment
by segment, from the metadata behind `metadata.` and from the body otherwise.  A walk that leads
to a scalar gives its text, one that leads to an array gives the texts of the scalars in it, and
all others give nothing. -/
theorem field_eq_iff_reads (path : String) (o : Object) (texts : List String) :
    field path o = texts ↔
      ∃ (points : Nat) (rest : String), path = String.ofList (List.replicate points '.') ++ rest ∧
        rest.toList.head? ≠ some '.' ∧ Reads o rest texts := by
  have hpath (points : Nat) (rest : String) :
      path = String.ofList (List.replicate points '.') ++ rest ↔
        path.toList = List.replicate points '.' ++ rest.toList := by
    rw [← String.toList_inj, String.toList_append, String.toList_ofList]
  simp only [hpath, field, fieldAt_eq_iff_reads]
  constructor
  · intro hreads
    obtain ⟨points, hpoints, hhead⟩ := dropWhile_eq_iff.mp (Eq.symm String.toList_ofList)
    exact ⟨points, _, hpoints, hhead, hreads⟩
  · rintro ⟨points, rest, hpoints, hhead, hreads⟩
    rw [dropWhile_eq_iff.mpr ⟨points, hpoints, hhead⟩, String.ofList_toList]
    exact hreads

example : field ".spec.a/b~1.1" ⟨none, {}, [("spec", .object [("a/b~1",
    .array [.null, .array [.string "red", .array [.string "blue"], .null, .bool true]])])]⟩ =
      ["red", "true"] := by decide +kernel

end Object

end WatchCache
