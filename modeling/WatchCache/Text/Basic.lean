import WatchCache.Decimal.Binary64

set_option autoImplicit false

/-!
# Texts

What is done with texts everywhere: trimming, cutting and joining, decimal digits, and columns.

White space are the characters with the Unicode property White_Space.  Selectors are trimmed by
this set at every token boundary, so it is fixed here once: `trimStart` drops the longest blank
start, `trimEnd` the longest blank end, and `trim` both.

`splitOn` cuts a text at every occurrence of one character and never returns an empty list;
`splitOnce` cuts it at the first occurrence of a whole pattern; `joinWith` puts pieces together
again.  `joinWith_splitOn` says that joining with the separator undoes the cut.

Numbers without a sign and of a bounded size stand in decimal digits in the environment, on a
command line and in the fields of objects.
-/

namespace WatchCache.Text

/-! ## White space -/

/-- The characters with the Unicode property White_Space. -/
def isBlank (c : Char) : Bool :=
  let n := c.toNat
  (0x9 ≤ n && n ≤ 0xD) || n == 0x20 || n == 0x85 || n == 0xA0 || n == 0x1680 ||
    (0x2000 ≤ n && n ≤ 0x200A) || n == 0x2028 || n == 0x2029 || n == 0x202F ||
    n == 0x205F || n == 0x3000

/-- The text without its blank start. -/
def trimStart (s : List Char) : List Char := s.dropWhile isBlank

/-- The text without its blank end. -/
def trimEnd (s : List Char) : List Char := (s.reverse.dropWhile isBlank).reverse

/-- The text without its blank start and its blank end. -/
def trim (s : List Char) : List Char := trimEnd (trimStart s)

/-- A text of blank characters only. -/
def isAllBlank (s : List Char) : Bool := s.all isBlank

@[simp] theorem trimStart_nil : trimStart [] = [] := rfl

@[simp] theorem trimEnd_nil : trimEnd [] = [] := rfl

@[simp] theorem trim_nil : trim [] = [] := rfl

/-! ## Cutting and joining -/

/-- The pieces between the occurrences of `sep`, in order; one more than there are occurrences. -/
def splitOn (sep : Char) : List Char → List (List Char)
  | [] => [[]]
  | c :: rest =>
    if c = sep then [] :: splitOn sep rest
    else match splitOn sep rest with
      | [] => [[c]]
      | piece :: pieces => (c :: piece) :: pieces

/-- The rest of `s` after the pattern, if `s` starts with it. -/
def afterStart : List Char → List Char → Option (List Char)
  | [], s => some s
  | _ :: _, [] => none
  | p :: ps, c :: rest => if p = c then afterStart ps rest else none

/-- What stands before and after the first occurrence of the pattern. -/
def splitOnce (pattern : List Char) : List Char → Option (List Char × List Char)
  | [] => (afterStart pattern []).map fun rest => ([], rest)
  | c :: cs =>
    match afterStart pattern (c :: cs) with
    | some rest => some ([], rest)
    | none => (splitOnce pattern cs).map fun (before, after) => (c :: before, after)

/-- The pieces one after the other, with `sep` between neighbours. -/
def joinWith (sep : List Char) : List (List Char) → List Char
  | [] => []
  | [piece] => piece
  | piece :: pieces => piece ++ sep ++ joinWith sep pieces

theorem splitOn_ne_nil (sep : Char) (s : List Char) : splitOn sep s ≠ [] := by
  cases s with
  | nil => simp [splitOn]
  | cons c rest =>
    simp only [splitOn]
    split
    · simp
    · split <;> simp

/-- Joining the pieces of a cut with the separator gives the text back. -/
theorem joinWith_splitOn (sep : Char) (s : List Char) :
    joinWith [sep] (splitOn sep s) = s := by
  induction s with
  | nil => rfl
  | cons c rest ih =>
    simp only [splitOn]
    split
    · next h =>
      subst h
      cases hs : splitOn c rest with
      | nil => exact absurd hs (splitOn_ne_nil c rest)
      | cons piece pieces => rw [← ih, hs]; simp [joinWith]
    · next h =>
      cases hs : splitOn sep rest with
      | nil => exact absurd hs (splitOn_ne_nil sep rest)
      | cons piece pieces =>
        rw [hs] at ih
        cases pieces with
        | nil => simpa [joinWith] using ih
        | cons q qs => simpa [joinWith] using ih

/-- Cuts a string at every occurrence of `sep`. -/
def splitString (sep : Char) (s : String) : List String :=
  (splitOn sep s.toList).map String.ofList

/-- What stands before and after the first occurrence of a pattern in a string. -/
def splitStringOnce (pattern s : String) : Option (String × String) :=
  (splitOnce pattern.toList s.toList).map fun (before, after) =>
    (String.ofList before, String.ofList after)

/-- Drops `pattern` from the start of `s`, if it stands there. -/
def dropStart? (pattern s : String) : Option String :=
  (afterStart pattern.toList s.toList).map String.ofList

/-! ## Decimal digits -/

/-- The number that decimal digits stand for, the most significant first. -/
def ofDigits (digits : List Char) : Nat := digits.foldl (fun n d => n * 10 + (d.toNat - 48)) 0

/-- The number below `2 ^ 64` that a text stands for; a plus sign may stand before it. -/
def word64? (s : String) : Option Nat :=
  let digits := match s.toList with
    | '+' :: rest => rest
    | cs => cs
  let n := ofDigits digits
  if digits ≠ [] ∧ digits.all Char.isDigit ∧ n < Decimal.twoPow 64 then some n else none

/-- A number in decimal digits, with zeros before it up to a width. -/
def padded (width n : Nat) : List Char :=
  let digits := Nat.toDigits 10 n
  List.replicate (width - digits.length) '0' ++ digits

/-! ## Columns -/

/-- The blanks that a text lacks to a width. -/
def fill (width : Nat) (s : String) : String :=
  String.ofList (List.replicate (width - s.length) ' ')

/-- The text at the end of a column. -/
def padLeft (width : Nat) (s : String) : String := fill width s ++ s

/-- The text at the start of a column. -/
def padRight (width : Nat) (s : String) : String := s ++ fill width s

end WatchCache.Text
