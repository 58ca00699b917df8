import WatchCache.Error
import WatchCache.Selector.Format
import WatchCache.Selector.Requirement
import WatchCache.Text.Basic
import WatchCache.Text.Quoted

set_option autoImplicit false

/-!
# Label selectors

A label selector is a list of requirements that all have to hold.  Its written form separates
them by commas; a comma inside parentheses belongs to a set of values.  A requirement is one of

* `key in (a,b)` and `key notin (a,b)`, where some value is not empty;
* `!key`;
* `key!=value`, `key==value` and `key=value`, read at the first operator of that order;
* `key`.

Blanks around every part are dropped.  A blank text is the selector that everything meets.
-/

namespace WatchCache

open Text

/-- The requirements on labels that all have to hold. -/
structure LabelSelector where
  requirements : List Selector.Requirement
  deriving DecidableEq, Repr, Inhabited

namespace LabelSelector

open Selector

/-- The selector that everything meets. -/
def everything : LabelSelector := ⟨[]⟩

/-- Whether every object meets the selector for want of a requirement. -/
def isEmpty (s : LabelSelector) : Bool := s.requirements.isEmpty

/-- The selector that asks for the value of every key of a list. -/
def ofPairs (pairs : List (String × String)) : LabelSelector :=
  ⟨pairs.map fun (key, value) => ⟨key, .equals, [value]⟩⟩

/-- Whether labels meet the selector. -/
def matches_ (s : LabelSelector) (labels : Labels) : Bool :=
  s.requirements.all fun r => r.matches_ labels

/-- Whether the labels of an object meet the selector; no labels are the empty ones. -/
def matchesOption (s : LabelSelector) (labels : Option Labels) : Bool :=
  s.matches_ (labels.getD [])

/-- The written form of a selector. -/
def text (s : LabelSelector) : String :=
  ",".intercalate (s.requirements.map Requirement.text)

/-! ## Cutting at commas -/

/-- The parenthesis that has no partner. -/
inductive Unbalanced where
  | opening
  | closing
  deriving DecidableEq, Repr

/-- The wording for a parenthesis without partner. -/
def Unbalanced.message (u : Unbalanced) (selector : String) : String :=
  match u with
  | .opening => "unbalanced '(' in " ++ quote selector
  | .closing => "unbalanced ')' in " ++ quote selector

/-- Puts a character before the first piece. -/
def consFirst (c : Char) : List (List Char) → List (List Char)
  | [] => [[c]]
  | piece :: pieces => (c :: piece) :: pieces

/-- The pieces between the commas outside parentheses.  How many of these are open is counted in 32
bits, and the count wraps around. -/
def splitTerms (depth : Int32) : List Char → Except Unbalanced (List (List Char))
  | [] => if depth = 0 then .ok [[]] else .error .opening
  | '(' :: rest => (splitTerms (depth + 1) rest).map (consFirst '(')
  | ')' :: rest =>
    if depth - 1 < 0 then .error .closing
    else (splitTerms (depth - 1) rest).map (consFirst ')')
  | ',' :: rest =>
    if depth = 0 then (splitTerms depth rest).map ([] :: ·)
    else (splitTerms depth rest).map (consFirst ',')
  | c :: rest => (splitTerms depth rest).map (consFirst c)

/-! ## Reading requirements -/

/-- A character of the key of a set requirement. -/
def isSetKeyChar (c : Char) : Bool :=
  !(isBlank c || c == '!' || c == '=' || c == '(' || c == ')' || c == ',')

/-- The text between parentheses that stand at both ends; it holds no line feed. -/
def betweenParentheses? : List Char → Option (List Char)
  | '(' :: rest =>
    if rest.getLast? = some ')' && !rest.dropLast.contains '\n' then some rest.dropLast else none
  | _ => none

/-- The key, the operator and the text of the values of a set requirement. -/
def setTerm? (term : List Char) : Option (List Char × Operator × List Char) :=
  let key := term.takeWhile isSetKeyChar
  let rest := term.dropWhile isSetKeyChar
  let body := trimStart rest
  if key = [] ∨ rest.length = body.length then none
  else
    let values? (word : List Char) : Option (List Char) :=
      (afterStart word body).bind fun after => betweenParentheses? (trimStart after)
    match values? ['i', 'n'], values? ['n', 'o', 't', 'i', 'n'] with
    | some values, _ => some (key, .isIn, values)
    | none, some values => some (key, .isNotIn, values)
    | none, none => none

/-- A label key, or the complaint about it. -/
def readKey (key : List Char) : Answer String :=
  let s := String.ofList key
  if isKey key then .ok s else .error (.invalidSelector ("invalid label key " ++ quote s))

/-- A label value, or the complaint about it. -/
def readLabelValue (value : List Char) : Answer String :=
  let s := String.ofList value
  if isValue value then .ok s else .error (.invalidSelector ("invalid label value " ++ quote s))

/-- The key and the value on both sides of an operator. -/
def comparison? (term : List Char) : Option (List Char × Operator × List Char) :=
  let at? (sign : List Char) (op : Operator) : Option (List Char × Operator × List Char) :=
    (splitOnce sign term).map fun (key, value) => (trim key, op, trim value)
  (at? ['!', '='] .notEquals).or <| (at? ['=', '='] .doubleEquals).or <| at? ['='] .equals

/-- A set requirement; its values are checked before its key. -/
def readSet (term key : List Char) (op : Operator) (values : List Char) : Answer Requirement := do
  let values ← (splitOn ',' values).mapM fun v => readLabelValue (trim v)
  if values.all (· = "") then
    .error (.invalidSelector ("empty value set in " ++ quote (String.ofList term)))
  else
    .ok ⟨← readKey key, op, values⟩

/-- A requirement that is no set requirement, without blanks around it. -/
def readPlain (term : List Char) : Answer Requirement := do
  match term with
  | '!' :: rest => .ok ⟨← readKey (trim rest), .doesNotExist, []⟩
  | _ =>
    match comparison? term with
    | some (key, op, value) => .ok ⟨← readKey key, op, [← readLabelValue value]⟩
    | none => .ok ⟨← readKey term, .exists_, []⟩

/-- One requirement; blanks around it are dropped. -/
def readTerm (raw : List Char) : Answer Requirement :=
  let term := trim raw
  if term = [] then .error (.invalidSelector "empty label requirement")
  else match setTerm? term with
    | some (key, op, values) => readSet term key op values
    | none => readPlain term

/-- The selector with this written form. -/
def parse (s : String) : Answer LabelSelector := do
  if isAllBlank s.toList then .ok everything
  else match splitTerms 0 s.toList with
    | .error u => .error (.invalidSelector (u.message s))
    | .ok terms => .ok ⟨← terms.mapM readTerm⟩

end LabelSelector

end WatchCache
