import WatchCache.Json.Numbers
import WatchCache.Json.Strings

set_option autoImplicit false

/-!
# Readers

A reader takes something off the front of a JSON text.  Readers are put together by what the
text should hold: a scalar, an array of items, an object with members.  What is wrong is found
in the order of the text, so a value of the wrong type is reported before a fault behind it.

`Reader.value` reads any value, `Reader.skip` passes over one that nobody asks for, and
`Json.parse` reads a whole text.
-/

namespace WatchCache

/-- Takes something off the front of a text.  The number is how many levels of brackets may
still be opened, and one more. -/
abbrev Reader (α : Type) := ReaderT Nat (StateT Cursor (Except ReadError)) α

namespace Reader

variable {α β σ : Type}

/-! ## Characters -/

/-- Fails with a fault in the next character. -/
def failAhead (f : Fault) : Reader α := do throw ((← get).faultAhead f)

/-- Fails with a fault at the place reached. -/
def failHere (f : Fault) : Reader α := do throw ((← get).faultHere f)

/-- Fails with a problem of the value that was just read. -/
def refuse (p : Problem) : Reader α := do throw ⟨p, (← get).place⟩

/-- Fails with a problem of the object that is being read. -/
def refuseObject (p : Problem) : Reader α := do throw ⟨p, (← get).pastObject⟩

/-- Fails with a problem of the array that is being read. -/
def refuseArray (p : Problem) : Reader α := do throw ⟨p, (← get).pastArray⟩

/-- Goes past the next character. -/
def advance : Reader Unit := modify Cursor.next

/-- Goes past the blanks; returns the character behind them. -/
def nextSign? : Reader (Option Char) := do
  modify Cursor.blanks
  return (← get).rest.head?

/-- A step of a cursor as a reader. -/
def ofStep (step : Cursor → Except ReadError (α × Cursor)) : Reader α := fun _ => step

/-- A step of a cursor that only goes on. -/
def ofSkip (step : Cursor → Except ReadError Cursor) : Reader Unit := do set (← step (← get))

/-! ## Scalars -/

/-- Past the letters of a word. -/
def skipWord : List Char → Cursor → Except ReadError Cursor
  | [], c => .ok c
  | w :: ws, c =>
    match c.rest with
    | [] => .error (c.faultHere .valueUnfinished)
    | x :: _ => if x = w then skipWord ws c.next else .error (c.faultAhead .expectedIdent)

/-- Reads a string whose opening quote comes next. -/
def string : Reader String := ofStep Cursor.string

/-- Reads a value that is no array and no object, and whose first character comes next. -/
def scalarAt (first : Char) : Reader Json := do
  match first with
  | 'n' => do ofSkip (skipWord ['n', 'u', 'l', 'l']); return .null
  | 't' => do ofSkip (skipWord ['t', 'r', 'u', 'e']); return .bool true
  | 'f' => do ofSkip (skipWord ['f', 'a', 'l', 's', 'e']); return .bool false
  | '"' => return .string (← string)
  | '-' => do advance; return .number (← ofStep (Cursor.number false))
  | c =>
    if c.isDigit then return .number (← ofStep (Cursor.number true))
    else failAhead .expectedValue

/-- Reads a value that is no array and no object. -/
def scalar (expected : String) : Reader Json := do
  match ← nextSign? with
  | none => failAhead .valueUnfinished
  | some '[' => refuse (.wrongType .sequence expected)
  | some '\x7b' => refuse (.wrongType .map expected)
  | some c => scalarAt c

/-- Refuses a scalar where something else should stand. -/
def refuseScalar (expected : String) : Reader α := do
  refuse (.wrongType (.ofJson (← scalar expected)) expected)

/-- Reads a string. -/
def text : Reader String := do
  match ← scalar "a string" with
  | .string s => return s
  | j => refuse (.wrongType (.ofJson j) "a string")

/-- Reads null, or else what a reader reads. -/
def orNull (r : Reader α) : Reader (Option α) := do
  match ← nextSign? with
  | some 'n' => do ofSkip (skipWord ['n', 'u', 'l', 'l']); return none
  | _ => return some (← r)

/-- Reads a string, or null. -/
def textOrNull : Reader (Option String) := orNull text

/-! ## Brackets -/

/-- Reads what stands between two brackets, the first of which comes next. -/
def within (body : Reader α) (close : Reader Unit) : Reader α := do
  if (← read) ≤ 1 then failAhead .tooDeep
  advance
  let a ← withReader (· - 1) body
  close
  return a

/-- Goes past the bracket at the end of an array. -/
def closeArray : Reader Unit := do
  match ← nextSign? with
  | none => failAhead .listUnfinished
  | some ']' => advance
  | some ',' => do
    advance
    if (← nextSign?) = some ']' then failAhead .trailingComma else failAhead .trailingCharacters
  | some _ => failAhead .trailingCharacters

/-- Goes past the brace at the end of an object. -/
def closeObject : Reader Unit := do
  match ← nextSign? with
  | none => failAhead .objectUnfinished
  | some '\x7d' => advance
  | some ',' => failAhead .trailingComma
  | some _ => failAhead .trailingCharacters

/-- Reads an array. -/
def array (expected : String) (body : Reader α) : Reader α := do
  match ← nextSign? with
  | some '[' => within body closeArray
  | some '\x7b' => refuse (.wrongType .map expected)
  | _ => refuseScalar expected

/-- Reads an object. -/
def object (expected : String) (body : Reader α) : Reader α := do
  match ← nextSign? with
  | some '\x7b' => within body closeObject
  | some '[' => refuse (.wrongType .sequence expected)
  | _ => refuseScalar expected

/-- Reads an array or an object. -/
def arrayOrObject (expected : String) (onArray onObject : Reader α) : Reader α := do
  match ← nextSign? with
  | some '[' => within onArray closeArray
  | some '\x7b' => within onObject closeObject
  | _ => refuseScalar expected

/-! ## Items -/

/-- Whether an item comes next in an array; goes past the comma before it. -/
def anotherItem (first : Bool) : Reader Bool := do
  match ← nextSign? with
  | none => failAhead .listUnfinished
  | some ']' => return false
  | some c =>
    if first then return true
    else if c ≠ ',' then failAhead .expectedCommaOrBracket
    else do
      advance
      match ← nextSign? with
      | none => failAhead .valueUnfinished
      | some ']' => failAhead .trailingComma
      | some _ => return true

/-- Reads the next item of an array, if there is one. -/
def item? (first : Bool) (r : Reader α) : Reader (Option α) := do
  if ← anotherItem first then return some (← r) else return none

/-- Reads at most so many items of an array. -/
def itemsFrom (r : Reader α) : Nat → Bool → Reader (List α)
  | 0, _ => return []
  | steps + 1, first => do
    match ← item? first r with
    | none => return []
    | some a => return a :: (← itemsFrom r steps false)

/-- One more than the characters left: each item and each member takes one of them, and so does
the end. -/
def enoughSteps : Reader Nat := return (← get).rest.length + 1

/-- Reads the items of an array up to its end. -/
def items (r : Reader α) : Reader (List α) := do itemsFrom r (← enoughSteps) true

/-! ## Members -/

/-- Whether a member comes next in an object; goes past the comma before it. -/
def anotherMember (first : Bool) : Reader Bool := do
  match ← nextSign? with
  | none => failAhead .objectUnfinished
  | some '\x7d' => return false
  | some c =>
    if first then
      if c = '"' then return true else failAhead .keyNotString
    else if c ≠ ',' then failAhead .expectedCommaOrBrace
    else do
      advance
      match ← nextSign? with
      | none => failAhead .valueUnfinished
      | some '"' => return true
      | some '\x7d' => failAhead .trailingComma
      | some _ => failAhead .keyNotString

/-- Goes past the colon after a key. -/
def colon : Reader Unit := do
  match ← nextSign? with
  | none => failAhead .objectUnfinished
  | some ':' => advance
  | some _ => failAhead .expectedColon

/-- Reads the value after a key. -/
def afterColon (r : Reader α) : Reader α := do colon; r

/-- Reads at most so many members of an object.  What is done with the colon and the value
depends on the key and on what was read before. -/
def membersFrom (onMember : σ → String → Reader σ) : Nat → Bool → σ → Reader σ
  | 0, _, s => return s
  | steps + 1, first, s => do
    if ← anotherMember first then
      let key ← string
      membersFrom onMember steps false (← onMember s key)
    else return s

/-- Reads the members of an object up to its end. -/
def members (start : σ) (onMember : σ → String → Reader σ) : Reader σ := do
  membersFrom onMember (← enoughSteps) true start

/-! ## Any value -/

/-- Reads any value; the number bounds the levels of brackets. -/
def valueWithin : Nat → Reader Json
  | 0 => failAhead .tooDeep
  | levels + 1 => do
    match ← nextSign? with
    | none => failAhead .valueUnfinished
    | some '[' => return .array (← within (items (valueWithin levels)) closeArray)
    | some '\x7b' =>
      let found ← within
        (members [] fun found key => return (key, ← afterColon (valueWithin levels)) :: found)
        closeObject
      return Json.ofMembers found.reverse
    | some c => scalarAt c

/-- Reads any value. -/
def value : Reader Json := do valueWithin (← read)

/-! ## Values that nobody asks for -/

/-- A bracket that is open. -/
inductive Bracket where
  | list
  | object
  deriving DecidableEq, Repr

/-- What a bracket that is not closed lacks. -/
def Bracket.unfinished : Bracket → Fault
  | .list => .listUnfinished
  | .object => .objectUnfinished

/-- What should follow a value inside a bracket. -/
def Bracket.expected : Bracket → Fault
  | .list => .expectedCommaOrBracket
  | .object => .expectedCommaOrBrace

/-- The character that closes a bracket. -/
def Bracket.closing : Bracket → Char
  | .list => ']'
  | .object => '\x7d'

/-- Past a value that is no array and no object. -/
def skipScalar (c : Cursor) (first : Char) : Except ReadError Cursor :=
  match first with
  | 'n' => skipWord ['n', 'u', 'l', 'l'] c
  | 't' => skipWord ['t', 'r', 'u', 'e'] c
  | 'f' => skipWord ['f', 'a', 'l', 's', 'e'] c
  | '"' => c.skipString
  | '-' => c.next.skipNumber
  | x => if x.isDigit then c.skipNumber else .error (c.faultAhead .expectedValue)

/-- Past the key and the colon of a member. -/
def skipKey (c : Cursor) : Except ReadError Cursor := do
  let c := c.blanks
  match c.rest with
  | [] => .error (c.faultAhead .objectUnfinished)
  | x :: _ =>
    if x ≠ '"' then .error (c.faultAhead .keyNotString)
    let c := (← c.skipString).blanks
    match c.rest with
    | [] => .error (c.faultAhead .objectUnfinished)
    | ':' :: _ => .ok c.next
    | _ => .error (c.faultAhead .expectedColon)

/-- Past what stands before the next value: for the member of an object, its key. -/
def skipToValue (b : Bracket) (c : Cursor) : Except ReadError Cursor :=
  match b with
  | .list => .ok c
  | .object => skipKey c

/-- Where passing over a value has come to. -/
inductive SkipState where
  /-- A value comes next. -/
  | before
  /-- A bracket was just opened. -/
  | opened
  /-- A value has ended. -/
  | behind
  deriving DecidableEq, Repr

/-- Past a value inside the open brackets, the innermost first.  Brackets may nest to any
depth. -/
def skipFrom : Nat → SkipState → List Bracket → Cursor → Except ReadError Cursor
  | 0, _, _, c => .error (c.faultAhead .tooDeep)
  | steps + 1, .before, brackets, c =>
    let c := c.blanks
    match c.rest with
    | [] => .error (c.faultAhead .valueUnfinished)
    | '[' :: _ => skipFrom steps .opened (.list :: brackets) c.next
    | '\x7b' :: _ => skipFrom steps .opened (.object :: brackets) c.next
    | x :: _ =>
      match skipScalar c x with
      | .error e => .error e
      | .ok c => skipFrom steps .behind brackets c
  | _ + 1, _, [], c => .ok c
  | steps + 1, state, b :: brackets, c =>
    let c := c.blanks
    match c.rest with
    | [] => .error (c.faultAhead b.unfinished)
    | x :: _ =>
      if x = b.closing then skipFrom steps .behind brackets c.next
      else if state = .behind && x ≠ ',' then .error (c.faultAhead b.expected)
      else
        match skipToValue b (if state = .behind then c.next else c) with
        | .error e => .error e
        | .ok c => skipFrom steps .before (b :: brackets) c

/-- Passes over a value that nobody asks for: it only has to be well formed, and its numbers may
have any size.  Three steps suffice for each character. -/
def skip : Reader Unit := ofSkip fun c => skipFrom (3 * c.rest.length + 3) .before [] c

/-! ## Whole texts -/

/-- Brackets may nest 127 deep. -/
def nestingLimit : Nat := 128

/-- Reads a whole text. -/
def run (r : Reader α) (s : String) : Except ReadError α := do
  let (a, c) ← r nestingLimit (Cursor.ofString s)
  let c := c.blanks
  if c.rest.isEmpty then .ok a else .error (c.faultAhead .trailingCharacters)

end Reader

/-- The value that a text stands for. -/
def Json.parse (s : String) : Except ReadError Json := Reader.value.run s

end WatchCache
