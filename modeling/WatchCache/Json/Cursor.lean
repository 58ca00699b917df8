import WatchCache.Json.Problem

set_option autoImplicit false

/-!
# Cursors

The text that is left to read and the place where it starts.  Places count bytes, so a fault in
the middle of a character has a place of its own.
-/

namespace WatchCache

namespace Place

/-- The place after one more character. -/
def after (p : Place) (c : Char) : Place :=
  if c = '\n' then ⟨p.line + 1, 0⟩ else ⟨p.line, p.column + c.utf8Size⟩

/-- The place after the first byte of a character. -/
def afterByte (p : Place) (c : Char) : Place :=
  if c = '\n' then ⟨p.line + 1, 0⟩ else ⟨p.line, p.column + 1⟩

/-- The place a number of columns further on the same line. -/
def right (p : Place) (columns : Nat) : Place := ⟨p.line, p.column + columns⟩

/-- The place after some text. -/
def afterAll (p : Place) (text : List Char) : Place := text.foldl after p

/-- The place after a number of bytes of a text that has so many. -/
def afterBytes? : Nat → List Char → Place → Option Place
  | 0, _, p => some p
  | _ + 1, [], _ => none
  | n + 1, c :: rest, p =>
    if c.utf8Size ≤ n + 1 then afterBytes? (n + 1 - c.utf8Size) rest (p.after c)
    else some (p.right (n + 1))

end Place

/-- The text that is left to read and the place where it starts. -/
structure Cursor where
  rest : List Char
  place : Place
  deriving DecidableEq, Repr, Inhabited

namespace Cursor

/-- The start of a text. -/
def ofString (s : String) : Cursor := ⟨s.toList, ⟨1, 0⟩⟩

/-- The place that a fault in the next character is reported at: after its first byte. -/
def ahead (c : Cursor) : Place :=
  match c.rest with
  | [] => c.place
  | x :: _ => c.place.afterByte x

/-- A fault in the next character. -/
def faultAhead (c : Cursor) (f : Fault) : ReadError := ⟨.unreadable f, c.ahead⟩

/-- A fault at the place reached. -/
def faultHere (c : Cursor) (f : Fault) : ReadError := ⟨.unreadable f, c.place⟩

/-- Past the next character. -/
def next (c : Cursor) : Cursor :=
  match c.rest with
  | [] => c
  | x :: rest => ⟨rest, c.place.after x⟩

/-- A character that may stand between the parts of a JSON text. -/
def isJsonBlank (c : Char) : Bool := c == ' ' || c == '\n' || c == '\t' || c == '\r'

/-- Past the blanks of JSON. -/
def skipBlanks : List Char → Place → Cursor
  | [], p => ⟨[], p⟩
  | x :: rest, p => if isJsonBlank x then skipBlanks rest (p.after x) else ⟨x :: rest, p⟩

/-- Past the blanks of JSON. -/
def blanks (c : Cursor) : Cursor := skipBlanks c.rest c.place

/-- Past the decimal digits, which are returned in order with the cursor. -/
def takeDigits (c : Cursor) : List Char × Cursor :=
  let digits := c.rest.takeWhile Char.isDigit
  (digits, ⟨c.rest.dropWhile Char.isDigit, c.place.right digits.length⟩)

/-- The place where reading goes on behind an object that is left before its end: past the
closing brace if that comes next. -/
def pastObject (c : Cursor) : Place :=
  let c := c.blanks
  match c.rest with
  | '\x7d' :: _ => c.next.place
  | _ => c.place

/-- The place where reading goes on behind an array that is left before its end: past the
closing bracket, or past a comma and the blanks after it, if one of them comes next. -/
def pastArray (c : Cursor) : Place :=
  let c := c.blanks
  match c.rest with
  | ']' :: _ => c.next.place
  | ',' :: _ => c.next.blanks.place
  | _ => c.place

end Cursor

end WatchCache
