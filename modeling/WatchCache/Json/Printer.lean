import WatchCache.Decimal.Shortest
import WatchCache.Json.Value

set_option autoImplicit false

/-!
# JSON text

A value is written without blanks (`compact`) or over several lines with two blanks of
indentation for each level (`pretty`).  Members are written in the order in which the value
holds them.  Inside a string the quote, the backslash and the controls are escaped and nothing
else.
-/

namespace WatchCache

namespace Number

/-- An integer in decimal digits, a binary64 number in its shortest form. -/
def render : Number → List Char
  | .integer n => (toString n).toList
  | .real x => x.render

/-- The text of a number. -/
def text (n : Number) : String := String.ofList n.render

end Number

namespace Json

/-- How one character is written in a string. -/
def escapeChar (c : Char) : List Char :=
  match c with
  | '"' => ['\\', '"']
  | '\\' => ['\\', '\\']
  | '\n' => ['\\', 'n']
  | '\r' => ['\\', 'r']
  | '\t' => ['\\', 't']
  | c =>
    if c.toNat = 8 then ['\\', 'b']
    else if c.toNat = 12 then ['\\', 'f']
    else if c.toNat < 0x20 then
      ['\\', 'u', '0', '0', Nat.digitChar (c.toNat / 16), Nat.digitChar (c.toNat % 16)]
    else [c]

/-- A string between quotes. -/
def renderString (s : String) : List Char := '"' :: s.toList.flatMap escapeChar ++ ['"']

mutual

/-- The text of a value without blanks. -/
def render : Json → List Char
  | .null => ['n', 'u', 'l', 'l']
  | .bool true => ['t', 'r', 'u', 'e']
  | .bool false => ['f', 'a', 'l', 's', 'e']
  | .number n => n.render
  | .string s => renderString s
  | .array items => '[' :: renderItems items ++ [']']
  | .object members => '\x7b' :: renderMembers members ++ ['\x7d']

/-- The items of an array, with commas between them. -/
def renderItems : List Json → List Char
  | [] => []
  | [j] => render j
  | j :: rest => render j ++ ',' :: renderItems rest

/-- The members of an object, with commas between them. -/
def renderMembers : List (String × Json) → List Char
  | [] => []
  | [(k, j)] => renderString k ++ ':' :: render j
  | (k, j) :: rest => renderString k ++ ':' :: render j ++ ',' :: renderMembers rest

end

/-- The text of a value without blanks. -/
def compact (j : Json) : String := String.ofList j.render

/-- A new line at a level of indentation. -/
def newLine (level : Nat) : List Char := '\n' :: List.replicate (2 * level) ' '

mutual

/-- The text of a value over several lines, at a level of indentation. -/
def layout (level : Nat) : Json → List Char
  | .array (j :: rest) =>
    '[' :: layoutItems (level + 1) (j :: rest) ++ newLine level ++ [']']
  | .object (m :: rest) =>
    '\x7b' :: layoutMembers (level + 1) (m :: rest) ++ newLine level ++ ['\x7d']
  | .array [] => ['[', ']']
  | .object [] => ['\x7b', '\x7d']
  | .null => render .null
  | .bool b => render (.bool b)
  | .number n => n.render
  | .string s => renderString s

/-- The items of an array, each on a line of its own. -/
def layoutItems (level : Nat) : List Json → List Char
  | [] => []
  | [j] => newLine level ++ layout level j
  | j :: rest => newLine level ++ layout level j ++ ',' :: layoutItems level rest

/-- The members of an object, each on a line of its own. -/
def layoutMembers (level : Nat) : List (String × Json) → List Char
  | [] => []
  | [(k, j)] => newLine level ++ renderString k ++ [':', ' '] ++ layout level j
  | (k, j) :: rest =>
    newLine level ++ renderString k ++ [':', ' '] ++ layout level j ++
      ',' :: layoutMembers level rest

end

/-- The text of a value over several lines. -/
def pretty (j : Json) : String := String.ofList (j.layout 0)

end Json

end WatchCache
