import WatchCache.Text.Basic

set_option autoImplicit false

/-!
# The format of label keys and values

A label value is empty, or begins and ends with a letter or a digit and has only letters, digits,
`-`, `_` and `.` between.  A label key is such a name that is not empty, after an optional DNS
domain and a slash: parts of lower-case letters, digits and `-` that neither begin nor end with
`-`, with points between.  All of it is ASCII.
-/

namespace WatchCache.Selector

open Text

/-- A character inside a label name. -/
def isNameChar (c : Char) : Bool := c.isAlphanum || c == '-' || c == '_' || c == '.'

/-- A lower-case ASCII letter or a digit. -/
def isDomainEdge (c : Char) : Bool := c.isLower || c.isDigit

/-- A character inside a part of a domain. -/
def isDomainChar (c : Char) : Bool := isDomainEdge c || c == '-'

/-- Not empty, with `edge` characters at both ends and `inner` characters throughout. -/
def isBounded (edge inner : Char → Bool) (s : List Char) : Bool :=
  s.head?.any edge && s.getLast?.any edge && s.all inner

/-- A label name. -/
def isName (s : List Char) : Bool := isBounded Char.isAlphanum isNameChar s

/-- A DNS domain. -/
def isDomain (s : List Char) : Bool :=
  (splitOn '.' s).all (isBounded isDomainEdge isDomainChar)

/-- A label value. -/
def isValue (s : List Char) : Bool := s.isEmpty || isName s

/-- A label key. -/
def isKey (s : List Char) : Bool :=
  match splitOn '/' s with
  | [name] => isName name
  | [domain, name] => isDomain domain && isName name
  | _ => false

end WatchCache.Selector
