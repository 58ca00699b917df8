import WatchCache.Text.Basic

set_option autoImplicit false

/-!
# Requests

What is asked of an API server: a path and the parts of a query.  A request is made from the
text of its target, in which a question mark starts the query and a number sign everything that
does not matter.  Names go into a target as they are, so a name may hold a character that no
target can have, or be too long; then there is no request.
-/

namespace WatchCache

open Text

/-- A request for a resource. -/
structure Request where
  path : String
  /-- The parts of the query as they are written, `key=value`. -/
  query : List String := []
  deriving DecidableEq, Repr, Inhabited

/-- Why a text is no target. -/
inductive TargetFault where
  | invalidCharacter
  | tooLong
  deriving DecidableEq, Repr, Inhabited

/-- The wording of a fault. -/
def TargetFault.message : TargetFault → String
  | .invalidCharacter => "invalid uri character"
  | .tooLong => "uri too long"

namespace Request

/-- A character that the path of a target can have. -/
def isPathChar (c : Char) : Bool :=
  let n := c.toNat
  n == 0x21 || (0x24 ≤ n && n ≤ 0x3B) || n == 0x3D || (0x40 ≤ n && n ≤ 0x5F) ||
    (0x61 ≤ n && n ≤ 0x7A) || n == 0x7C || n == 0x7E || c == '"' || c == '\x7b' ||
    c == '\x7d' || 0x80 ≤ n

/-- A character that the query of a target can have. -/
def isQueryChar (c : Char) : Bool :=
  let n := c.toNat
  n == 0x21 || (0x24 ≤ n && n ≤ 0x3B) || n == 0x3D || (0x3F ≤ n && n ≤ 0x7E) || 0x80 ≤ n

/-- The path and the query of a target. -/
def splitTarget (target : List Char) : List Char × List Char :=
  let path := target.takeWhile fun c => c != '?' && c != '#'
  match target.drop path.length with
  | '?' :: rest => (path, rest.takeWhile (· != '#'))
  | _ => (path, [])

/-- The number of bytes that a target can have. -/
def longestTarget : Nat := 65534

/-- The request for a target. -/
def ofTarget (target : String) : Except TargetFault Request :=
  let (path, query) := splitTarget target.toList
  if longestTarget < target.utf8ByteSize then .error .tooLong
  else if path.all isPathChar && query.all isQueryChar then
    .ok ⟨String.ofList path, ((splitOn '&' query).filter (· ≠ [])).map String.ofList⟩
  else .error .invalidCharacter

/-! ## Queries -/

/-- A hexadecimal digit, upper case. -/
def hexDigit (n : Nat) : Char := (Nat.digitChar n).toUpper

/-- How a byte of a value is written in a query. -/
def encodeByte (b : UInt8) : List Char :=
  let n := b.toNat
  let c := Char.ofNat n
  if n = 0x20 then ['+']
  else if n < 0x80 && (c.isAlphanum || c == '*' || c == '-' || c == '.' || c == '_') then [c]
  else ['%', hexDigit (n / 16), hexDigit (n % 16)]

/-- How a value is written in a query. -/
def encode (s : String) : String := String.ofList (s.toUTF8.toList.flatMap encodeByte)

/-- The number of a hexadecimal digit. -/
def hexValue? (c : Char) : Option Nat :=
  if c.isDigit then some (c.toNat - 48)
  else if 'A' ≤ c ∧ c ≤ 'F' then some (c.toNat - 55)
  else if 'a' ≤ c ∧ c ≤ 'f' then some (c.toNat - 87)
  else none

/-- The bytes of a value that is written in a query; a percent sign before anything but two
digits stands for itself. -/
def decodeBytes : List Char → List UInt8
  | [] => []
  | '+' :: rest => 0x20 :: decodeBytes rest
  | '%' :: a :: b :: rest =>
    match hexValue? a, hexValue? b with
    | some x, some y => UInt8.ofNat (16 * x + y) :: decodeBytes rest
    | _, _ => 0x25 :: decodeBytes (a :: b :: rest)
  | c :: rest => (String.singleton c).toUTF8.toList ++ decodeBytes rest

/-- The value that is written in a query. -/
def decode? (s : String) : Option String :=
  String.fromUTF8? (ByteArray.mk (decodeBytes s.toList).toArray)

/-- The value under a key of the query. -/
def value? (r : Request) (key : String) : Option String :=
  r.query.findSome? fun part =>
    match splitStringOnce "=" part with
    | some (k, v) => if decode? k = some key then decode? v else none
    | none => none

/-- The target for a path and the keys and values of a query.  An ampersand stands before every
part of the query, also before the first. -/
def target (path : String) (query : List (String × String)) : String :=
  path ++ "?" ++ String.join (query.map fun (k, v) => "&" ++ encode k ++ "=" ++ encode v)

end Request

end WatchCache
