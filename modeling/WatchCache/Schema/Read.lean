import WatchCache.Json.Reader
import WatchCache.Schema.Basic

set_option autoImplicit false

/-!
# Reading by a schema

A value can be read from a text by its schema without being read as any value first.  The
outcome is that of decoding the value, but what the schema does not know is passed over, and a
problem comes with its place in the text.
-/

namespace WatchCache.Schema

open WatchCache.Reader

/-- Where a problem with a scalar is reported.  That a fixed text is another one is found when
the object that has it is checked. -/
def problemPlace (s : Schema) (p : Problem) (c : Cursor) : Place :=
  match s, p with
  | .fixed _, .wrongValue .. => c.pastObject
  | _, _ => c.place

/-- Reads a scalar. -/
def readScalar (s : Schema) : Reader Json := do
  match s.decodeScalar (← scalar s.expectation) with
  | .ok j => return j
  | .error p => throw ⟨p, s.problemPlace p (← get)⟩

/-- Reads a member of a record, where null may stand for one that is missing. -/
def readMember (s : Schema) (r : Reader Json) : Reader (Option Json) :=
  if s.allowsNull then orNull r else some <$> r

mutual

/-- Reads a value. -/
def read : Schema → Reader Json
  | .list item => Reader.array (list item).expectation do return .array (← items (read item))
  | .dict value => Reader.object (dict value).expectation do
    let found ← members [] fun found key => return (key, ← afterColon (read value)) :: found
    return .ofMembers found.reverse
  | .record name fields => arrayOrObject name
    (refuseArray (.wrongType .sequence name))
    (do
      let found ← members [] fun found key => do
        match readField? fields key with
        | none => do afterColon skip; return found
        | some r => return (key, ← afterColon r) :: found
      return .ofMembers (complete fields found.reverse))
  | .any => Reader.value
  | s => s.readScalar

/-- Reads the member of a name. -/
def readField? : List (String × Bool × Schema) → String → Option (Reader (Option Json))
  | [], _ => none
  | (name, _, s) :: rest, key =>
    if name = key then some (readMember s (read s)) else readField? rest key

end

end WatchCache.Schema
