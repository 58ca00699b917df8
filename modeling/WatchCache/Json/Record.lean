import WatchCache.Json.Reader

set_option autoImplicit false

/-!
# Records

A record stands in a text as an object with named members, or as an array of their values in
order.  Members with other names do not matter, but none of its own may be repeated.
-/

namespace WatchCache

namespace Record

variable {α : Type}

/-- A member of a record. -/
structure Field (α : Type) where
  name : String
  read : Reader α
  /-- Whether an object may lack it. -/
  mayMiss : Bool := false
  /-- Whether an array may end before it. -/
  mayEnd : Bool := false

/-- Reads the members of a record that are there, the last one first. -/
def readFields (fields : List (Field α)) : Reader (List (String × α)) :=
  Reader.members [] fun found key => do
    match fields.find? fun f => f.name = key with
    | none => do Reader.afterColon Reader.skip; return found
    | some f =>
      if found.any fun (name, _) => name = key then Reader.refuseObject (.repeatedField key)
      else return (key, ← Reader.afterColon f.read) :: found

/-- Reads the members of a record from an object. -/
def readObject (fields : List (Field α)) : Reader (List (String × α)) := do
  let found ← readFields fields
  match fields.find? fun f => !f.mayMiss && !found.any fun (name, _) => name = f.name with
  | some f => Reader.refuseObject (.missingField f.name)
  | none => return found

/-- Reads the members of a record of a size from an array, from the one with this number on. -/
def readArray (expected : String) (size : Nat) :
    Nat → List (Field α) → Reader (List (String × α))
  | _, [] => return []
  | n, f :: rest => do
    match ← Reader.item? (n = 0) f.read with
    | some a => return (f.name, a) :: (← readArray expected size (n + 1) rest)
    | none =>
      if f.mayEnd then readArray expected size (n + 1) rest
      else Reader.refuseArray (.wrongLength n expected size)

/-- Reads a record; returns those of its members that are there. -/
def read (expected : String) (fields : List (Field α)) : Reader (List (String × α)) :=
  Reader.arrayOrObject expected (readArray expected fields.length 0 fields) (readObject fields)

/-- The value of a member. -/
def get? (found : List (String × α)) (name : String) : Option α :=
  (found.find? fun (key, _) => key = name).map Prod.snd

end Record

end WatchCache
