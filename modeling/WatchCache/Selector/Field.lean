import WatchCache.Selector.Label

set_option autoImplicit false

/-!
# Field selectors

A field selector is a list of comparisons of fields with values, separated by commas.  The
operators are read as in a label selector, but neither fields nor values have a format: only an
empty field and a missing operator are refused.  An index can answer a selector that is one
single comparison for equality; `oneEqual?` singles these out.
-/

namespace WatchCache

open Text
open Selector (Operator)

/-- One comparison of a field with a value. -/
structure FieldRequirement where
  field : String
  operator : Operator
  value : String
  deriving DecidableEq, Repr, Inhabited

/-- The sign of an operator between a field and a value. -/
def FieldRequirement.sign (r : FieldRequirement) : String :=
  match r.operator with
  | .doubleEquals => "=="
  | .notEquals => "!="
  | _ => "="

/-- The written form of a comparison. -/
def FieldRequirement.text (r : FieldRequirement) : String := r.field ++ r.sign ++ r.value

/-- The comparisons that all have to hold. -/
structure FieldSelector where
  requirements : List FieldRequirement
  deriving DecidableEq, Repr, Inhabited

namespace FieldSelector

/-- The selector without comparisons. -/
def everything : FieldSelector := ⟨[]⟩

/-- Whether the selector has no comparisons. -/
def isEmpty (s : FieldSelector) : Bool := s.requirements.isEmpty

/-- The selector that compares one field for equality. -/
def oneEqual (field value : String) : FieldSelector := ⟨[⟨field, .equals, value⟩]⟩

/-- The field and the value of a selector that is one comparison for equality. -/
def oneEqual? (s : FieldSelector) : Option (String × String) :=
  match s.requirements with
  | [r] => if r.operator.isEquality then some (r.field, r.value) else none
  | _ => none

/-- The written form of a selector. -/
def text (s : FieldSelector) : String :=
  ",".intercalate (s.requirements.map FieldRequirement.text)

/-- One comparison; blanks around its parts are dropped. -/
def readTerm (raw : List Char) : Answer FieldRequirement :=
  let term := trim raw
  let complain (what : String) : Answer FieldRequirement :=
    .error (.invalidSelector ("field requirement " ++ quote (String.ofList term) ++ what))
  match LabelSelector.comparison? term with
  | none => complain " has no operator"
  | some ([], _, _) => complain " has no field"
  | some (field, op, value) => .ok ⟨String.ofList field, op, String.ofList value⟩

/-- The selector with this written form. -/
def parse (s : String) : Answer FieldSelector := do
  if isAllBlank s.toList then .ok everything
  else .ok ⟨← (splitOn ',' s.toList).mapM readTerm⟩

end FieldSelector

end WatchCache
