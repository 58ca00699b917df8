set_option autoImplicit false

/-!
# Requirements on labels

One condition on the labels of an object: a key, an operator and the values that the operator
compares with.  A label that is absent fails a comparison for equality or membership and passes
a comparison for inequality.
-/

namespace WatchCache.Selector

/-- How a requirement compares. -/
inductive Operator where
  | equals
  | doubleEquals
  | notEquals
  | isIn
  | isNotIn
  | exists_
  | doesNotExist
  deriving DecidableEq, Repr, Inhabited

/-- Whether the operator asks for one exact value. -/
def Operator.isEquality : Operator → Bool
  | .equals | .doubleEquals => true
  | _ => false

/-- The labels of an object, or their lack. -/
abbrev Labels := List (String × String)

/-- The value of a label. -/
def Labels.get? (labels : Labels) (key : String) : Option String :=
  (labels.find? fun (k, _) => k = key).map Prod.snd

/-- One condition on the labels of an object. -/
structure Requirement where
  key : String
  operator : Operator
  values : List String
  deriving DecidableEq, Repr, Inhabited

namespace Requirement

/-- Whether labels meet the requirement. -/
def matches_ (r : Requirement) (labels : Labels) : Bool :=
  let got := labels.get? r.key
  match r.operator with
  | .equals | .doubleEquals | .isIn => got.any fun v => r.values.contains v
  | .notEquals | .isNotIn => got.all fun v => !r.values.contains v
  | .exists_ => got.isSome
  | .doesNotExist => got.isNone

/-- The written form of a requirement. -/
def text (r : Requirement) : String :=
  let first := r.values.headD ""
  match r.operator with
  | .equals => r.key ++ "=" ++ first
  | .doubleEquals => r.key ++ "==" ++ first
  | .notEquals => r.key ++ "!=" ++ first
  | .isIn => r.key ++ " in (" ++ ",".intercalate r.values ++ ")"
  | .isNotIn => r.key ++ " notin (" ++ ",".intercalate r.values ++ ")"
  | .exists_ => r.key
  | .doesNotExist => "!" ++ r.key

end Requirement

end WatchCache.Selector
