set_option autoImplicit false

/-!
# Errors of the cache

The causes for which a call on the cache fails, with the wording of each.  `notFound` and
`unsupportedSelector` are local answers to one caller; `remote` may pass when tried again;
`construction`, `unknownType` and `unknownKind` end what was being set up.
-/

namespace WatchCache

/-- Why a call on the cache failed. -/
inductive CacheError where
  | notFound (resource key : String)
  | unsupportedSelector (detail : String)
  | invalidSelector (detail : String)
  | unknownType (type : String)
  | unknownKind (kind : String)
  | missingIndex (index : String)
  | indexConflict (index : String)
  | remote (detail : String)
  | decode (detail : String)
  | construction (detail : String)
  deriving DecidableEq, Repr, Inhabited

namespace CacheError

/-- The wording of an error. -/
def message : CacheError → String
  | notFound resource key => "not_found: " ++ resource ++ " \"" ++ key ++ "\""
  | unsupportedSelector d => "unsupported_selector: " ++ d
  | invalidSelector d => "invalid_selector: " ++ d
  | unknownType t => "unknown_type: " ++ t ++ " is not registered in the scheme"
  | unknownKind k => "unknown_kind: " ++ k
  | missingIndex i => "missing_index: index " ++ i ++ " does not exist"
  | indexConflict i => "index_conflict: index " ++ i ++ " already registered"
  | remote d => "remote: " ++ d
  | decode d => "decode: " ++ d
  | construction d => "construction: " ++ d

/-- Whether the error says that an object does not exist. -/
def isNotFound : CacheError → Bool
  | notFound _ _ => true
  | _ => false

@[simp] theorem isNotFound_notFound (r k : String) : (notFound r k).isNotFound = true := rfl

end CacheError

/-- The outcome of a call on the cache. -/
abbrev Answer (α : Type) := Except CacheError α

end WatchCache
