import WatchCache.Cache.Basic
import WatchCache.Cli.Arguments
import WatchCache.Json.Printer
import WatchCache.Server.Discovery
import WatchCache.Text.Basic

set_option autoImplicit false

/-!
# Reports

What a run prints: an object, objects, the sizes of stores, or why it failed.
-/

namespace WatchCache.Cli

open Text (splitString)

/-- Why a run failed. -/
inductive RunError where
  | cache (error : CacheError)
  /-- A selector for a kind has no kind. -/
  | selectorWithoutKind (text : String)
  | discovery (failure : RequestFailure)
  | notSynced (seconds : Nat)
  deriving DecidableEq, Repr, Inhabited

namespace RunError

/-- The wording of an error and of its causes, the outermost first. -/
def chain : RunError → List String
  | .cache e => [e.message]
  | .selectorWithoutKind text => ["expected GVK=SELECTOR, got " ++ Text.quote text]
  | .discovery f => Discovery.failureChain f
  | .notSynced seconds => ["cache did not sync within " ++ toString seconds ++ "s"]

/-- The lines of a cause, the first one marked and the others set in by as much. -/
def causeLines (mark cause : String) : String :=
  let indent := String.ofList (List.replicate mark.length ' ')
  mark ++ ("\n" ++ indent).intercalate (splitString '\n' cause)

/-- The mark before a cause that has others beside it. -/
def numberMark (n : Nat) : String := Text.padLeft 5 (toString n) ++ ": "

/-- The list of causes; a single one has no number. -/
def causeList : List String → String
  | [] => ""
  | [cause] => "\n\nCaused by:\n" ++ causeLines "    " cause
  | causes =>
    "\n\nCaused by:\n" ++
      "\n".intercalate (causes.zipIdx.map fun (cause, n) => causeLines (numberMark n) cause)

/-- What is printed about an error. -/
def report (e : RunError) : String :=
  match e.chain with
  | [] => ""
  | message :: causes => "Error: " ++ message ++ causeList causes ++ "\n"

end RunError

/-! ## Results -/

/-- An object as it is printed: its type, its metadata, and its body. -/
def objectDocument (o : Object) : Json :=
  .object <|
    (o.types.toList.flatMap fun t =>
      [("apiVersion", Json.string t.apiVersion), ("kind", .string t.kind)]) ++
    ("metadata", o.metadata.toJson) :: o.body

/-- The text for one object. -/
def objectText (output : Output) (o : Object) : String :=
  (match output with
    | .human => (objectDocument o).pretty
    | .json => (objectDocument o).compact) ++ "\n"

/-- The line for a namespace and a name. -/
def nameLine (ns name : String) : String := Text.padRight 24 ns ++ " " ++ name ++ "\n"

/-- The text for a list of objects. -/
def objectsText (output : Output) (objects : List Object) : String :=
  match output with
  | .human =>
    nameLine "NAMESPACE" "NAME" ++ String.join (objects.map fun o =>
      nameLine (o.metadata.ns.getD "-") (o.metadata.name.getD ""))
  | .json => (Json.array (objects.map objectDocument)).pretty ++ "\n"

/-- The text for the numbers of objects of kinds. -/
def sizesText (output : Output) (sizes : List (Kind × Nat)) : String :=
  match output with
  | .human => String.join (sizes.map fun (k, n) =>
      k.key ++ " • " ++ toString n ++ " objects\n")
  | .json => (Json.ofMembers (sizes.map fun (k, n) => (k.key, .ofNat n))).pretty ++ "\n"

/-- The text for the reply to a read; no other reply has a text. -/
def replyText (output : Output) : Reply → Answer String
  | .object o => .ok (objectText output o)
  | .objects objects => .ok (objectsText output objects)
  | .failed e => .error e
  | _ => .ok ""

end WatchCache.Cli
