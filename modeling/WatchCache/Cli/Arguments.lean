import WatchCache.Options
import WatchCache.Table

set_option autoImplicit false

/-!
# Arguments

The command line `watchcache [flags] (get KIND NAME | ls KIND | sync) [flags]`.  A flag has a
value, which stands in the same argument (`-ojson`, `-o=json`, `--output=json`) or in the next
one.  Some flags may stand before and after the command; then those after it count.  A list flag
may be repeated and splits its value at commas, any other flag may not be repeated.  Two list
flags fall back on variables of the environment.

Arguments are read from left to right.  A flag is checked when the next one is met, so the
complaint about an unknown argument can come before one about the flag in front of it.
-/

namespace WatchCache.Cli

/-- What is wrong with the arguments, or what else they ask for. -/
inductive UsageError where
  /-- The command lacks a kind or a name. -/
  | missingArgument
  | unknownArgument
  /-- A flag lacks its value. -/
  | missingValue
  /-- A value is none of those to choose from. -/
  | unknownChoice
  | badNumber
  /-- A flag that has no value is given one. -/
  | unwantedValue
  | unknownCommand
  | missingCommand
  | repeatedFlag
  /-- A variable of the environment is no text. -/
  | badVariable
  | helpAsked
  | versionAsked
  | nothingGiven
  deriving DecidableEq, Repr, Inhabited

/-- A flag that has a value. -/
inductive Flag where
  | output
  | storeKinds
  | storeNs
  | watchNs
  | kindSelector
  | resync
  | timeout
  | ns
  | labels
  | fields
  deriving DecidableEq, Repr, Inhabited

namespace Flag

/-- The flag of a long name. -/
def ofLong? : String → Option Flag
  | "output" => some .output
  | "store-kinds" => some .storeKinds
  | "store-ns" => some .storeNs
  | "watch-ns" => some .watchNs
  | "kind-selector" => some .kindSelector
  | "resync-secs" => some .resync
  | "sync-timeout-secs" => some .timeout
  | "namespace" => some .ns
  | "selector" => some .labels
  | "field-selector" => some .fields
  | _ => none

/-- The flag of a letter. -/
def ofLetter? : Char → Option Flag
  | 'o' => some .output
  | 'n' => some .ns
  | 'l' => some .labels
  | _ => none

/-- Whether the values of repeated flags add up. -/
def isList : Flag → Bool
  | .storeKinds | .watchNs | .kindSelector => true
  | _ => false

/-- The values in one argument. -/
def values (f : Flag) (value : String) : List String :=
  match f with
  | .storeKinds | .watchNs => Text.splitString ',' value
  | _ => [value]

/-- What is wrong with a value. -/
def fault? (f : Flag) (value : String) : Option UsageError :=
  match f with
  | .output => if value = "human" ∨ value = "json" then none else some .unknownChoice
  | .resync | .timeout => if (Text.word64? value).isSome then none else some .badNumber
  | _ => none

/-- The variable that stands in for a flag. -/
def fallbackName? : Flag → Option String
  | .storeKinds => some "KCACHE_STORE_KINDS"
  | .watchNs => some "KCACHE_WATCH_NAMESPACES"
  | _ => none

end Flag

/-- A command. -/
inductive CommandName where
  | get
  | ls
  | sync
  deriving DecidableEq, Repr, Inhabited

/-- The command of a name. -/
def CommandName.ofName? : String → Option CommandName
  | "get" => some .get
  | "ls" => some .ls
  | "sync" => some .sync
  | _ => none

/-- Where an argument stands: before the command, or after it. -/
inductive Scope where
  | top
  | after (command : CommandName)
  deriving DecidableEq, Repr

namespace Scope

/-- Whether a flag may stand here. -/
def allows (s : Scope) (f : Flag) : Bool :=
  match f, s with
  | .ns, .after .get | .ns, .after .ls | .labels, .after .ls | .fields, .after .ls => true
  | .ns, _ | .labels, _ | .fields, _ => false
  | _, _ => true

/-- How many arguments without flag belong here. -/
def positionals : Scope → Nat
  | .after .get => 2
  | .after .ls => 1
  | _ => 0

end Scope

/-! ## Scanning -/

/-- The arguments read so far in one scope. -/
structure Scan where
  values : Table Flag (List String) := []
  positionals : List String := []
  /-- The flag met last, with its value once that was met. -/
  pending : Option (Flag × Option String) := none
  /-- Whether a double dash has ended the flags. -/
  trailing : Bool := false
  deriving DecidableEq, Repr, Inhabited

namespace Scan

/-- Enters a flag with its value. -/
def enter (s : Scan) (f : Flag) (value : String) : Except UsageError Scan :=
  match s.values.find? f, f.isList with
  | some _, false => .error .repeatedFlag
  | seen, _ =>
    match f.fault? value with
    | some e => .error e
    | none => .ok { s with values := s.values.insert f (seen.getD [] ++ f.values value) }

/-- Checks the flag met last and enters it. -/
def commit (s : Scan) : Except UsageError Scan :=
  match s.pending with
  | none => .ok s
  | some (_, none) => .error .missingValue
  | some (f, some value) => { s with pending := none }.enter f value

/-- Meets a flag, with its value or before it. -/
def meet (s : Scan) (f : Flag) (value : Option String) : Except UsageError Scan := do
  let s ← s.commit
  match value with
  | some v => s.enter f v
  | none => .ok { s with pending := some (f, none) }

/-- Ends the scan with something else that was asked for. -/
def ask (s : Scan) (e : UsageError) : Except UsageError Scan := do
  let _ ← s.commit
  .error e

/-- Meets a long flag. -/
def meetLong (scope : Scope) (s : Scan) (body : String) : Except UsageError Scan :=
  let (name, value) := match Text.splitStringOnce "=" body with
    | some (name, value) => (name, some value)
    | none => (body, none)
  match (Flag.ofLong? name).filter scope.allows with
  | some f => s.meet f value
  | none =>
    if name = "help" ∨ (name = "version" ∧ scope = .top) then
      if value.isSome then .error .unwantedValue
      else s.ask (if name = "help" then .helpAsked else .versionAsked)
    else .error .unknownArgument

/-- Meets a flag of one letter; what follows the letter is its value. -/
def meetShort (scope : Scope) (s : Scan) (letter : Char) (rest : List Char) :
    Except UsageError Scan :=
  match (Flag.ofLetter? letter).filter scope.allows with
  | some f =>
    match rest with
    | [] => s.meet f none
    | '=' :: value => s.meet f (some (String.ofList value))
    | value => s.meet f (some (String.ofList value))
  | none =>
    if letter = 'h' then s.ask .helpAsked
    else if letter = 'V' ∧ scope = .top then s.ask .versionAsked
    else .error .unknownArgument

/-- Meets an argument without flag. -/
def meetPositional (scope : Scope) (s : Scan) (token : String) : Except UsageError Scan :=
  if s.positionals.length < scope.positionals then do
    let s ← s.commit
    .ok { s with positionals := s.positionals ++ [token] }
  else match scope with
    | .after _ => .error .unknownArgument
    | .top =>
      if s.trailing && (token = "help" || (CommandName.ofName? token).isSome) then
        .error .unknownArgument
      else .error .unknownCommand

/-- Meets an argument that is no command. -/
def meetToken (scope : Scope) (s : Scan) (token : String) : Except UsageError Scan :=
  if s.trailing then s.meetPositional scope token
  else match token.toList, s.pending with
    | ['-', '-'], _ => .ok { s with trailing := true }
    | '-' :: '-' :: body, _ => s.meetLong scope (String.ofList body)
    | '-' :: letter :: rest, _ => s.meetShort scope letter rest
    | _, some (f, none) => .ok { s with pending := some (f, some token) }
    | _, _ => s.meetPositional scope token

/-- Whether the next argument can be a command. -/
def expectsCommand (s : Scan) : Bool :=
  !s.trailing && match s.pending with
    | some (_, none) => false
    | _ => true

end Scan

/-- Reads the arguments after a command. -/
def scanAll (scope : Scope) : Scan → List String → Except UsageError Scan
  | s, [] => s.commit
  | s, token :: rest => do scanAll scope (← s.meetToken scope token) rest

/-- What the command `help` is asked about. -/
def helpError : List String → UsageError
  | [] => .helpAsked
  | [name] =>
    if name = "help" ∨ (CommandName.ofName? name).isSome then .helpAsked else .unknownCommand
  | _ => .unknownCommand

/-- Reads the arguments before the command, up to it. -/
def scanTop : Scan → List String → Except UsageError (Scan × Option (CommandName × List String))
  | s, [] => do .ok (← s.commit, none)
  | s, token :: rest =>
    if s.expectsCommand then
      match CommandName.ofName? token with
      | some command => .ok (s, some (command, rest))
      | none => do
        if token = "help" then .error (helpError rest)
        else scanTop (← s.meetToken .top token) rest
    else do scanTop (← s.meetToken .top token) rest

/-! ## Arguments -/

/-- How results are printed. -/
inductive Output where
  | human
  | json
  deriving DecidableEq, Repr, Inhabited

/-- What is to be done. -/
inductive Command where
  | get (kind name : String) (ns : Option String)
  | ls (kind : String) (ns labels fields : Option String)
  | sync
  deriving DecidableEq, Repr, Inhabited

/-- The arguments of a run. -/
structure Arguments where
  command : Command
  output : Output := .human
  storeKinds : List String := []
  storeNs : Option String := none
  watchNs : List String := []
  kindSelectors : List String := []
  resyncSecs : Option Nat := none
  timeoutSecs : Nat := 60
  deriving DecidableEq, Repr, Inhabited

namespace Arguments

/-- The values of a flag: those after the command, or else those before it, or else those of its
variable. -/
def valuesOf (env : Environment) (top sub : Scan) (f : Flag) : List String :=
  let fromEnvironment := (f.fallbackName?.bind env.text?).map f.values
  (((sub.values.find? f).or (top.values.find? f)).or fromEnvironment).getD []

/-- The command with its own flags. -/
def commandOf (name : CommandName) (sub : Scan) : Except UsageError Command :=
  let value (f : Flag) : Option String := (sub.values.find? f).bind List.head?
  match name, sub.positionals with
  | .get, [kind, object] => .ok (.get kind object (value .ns))
  | .ls, [kind] => .ok (.ls kind (value .ns) (value .labels) (value .fields))
  | .sync, _ => .ok .sync
  | _, _ => .error .missingArgument

/-- Whether a variable that has to stand in for a flag is set to something that is no text. -/
def hasBadVariable (env : Environment) (s : Scan) : Bool :=
  [Flag.storeKinds, Flag.watchNs].any fun f =>
    !s.values.has f &&
      f.fallbackName?.any fun name => env.any (·.1 = name) && (env.text? name).isNone

/-- The error of a command line without a command. -/
def withoutCommand (env : Environment) (top : Scan) : UsageError :=
  let fromEnvironment := [Flag.storeKinds, Flag.watchNs].any fun f =>
    f.fallbackName?.any fun name => env.any (·.1 = name)
  if top.values.isEmpty && !fromEnvironment then .nothingGiven
  else .missingCommand

/-- The arguments of a run from those of the process. -/
def parse (args : List String) (env : Environment) : Except UsageError Arguments := do
  let (top, found) ← scanTop {} args
  match found with
  | none => .error (if hasBadVariable env top then .badVariable else withoutCommand env top)
  | some (name, rest) =>
    let sub ← scanAll (.after name) {} rest
    if hasBadVariable env sub then .error .badVariable
    let command ← commandOf name sub
    let top ← top.commit
    if hasBadVariable env top then .error .badVariable
    let values := valuesOf env top sub
    let one (f : Flag) : Option String := (values f).head?
    .ok
      { command := command
        output := if one .output = some "json" then .json else .human
        storeKinds := values .storeKinds
        storeNs := one .storeNs
        watchNs := values .watchNs
        kindSelectors := values .kindSelector
        resyncSecs := (one .resync).bind Text.word64?
        timeoutSecs := ((one .timeout).bind Text.word64?).getD 60 }

/-- The options of the cache: those of the environment, but the flags for the namespace and for
the interval count more. -/
def cacheOptions (a : Arguments) (env : Environment) : CacheOptions :=
  let o := CacheOptions.ofEnvironment env
  { o with
    ns := match a.storeNs with
      | some ns => nonEmpty (some ns)
      | none => o.ns
    resync := match a.resyncSecs with
      | some secs => (some secs).filter (0 < ·) |>.map CacheOptions.ofSeconds
      | none => o.resync }

end Arguments

end WatchCache.Cli
