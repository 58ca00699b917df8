import WatchCache.Cache.Call
import WatchCache.Cache.Remote
import WatchCache.Cli.Report

set_option autoImplicit false

/-!
# Runs

What the command line does.  The arguments are understood before any server is asked; then the
kinds in them that are not known are discovered, the cache is built, and a list of objects gets
the index that its field selector needs.  The cache is started and has to be synced in time, and
the command reads from it.
-/

namespace WatchCache.Cli

/-- The kinds that are known without a server. -/
def builtinScheme : Scheme :=
  [.configMap, .secret, .pod, .service, .namespace, .deployment].foldl Scheme.register {}

/-! ## Plans -/

/-- What a command is about. -/
inductive Job where
  | get (kind : Kind) (key : ObjectKey)
  | ls (kind : Kind) (ns labels fields : Option String)
  | sync
  deriving DecidableEq, Repr, Inhabited

/-- The kind that a command reads. -/
def Job.kind? : Job → Option Kind
  | .get k _ => some k
  | .ls k _ _ _ => some k
  | .sync => none

/-- What a command is about; a list identifier stands for the kind of its items. -/
def Command.job : Command → Answer Job
  | .get kind name ns => do .ok (.get (← Kind.parseKey kind).item (.normal ns name))
  | .ls kind ns labels fields => do .ok (.ls (← Kind.parseKey kind).item ns labels fields)
  | .sync => .ok .sync

/-- A kind and its selector, written with an equals sign between them. -/
def kindSelector (text : String) : Except RunError (Kind × LabelSelector) :=
  match Text.splitStringOnce "=" text with
  | none => .error (.selectorWithoutKind text)
  | some (kind, selector) =>
    (do .ok (← Kind.parseKey kind, ← LabelSelector.parse selector)).mapError .cache

/-- What the arguments of a run ask for. -/
structure Plan where
  stores : List Kind
  selectors : List (Kind × LabelSelector)
  job : Job
  deriving DecidableEq, Repr, Inhabited

/-- The kinds that a plan needs. -/
def Plan.kinds (p : Plan) : List Kind :=
  p.stores ++ p.selectors.map Prod.fst ++ p.job.kind?.toList

/-- The selectors in the arguments. -/
def Arguments.selectors (a : Arguments) : Except RunError (List (Kind × LabelSelector)) :=
  a.kindSelectors.mapM kindSelector

/-- What the arguments ask for; empty names of kinds do not count. -/
def Arguments.plan (a : Arguments) : Except RunError Plan := do
  let stores ← ((a.storeKinds.filter (· ≠ "")).mapM Kind.parseKey).mapError .cache
  let selectors ← a.selectors
  let job ← a.command.job.mapError .cache
  .ok ⟨stores, selectors, job⟩

/-! ## The cache -/

/-- The token of a run. -/
def runToken : Token := "run"

/-- Whether a call has failed. -/
def failureOf? (c : Cache) (call : Nat) : Option CacheError :=
  match c.reply? call with
  | some (.failed e) => some e
  | _ => none

/-- Adds the index that a field selector needs. -/
def withIndexFor (c : Cache) (k : Kind) (s : FieldSelector) : Answer Cache :=
  match s.oneEqual? with
  | none => .ok c
  | some (field, _) =>
    let (call, c) := c.indexField k field (Object.field field)
    match failureOf? c call with
    | some e => .error e
    | none => .ok c

/-- The restrictions of a list of objects, and the cache with the index for them. -/
def listOptions (c : Cache) (k : Kind) (ns labels fields : Option String) :
    Answer (ListOptions × Cache) := do
  let labels ← labels.mapM LabelSelector.parse
  let fields ← fields.mapM FieldSelector.parse
  let c ← match fields with
    | some s => withIndexFor c k s
    | none => .ok c
  .ok (⟨ns, labels, fields⟩, c)

/-- The cache of a plan. -/
def openCache (a : Arguments) (p : Plan) (options : CacheOptions) (e : Endpoint) (s : Scheme) :
    Answer Cache := do
  let c : Cache := { connector := e.connector s, scheme := s, options := options }
  let c ← c.addDedicatedAll p.stores
  .ok (p.selectors.foldl (fun c (k, s) => c.withSelector k s) (c.withNamespaces a.watchNs))

/-- Starts the cache, which has to be synced in time.  A server answers at once or never, so a
wait that is not over then does not end; without any time only what needs no server is synced. -/
def startSynced (c : Cache) (seconds : Nat) : Except RunError Cache :=
  let (wait, c) := c.waitForSync runToken
  let early := c.reply? wait
  let (_, c) := c.start runToken
  match if seconds = 0 then early else c.reply? wait with
  | some (.flag true) => .ok c
  | _ => .error (.notSynced seconds)

/-- The reply of a call; one that does not end by itself ends with the run. -/
def conclude (begun : Nat × Cache) : Reply :=
  let (call, c) := begun
  ((c.reply? call).or ((c.cancel runToken).reply? call)).getD .stopped

/-- The text of the reply to a read from the synced cache. -/
def read (a : Arguments) (c : Cache) (begin_ : Cache → Nat × Cache) :
    Except RunError String := do
  let c ← startSynced c a.timeoutSecs
  (replyText a.output (conclude (begin_ c))).mapError .cache

/-- The dedicated kinds and the numbers of their objects. -/
def sizes (c : Cache) : List (Kind × Nat) :=
  c.registry.entries.map fun e => (e.kind, ((c.hub.store? e.store).map Store.size).getD 0)

/-! ## Runs -/

/-- Does what a command is about. -/
def perform (a : Arguments) (c : Cache) : Job → Except RunError String
  | .get k key => read a c fun c => c.get k key
  | .ls k ns labels fields => do
    let (options, c) ← (listOptions c k ns labels fields).mapError .cache
    read a c fun c => c.list k options
  | .sync => do
    let c ← startSynced c a.timeoutSecs
    .ok (sizesText a.output (sizes c))

/-- The standard output of a run. -/
def execute (a : Arguments) (env : Environment) (e : Endpoint) : Except RunError String := do
  let plan ← a.plan
  let scheme ← (e.inquire (builtinScheme.discover plan.kinds)).mapError .discovery
  let c ← (openCache a plan (a.cacheOptions env) e scheme).mapError .cache
  perform a c plan.job

/-- What a process leaves behind. -/
structure Outcome where
  exit : Nat := 0
  stdout : String := ""
  stderr : String := ""
  deriving DecidableEq, Repr, Inhabited

/-- How the command line is used. -/
def usage : String :=
  "Usage: watchcache [FLAGS] get KIND NAME | ls KIND | sync\n"

/-- The outcome of arguments that cannot be used; asking for help is no fault. -/
def UsageError.outcome : UsageError → Outcome
  | .helpAsked | .versionAsked => { stdout := usage }
  | _ => { exit := 2, stderr := usage }

/-- A whole run. -/
def run (args : List String) (env : Environment) (e : Endpoint) : Outcome :=
  match Arguments.parse args env with
  | .error fault => fault.outcome
  | .ok a =>
    match execute a env e with
    | .ok text => { stdout := text }
    | .error fault => { exit := 1, stderr := fault.report }

end WatchCache.Cli
