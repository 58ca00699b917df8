import WatchCache.Schema.Metadata
import WatchCache.Schema.Read
import WatchCache.Server.Scheme
import WatchCache.Server.Talk

set_option autoImplicit false

/-!
# Discovery

Which kinds a server has.  It is asked for its groups, for the resources of every version of
every group, and for those of the core group.  A group recommends the resources of the version
that it prefers, or else of its most mature version.

`Scheme.discoverInto` adds the kinds that are wanted, not known yet, and recommended by the
server.
-/

namespace WatchCache

namespace Schema

/-- One version of a group. -/
def groupVersion : Schema := record "GroupVersionForDiscovery"
  (requireds text ["groupVersion", "version"])

/-- An address of the server. -/
def serverAddress : Schema := record "ServerAddressByClientCIDR"
  (requireds text ["clientCIDR", "serverAddress"])

/-- A group and its versions. -/
def apiGroup : Schema := resource "v1" "APIGroup"
  [required "name" text, optional "preferredVersion" groupVersion,
   optional "serverAddressByClientCIDRs" (list serverAddress),
   required "versions" (list groupVersion)]

/-- The groups of a server. -/
def apiGroupList : Schema := resource "v1" "APIGroupList" [required "groups" (list apiGroup)]

/-- One resource of a version. -/
def apiResource : Schema := record "APIResource" <|
  requireds text ["kind", "name", "singularName"] ++
  optionals text ["group", "storageVersionHash", "version"] ++
  optionals (list text) ["categories", "shortNames"] ++
  [required "namespaced" boolean, required "verbs" (list text)]

/-- The resources of a version. -/
def apiResourceList : Schema := resource "v1" "APIResourceList"
  [required "groupVersion" text, required "resources" (list apiResource)]

/-- The versions of the core group. -/
def apiVersions : Schema := resource "v1" "APIVersions"
  [required "serverAddressByClientCIDRs" (list serverAddress), required "versions" (list text)]

end Schema

namespace Discovery

/-! ## Maturity -/

/-- How mature a version is, by its name. -/
inductive Maturity where
  | other (name : String)
  | alpha (major : Nat) (minor : Option Nat)
  | beta (major : Nat) (minor : Option Nat)
  | stable (major : Nat)
  deriving DecidableEq, Repr

/-- A number of 32 bits. -/
def word32? (s : List Char) : Option Nat :=
  (Text.word64? (String.ofList s)).filter (· < Decimal.twoPow 32)

/-- The number after the word of a stage, which may be missing. -/
def stageNumber? (word s : List Char) : Option (Option Nat) :=
  match Text.afterStart word s with
  | none => none
  | some [] => some none
  | some rest => (word32? rest).map some

/-- The maturity of a version: `v`, a number, and for early stages `alpha` or `beta` with a
number. -/
def Maturity.ofName (name : String) : Maturity :=
  let read : Option Maturity := do
    let rest ← Text.afterStart ['v'] name.toList
    let major ← word32? (rest.takeWhile Char.isDigit)
    match rest.dropWhile Char.isDigit with
    | [] => some (.stable major)
    | stage =>
      match stageNumber? ['a', 'l', 'p', 'h', 'a'] stage with
      | some minor => some (.alpha major minor)
      | none => (stageNumber? ['b', 'e', 't', 'a'] stage).map (.beta major)
  read.getD (.other name)

/-- The stage, the number and the number within the stage of a version. -/
def Maturity.rank : Maturity → Nat × Nat × Nat
  | .other _ => (0, 0, 0)
  | .alpha major minor => (1, major, (minor.map (· + 1)).getD 0)
  | .beta major minor => (2, major, (minor.map (· + 1)).getD 0)
  | .stable major => (3, major, 0)

/-- Whether a version comes at least as early as another when the most mature comes first. -/
def Maturity.precedes (a b : Maturity) : Bool :=
  match a, b with
  | .other x, .other y => x ≤ y
  | a, b =>
    let (p, q, r) := a.rank
    let (s, t, u) := b.rank
    s < p || (s = p && (t < q || (t = q && u ≤ r)))

/-! ## Groups -/

/-- The resources of one version of a group. -/
structure Version where
  name : String
  resources : List Resource
  deriving DecidableEq, Repr, Inhabited

/-- A group with its versions, the most mature first. -/
structure Group where
  name : String
  versions : List Version
  preferred : Option String
  deriving DecidableEq, Repr, Inhabited

/-- Whether one version is at least as mature as another. -/
def Version.leads (v w : Version) : Bool :=
  (Maturity.ofName v.name).precedes (Maturity.ofName w.name)

/-- Puts a version before all those that it leads. -/
def Version.rankIn (v : Version) : List Version → List Version
  | [] => [v]
  | w :: rest => if v.leads w then v :: w :: rest else w :: v.rankIn rest

/-- The group with its versions in order; those that are equally mature stay as they stand. -/
def Group.sorted (g : Group) : Group :=
  { g with versions := g.versions.foldr Version.rankIn [] }

/-- The resources of the version that the group prefers, or else of its most mature one. -/
def Group.recommended (g : Group) : List Resource :=
  let name := g.preferred.or (g.versions.head?.map Version.name)
  ((g.versions.find? fun v => some v.name = name).map Version.resources).getD []

/-! ## Decoded lists -/

/-- The string under a name. -/
def stringAt (j : Json) (name : String) : String :=
  match j.get? name with
  | some (.string s) => s
  | _ => ""

/-- The string under a name, if there is one. -/
def stringAt? (j : Json) (name : String) : Option String :=
  match j.get? name with
  | some (.string s) => some s
  | _ => none

/-- The items under a name. -/
def itemsAt (j : Json) (name : String) : List Json :=
  match j.get? name with
  | some (.array items) => items
  | _ => []

/-- The group and the version in the name of both. -/
def splitGroupVersion (s : String) : String × String :=
  (Text.splitStringOnce "/" s).getD ("", s)

/-- The resources in a decoded list, without those that are parts of others.  The scope is that
of the first resource of the name. -/
def resourcesOf (j : Json) : List Resource :=
  let (group, version) := splitGroupVersion (stringAt j "groupVersion")
  let items := itemsAt j "resources"
  let whole := items.filter fun r => !(stringAt r "name").toList.contains '/'
  whole.map fun r =>
    let name := stringAt r "name"
    let first := items.find? fun r => stringAt r "name" = name
    { group := (stringAt? r "group").getD group
      version := (stringAt? r "version").getD version
      apiVersion := Kind.apiVersion ⟨group, version, ""⟩
      kind := stringAt r "kind"
      plural := name
      isNamespaced := (first.bind fun r => r.get? "namespaced") = some (.bool true) }

/-! ## The talk -/

/-- The wording of a failure of discovery and of its causes, the outermost first. -/
def failureChain (f : RequestFailure) : List String := "running API discovery" :: f.chain

/-- A talk that may fail. -/
abbrev Inquiry (α : Type) := ExceptT RequestFailure Talk α

/-- Asks for one value. -/
def ask (target : String) (schema : Schema) : Inquiry Json :=
  ExceptT.mk <| match Request.ofTarget target with
    | .error f => .done (.error (.badTarget f))
    | .ok r => .ask r fun outcome => .done (outcome.bind fun answer => answer.read schema.read)

/-- Asks for the resources of versions; each comes with the place where they are found. -/
def askVersions : List (String × String) → Inquiry (List Version)
  | [] => pure []
  | (name, target) :: rest => do
    let j ← ask target .apiResourceList
    let versions ← askVersions rest
    pure (⟨name, resourcesOf j⟩ :: versions)

/-- Asks for the resources of a group. -/
def askGroup (name : String) (preferred : Option String) (targets : List (String × String)) :
    Inquiry Group := do
  if targets.isEmpty then throw (.emptyGroup name)
  let versions ← askVersions targets
  pure (Group.sorted ⟨name, versions, preferred⟩)

/-- Asks for the resources of groups. -/
def askGroups : List Json → Inquiry (List Group)
  | [] => pure []
  | g :: rest => do
    let preferred := (g.get? "preferredVersion").map fun v => stringAt v "version"
    let targets := (itemsAt g "versions").map fun v =>
      (stringAt v "version", "/apis/" ++ stringAt v "groupVersion")
    let group ← askGroup (stringAt g "name") preferred targets
    let groups ← askGroups rest
    pure (group :: groups)

/-- The texts of a list of strings. -/
def stringsOf (items : List Json) : List String :=
  items.filterMap fun j => match j with
    | .string s => some s
    | _ => none

/-- Asks for everything that a server has.  Of groups with the same name the last one counts. -/
def askAll : Inquiry (List Group) := do
  let groups ← askGroups (itemsAt (← ask "/apis" .apiGroupList) "groups")
  let versions := stringsOf (itemsAt (← ask "/api" .apiVersions) "versions")
  let core ← askGroup "" (some "v1") (versions.map fun v => (v, "/api/" ++ v))
  pure (Table.ofPairs ((groups ++ [core]).map fun g => (g.name, g))).values

end Discovery

namespace Scheme

/-- The scheme with the recommended resources of the kinds that are wanted. -/
def addRecommended (wanted : List Kind) (s : Scheme) (groups : List Discovery.Group) : Scheme :=
  (groups.flatMap Discovery.Group.recommended).foldl
    (fun s r =>
      if wanted.contains r.toKind then { s with resources := s.resources.insert r.toKind r }
      else s) s

/-- The wanted kinds that are not known yet. -/
def missing (s : Scheme) (kinds : List Kind) : List Kind := kinds.filter fun k => !s.contains k

/-- Adds kinds that a server has to the scheme at hand, which a failed discovery leaves as it is.
The server is only asked when one of the kinds is not known yet, and kinds that are known stay as
they are. -/
def discoverInto (kinds : List Kind) : ExceptT RequestFailure (StateT Scheme Talk) Unit := do
  let missing := (← get).missing kinds
  if missing.isEmpty then return
  let groups ← ExceptT.mk (StateT.lift Discovery.askAll.run)
  modify fun s => s.addRecommended missing groups

/-- The scheme after a discovery that succeeds. -/
def discover (s : Scheme) (kinds : List Kind) : Discovery.Inquiry Scheme :=
  ExceptT.mk do
    let (outcome, s) ← (discoverInto kinds).run.run s
    pure (outcome.map fun _ => s)

end Scheme

end WatchCache
