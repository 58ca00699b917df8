import WatchCache.Json.Printer
import WatchCache.Server.Scheme
import WatchCache.Server.Talk

set_option autoImplicit false

/-!
# Clusters

A cluster that does not change, as its API server shows it: the resources that it serves, the
objects that it holds, and the paths at which it fails.  It is written down as one JSON object
with the members `kinds`, `objects` and `errors`.
-/

namespace WatchCache

/-- A cluster that does not change. -/
structure Cluster where
  resources : List Resource := []
  objects : List Object := []
  /-- The answers for paths that fail. -/
  failures : Table String Response := []
  deriving DecidableEq, Repr, Inhabited

namespace Cluster

/-! ## Answers -/

/-- The answer with a value. -/
def found (j : Json) : Response := { body := j.compact }

/-- The answer for a failure. -/
def failed (status : Nat) (message : String) : Response :=
  { status := status
    body := (Json.ofMembers
      [("apiVersion", .string "v1"), ("kind", .string "Status"), ("status", .string "Failure"),
       ("message", .string message), ("code", .ofNat status),
       ("reason", .string (if status = 404 then "NotFound" else "InternalError"))]).compact }

/-- The answer where there is nothing. -/
def missing (name : String) : Response := failed 404 (name ++ " not found")

/-- A value with its type. -/
def typed (apiVersion kind : String) (members : List (String × Json)) : Json :=
  .ofMembers (("apiVersion", .string apiVersion) :: ("kind", .string kind) :: members)

/-! ## Discovery -/

/-- The groups in order of mention, without that of the core. -/
def groups (c : Cluster) : List String :=
  ((c.resources.map Resource.group).filter (· ≠ "")).eraseDups

/-- The versions of a group in order of mention. -/
def versions (c : Cluster) (group : String) : List String :=
  ((c.resources.filter fun r => r.group = group).map Resource.version).eraseDups

/-- One version of a group. -/
def versionJson (group version : String) : Json :=
  .ofMembers [("groupVersion", .string (group ++ "/" ++ version)), ("version", .string version)]

/-- A group; it prefers the version that was mentioned first. -/
def groupJson (c : Cluster) (group : String) : Json :=
  let versions := (c.versions group).map (versionJson group)
  .ofPresent [("name", some (.string group)), ("versions", some (.array versions)),
    ("preferredVersion", versions.head?)]

/-- The groups. -/
def groupList (c : Cluster) : Json :=
  typed "v1" "APIGroupList" [("groups", .array (c.groups.map c.groupJson))]

/-- The versions of the core. -/
def coreVersions : Json :=
  typed "v1" "APIVersions"
    [("serverAddressByClientCIDRs", .array []), ("versions", .array [.string "v1"])]

/-- One resource. -/
def resourceJson (r : Resource) : Json :=
  .ofMembers [("name", .string r.plural), ("singularName", .string ""),
    ("namespaced", .bool r.isNamespaced), ("kind", .string r.kind),
    ("verbs", .array (["get", "list", "watch"].map .string))]

/-- The resources of one version of a group. -/
def resourceList (c : Cluster) (group version : String) : Response :=
  let resources := c.resources.filter fun r => r.group = group && r.version = version
  let name := Kind.apiVersion ⟨group, version, ""⟩
  if resources.isEmpty && name ≠ "v1" then missing name
  else found <| typed "v1" "APIResourceList"
    [("groupVersion", .string name), ("resources", .array (resources.map resourceJson))]

/-! ## Objects -/

/-- Whether an object is one of a resource. -/
def isOf (r : Resource) (o : Object) : Bool := o.types = some ⟨r.apiVersion, r.kind⟩

/-- The objects of a resource in one namespace or in all that meet a selector. -/
def objectsOf (c : Cluster) (r : Resource) (ns : Option String) (s : LabelSelector) :
    List Object :=
  c.objects.filter fun o =>
    isOf r o && ns.all (fun ns => o.metadata.ns = some ns) && o.meets s

/-- The listing of objects, which stand in it without their type. -/
def listing (c : Cluster) (r : Resource) (ns : Option String) (request : Request) : Response :=
  match LabelSelector.parse ((request.value? "labelSelector").getD "") with
  | .error e => failed 400 e.message
  | .ok s => found <| typed r.apiVersion (r.kind ++ "List")
    [("metadata", .ofMembers [("resourceVersion", .string "1")]),
     ("items", .array ((c.objectsOf r ns s).map fun o => { o with types := none }.toJson))]

/-- One object. -/
def object (c : Cluster) (r : Resource) (ns : Option String) (name : String) : Response :=
  match c.objects.find? fun o => isOf r o && o.metadata.ns = ns && o.metadata.name = some name with
  | some o => found o.toJson
  | none => missing (r.plural ++ " \"" ++ name ++ "\"")

/-- The answer for what stands in a path behind a version of a group. -/
def respondAt (c : Cluster) (group version : String) (rest : List String) (request : Request) :
    Response :=
  let on (plural : String) (f : Resource → Response) : Response :=
    match c.resources.find? fun r =>
      r.group = group && r.version = version && r.plural = plural with
    | some r => f r
    | none => missing plural
  match rest with
  | [] => c.resourceList group version
  | [plural] => on plural fun r => c.listing r none request
  | [plural, name] => on plural fun r => c.object r none name
  | ["namespaces", ns, plural] => on plural fun r => c.listing r (some ns) request
  | ["namespaces", ns, plural, name] => on plural fun r => c.object r (some ns) name
  | _ => missing request.path

/-- The answer to a request. -/
def respond (c : Cluster) (request : Request) : Response :=
  match c.failures.find? request.path with
  | some failure => failure
  | none =>
    match Text.splitString '/' request.path with
    | ["", "apis"] => found c.groupList
    | ["", "api"] => found coreVersions
    | "" :: "apis" :: group :: version :: rest => c.respondAt group version rest request
    | "" :: "api" :: version :: rest => c.respondAt "" version rest request
    | _ => missing request.path

/-- The endpoint of a cluster. -/
def endpoint (c : Cluster) : Endpoint := fun request => .ok (c.respond request)

/-! ## Written clusters -/

/-- The items under a name; none if there is no such name. -/
def itemsAt? (j : Json) (name : String) : Option (List Json) :=
  match j.get? name with
  | none | some .null => some []
  | some (.array items) => some items
  | some _ => none

/-- A resource: its kind, its name in paths, and whether it has namespaces. -/
def resource? : Json → Option Resource
  | .array [.array [.string group, .string version, .string kind], .string plural, .bool b] =>
    some (.ofKind ⟨group, version, kind⟩ plural b)
  | _ => none

/-- A path with the status and the message of its failure. -/
def failure? (j : Json) : Option (String × Response) :=
  match j.get? "path", j.get? "status", j.get? "message" with
  | some (.string path), some (.number (.integer status)), some (.string message) =>
    some (path, failed status.toNat message)
  | _, _, _ => none

/-- The cluster that is written down. -/
def ofJson? (j : Json) : Option Cluster := do
  let resources ← (← itemsAt? j "kinds").mapM resource?
  let objects ← (← itemsAt? j "objects").mapM Object.ofJson?
  let failures ← (← itemsAt? j "errors").mapM failure?
  some ⟨resources, objects, .ofPairs failures⟩

end Cluster

end WatchCache
