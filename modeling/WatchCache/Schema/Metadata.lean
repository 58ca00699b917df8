import WatchCache.Schema.Basic

set_option autoImplicit false

/-!
# The schema of metadata

What every object says about itself, whatever its kind, and the selectors that typed resources
share.
-/

namespace WatchCache.Schema

/-- Members that may be missing and have the same schema. -/
def optionals (s : Schema) (names : List String) : List (String × Bool × Schema) :=
  names.map fun name => optional name s

/-- Members that are required and have the same schema. -/
def requireds (s : Schema) (names : List String) : List (String × Bool × Schema) :=
  names.map fun name => required name s

/-- Texts by name. -/
def texts : Schema := dict text

/-- Who set which fields of an object. -/
def managedFieldsEntry : Schema := record "ManagedFieldsEntry" <|
  optionals text ["apiVersion", "fieldsType", "manager", "operation", "subresource"] ++
  [optional "fieldsV1" any, optional "time" timestamp]

/-- An object that another one depends on. -/
def ownerReference : Schema := record "OwnerReference" <|
  requireds text ["apiVersion", "kind", "name", "uid"] ++
  optionals boolean ["blockOwnerDeletion", "controller"]

/-- The metadata of an object. -/
def objectMeta : Schema := record "ObjectMeta" <|
  optionals text ["generateName", "name", "namespace", "resourceVersion", "selfLink", "uid"] ++
  optionals texts ["annotations", "labels"] ++
  optionals timestamp ["creationTimestamp", "deletionTimestamp"] ++
  optionals int64 ["deletionGracePeriodSeconds", "generation"] ++
  [optional "finalizers" (list text),
   optional "managedFields" (list managedFieldsEntry),
   optional "ownerReferences" (list ownerReference)]

/-- The metadata of a list of objects. -/
def listMeta : Schema := record "ListMeta" <|
  optionals text ["continue", "resourceVersion", "selfLink"] ++
  [optional "remainingItemCount" int64]

/-- One condition of a label selector inside a resource. -/
def labelSelectorRequirement : Schema := record "LabelSelectorRequirement" <|
  requireds text ["key", "operator"] ++ [optional "values" (list text)]

/-- A label selector inside a resource. -/
def labelSelector : Schema := record "LabelSelector"
  [optional "matchExpressions" (list labelSelectorRequirement), optional "matchLabels" texts]

/-- A resource of a kind: its two type members are fixed, its metadata is always there. -/
def resource (apiVersion kind : String) (fields : List (String × Bool × Schema)) : Schema :=
  record kind <|
    [required "apiVersion" (fixed apiVersion), required "kind" (fixed kind)] ++ fields

/-- A resource with metadata. -/
def object (apiVersion kind : String) (fields : List (String × Bool × Schema)) : Schema :=
  resource apiVersion kind (required "metadata" objectMeta :: fields)

end WatchCache.Schema
