import WatchCache.Object.Basic
import WatchCache.Schema.Resource

set_option autoImplicit false

/-!
# Types of resources

The types that readers can ask for by themselves instead of by their kind.  Each has a fixed
kind, a schema, and a scope: its objects live in namespaces or outside of them.
-/

namespace WatchCache

/-- A type of resources. -/
inductive ResourceType where
  | configMap
  | secret
  | pod
  | service
  | namespace
  | deployment
  deriving DecidableEq, Repr, Inhabited

namespace ResourceType

/-- The kind of a type. -/
def kind : ResourceType → Kind
  | .configMap => ⟨"", "v1", "ConfigMap"⟩
  | .secret => ⟨"", "v1", "Secret"⟩
  | .pod => ⟨"", "v1", "Pod"⟩
  | .service => ⟨"", "v1", "Service"⟩
  | .namespace => ⟨"", "v1", "Namespace"⟩
  | .deployment => ⟨"apps", "v1", "Deployment"⟩

/-- The name of the resources of a type in paths. -/
def plural : ResourceType → String
  | .configMap => "configmaps"
  | .secret => "secrets"
  | .pod => "pods"
  | .service => "services"
  | .namespace => "namespaces"
  | .deployment => "deployments"

/-- Whether the objects of a type live in namespaces. -/
def isNamespaced : ResourceType → Bool
  | .namespace => false
  | _ => true

/-- What the objects of a type are made of. -/
def schema : ResourceType → Schema
  | .configMap => .configMap
  | .secret => .secret
  | .pod => .pod
  | .service => .service
  | .namespace => .namespace_
  | .deployment => .deployment

/-- The full name of a type, by which an error calls it. -/
def fullName : ResourceType → String
  | .configMap => "k8s_openapi::v1_29::api::core::v1::config_map::ConfigMap"
  | .secret => "k8s_openapi::v1_29::api::core::v1::secret::Secret"
  | .pod => "k8s_openapi::v1_29::api::core::v1::pod::Pod"
  | .service => "k8s_openapi::v1_29::api::core::v1::service::Service"
  | .namespace => "k8s_openapi::v1_29::api::core::v1::namespace::Namespace"
  | .deployment => "k8s_openapi::v1_29::api::apps::v1::deployment::Deployment"

/-- Decodes an object as a resource of a type. -/
def decode (t : ResourceType) (o : Object) : Answer Json :=
  (t.schema.decode o.toJson).mapError fun p => .decode (t.kind.name ++ ": " ++ p.message)

end ResourceType

end WatchCache
