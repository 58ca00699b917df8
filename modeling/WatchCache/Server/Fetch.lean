import WatchCache.Object.Basic
import WatchCache.ObjectKey.Read
import WatchCache.Server.Scheme
import WatchCache.Server.Talk

set_option autoImplicit false

/-!
# Fetching one object

A miss of the cache is answered by one request to the server.  Absence is told apart from every
other failure, because it is an answer and not a reason to try again.
-/

namespace WatchCache

/-- The path of the objects of a resource, of one namespace where there is one and the resource
has namespaces. -/
def Resource.path (r : Resource) (ns : Option String) : String :=
  (if r.group = "" then "/api/" else "/apis/") ++ r.apiVersion ++ "/" ++
  (match ns with
    | some ns => if r.isNamespaced then "namespaces/" ++ ns ++ "/" else ""
    | none => "") ++ r.plural

/-- What a reader is told of a failure. -/
def fetchError (r : Resource) (key : ObjectKey) (f : RequestFailure) : CacheError :=
  let other := .remote ("get " ++ r.plural ++ " " ++ key.text ++ ": " ++ f.message)
  match f with
  | .refused report => if report.code = 404 then .notFound r.plural key.text else other
  | _ => other

/-- Asks the server for one object. -/
def fetchObject (r : Resource) (key : ObjectKey) : Talk (Answer Object) :=
  match Request.ofTarget (r.path key.namespace? ++ "/" ++ key.name) with
  | .error f => .done (.error (fetchError r key (.badObjectTarget f)))
  | .ok request => .ask request fun outcome =>
    .done <| match outcome.bind fun answer => answer.read Object.read with
      | .ok o => .ok o.withoutManagedFields
      | .error f => .error (fetchError r key f)

end WatchCache
