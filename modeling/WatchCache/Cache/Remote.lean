import WatchCache.Cache.Connector
import WatchCache.Server.Discovery
import WatchCache.Server.Watch

set_option autoImplicit false

/-!
# Remote clusters

The connector for a server.  The kinds are those of a scheme; any other kind is unknown.  What a
server answers may change from one subscription to the next and from one fetch to the next.

An endpoint answers a request always in the same way, so the first listing of a watch says
everything: if it succeeds the watch stays silent after it, and if it fails the store never hears
of any object.
-/

namespace WatchCache

namespace Endpoint

variable {α : Type}

/-- The outcome of an inquiry. -/
def inquire (e : Endpoint) (inquiry : Discovery.Inquiry α) : Except RequestFailure α :=
  inquiry.run.through e

/-- Fetches one object. -/
def fetch (e : Endpoint) (r : Resource) (key : ObjectKey) : Answer Object :=
  (fetchObject r key).through e

end Endpoint

/-! ## Servers -/

/-- All that a server answers, and the kinds that it is asked for. -/
structure ApiServer where
  scheme : Scheme
  /-- The outcomes of the requests of a watch, for one subscription after the other. -/
  watches : Watch.Target → List (List (Except RequestFailure Response))
  /-- Where a fetch goes; the number says how many fetches were made before. -/
  fetches : Nat → Endpoint
  /-- How long a fetch takes. -/
  delays : Nat → Nat

/-- The connector of a client. -/
def ApiServer.connector (a : ApiServer) : Connector :=
  { isNamespaced := fun k => (a.scheme.resolve k).map Resource.isNamespaced
    watchSource := fun k ns selector => (a.scheme.resolve k).map fun r =>
      let t : Watch.Target := ⟨r, ns, selector, k.key⟩
      .ofSessions ((a.watches t).map t.items)
    fetcher := fun k => (a.scheme.resolve k).map fun _ => ()
    fetch := fun made k key =>
      { delay := a.delays made
        answer := (a.scheme.resolve k).bind fun r => (a.fetches made).fetch r key } }

/-! ## Servers that always answer in the same way -/

namespace Endpoint

/-- The outcomes of the requests for a listing that has at most `pages` more pages. -/
def listing (e : Endpoint) (t : Watch.Target) :
    Nat → Watch.State → List (Except RequestFailure Response)
  | 0, _ => []
  | pages + 1, s =>
    match s.request t with
    | .error _ => []
    | .ok request =>
      let outcome := e request
      match t.meet s outcome with
      | ([], s) => outcome :: e.listing t pages s
      | _ => [outcome]

/-- A listing is not followed any further than this. -/
def maxPages : Nat := 65536

/-- The server behind an endpoint, with the kinds of a scheme. -/
def server (e : Endpoint) (s : Scheme) : ApiServer :=
  { scheme := s
    watches := fun t => [e.listing t maxPages .start]
    fetches := fun _ => e
    delays := fun _ => 0 }

/-- The connector for the kinds of a scheme. -/
def connector (e : Endpoint) (s : Scheme) : Connector := (e.server s).connector

end Endpoint

end WatchCache
