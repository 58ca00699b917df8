import WatchCache.Server.Request
import WatchCache.Server.Response

set_option autoImplicit false

/-!
# Talks

A talk with an API server is a tree: it is over with a result, or it asks for something and goes
on with the outcome, which is an answer or the failure of the request.  What a program wants from
a server is such a tree, and how the server answers is up to whoever runs it.
-/

namespace WatchCache

/-- Where requests go: each is answered, or it fails. -/
abbrev Endpoint := Request → Except RequestFailure Response

/-- An endpoint that no request reaches. -/
def Endpoint.unreachable : Endpoint := fun _ => .error .unreachable

/-- A talk that ends with a result. -/
inductive Talk (α : Type) where
  | done (result : α)
  | ask (request : Request) (next : Except RequestFailure Response → Talk α)

namespace Talk

variable {α β : Type}

/-- Goes on after the end of a talk. -/
def bind : Talk α → (α → Talk β) → Talk β
  | .done a, f => f a
  | .ask r next, f => .ask r fun outcome => (next outcome).bind f

instance : Monad Talk where
  pure := .done
  bind := bind

/-- The requests of a talk that have these outcomes, with the first one that has none, and the
result, if the talk came to its end. -/
def withOutcomes : Talk α → List (Except RequestFailure Response) → List Request × Option α
  | .done a, _ => ([], some a)
  | .ask r _, [] => ([r], none)
  | .ask r next, outcome :: rest =>
    let (requests, a) := (next outcome).withOutcomes rest
    (r :: requests, a)

/-- The requests of a talk whose server gives these answers and then falls silent, and the
result, if the talk came to its end. -/
def withAnswers (t : Talk α) (answers : List Response) : List Request × Option α :=
  t.withOutcomes (answers.map .ok)

/-- The result of a talk with an endpoint. -/
def through (e : Endpoint) : Talk α → α
  | .done a => a
  | .ask r next => (next (e r)).through e

end Talk

end WatchCache
