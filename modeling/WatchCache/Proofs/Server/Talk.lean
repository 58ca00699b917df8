import WatchCache.Server.Talk

set_option autoImplicit false

/-!
# What talks ensure

A talk has many courses, one for each way in which its requests turn out.  `Ensures` is a property
of the results of all of them, and follows the talk from request to request.
-/

namespace WatchCache.Talk

variable {α β γ : Type}

/-- Every result of the talk has a property, whatever becomes of its requests. -/
def Ensures (P : α → Prop) : Talk α → Prop
  | .done a => P a
  | .ask _ next => ∀ outcome, (next outcome).Ensures P

theorem Ensures.bind {P : α → Prop} {Q : β → Prop} {t : Talk α} {f : α → Talk β}
    (ht : t.Ensures P) (hf : ∀ a, P a → (f a).Ensures Q) : (t.bind f).Ensures Q := by
  induction t with
  | done a => exact hf a ht
  | ask r next ih => exact fun outcome => ih outcome (ht outcome)

/-- A talk that came to its end has one of the results that it ensures. -/
theorem Ensures.result {P : α → Prop} {t : Talk α} (ht : t.Ensures P)
    {outcomes : List (Except RequestFailure Response)} {a : α}
    (hended : (t.withOutcomes outcomes).2 = some a) : P a := by
  induction t generalizing outcomes with
  | done b =>
    cases hended
    exact ht
  | ask r next ih =>
    cases outcomes with
    | nil => cases hended
    | cons outcome rest => exact ih outcome (ht outcome) hended

theorem bind_assoc (t : Talk α) (f : α → Talk β) (g : β → Talk γ) :
    (t.bind f).bind g = t.bind fun a => (f a).bind g := by
  induction t with
  | done a => rfl
  | ask r next ih => exact congrArg (Talk.ask r) (funext ih)

/-- What is made of the result makes no requests. -/
theorem withOutcomes_map (t : Talk α) (f : α → β)
    (outcomes : List (Except RequestFailure Response)) :
    (t.bind fun a => .done (f a)).withOutcomes outcomes =
      ((t.withOutcomes outcomes).1, (t.withOutcomes outcomes).2.map f) := by
  induction t generalizing outcomes with
  | done a => rfl
  | ask r next ih =>
    cases outcomes with
    | nil => rfl
    | cons outcome rest =>
      show (r :: (((next outcome).bind _).withOutcomes rest).1,
        (((next outcome).bind _).withOutcomes rest).2) = _
      rw [ih]
      rfl

end WatchCache.Talk
