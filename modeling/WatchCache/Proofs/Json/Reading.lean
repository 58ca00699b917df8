import WatchCache.Json.Reader

set_option autoImplicit false

/-!
# What readers return

A reader that is put together of others returns what these make possible, wherever in a text it
starts and however deep the brackets there are.  `Reader.Yields` says what every value that a
reader returns is like; that the reader fails is no matter here.
-/

namespace WatchCache.Reader

variable {α β σ : Type}

/-- Every value that a reader returns has a property. -/
def Yields (P : α → Prop) (r : Reader α) : Prop :=
  ∀ levels c a c', r levels c = .ok (a, c') → P a

section

variable {P : α → Prop} {Q : β → Prop}

/-! ## Steps -/

theorem yields_pure {a : α} (ha : P a) : Yields P (pure a) := by
  intro levels c a' c' h
  cases h
  exact ha

theorem yields_throw (e : ReadError) : Yields P (throw e : Reader α) := by
  intro levels c a c' h
  cases h

theorem Yields.bind {r : Reader α} (hr : Yields P r) {f : α → Reader β}
    (hf : ∀ a, P a → Yields Q (f a)) : Yields Q (r >>= f) := by
  intro levels c b c' h
  change (r levels c).bind (fun found => f found.1 levels found.2) = .ok (b, c') at h
  cases hfirst : r levels c with
  | error e =>
    rw [hfirst] at h
    cases h
  | ok found =>
    rw [hfirst] at h
    exact hf found.1 (hr levels c found.1 found.2 hfirst) levels found.2 b c' h

theorem yields_anything (r : Reader α) : Yields (fun _ => True) r := fun _ _ _ _ _ => trivial

/-- What is read first does not matter. -/
theorem yields_after (r : Reader α) {f : α → Reader β} (hf : ∀ a, Yields Q (f a)) :
    Yields Q (r >>= f) := (yields_anything r).bind fun a _ => hf a

theorem Yields.map {r : Reader α} (hr : Yields P r) {f : α → β} (hf : ∀ a, P a → Q (f a)) :
    Yields Q (f <$> r) := by
  intro levels c b c' h
  change (r levels c).map (fun found => (f found.1, found.2)) = .ok (b, c') at h
  cases hfirst : r levels c with
  | error e =>
    rw [hfirst] at h
    cases h
  | ok found =>
    rw [hfirst] at h
    cases h
    exact hf found.1 (hr levels c found.1 found.2 hfirst)

theorem yields_refuse (p : Problem) : Yields P (refuse p : Reader α) :=
  yields_after _ fun _ => yields_throw _

theorem yields_refuseObject (p : Problem) : Yields P (refuseObject p : Reader α) :=
  yields_after _ fun _ => yields_throw _

theorem yields_refuseArray (p : Problem) : Yields P (refuseArray p : Reader α) :=
  yields_after _ fun _ => yields_throw _

theorem yields_refuseScalar (expected : String) : Yields P (refuseScalar expected : Reader α) :=
  yields_after _ fun _ => yields_refuse _

theorem Yields.orNull {r : Reader α} (hr : Yields P r) :
    Yields (fun found => ∀ a, found = some a → P a) r.orNull := by
  refine yields_after _ fun sign => ?_
  split
  · exact yields_after _ fun _ => yields_pure nofun
  · exact hr.bind fun a ha => yields_pure fun _ hsame => Option.some.inj hsame ▸ ha

/-! ## Brackets -/

theorem Yields.within {body : Reader α} (hbody : Yields P body) (close : Reader Unit) :
    Yields P (within body close) := by
  have hinside : Yields P (withReader (· - 1) body : Reader α) :=
    fun levels c a c' h => hbody (levels - 1) c a c' h
  have hrest : Yields P (do advance; let a ← withReader (· - 1) body; close; return a) :=
    yields_after _ fun _ => hinside.bind fun a ha => yields_after _ fun _ => yields_pure ha
  refine yields_after _ fun levels => ?_
  split
  · exact yields_after _ fun _ => hrest
  · exact hrest

theorem Yields.arrayOrObject {onArray onObject : Reader α} (harray : Yields P onArray)
    (hobject : Yields P onObject) (expected : String) :
    Yields P (arrayOrObject expected onArray onObject) := by
  refine yields_after _ fun sign => ?_
  split
  · exact harray.within _
  · exact hobject.within _
  · exact yields_refuseScalar expected

theorem Yields.array {body : Reader α} (hbody : Yields P body) (expected : String) :
    Yields P (array expected body) := by
  refine yields_after _ fun sign => ?_
  split
  · exact hbody.within _
  · exact yields_refuse _
  · exact yields_refuseScalar expected

theorem Yields.object {body : Reader α} (hbody : Yields P body) (expected : String) :
    Yields P (object expected body) := by
  refine yields_after _ fun sign => ?_
  split
  · exact hbody.within _
  · exact yields_refuse _
  · exact yields_refuseScalar expected

/-! ## Items -/

theorem Yields.item? {r : Reader α} (hr : Yields P r) (first : Bool) :
    Yields (fun found => ∀ a, found = some a → P a) (item? first r) := by
  refine yields_after _ fun another => ?_
  split
  · exact hr.bind fun a ha => yields_pure fun _ hsame => Option.some.inj hsame ▸ ha
  · exact yields_pure nofun

theorem Yields.itemsFrom {r : Reader α} (hr : Yields P r) (steps : Nat) (first : Bool) :
    Yields (fun found => ∀ a ∈ found, P a) (itemsFrom r steps first) := by
  induction steps generalizing first with
  | zero => exact yields_pure fun a ha => absurd ha List.not_mem_nil
  | succ steps ih =>
    refine (hr.item? first).bind fun found hfound => ?_
    cases found with
    | none => exact yields_pure fun a ha => absurd ha List.not_mem_nil
    | some a =>
      exact (ih false).bind fun rest hrest =>
        yields_pure (List.forall_mem_cons.mpr ⟨hfound a rfl, hrest⟩)

theorem Yields.items {r : Reader α} (hr : Yields P r) :
    Yields (fun found => ∀ a ∈ found, P a) (items r) :=
  yields_after _ fun steps => hr.itemsFrom steps true

/-! ## Members -/

variable {I : σ → Prop} {start : σ} {onMember : σ → String → Reader σ}

theorem yields_membersFrom (hstep : ∀ s key, I s → Yields I (onMember s key)) (steps : Nat)
    (first : Bool) {s : σ} (hs : I s) : Yields I (membersFrom onMember steps first s) := by
  induction steps generalizing first s with
  | zero => exact yields_pure hs
  | succ steps ih =>
    refine yields_after _ fun another => ?_
    split
    · exact yields_after _ fun key => (hstep s key hs).bind fun s' hs' => ih false hs'
    · exact yields_pure hs

/-- What holds at the start and is kept by each member holds at the end. -/
theorem yields_members (hstart : I start) (hstep : ∀ s key, I s → Yields I (onMember s key)) :
    Yields I (members start onMember) :=
  yields_after _ fun steps => yields_membersFrom hstep steps true hstart

theorem Yields.afterColon {r : Reader α} (hr : Yields P r) : Yields P (afterColon r) :=
  yields_after _ fun _ => hr

/-! ## Whole texts -/

theorem Yields.of_run {r : Reader α} (hr : Yields P r) {s : String} {a : α}
    (hrun : r.run s = .ok a) : P a := by
  unfold run at hrun
  cases hfirst : r nestingLimit (Cursor.ofString s) with
  | error e =>
    rw [hfirst] at hrun
    cases hrun
  | ok found =>
    rw [hfirst] at hrun
    change (if found.2.blanks.rest.isEmpty = true then _ else _) = _ at hrun
    split at hrun
    · cases hrun
      exact hr _ _ _ _ hfirst
    · cases hrun

end

end WatchCache.Reader
