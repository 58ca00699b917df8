import WatchCache.Proofs.Store.History
import WatchCache.Store.Basic

set_option autoImplicit false

/-!
# Stores after any calls

A store is fed with events and given indices.  `Store.run` is the store after a list of such
calls.  Its table is described without any index: `Event.effect` says what an event makes of the
object under each key.  The indices are those of an indexer that was called accordingly, so all
that is known of indexers holds of stores.
-/

namespace WatchCache

/-- What an event makes of the objects under the keys; of equal keys in a listing the last object
counts. -/
def Event.effect (lookup : String → Option Object) : Event → String → Option Object
  | .applied o => fun key => if key = o.key then some o else lookup key
  | .deleted o => fun key => if key = o.key then none else lookup key
  | .restarted objects => fun key => objects.reverse.find? fun o => o.key = key

namespace Store

theorem find?_listing (objects : List Object) (key : String) :
    (listing objects).find? key = objects.reverse.find? fun o => o.key = key := by
  rw [listing, Table.find?_ofPairs, ← List.map_reverse, List.find?_map, Option.map_map]
  exact Option.map_id'

/-- An event changes the table as it says. -/
theorem get?_apply (s : Store) (e : Event) :
    (s.apply e).indexer.get? = e.effect s.indexer.get? := by
  funext key
  cases e with
  | applied o => exact Indexer.get?_upsert s.indexer o.key key o
  | deleted o => exact Indexer.get?_remove s.indexer o.key key
  | restarted objects => exact find?_listing objects key

/-! ## Calls -/

/-- A call that changes a store. -/
inductive Call where
  | apply (event : Event)
  | indexField (field : String) (extract : Extractor)
  | addIndex (name : String) (extract : Extractor)

/-- The outcome of a call. -/
def perform (s : Store) : Call → Answer Store
  | .apply e => .ok (s.apply e)
  | .indexField field extract => s.indexField field extract
  | .addIndex name extract => s.addIndex name extract

/-- The store after a call. -/
def after (s : Store) (call : Call) : Store :=
  match s.perform call with
  | .ok t => t
  | .error _ => s

/-- The store of a kind after calls. -/
def run (kind : Kind) (calls : List Call) : Store := calls.foldl after (.new kind)

@[simp] theorem run_concat (kind : Kind) (calls : List Call) (call : Call) :
    run kind (calls ++ [call]) = (run kind calls).after call := by
  simp [run]

/-! ## The calls on the indexer -/

/-- What a call does to the indexer of a store. -/
def Call.onIndexer : Call → Indexer.Call
  | .apply (.applied o) => .upsert o.key o
  | .apply (.deleted o) => .remove o.key
  | .apply (.restarted objects) => .replace (objects.map fun o => (o.key, o))
  | .indexField field extract => .addIndex (fieldIndex field) (doubled extract)
  | .addIndex name extract => .addIndex name extract

/-- The calls on the indexer of a store, which begins with the index of namespaces. -/
def indexerCalls (calls : List Call) : List Indexer.Call :=
  .addIndex namespaceIndex extractNamespace :: calls.map Call.onIndexer

/-- An index is added to the indexer, and nothing else changes. -/
theorem addIndex_eq (s : Store) (name : String) (extract : Extractor) :
    s.addIndex name extract =
      (s.indexer.addIndex name extract).map fun x => { s with indexer := x } := by
  unfold addIndex
  cases s.indexer.addIndex name extract <;> rfl

theorem indexer_after (s : Store) (call : Call) :
    (s.after call).indexer = s.indexer.after call.onIndexer := by
  have hadd : ∀ name extract, (s.after (.addIndex name extract)).indexer =
      s.indexer.after (.addIndex name extract) := by
    intro name extract
    simp only [after, perform, addIndex_eq, Indexer.after, Indexer.perform]
    cases s.indexer.addIndex name extract <;> rfl
  cases call with
  | apply e => cases e <;> rfl
  | indexField field extract => exact hadd (fieldIndex field) (doubled extract)
  | addIndex name extract => exact hadd name extract

theorem indexer_run (kind : Kind) (calls : List Call) :
    (run kind calls).indexer = Indexer.run (indexerCalls calls) := by
  induction calls using List.reverseRecOn with
  | nil => rfl
  | append_singleton calls call ih =>
    have hcalls : indexerCalls (calls ++ [call]) = indexerCalls calls ++ [call.onIndexer] := by
      simp [indexerCalls]
    rw [run_concat, indexer_after, ih, hcalls, Indexer.run_concat]

theorem consistent_after {s : Store} (hs : s.indexer.Consistent) (call : Call) :
    (s.after call).indexer.Consistent := by
  rw [indexer_after]
  exact hs.after call.onIndexer

theorem run_consistent (kind : Kind) (calls : List Call) :
    (run kind calls).indexer.Consistent := by
  rw [indexer_run]
  exact Indexer.run_consistent (indexerCalls calls)

theorem kind_addIndex (s : Store) (name : String) (extract : Extractor) :
    (s.after (.addIndex name extract)).kind = s.kind := by
  simp only [after, perform, addIndex_eq]
  cases s.indexer.addIndex name extract <;> rfl

theorem kind_apply (s : Store) (e : Event) : (s.apply e).kind = s.kind := by cases e <;> rfl

theorem kind_foldl_apply (s : Store) (events : List Event) :
    (events.foldl Store.apply s).kind = s.kind := by
  induction events generalizing s with
  | nil => rfl
  | cons e rest ih => rw [List.foldl_cons, ih, kind_apply]

@[simp] theorem kind_run (kind : Kind) (calls : List Call) : (run kind calls).kind = kind := by
  induction calls using List.reverseRecOn with
  | nil => rfl
  | append_singleton calls call ih =>
    rw [run_concat]
    refine Eq.trans ?_ ih
    cases call with
    | apply e => exact kind_apply _ e
    | indexField field extract => exact kind_addIndex _ (fieldIndex field) (doubled extract)
    | addIndex name extract => exact kind_addIndex _ name extract

/-! ## Objects stand under their own keys -/

/-- Every object of a table stands under its own key. -/
def Keyed (lookup : String → Option Object) : Prop :=
  ∀ key o, lookup key = some o → o.key = key

theorem Keyed.effect {lookup : String → Option Object} (h : Keyed lookup) (e : Event) :
    Keyed (e.effect lookup) := by
  intro key o hfind
  cases e with
  | applied new =>
    simp only [Event.effect] at hfind
    split at hfind
    · next hkey =>
      cases hfind
      exact hkey.symm
    · exact h key o hfind
  | deleted old =>
    simp only [Event.effect] at hfind
    split at hfind
    · cases hfind
    · exact h key o hfind
  | restarted objects => simpa using List.find?_some hfind

/-- Calls that add an index leave the table alone. -/
theorem get?_after (s : Store) (call : Call) :
    (∃ e, call = .apply e ∧ (s.after call).indexer.get? = e.effect s.indexer.get?) ∨
      (s.after call).indexer.get? = s.indexer.get? := by
  have hadd : ∀ name extract,
      (s.indexer.after (.addIndex name extract)).get? = s.indexer.get? := by
    intro name extract
    cases h : s.indexer.addIndex name extract with
    | error e => rw [Indexer.after_addIndex_of_error h]
    | ok x =>
      rw [Indexer.after_addIndex_of_ok h, ((Indexer.addIndex_eq_ok_iff _ _ _ _).mp h).2]
      rfl
  cases call with
  | apply e => exact Or.inl ⟨e, rfl, get?_apply s e⟩
  | indexField field extract =>
    rw [indexer_after]
    exact Or.inr (hadd (fieldIndex field) (doubled extract))
  | addIndex name extract =>
    rw [indexer_after]
    exact Or.inr (hadd name extract)

theorem keyed_after {s : Store} (hs : Keyed s.indexer.get?) (call : Call) :
    Keyed (s.after call).indexer.get? := by
  rcases get?_after s call with ⟨e, -, heffect⟩ | hsame
  · rw [heffect]
    exact hs.effect e
  · rw [hsame]
    exact hs

theorem run_keyed (kind : Kind) (calls : List Call) : Keyed (run kind calls).indexer.get? := by
  induction calls using List.reverseRecOn with
  | nil =>
    intro key o hfind
    cases hfind
  | append_singleton calls call ih =>
    rw [run_concat]
    exact keyed_after ih call

end Store

end WatchCache
