import Mathlib.Logic.Function.Basic
import WatchCache.Proofs.Store.Told

set_option autoImplicit false

/-!
# Stores that cannot be told apart

Two stores of one kind agree if the same objects stand under the same keys and the same extractors
have the same names.  How they came to this does not matter: the buckets of an index are decided
by the table and by the extractor, so whatever is read from the one store is read from the other
one, up to the order of lists.  A full listing makes the tables of all stores agree, and events
of different keys lead to the same table in any order.
-/

namespace WatchCache

/-! ## The same up to order -/

/-- Answers that list the same in some order, or fail with the same error. -/
inductive SameAnswer {α : Type} : Answer (List α) → Answer (List α) → Prop
  | ok {found other : List α} (hperm : found.Perm other) : SameAnswer (.ok found) (.ok other)
  | error (e : CacheError) : SameAnswer (.error e) (.error e)

/-- Indices with one extractor that have the same buckets, each with the same keys. -/
structure Index.Same (i j : Index) : Prop where
  extract_eq : i.extract = j.extract
  buckets : ∀ value, Option.Rel List.Perm (i.buckets.find? value) (j.buckets.find? value)

/-- Indexers that hold the same objects under the same keys, and the same indices under the same
names. -/
structure Indexer.Same (x y : Indexer) : Prop where
  items : x.items.Perm y.items
  indices : ∀ name, Option.Rel Index.Same (x.indices.find? name) (y.indices.find? name)

/-- Stores of one kind that hold the same and are both synced or both not. -/
structure Store.Same (s t : Store) : Prop where
  kind_eq : s.kind = t.kind
  synced_eq : s.synced = t.synced
  indexer : s.indexer.Same t.indexer

/-! ## Buckets are decided by the table -/

/-- Where no bucket is empty, the keys under a value tell whether there is a bucket. -/
theorem Buckets.Sound.rel_find? {b c : Buckets} (hb : b.Sound) (hc : c.Sound) {value : String}
    (hkeys : (b.keysOf value).Perm (c.keysOf value)) :
    Option.Rel List.Perm (b.find? value) (c.find? value) := by
  have hempty {b : Buckets} (hb : b.Sound) {keys : List String}
      (hfind : b.find? value = some keys) : ¬keys.Perm [] := by
    intro hnil
    obtain rfl := hnil.eq_nil
    exact hb.not_empty value hfind
  unfold Buckets.keysOf at hkeys
  cases hfind : b.find? value with
  | none =>
    cases hother : c.find? value with
    | none => exact .none
    | some keys =>
      rw [hfind, hother] at hkeys
      exact absurd hkeys.symm (hempty hc hother)
  | some keys =>
    cases hother : c.find? value with
    | none =>
      rw [hfind, hother] at hkeys
      exact absurd hkeys (hempty hb hfind)
    | some others =>
      rw [hfind, hother] at hkeys
      exact .some hkeys

/-- Two indices that cover one table with one extractor are the same. -/
theorem Index.Covers.same {i j : Index} {lookup : String → Option Object} (hi : i.Covers lookup)
    (hj : j.Covers lookup) (hextract : i.extract = j.extract) : i.Same j where
  extract_eq := hextract
  buckets := by
    intro value
    refine hi.sound.rel_find? hj.sound ?_
    refine (List.perm_ext_iff_of_nodup (hi.sound.keys_nodup value)
      (hj.sound.keys_nodup value)).mpr fun key => ?_
    rw [hi.mem_iff, hj.mem_iff, hextract]

namespace Indexer

variable {x y : Indexer}

/-- Two indexers with the same objects under the keys and the same extractors are the same. -/
theorem Consistent.same (hx : x.Consistent) (hy : y.Consistent) (htable : x.get? = y.get?)
    (hextractors : x.extractor? = y.extractor?) : x.Same y where
  items := hx.items_distinct.perm hy.items_distinct htable
  indices := by
    intro name
    have hextract := congrFun hextractors name
    unfold extractor? at hextract
    cases hi : x.indices.find? name with
    | none =>
      rw [hi] at hextract
      rw [Option.map_eq_none_iff.mp hextract.symm]
      exact .none
    | some i =>
      rw [hi] at hextract
      obtain ⟨j, hj, heq⟩ := Option.map_eq_some_iff.mp hextract.symm
      have hcovers := hy.covers name j hj
      rw [← htable] at hcovers
      rw [hj]
      exact .some ((hx.covers name i hi).same hcovers heq.symm)

/-! ## What is read from the same indexers -/

theorem Same.all (h : x.Same y) : x.all.Perm y.all := h.items.map Prod.snd

theorem Same.byIndex (h : x.Same y) (hget : x.get? = y.get?) (name value : String) :
    SameAnswer (x.byIndex name value) (y.byIndex name value) := by
  have hindices := h.indices name
  unfold Indexer.byIndex
  generalize x.indices.find? name = found, y.indices.find? name = other at hindices
  cases hindices with
  | none => exact .error _
  | @some i j hsame =>
    rw [hget]
    refine .ok (List.Perm.filterMap _ ?_)
    have hbuckets := hsame.buckets value
    unfold Buckets.keysOf
    generalize i.buckets.find? value = keys, j.buckets.find? value = others at hbuckets
    cases hbuckets with
    | none => exact .refl _
    | some hperm => exact hperm

theorem Same.indexValues (h : x.Same y) (hx : x.Consistent) (hy : y.Consistent) (name : String) :
    (x.indexValues name).Perm (y.indexValues name) := by
  have hindices := h.indices name
  unfold Indexer.indexValues
  cases hi : x.indices.find? name with
  | none =>
    rw [hi] at hindices
    cases hj : y.indices.find? name with
    | none => exact .refl _
    | some j =>
      rw [hj] at hindices
      cases hindices
  | some i =>
    rw [hi] at hindices
    cases hj : y.indices.find? name with
    | none =>
      rw [hj] at hindices
      cases hindices
    | some j =>
      rw [hj] at hindices
      cases hindices with
      | some hsame =>
        refine (hx.covers name i hi).sound.distinct.keys_perm
          (hy.covers name j hj).sound.distinct fun value => ?_
        have hbuckets := hsame.buckets value
        unfold Table.has
        generalize i.buckets.find? value = keys, j.buckets.find? value = others at hbuckets
        cases hbuckets <;> rfl

end Indexer

/-! ## What events make of a table -/

namespace Event

/-- The key of the only object that an event is about. -/
def key? : Event → Option String
  | .applied o | .deleted o => some o.key
  | .restarted _ => none

/-- The objects under the keys after events. -/
def effects (lookup : String → Option Object) (events : List Event) : String → Option Object :=
  events.foldl Event.effect lookup

theorem effects_append (lookup : String → Option Object) (first second : List Event) :
    effects lookup (first ++ second) = effects (effects lookup first) second :=
  List.foldl_append

/-- An event about one object changes the table under the key of the object, to something that
does not depend on the table. -/
theorem exists_effect_eq_update {e : Event} {key : String} (hkey : e.key? = some key) :
    ∃ new, ∀ lookup, e.effect lookup = Function.update lookup key new := by
  have hupdate (new : Option Object) (lookup : String → Option Object) :
      (fun k => if k = key then new else lookup k) = Function.update lookup key new := by
    funext k
    exact (Function.update_apply lookup key new k).symm
  cases e with
  | applied o =>
    cases hkey
    exact ⟨some o, hupdate (some o)⟩
  | deleted o =>
    cases hkey
    exact ⟨none, hupdate none⟩
  | restarted objects => cases hkey

theorem effect_comm {e other : Event} {key otherKey : String} (hkey : e.key? = some key)
    (hother : other.key? = some otherKey) (hne : key ≠ otherKey)
    (lookup : String → Option Object) :
    other.effect (e.effect lookup) = e.effect (other.effect lookup) := by
  obtain ⟨new, hnew⟩ := exists_effect_eq_update hkey
  obtain ⟨old, hold⟩ := exists_effect_eq_update hother
  rw [hold, hnew, hnew, hold]
  exact Function.update_comm hne new old lookup

theorem exists_key_of_not_isListing {e : Event} (hlisting : e.isListing = false) :
    ∃ key, e.key? = some key := by
  cases e with
  | applied o => exact ⟨o.key, rfl⟩
  | deleted o => exact ⟨o.key, rfl⟩
  | restarted objects => cases hlisting

/-- The order of events about different objects does not matter. -/
theorem effects_perm {events other : List Event} (hperm : events.Perm other)
    (hlisting : ∀ e ∈ events, e.isListing = false) (hdistinct : (events.map Event.key?).Nodup)
    (lookup : String → Option Object) : effects lookup events = effects lookup other := by
  refine hperm.foldl_eq' (fun e he e' he' middle => ?_) lookup
  obtain ⟨key, hkey⟩ := exists_key_of_not_isListing (hlisting e he)
  obtain ⟨key', hkey'⟩ := exists_key_of_not_isListing (hlisting e' he')
  by_cases heq : key = key'
  · have hsame : e = e' :=
      List.inj_on_of_nodup_map hdistinct he he' (hkey.trans (heq ▸ hkey'.symm))
    rw [hsame]
  · exact effect_comm hkey hkey' heq middle

theorem effects_deleted (lookup : String → Option Object) (gone : List Object) :
    effects lookup (gone.map .deleted) =
      fun key => if key ∈ gone.map Object.key then none else lookup key := by
  induction gone using List.reverseRecOn with
  | nil => rfl
  | append_singleton gone o ih =>
    rw [List.map_append, effects_append, ih]
    funext key
    by_cases hkey : key = o.key <;> simp [effects, effect, hkey]

theorem effects_applied (lookup : String → Option Object) (listed : List Object) :
    effects lookup (listed.map .applied) =
      fun key => (listed.reverse.find? fun o => o.key = key).or (lookup key) := by
  induction listed using List.reverseRecOn with
  | nil => rfl
  | append_singleton listed o ih =>
    rw [List.map_append, effects_append, ih]
    funext key
    by_cases hkey : key = o.key
    · simp [effects, effect, hkey]
    · simp [effects, effect, hkey, Ne.symm hkey]

/-- A full listing does what removing everything and applying the listed objects does. -/
theorem effects_rebuild (lookup : String → Option Object) {gone : List Object}
    (hgone : ∀ key, lookup key ≠ none → key ∈ gone.map Object.key) (listed : List Object) :
    effects lookup (gone.map .deleted ++ listed.map .applied) =
      (restarted listed).effect lookup := by
  rw [effects_append, effects_deleted, effects_applied]
  funext key
  have hnone : (if key ∈ gone.map Object.key then none else lookup key) = none := by
    split
    · rfl
    · next hkept => exact not_not.mp (mt (hgone key) hkept)
  rw [hnone, Option.or_none]
  rfl

end Event

/-! ## Stores that agree -/

/-- An index is added exactly if there is none of its name. -/
theorem Indexer.exists_addIndex_iff (x : Indexer) (name : String) (extract : Extractor) :
    (∃ y, x.addIndex name extract = .ok y) ↔ x.extractor? name = none := by
  simp only [addIndex_eq_ok_iff, exists_and_left, exists_eq, and_true, extractor?,
    Option.map_eq_none_iff]

namespace Store

theorem synced_addIndex (s : Store) (name : String) (extract : Extractor) :
    (s.after (.addIndex name extract)).synced = s.synced := by
  simp only [after, perform, addIndex_eq]
  cases s.indexer.addIndex name extract <;> rfl

/-- Stores of one kind with the same table and the same extractors. -/
structure Agrees (s t : Store) : Prop where
  kind_eq : s.kind = t.kind
  synced_eq : s.synced = t.synced
  table_eq : s.indexer.get? = t.indexer.get?
  extractors_eq : s.indexer.extractor? = t.indexer.extractor?

/-- Whatever is read from the one store is read from the other one, up to the order of lists. -/
structure AnswersLike (s t : Store) : Prop where
  size_eq : s.size = t.size
  all : s.indexer.all.Perm t.indexer.all
  get?_eq : ∀ key, s.get? key = t.get? key
  indexValues : ∀ name, (s.indexer.indexValues name).Perm (t.indexer.indexValues name)
  byIndex : ∀ name value, SameAnswer (s.indexer.byIndex name value) (t.indexer.byIndex name value)
  list : ∀ o, SameAnswer (s.list o) (t.list o)

section

variable {s t : Store}

theorem Agrees.same (h : s.Agrees t) (hs : s.indexer.Consistent) (ht : t.indexer.Consistent) :
    s.Same t where
  kind_eq := h.kind_eq
  synced_eq := h.synced_eq
  indexer := hs.same ht h.table_eq h.extractors_eq

theorem Same.candidates (h : s.Same t) (hget : s.indexer.get? = t.indexer.get?)
    (o : ListOptions) : SameAnswer (s.candidates o) (t.candidates o) := by
  unfold Store.candidates
  split
  · split
    · exact h.indexer.byIndex hget _ _
    · exact .error _
  · exact h.indexer.byIndex hget _ _
  · exact .ok h.indexer.all

theorem Same.list (h : s.Same t) (hget : s.indexer.get? = t.indexer.get?) (o : ListOptions) :
    SameAnswer (s.list o) (t.list o) := by
  have hcandidates := h.candidates hget o
  unfold Store.list
  generalize s.candidates o = found, t.candidates o = other at hcandidates
  cases hcandidates with
  | error e => exact .error e
  | ok hperm =>
    rw [h.kind_eq]
    exact .ok ((hperm.filter _).map _)

theorem Agrees.answersLike (h : s.Agrees t) (hs : s.indexer.Consistent)
    (ht : t.indexer.Consistent) : s.AnswersLike t := by
  have hsame := h.same hs ht
  exact
    { size_eq := hsame.indexer.items.length_eq
      all := hsame.indexer.all
      get?_eq := by
        intro key
        unfold Store.get?
        rw [h.table_eq, h.kind_eq]
      indexValues := hsame.indexer.indexValues hs ht
      byIndex := hsame.indexer.byIndex h.table_eq
      list := hsame.list h.table_eq }

/-! ## Calls on stores that agree -/

theorem Agrees.apply (h : s.Agrees t) (e : Event) : (s.apply e).Agrees (t.apply e) where
  kind_eq := by cases e <;> exact h.kind_eq
  synced_eq := by
    cases e with
    | applied o => exact h.synced_eq
    | deleted o => exact h.synced_eq
    | restarted objects => rfl
  table_eq := by rw [get?_apply, get?_apply, h.table_eq]
  extractors_eq := by rw [extractor?_apply, extractor?_apply, h.extractors_eq]

/-- A full listing leaves nothing of the tables before it. -/
theorem agrees_restarted (hkind : s.kind = t.kind)
    (hextractors : s.indexer.extractor? = t.indexer.extractor?) (listed : List Object) :
    (s.apply (.restarted listed)).Agrees (t.apply (.restarted listed)) where
  kind_eq := hkind
  synced_eq := rfl
  table_eq := by
    rw [get?_apply, get?_apply]
    rfl
  extractors_eq := by rw [extractor?_apply, extractor?_apply, hextractors]

/-- Stores that agree accept the same indices. -/
theorem Agrees.addIndex (h : s.Agrees t) (name : String) (extract : Extractor) :
    (s.after (.addIndex name extract)).Agrees (t.after (.addIndex name extract)) where
  kind_eq := by rw [kind_addIndex, kind_addIndex, h.kind_eq]
  synced_eq := by rw [synced_addIndex, synced_addIndex, h.synced_eq]
  table_eq := by
    have htable (s : Store) :
        (s.after (.addIndex name extract)).indexer.get? = s.indexer.get? := by
      refine (get?_after s _).resolve_left ?_
      rintro ⟨e, hcall, -⟩
      cases hcall
    rw [htable, htable, h.table_eq]
  extractors_eq := by
    funext other
    refine Option.ext fun f => ?_
    rw [indexer_after, indexer_after, Indexer.extractor?_after, Indexer.extractor?_after,
      h.extractors_eq]
    refine or_congr_right (and_congr_right fun hcall => ?_)
    rw [Indexer.exists_addIndex_iff, Indexer.exists_addIndex_iff, h.extractors_eq]

theorem Agrees.after (h : s.Agrees t) (call : Call) : (s.after call).Agrees (t.after call) := by
  cases call with
  | apply e => exact h.apply e
  | indexField field extract => exact h.addIndex (fieldIndex field) (doubled extract)
  | addIndex name extract => exact h.addIndex name extract

theorem Agrees.foldl_after (h : s.Agrees t) (calls : List Call) :
    (calls.foldl Store.after s).Agrees (calls.foldl Store.after t) := by
  induction calls using List.reverseRecOn with
  | nil => exact h
  | append_singleton calls call ih =>
    rw [List.foldl_concat, List.foldl_concat]
    exact ih.after call

theorem consistent_foldl_after (hs : s.indexer.Consistent) (calls : List Call) :
    (calls.foldl Store.after s).indexer.Consistent := by
  induction calls using List.reverseRecOn with
  | nil => exact hs
  | append_singleton calls call ih =>
    rw [List.foldl_concat]
    exact consistent_after ih call

/-! ## Many events -/

theorem consistent_foldl_apply (hs : s.indexer.Consistent) (events : List Event) :
    (events.foldl Store.apply s).indexer.Consistent := by
  have hcalls := consistent_foldl_after hs (events.map .apply)
  rwa [List.foldl_map] at hcalls

theorem get?_foldl_apply (s : Store) (events : List Event) :
    (events.foldl Store.apply s).indexer.get? = Event.effects s.indexer.get? events := by
  induction events using List.reverseRecOn with
  | nil => rfl
  | append_singleton events e ih =>
    rw [List.foldl_concat, get?_apply, ih, Event.effects_append]
    rfl

theorem extractor?_foldl_apply (s : Store) (events : List Event) :
    (events.foldl Store.apply s).indexer.extractor? = s.indexer.extractor? := by
  induction events using List.reverseRecOn with
  | nil => rfl
  | append_singleton events e ih => rw [List.foldl_concat, extractor?_apply, ih]

theorem synced_foldl_apply (s : Store) (events : List Event) :
    (events.foldl Store.apply s).synced = (s.synced || events.any Event.isListing) := by
  induction events using List.reverseRecOn with
  | nil => exact (Bool.or_false _).symm
  | append_singleton events e ih =>
    rw [List.foldl_concat, List.any_append, ← Bool.or_assoc, ← ih]
    cases e <;> simp [Store.apply, Event.isListing]

end

/-- A full listing is an incremental update from nothing, and leaves no trace of what was before.

In any store that was reached, a full listing leaves the table and the indices that come from
removing, in any order, at least every object that is there, and then applying the listed ones in
their order, those with equal keys among them.  Two stores of one kind whose indices are the same
are therefore the same after the same listing and the same calls after it, whatever happened to
them before, and answer everything alike up to order.  Events about different objects may come
in any order. -/
theorem listing_is_rebuild (kind : Kind) (calls : List Call) :
    let s := run kind calls
    (∀ gone listed : List Object, (∀ o ∈ s.indexer.all, o.key ∈ gone.map Object.key) →
      (s.apply (.restarted listed)).indexer.Same
        ((gone.map Event.deleted ++ listed.map Event.applied).foldl apply s).indexer) ∧
    (∀ (other : List Call) (listed : List Object) (later : List Call),
      s.indexer.extractor? = (run kind other).indexer.extractor? →
      let t := later.foldl after (s.apply (.restarted listed))
      let u := later.foldl after ((run kind other).apply (.restarted listed))
      t.Same u ∧ t.AnswersLike u) ∧
    ∀ events other : List Event, events.Perm other → (∀ e ∈ events, e.isListing = false) →
      (events.map Event.key?).Nodup →
      (events.foldl apply s).Same (other.foldl apply s) ∧
        (events.foldl apply s).AnswersLike (other.foldl apply s) := by
  intro s
  have hs := run_consistent kind calls
  refine ⟨fun gone listed hgone => ?_, fun other listed later hextractors => ?_,
    fun events other hperm hlisting hdistinct => ?_⟩
  · have hlisted := consistent_after hs (.apply (.restarted listed))
    refine hlisted.same (consistent_foldl_apply hs _) ?_ ?_
    · refine (get?_apply s (.restarted listed)).trans ?_
      rw [get?_foldl_apply, Event.effects_rebuild]
      intro key hpresent
      obtain ⟨o, ho⟩ := Option.ne_none_iff_exists'.mp hpresent
      rw [← run_keyed kind calls key o ho]
      exact hgone o ((hs.mem_all_iff o).mpr ⟨key, ho⟩)
    · rw [extractor?_foldl_apply]
      exact extractor?_apply s (.restarted listed)
  · intro t u
    have hkind : s.kind = (run kind other).kind :=
      (kind_run kind calls).trans (kind_run kind other).symm
    have hagrees := (agrees_restarted hkind hextractors listed).foldl_after later
    have ht := consistent_foldl_after (consistent_after hs (.apply (.restarted listed))) later
    have hu := consistent_foldl_after
      (consistent_after (run_consistent kind other) (.apply (.restarted listed))) later
    exact ⟨hagrees.same ht hu, hagrees.answersLike ht hu⟩
  · have hagrees : (events.foldl apply s).Agrees (other.foldl apply s) :=
      { kind_eq := by rw [kind_foldl_apply, kind_foldl_apply]
        synced_eq := by rw [synced_foldl_apply, synced_foldl_apply, hperm.any_eq]
        table_eq := by
          rw [get?_foldl_apply, get?_foldl_apply, Event.effects_perm hperm hlisting hdistinct]
        extractors_eq := by rw [extractor?_foldl_apply, extractor?_foldl_apply] }
    have hfirst := consistent_foldl_apply hs events
    have hsecond := consistent_foldl_apply hs other
    exact ⟨hagrees.same hfirst hsecond, hagrees.answersLike hfirst hsecond⟩

/-- A listing with one key twice, over two histories of which one had been listed before; an index
is added later, and two events are swapped. -/
theorem listing_is_rebuild_repeated_key :
    let kind : Kind := ⟨"example.io", "v1", "Widget"⟩
    let color : Extractor := fun o => (o.metadata.labels.getD []).map Prod.snd
    let red : Object :=
      { metadata := { name := some "w1", ns := some "ops", labels := some [("color", "red")] } }
    let blue : Object :=
      { metadata := { name := some "w1", ns := some "ops", labels := some [("color", "blue")] } }
    let bare : Object := { metadata := { name := some "w2" } }
    let s := run kind
      [.indexField "spec.color" color, .apply (.applied red), .apply (.applied bare)]
    let other : List Call := [.indexField "spec.color" color, .apply (.restarted [blue])]
    let listed := [red, bare, blue]
    let later : List Call := [.apply (.deleted bare), .addIndex "color" color]
    let t := later.foldl after (s.apply (.restarted listed))
    let u := later.foldl after ((run kind other).apply (.restarted listed))
    (∀ o ∈ s.indexer.all, o.key ∈ [bare, red].map Object.key) ∧
      (s.apply (.restarted listed)).indexer.Same
        ([.deleted bare, .deleted red, .applied red, .applied bare, .applied blue].foldl apply
          s).indexer ∧
      s.indexer.extractor? = (run kind other).indexer.extractor? ∧ t.Same u ∧ t.AnswersLike u ∧
      t.indexer.byIndex "color" "blue" = .ok [blue] ∧ t.indexer.byIndex "color" "red" = .ok [] ∧
      ((s.apply (.applied blue)).apply (.deleted bare)).Same
        ((s.apply (.deleted bare)).apply (.applied blue)) := by
  intro kind color red blue bare s other listed later t u
  obtain ⟨hrebuild, hforget, horder⟩ := listing_is_rebuild kind
    [.indexField "spec.color" color, .apply (.applied red), .apply (.applied bare)]
  have hgone : ∀ o ∈ s.indexer.all, o.key ∈ [bare, red].map Object.key := by decide +kernel
  have hextractors : s.indexer.extractor? = (run kind other).indexer.extractor? := by
    let indexed := run kind [.indexField "spec.color" color]
    have hfirst := extractor?_foldl_apply indexed [.applied red, .applied bare]
    have hsecond := extractor?_foldl_apply indexed [.restarted [blue]]
    exact hfirst.trans hsecond.symm
  have hsame := hforget other listed later hextractors
  have hswap : [Event.applied blue, .deleted bare].Perm [.deleted bare, .applied blue] :=
    .swap _ _ []
  exact ⟨hgone, hrebuild [bare, red] listed hgone, hextractors, hsame.1, hsame.2, rfl, rfl,
    (horder _ _ hswap (by decide) (by decide +kernel)).1⟩

end Store

end WatchCache
