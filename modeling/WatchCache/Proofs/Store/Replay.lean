import WatchCache.Proofs.Store.Run

set_option autoImplicit false

/-!
# Replaying changes

Whoever knows the table before a change can make the change too: an addition needs an absent key,
an update and a removal need the very object that they say was there.  `replayAll` makes changes
one after the other and fails where one of them does not fit.  The changes that a store publishes
for an event fit its table, in whatever order, and lead to the table after the event.
-/

namespace WatchCache

namespace Change

/-- The key that a change is about. -/
def key : Change → String
  | added o => o.key
  | updated _ new => new.key
  | deleted o => o.key

/-- What a change says was there before it. -/
def before : Change → Option Object
  | added _ => none
  | updated old _ => some old
  | deleted o => some o

/-- What a change leaves behind. -/
def after : Change → Option Object
  | added o => some o
  | updated _ new => some new
  | deleted _ => none

/-- Makes a change, if the table is as it says. -/
def replay (lookup : String → Option Object) (c : Change) : Option (String → Option Object) :=
  if lookup c.key = c.before then some fun key => if key = c.key then c.after else lookup key
  else none

end Change

/-- Makes changes one after the other, as long as each of them fits. -/
def replayAll (lookup : String → Option Object) (changes : List Change) :
    Option (String → Option Object) :=
  changes.foldlM Change.replay lookup

@[simp] theorem replayAll_nil (lookup : String → Option Object) :
    replayAll lookup [] = some lookup := rfl

theorem replayAll_append (lookup : String → Option Object) (first second : List Change) :
    replayAll lookup (first ++ second) =
      (replayAll lookup first).bind fun middle => replayAll middle second :=
  List.foldlM_append

/-! ## Changes of distinct keys -/

/-- Changes that lead from one table to another: one for each key that may differ, saying what
was there and what is there now. -/
structure Explains (old new : String → Option Object) (changes : List Change) : Prop where
  keys_nodup : (changes.map Change.key).Nodup
  before_eq : ∀ c ∈ changes, old c.key = c.before
  after_eq : ∀ c ∈ changes, new c.key = c.after
  elsewhere : ∀ key, key ∉ changes.map Change.key → new key = old key

/-- The order of such changes does not matter. -/
theorem Explains.perm {old new : String → Option Object} {changes other : List Change}
    (h : Explains old new changes) (hperm : other.Perm changes) : Explains old new other where
  keys_nodup := (hperm.map Change.key).nodup_iff.mpr h.keys_nodup
  before_eq := fun c hc => h.before_eq c (hperm.mem_iff.mp hc)
  after_eq := fun c hc => h.after_eq c (hperm.mem_iff.mp hc)
  elsewhere := fun key hkey => h.elsewhere key fun hmem => hkey ((hperm.map _).mem_iff.mpr hmem)

theorem Explains.replayAll_eq {old new : String → Option Object} {changes : List Change}
    (h : Explains old new changes) : replayAll old changes = some new := by
  induction changes generalizing old with
  | nil =>
    have hsame : new = old := funext fun key => h.elsewhere key (by simp)
    rw [hsame, replayAll_nil]
  | cons c rest ih =>
    obtain ⟨hkey, hrest⟩ := List.nodup_cons.mp h.keys_nodup
    have hfits : c.replay old = some fun key => if key = c.key then c.after else old key :=
      if_pos (h.before_eq c List.mem_cons_self)
    show (c.replay old).bind (fun middle => replayAll middle rest) = some new
    rw [hfits, Option.bind_some]
    refine ih ⟨hrest, fun d hd => ?_, fun d hd => ?_, fun key hmem => ?_⟩
    · have hne : d.key ≠ c.key := fun heq => hkey (heq ▸ List.mem_map_of_mem hd)
      rw [if_neg hne]
      exact h.before_eq d (List.mem_cons_of_mem c hd)
    · exact h.after_eq d (List.mem_cons_of_mem c hd)
    · split
      · next heq =>
        rw [heq]
        exact h.after_eq c List.mem_cons_self
      · next hne =>
        refine h.elsewhere key fun hall => ?_
        exact (List.mem_cons.mp hall).elim hne hmem

/-! ## The changes of a store -/

namespace Store

@[simp] theorem key_changeTo (old : Option Object) (new : Object) :
    (changeTo old new).key = new.key := by
  cases old <;> rfl

@[simp] theorem before_changeTo (old : Option Object) (new : Object) :
    (changeTo old new).before = old := by
  cases old <;> rfl

@[simp] theorem after_changeTo (old : Option Object) (new : Object) :
    (changeTo old new).after = some new := by
  cases old <;> rfl

/-- One change of one key. -/
theorem explains_singleton (lookup : String → Option Object) (c : Change)
    (h : lookup c.key = c.before) :
    Explains lookup (fun key => if key = c.key then c.after else lookup key) [c] where
  keys_nodup := by simp
  before_eq := by simpa using h
  after_eq := by simp
  elsewhere := by
    intro key hkey
    exact if_neg (by simpa using hkey)

theorem mem_listing {objects : List Object} {key : String} {o : Object}
    (h : (key, o) ∈ listing objects) : o ∈ objects ∧ o.key = key := by
  have hfind := (Table.distinct_ofPairs _).find?_of_mem h
  have hpair := Table.mem_of_find?_ofPairs hfind
  obtain ⟨listed, hlisted, heq⟩ := List.mem_map.mp hpair
  cases heq
  exact ⟨hlisted, rfl⟩

theorem mem_keys_listing (objects : List Object) (key : String) :
    key ∈ (listing objects).keys ↔ key ∈ objects.map Object.key := by
  rw [listing, Table.mem_keys_ofPairs, List.map_map]
  rfl

/-- The objects of a table that a listing no longer has. -/
def vanished (s : Store) (objects : List Object) : Table String Object :=
  s.indexer.items.filter fun (key, _) => !(listing objects).has key

theorem changes_restarted (s : Store) (objects : List Object) :
    s.changes (.restarted objects) =
      (listing objects).map (fun (key, o) => changeTo (s.indexer.get? key) o) ++
        (s.vanished objects).map fun (_, o) => .deleted o := rfl

theorem mem_vanished_iff {s : Store} (hx : s.indexer.Consistent) (objects : List Object)
    (key : String) (o : Object) :
    (key, o) ∈ s.vanished objects ↔
      s.indexer.get? key = some o ∧ key ∉ objects.map Object.key := by
  rw [vanished, List.mem_filter, hx.items_distinct.mem_iff, ← mem_keys_listing,
    ← Table.has_iff_mem_keys]
  simp [Indexer.get?]

theorem keys_changes_restarted {s : Store} (hx : s.indexer.Consistent)
    (hkeyed : Keyed s.indexer.get?) (objects : List Object) :
    (s.changes (.restarted objects)).map Change.key =
      (listing objects).keys ++ (s.vanished objects).keys := by
  rw [changes_restarted, List.map_append, List.map_map, List.map_map]
  congr 1
  · refine List.map_congr_left fun p hp => ?_
    exact (key_changeTo _ _).trans (mem_listing hp).2
  · refine List.map_congr_left fun p hp => ?_
    exact hkeyed p.1 p.2 ((mem_vanished_iff hx objects p.1 p.2).mp hp).1

/-- A restart makes one change for each key of the old table or of the new listing. -/
theorem mem_keys_changes_restarted {s : Store} (hx : s.indexer.Consistent)
    (hkeyed : Keyed s.indexer.get?) (objects : List Object) (key : String) :
    key ∈ (s.changes (.restarted objects)).map Change.key ↔
      s.indexer.get? key ≠ none ∨ key ∈ objects.map Object.key := by
  rw [keys_changes_restarted hx hkeyed, List.mem_append, mem_keys_listing]
  have hvanished : key ∈ (s.vanished objects).keys ↔
      s.indexer.get? key ≠ none ∧ key ∉ objects.map Object.key := by
    rw [Table.keys, List.mem_map, Option.ne_none_iff_exists']
    constructor
    · rintro ⟨p, hp, rfl⟩
      have hmem := (mem_vanished_iff hx objects p.1 p.2).mp hp
      exact ⟨⟨p.2, hmem.1⟩, hmem.2⟩
    · rintro ⟨⟨o, ho⟩, hnew⟩
      exact ⟨(key, o), (mem_vanished_iff hx objects key o).mpr ⟨ho, hnew⟩, rfl⟩
  rw [hvanished]
  tauto

theorem nodup_keys_changes_restarted {s : Store} (hx : s.indexer.Consistent)
    (hkeyed : Keyed s.indexer.get?) (objects : List Object) :
    ((s.changes (.restarted objects)).map Change.key).Nodup := by
  rw [keys_changes_restarted hx hkeyed]
  have hvanished : (s.vanished objects).keys.Nodup :=
    (List.filter_sublist.map Prod.fst).nodup hx.items_distinct
  refine List.nodup_append.mpr ⟨Table.distinct_ofPairs _, hvanished, ?_⟩
  intro key hkey other hother heq
  obtain ⟨p, hp, rfl⟩ := List.mem_map.mp hother
  have hnew := ((mem_vanished_iff hx objects p.1 p.2).mp hp).2
  exact hnew (heq ▸ (mem_keys_listing objects key).mp hkey)

/-- The changes of an event lead from the table before it to the table after it. -/
theorem explains_changes {s : Store} (hx : s.indexer.Consistent)
    (hkeyed : Keyed s.indexer.get?) (e : Event) :
    Explains s.indexer.get? (s.apply e).indexer.get? (s.changes e) := by
  rw [get?_apply]
  cases e with
  | applied o =>
    have hone := explains_singleton s.indexer.get? (changeTo (s.indexer.get? o.key) o) (by simp)
    rw [key_changeTo, after_changeTo] at hone
    exact hone
  | deleted o =>
    cases hold : s.indexer.get? o.key with
    | none =>
      have hsame : Event.effect s.indexer.get? (.deleted o) = s.indexer.get? := by
        funext key
        by_cases h : key = o.key
        · simp [Event.effect, h, hold]
        · simp [Event.effect, h]
      rw [hsame]
      have hnothing : s.changes (.deleted o) = [] := by simp [changes, hold]
      rw [hnothing]
      exact ⟨by simp, by simp, by simp, fun _ _ => rfl⟩
    | some old =>
      have hkey : old.key = o.key := hkeyed o.key old hold
      have hone := explains_singleton s.indexer.get? (.deleted old)
        (by rw [Change.key, hkey, hold, Change.before])
      have hchanges : s.changes (.deleted o) = [.deleted old] := by simp [changes, hold]
      rw [hchanges]
      rw [Change.key, hkey] at hone
      exact hone
  | restarted objects =>
    refine ⟨nodup_keys_changes_restarted hx hkeyed objects, ?_, ?_, ?_⟩
    · intro c hc
      rw [changes_restarted, List.mem_append] at hc
      rcases hc with hc | hc
      · obtain ⟨p, hp, rfl⟩ := List.mem_map.mp hc
        rw [key_changeTo, before_changeTo, (mem_listing hp).2]
      · obtain ⟨p, hp, rfl⟩ := List.mem_map.mp hc
        have hold := ((mem_vanished_iff hx objects p.1 p.2).mp hp).1
        rw [Change.key, hkeyed p.1 p.2 hold, hold, Change.before]
    · intro c hc
      simp only [Event.effect, ← find?_listing]
      rw [changes_restarted, List.mem_append] at hc
      rcases hc with hc | hc
      · obtain ⟨p, hp, rfl⟩ := List.mem_map.mp hc
        rw [key_changeTo, after_changeTo, (mem_listing hp).2]
        exact (Table.distinct_ofPairs _).find?_of_mem hp
      · obtain ⟨p, hp, rfl⟩ := List.mem_map.mp hc
        obtain ⟨hold, hnew⟩ := (mem_vanished_iff hx objects p.1 p.2).mp hp
        rw [Change.key, hkeyed p.1 p.2 hold, Change.after, Table.find?_eq_none_iff,
          mem_keys_listing]
        exact hnew
    · intro key hkey
      rw [mem_keys_changes_restarted hx hkeyed, not_or, not_not] at hkey
      rw [hkey.1]
      simp only [Event.effect, ← find?_listing]
      rw [Table.find?_eq_none_iff, mem_keys_listing]
      exact hkey.2

end Store

end WatchCache
