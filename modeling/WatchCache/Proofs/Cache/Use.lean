import WatchCache.Proofs.Cache.Moves

set_option autoImplicit false

/-!
# Reads by type

Callers name what they read by a kind, or by a type that the scheme of the cache resolves to a
kind; then the objects are decoded.  `useAll` is the cache after uses of both sorts, in any order
and between any other moves.
-/

namespace WatchCache

namespace Cache

/-! ## Uses -/

/-- The call that was begun is entered among the calls. -/
def entered (begun : Call × Cache) : Cache := begun.2.withCalls (begun.2.calls ++ [begun.1])

/-- Begins a call for the kind of a type; it fails at once if the type is not known. -/
def ofType (c : Cache) (t : ResourceType) (begin_ : Kind → Call × Cache) : Call × Cache :=
  match c.scheme.kindOf t with
  | .error e => (.finished (.failed e), c)
  | .ok k => begin_ k

/-- What happens to a cache, calls by type included. -/
inductive Use where
  | move (m : Move)
  | get (type : ResourceType) (key : ObjectKey)
  | list (type : ResourceType) (options : ListOptions)
  | informer (type : ResourceType)
  | index (type : ResourceType) (field : String) (extract : Extractor)

/-- The cache after a use. -/
def use (c : Cache) : Use → Cache
  | .move m => c.move m
  | .get t key => entered (c.ofType t fun k => c.beginGet k key (some t))
  | .list t o => entered (c.ofType t fun k => c.beginList k.list o (some t))
  | .informer t => entered (c.ofType t c.beginInformer)
  | .index t field extract => entered (c.ofType t fun k => c.beginIndex k field extract)

/-- The cache after uses. -/
def useAll (c : Cache) (uses : List Use) : Cache := uses.foldl use c

@[simp] theorem useAll_nil (c : Cache) : c.useAll [] = c := rfl

@[simp] theorem useAll_concat (c : Cache) (uses : List Use) (u : Use) :
    c.useAll (uses ++ [u]) = (c.useAll uses).use u := by
  simp [useAll]

/-! ## Calls of callers -/

theorem enter_eq (begun : Call × Cache) : (enter begun).2 = (entered begun).settle := rfl

/-- Getting an object of a type is a use, after which the cache settles. -/
theorem getTyped_eq (c : Cache) (t : ResourceType) (key : ObjectKey) :
    (c.getTyped t key).2 = (c.use (.get t key)).settle := by
  simp only [getTyped, use, ofType]
  cases c.scheme.kindOf t <;> rfl

/-- Listing objects of a type is a use, after which the cache settles. -/
theorem listTyped_eq (c : Cache) (t : ResourceType) (o : ListOptions) :
    (c.listTyped t o).2 = (c.use (.list t o)).settle := by
  simp only [listTyped, use, ofType]
  cases c.scheme.kindOf t <;> rfl

/-- A handle on the stores of a type comes by a use, after which the cache settles. -/
theorem informerOfType_eq (c : Cache) (t : ResourceType) :
    (c.forType t c.informer).2 = (c.use (.informer t)).settle := by
  simp only [forType, use, ofType]
  cases c.scheme.kindOf t <;> rfl

/-- An index on a type is added by a use, after which the cache settles. -/
theorem indexOfType_eq (c : Cache) (t : ResourceType) (field : String) (extract : Extractor) :
    (c.forType t fun k => c.indexField k field extract).2 =
      (c.use (.index t field extract)).settle := by
  simp only [forType, use, ofType]
  cases c.scheme.kindOf t <;> rfl

/-! ## Reads -/

/-- What is read, and the type that it is decoded into. -/
inductive Read where
  | get (kind : Kind) (key : ObjectKey) (type : Option ResourceType)
  | list (kind : Kind) (options : ListOptions) (type : Option ResourceType)

/-- The call of a read, as far as it comes at once. -/
def beginRead (c : Cache) : Read → Call × Cache
  | .get k key type => c.beginGet k key type
  | .list k o type => c.beginList k o type

/-- What a use reads; a type that is not known reads nothing. -/
def read? (c : Cache) : Use → Option Read
  | .move (.act (.request (.get k key))) => some (.get k key none)
  | .move (.act (.request (.list k o))) => some (.list k o none)
  | .get t key => (c.scheme.kindOf t).toOption.map fun k => .get k key (some t)
  | .list t o => (c.scheme.kindOf t).toOption.map fun k => .list k.list o (some t)
  | _ => none

theorem use_of_read {c : Cache} {u : Use} {q : Read} (hread : c.read? u = some q) :
    c.use u = entered (c.beginRead q) := by
  cases u with
  | move m =>
    cases m with
    | act a =>
      cases a with
      | request r =>
        cases r with
        | get k key | list k o =>
          cases hread
          rfl
        | informer k | index k field extract | start token | waitForSync token => cases hread
      | poll id | step loop | outside s | addIndex k name extract | reconnect connector =>
        cases hread
    | subscribe topic | unsubscribe sub | receive sub | addIndex k name extract => cases hread
  | get t key =>
    simp only [read?] at hread
    simp only [use, ofType]
    cases hkind : c.scheme.kindOf t with
    | error e =>
      rw [hkind] at hread
      cases hread
    | ok k =>
      rw [hkind] at hread
      cases hread
      rfl
  | list t o =>
    simp only [read?] at hread
    simp only [use, ofType]
    cases hkind : c.scheme.kindOf t with
    | error e =>
      rw [hkind] at hread
      cases hread
    | ok k =>
      rw [hkind] at hread
      cases hread
      rfl
  | informer t | index t field extract => cases hread

/-! ## Types make no difference to the cache -/

/-- What reaching a goal makes of a cache is all that a call of the fallback makes of it. -/
theorem beginFallback_congr {c : Cache} {k : Kind} {goal other : Goal}
    (hreach : ∀ (c : Cache) (i : Informer), (c.reach i goal).2 = (c.reach i other).2) :
    (c.beginFallback k goal).2 = (c.beginFallback k other).2 := by
  simp only [beginFallback]
  rcases c.openInformer k with ⟨_ | i, opened⟩
  · rfl
  · dsimp only
    split
    · split
      · exact hreach opened i
      · rfl
    · exact hreach opened i

theorem beginGet_type (c : Cache) (k : Kind) (key : ObjectKey) (type : Option ResourceType) :
    (c.beginGet k key type).2 = (c.beginGet k key none).2 := by
  simp only [beginGet]
  split
  · exact beginFallback_congr fun _ _ => rfl
  · split <;> rfl

theorem beginList_type (c : Cache) (k : Kind) (o : ListOptions) (type : Option ResourceType) :
    (c.beginList k o type).2 = (c.beginList k o none).2 := by
  simp only [beginList]
  split
  · rfl
  · exact beginFallback_congr fun _ _ => rfl

/-- A use is a move; or a request, but for what it enters among the calls; or it changes nothing
but the calls. -/
theorem use_cases (c : Cache) (u : Use) :
    (∃ m, u = .move m) ∨
      (∀ m, u ≠ .move m) ∧ ((∃ calls, c.use u = c.withCalls calls) ∨
        ∃ r calls, c.use u = (c.act (.request r)).withCalls calls) := by
  have htyped {t : ResourceType} {begin_ : Kind → Call × Cache} (request : Kind → Request)
      (hbegin : ∀ k, (begin_ k).2 = (c.begin (request k)).2) :
      (∃ calls, entered (c.ofType t begin_) = c.withCalls calls) ∨
        ∃ r calls, entered (c.ofType t begin_) = (c.act (.request r)).withCalls calls := by
    unfold ofType
    cases c.scheme.kindOf t with
    | error e => exact Or.inl ⟨_, rfl⟩
    | ok k =>
      refine Or.inr ⟨request k, (begin_ k).2.calls ++ [(begin_ k).1], ?_⟩
      show (begin_ k).2.withCalls _ = (c.begin (request k)).2.withCalls _
      rw [hbegin]
  cases u with
  | move m => exact Or.inl ⟨m, rfl⟩
  | get t key =>
    exact Or.inr ⟨nofun, htyped (.get · key) fun k => c.beginGet_type k key _⟩
  | list t o =>
    exact Or.inr ⟨nofun, htyped (fun k => .list k.list o)
      fun k => c.beginList_type k.list o _⟩
  | informer t => exact Or.inr ⟨nofun, htyped .informer fun _ => rfl⟩
  | index t field extract =>
    exact Or.inr ⟨nofun, htyped (.index · field extract) fun _ => rfl⟩

theorem Fenced.withCalls {base c : Cache} (hc : Fenced base c) (calls : List Call) :
    Fenced base (c.withCalls calls) :=
  { hc with }

theorem Fenced.use {base c : Cache} (hc : Fenced base c) (u : Use) : Fenced base (c.use u) := by
  rcases c.use_cases u with ⟨m, rfl⟩ | ⟨-, ⟨calls, hsame⟩ | ⟨r, calls, hsame⟩⟩
  · exact hc.move m
  · exact hsame ▸ hc.withCalls calls
  · exact hsame ▸ (hc.act (.request r)).withCalls calls

theorem Assembled.fenced_useAll {base : Cache} (hbase : base.Assembled) (uses : List Use) :
    Fenced base (base.useAll uses) := by
  induction uses using List.reverseRecOn with
  | nil => exact hbase.fenced
  | append_singleton uses u ih =>
    rw [useAll_concat]
    exact ih.use u

/-! ## What uses deliver -/

/-- What a use delivers to a store. -/
def gives (c : Cache) : Use → List Hub.Delivery
  | .move (.act a) => c.delivers a
  | _ => []

theorem gives_of_not_act {c : Cache} {u : Use} (hnot : ∀ a, u ≠ .move (.act a)) :
    c.gives u = [] := by
  cases u with
  | move m =>
    cases m with
    | act a => exact absurd rfl (hnot a)
    | subscribe _ | unsubscribe _ | receive _ | addIndex _ _ _ => rfl
  | get _ _ | list _ _ | informer _ | index _ _ _ => rfl

/-- All deliveries of uses, in order. -/
def deliveries : Cache → List Use → List Hub.Delivery
  | _, [] => []
  | c, u :: rest => c.gives u ++ deliveries (c.use u) rest

@[simp] theorem deliveries_concat (c : Cache) (uses : List Use) (u : Use) :
    c.deliveries (uses ++ [u]) = c.deliveries uses ++ (c.useAll uses).gives u := by
  induction uses generalizing c with
  | nil => simp [deliveries]
  | cons first rest ih =>
    rw [List.cons_append, deliveries, ih, deliveries, List.append_assoc]
    rfl

end Cache

end WatchCache
