import WatchCache.Proofs.Cache.Use

set_option autoImplicit false

/-!
# The connector of a cache

Whatever a cache is used for, it stays with its connector, unless it is connected anew.
-/

namespace WatchCache

namespace Cache

theorem Grown.connector_eq {k : Kind} {c r : Cache} (hgrown : Grown k c r) :
    r.connector = c.connector := by
  rw [hgrown.rest]

theorem connector_openInformer (c : Cache) (k : Kind) :
    (c.openInformer k).2.connector = c.connector := by
  rcases hopen : c.openInformer k with ⟨answer, opened⟩
  cases opens_of_openInformer hopen with
  | found _ => rfl
  | failed _ hbuild => exact (grown_of_buildInformer hbuild).connector_eq
  | made _ hbuild => exact (grown_of_buildInformer hbuild).connector_eq

theorem connector_beginFallback (c : Cache) (k : Kind) (goal : Goal) :
    (c.beginFallback k goal).2.connector = c.connector := by
  rcases hopen : c.openInformer k with ⟨answer, opened⟩
  obtain ⟨cells, metrics, hframe⟩ := exists_beginFallback hopen goal
  rw [hframe, ← c.connector_openInformer k, hopen]
  rfl

theorem connector_begin (c : Cache) (r : Request) : (c.begin r).2.connector = c.connector := by
  cases r with
  | get k key =>
    simp only [begin, beginGet]
    split
    · exact connector_beginFallback _ _ _
    · split <;> rfl
  | list k o =>
    simp only [begin, beginList]
    split
    · rfl
    · exact connector_beginFallback _ _ _
  | informer k =>
    simp only [begin, beginInformer]
    split
    · rfl
    · exact connector_beginFallback _ _ _
  | index k field extract =>
    simp only [begin, beginIndex]
    split
    · rfl
    · exact connector_beginFallback _ _ _
  | start token =>
    show (c.beginStart token).2.connector = c.connector
    unfold beginStart
    cases hstarted : c.started <;> cases hrunning : c.runningUnder <;>
      simp [spawnDedicated_eq, spawnInformers_eq, withLoops, withHub, hstarted, hrunning]
  | waitForSync token => rfl

theorem connector_poll (c : Cache) (call : Call) : (c.poll call).2.connector = c.connector := by
  cases call with
  | finished reply => rfl
  | running token => rfl
  | awaitingFallback stores token => rfl
  | fetching kind due answer type =>
    rw [poll]
    split
    · cases answer <;> rfl
    · rfl
  | awaitingDedicated token =>
    rw [poll]
    split <;> rfl
  | syncing kind token goal =>
    rcases hpoll : c.poll (.syncing kind token goal) with ⟨call, polled⟩
    cases polled_of_poll hpoll with
    | waits _ => rfl
    | stops _ _ => rfl
    | reaches _ _ =>
      obtain ⟨cells, metrics, hframe⟩ := c.exists_reach _ goal
      rw [hframe]
      rfl

/-- If a use connects a cache anew, then to a connector with a property. -/
def Use.Connects (P : Connector → Prop) (u : Use) : Prop :=
  ∀ connector, u = .move (.act (.reconnect connector)) → P connector

theorem connector_use (c : Cache) (u : Use) :
    (c.use u).connector = c.connector ∨
      ∃ connector, u = .move (.act (.reconnect connector)) ∧ (c.use u).connector = connector := by
  have hofType {t : ResourceType} {begin_ : Kind → Call × Cache} (request : Kind → Request)
      (hbegin : ∀ k, (begin_ k).2 = (c.begin (request k)).2) :
      (entered (c.ofType t begin_)).connector = c.connector := by
    show (c.ofType t begin_).2.connector = c.connector
    unfold ofType
    split
    · rfl
    · rw [hbegin]
      exact c.connector_begin _
  cases u with
  | move m =>
    cases m with
    | act a =>
      cases a with
      | request r => exact Or.inl (c.connector_begin r)
      | poll id =>
        simp only [use, move, act]
        split
        · exact Or.inl (c.connector_poll _)
        · exact Or.inl rfl
      | addIndex k name extract =>
        simp only [use, move, act]
        split <;> exact Or.inl rfl
      | reconnect connector => exact Or.inr ⟨connector, rfl, rfl⟩
      | step loop | outside s => exact Or.inl rfl
    | addIndex k name extract =>
      simp only [use, move]
      split <;> exact Or.inl rfl
    | subscribe topic | unsubscribe sub | receive sub => exact Or.inl rfl
  | get t key => exact Or.inl (hofType (.get · key) fun k => c.beginGet_type k key _)
  | list t o =>
    exact Or.inl (hofType (fun k => .list k.list o) fun k => c.beginList_type k.list o _)
  | informer t => exact Or.inl (hofType .informer fun _ => rfl)
  | index t field extract => exact Or.inl (hofType (.index · field extract) fun _ => rfl)

theorem Use.Connects.use {P : Connector → Prop} {c : Cache} {u : Use} (hu : u.Connects P)
    (hc : P c.connector) : P (c.use u).connector := by
  rcases c.connector_use u with hsame | ⟨connector, rfl, hnew⟩
  · rwa [hsame]
  · rw [hnew]
    exact hu connector rfl

theorem connects_useAll {P : Connector → Prop} {c : Cache} (hc : P c.connector) {uses : List Use}
    (huses : ∀ u ∈ uses, u.Connects P) : P (c.useAll uses).connector := by
  induction uses using List.reverseRecOn with
  | nil => exact hc
  | append_singleton uses u ih =>
    rw [useAll_concat]
    exact (huses u (by simp)).use (ih fun v hv => huses v (List.mem_append_left _ hv))

end Cache

end WatchCache
