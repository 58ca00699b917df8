import WatchCache.Proofs.Cache.Moves

set_option autoImplicit false

/-!
# Runs without their reads

What becomes of the dedicated kinds is decided by the moves that stir them.  Two caches that are
the same as far as the dedicated kinds go stay so under such a move, and any other move leaves
them as they are; so every move that stirs nothing can be left out of a run.
-/

namespace WatchCache

namespace Cache

/-- Two caches are the same as far as the dedicated kinds go. -/
structure SameDedicated (base c r : Cache) : Prop where
  part : r.hub.part base.share = c.hub.part base.share
  runningUnder : r.runningUnder = c.runningUnder

namespace SameDedicated

variable {base c r q : Cache}

theorem refl (base c : Cache) : SameDedicated base c c := ⟨rfl, rfl⟩

theorem symm (h : SameDedicated base c r) : SameDedicated base r c :=
  ⟨h.part.symm, h.runningUnder.symm⟩

theorem trans (hr : SameDedicated base c r) (hq : SameDedicated base r q) :
    SameDedicated base c q :=
  ⟨hq.part.trans hr.part, hq.runningUnder.trans hr.runningUnder⟩

/-- The stores are the same, and the same was published. -/
theorem stores_eq (h : SameDedicated base c r) {id : Nat} (hid : id < base.hub.stores.length) :
    r.hub.stores[id]? = c.hub.stores[id]? := by
  have hstores : (r.hub.part base.share).stores[id]? = (c.hub.part base.share).stores[id]? := by
    rw [h.part]
  rwa [Hub.getElem?_stores_part hid, Hub.getElem?_stores_part hid] at hstores

theorem topics_eq (h : SameDedicated base c r) {topic : Nat}
    (htopic : topic < base.hub.topics.length) : r.hub.topics[topic]? = c.hub.topics[topic]? := by
  have htopics :
      (r.hub.part base.share).topics[topic]? = (c.hub.part base.share).topics[topic]? := by
    rw [h.part]
  have hpart (h : Hub) : (h.part base.share).topics[topic]? = h.topics[topic]? :=
    List.getElem?_take_of_lt htopic
  rwa [hpart, hpart] at htopics

end SameDedicated

section

variable {base c r : Cache}

/-! ## Acts that stir nothing -/

/-- No loop is there before the first start, and one for each dedicated kind after it. -/
theorem Fenced.loops (hc : Fenced base c) :
    (c.runningUnder = none ∧ c.hub.loops = []) ∨
      (c.runningUnder ≠ none ∧ base.registry.entries.length ≤ c.hub.loops.length) := by
  have hlength : c.hub.loops.length = c.setup.due.length := by
    rw [← hc.sound.loops]
    exact (List.length_map _).symm
  unfold Setup.due at hlength
  cases hrunning : c.setup.runningUnder with
  | none =>
    rw [hrunning] at hlength
    exact Or.inl ⟨hrunning, List.length_eq_zero_iff.mp hlength⟩
  | some token =>
    rw [hrunning] at hlength
    have hentries : c.setup.registry.entries = base.registry.entries :=
      congrArg Registry.entries hc.registry_eq
    have hcount : c.hub.loops.length = (c.setup.loopsUnder token).length := hlength
    rw [Setup.loopsUnder, hentries, List.length_append, List.length_map] at hcount
    have hrunning' : c.runningUnder = some token := hrunning
    exact Or.inr ⟨by simp [hrunning'], by omega⟩

/-- What spares the dedicated stores leaves the part of the dedicated kinds as it is. -/
theorem Fenced.sameDedicated (hc : Fenced base c) (hr : Fenced base r)
    (hspared : Spared base.hub.stores.length c r) (hrunning : r.runningUnder = c.runningUnder) :
    SameDedicated base c r := by
  have hprefix {α : Type} {l l' : List α} {n : Nat} (hlength : n ≤ l.length) (hl : l <+: l') :
      l'.take n = l.take n := by
    obtain ⟨added, rfl⟩ := hl
    exact List.take_append_of_le_length hlength
  have hstores : r.hub.stores.take base.hub.stores.length =
      c.hub.stores.take base.hub.stores.length := by
    refine List.ext_getElem? fun id => ?_
    rw [List.getElem?_take, List.getElem?_take]
    split
    · next hid => exact hspared.cells id hid
    · rfl
  have hloops : r.hub.loops.take base.registry.entries.length =
      c.hub.loops.take base.registry.entries.length := by
    rcases hc.loops with ⟨hidle, hnone⟩ | ⟨-, hlength⟩
    · rcases hr.loops with ⟨-, hnone'⟩ | ⟨hsome, -⟩
      · rw [hnone, hnone']
      · exact absurd (hrunning.trans hidle) hsome
    · exact hprefix hlength hspared.loops
  refine ⟨?_, hrunning⟩
  show Hub.part _ _ = Hub.part _ _
  simp only [Hub.part, share, hspared.now, hspared.cancelled, hspared.subscribers, hstores, hloops,
    hprefix hc.topics hspared.topics, hprefix hc.sources hspared.sources]

theorem Fenced.act_of_spares (hc : Fenced base c) {a : Act} (ha : Spares c.registry a) :
    SameDedicated base c (c.act a) := by
  refine hc.sameDedicated (hc.act a) (spared_act hc.sound ha) ?_
  have hnone : startToken? a = none := by
    unfold startToken?
    split
    · exact ha.elim
    · rfl
  rw [runningUnder_act hc.sound, hnone, Option.or_none]

/-! ## Acts that stir -/

/-- The first start starts the loops of the dedicated kinds before all others. -/
theorem Fenced.part_first (hc : Fenced base c) (hidle : c.runningUnder = none) (token : Token)
    (others : List Loop) :
    ({ c.hub with
      loops := c.hub.loops ++ ((c.registry.entries.map fun e => e.loop c.options token) ++ others) }
        : Hub).part base.share =
      { c.hub.part base.share with
        loops := base.registry.entries.map fun e => e.loop base.options token } := by
  have hnone : c.hub.loops = [] := by
    rcases hc.loops with ⟨-, hnone⟩ | ⟨hsome, -⟩
    · exact hnone
    · exact absurd hidle hsome
  have htake : ((base.registry.entries.map fun e => e.loop base.options token) ++ others).take
      base.registry.entries.length =
        base.registry.entries.map fun e => e.loop base.options token := by
    refine List.take_left' ?_
    rw [List.length_map]
  simp only [Hub.part, share, hnone, hc.registry_eq, hc.options_eq, List.nil_append, htake]

/-- What stirs two caches that are the same does so in the same way. -/
theorem SameDedicated.stirs (hbase : base.Assembled) (hc : Fenced base c) (hr : Fenced base r)
    (hsame : SameDedicated base c r) {a : Act} {h h' : Hub} (hstirs : Stirs c a h)
    (hstirs' : Stirs r a h') : h'.part base.share = h.part base.share := by
  have hsplits := hc.splits hbase
  have hsplits' := hr.splits hbase
  cases hstirs with
  | step loop =>
    cases hstirs' with
    | step _ => rw [Hub.part_stepOnce hsplits, Hub.part_stepOnce hsplits', hsame.part]
  | outside s =>
    cases hstirs' with
    | outside _ => rw [Hub.part_meet hsplits, Hub.part_meet hsplits', hsame.part]
  | @first token hidle =>
    cases hstirs' with
    | first hidle' => rw [hc.part_first hidle, hr.part_first hidle', hsame.part]
    | again hrunning => cases (hsame.runningUnder.symm.trans hrunning).symm.trans hidle
  | @again token other hrunning =>
    cases hstirs' with
    | first hidle => cases (hsame.runningUnder.symm.trans hidle).symm.trans hrunning
    | again _ => exact hsame.part
  | @index k field extract e hlookup =>
    cases hstirs' with
    | @index _ _ _ e' hlookup' =>
      rw [hc.registry_eq] at hlookup
      rw [hr.registry_eq] at hlookup'
      cases hlookup.symm.trans hlookup'
      have hid : e.store < base.share.stores := hbase.dedicated.lookup k e hlookup
      rw [Hub.part_tryStore hid, Hub.part_tryStore hid, hsame.part]

/-- Both caches go on in the same way. -/
theorem SameDedicated.act (hbase : base.Assembled) (hc : Fenced base c) (hr : Fenced base r)
    (hsame : SameDedicated base c r) (a : Act) : SameDedicated base (c.act a) (r.act a) := by
  have hregistry : r.registry = c.registry := hr.registry_eq.trans hc.registry_eq.symm
  by_cases hspares : Spares c.registry a
  · have hspares' : Spares r.registry a := hregistry ▸ hspares
    exact ((hc.act_of_spares hspares).symm.trans hsame).trans (hr.act_of_spares hspares')
  · have hstirs := (spares_or_stirs hc.sound a).resolve_left hspares
    have hstirs' := (spares_or_stirs hr.sound a).resolve_left fun hspares' =>
      hspares (hregistry ▸ hspares')
    refine ⟨hsame.stirs hbase hc hr hstirs hstirs', ?_⟩
    rw [runningUnder_act hr.sound, runningUnder_act hc.sound, hsame.runningUnder]

theorem SameDedicated.move (hbase : base.Assembled) (hc : Fenced base c) (hr : Fenced base r)
    (hsame : SameDedicated base c r) (m : Move) : SameDedicated base (c.move m) (r.move m) := by
  cases m with
  | act a => exact hsame.act hbase hc hr a
  | subscribe topic =>
    refine ⟨?_, hsame.runningUnder⟩
    show (r.hub.subscribe topic).2.part _ = (c.hub.subscribe topic).2.part _
    rw [Hub.part_subscribe, Hub.part_subscribe (h := c.hub), hsame.part]
  | unsubscribe sub =>
    refine ⟨?_, hsame.runningUnder⟩
    show (r.hub.unsubscribe sub).part _ = (c.hub.unsubscribe sub).part _
    rw [Hub.part_unsubscribe, Hub.part_unsubscribe, hsame.part]
  | receive sub =>
    refine ⟨?_, hsame.runningUnder⟩
    show (r.hub.receive sub).2.part _ = (c.hub.receive sub).2.part _
    rw [Hub.part_receive, Hub.part_receive, hsame.part]
  | addIndex k name extract =>
    cases hlookup : base.registry.lookup k with
    | none =>
      rw [move_addIndex_of_none (hc.registry_eq ▸ hlookup),
        move_addIndex_of_none (hr.registry_eq ▸ hlookup)]
      exact hsame
    | some e =>
      have hid : e.store < base.share.stores := hbase.dedicated.lookup k e hlookup
      rw [move_addIndex (hc.registry_eq ▸ hlookup), move_addIndex (hr.registry_eq ▸ hlookup)]
      refine ⟨?_, hsame.runningUnder⟩
      show (r.hub.tryStore e.store _).2.part _ = (c.hub.tryStore e.store _).2.part _
      rw [Hub.part_tryStore hid, Hub.part_tryStore hid, hsame.part]

end

/-! ## Reads -/

/-- Whether a move is a call that reads: of an object, of a list or of a handle. -/
def Move.isRead : Move → Bool
  | .act (.request (.get _ _)) | .act (.request (.list _ _)) | .act (.request (.informer _)) => true
  | _ => false

theorem Move.exists_of_isRead {m : Move} (hread : m.isRead = true) (registry : Registry) :
    ∃ a, m = .act a ∧ Spares registry a := by
  unfold isRead at hread
  split at hread
  · exact ⟨_, rfl, trivial⟩
  · exact ⟨_, rfl, trivial⟩
  · exact ⟨_, rfl, trivial⟩
  · cases hread

/-- Reads can be left out of a run. -/
theorem sameDedicated_drive {base : Cache} (hbase : base.Assembled) (moves : List Move) :
    SameDedicated base (base.drive moves) (base.drive (moves.filter fun m => !m.isRead)) := by
  induction moves using List.reverseRecOn with
  | nil => exact .refl base base
  | append_singleton moves m ih =>
    have hc := hbase.fenced_drive moves
    rw [drive_concat, List.filter_append]
    cases hread : m.isRead with
    | true =>
      obtain ⟨a, rfl, hspares⟩ := Move.exists_of_isRead hread (base.drive moves).registry
      have hnothing : [Move.act a].filter (fun m => !m.isRead) = [] := by simp [hread]
      rw [hnothing, List.append_nil]
      exact (hc.act_of_spares hspares).symm.trans ih
    | false =>
      have hkept : [m].filter (fun m => !m.isRead) = [m] := by simp [hread]
      rw [hkept, drive_concat]
      exact ih.move hbase hc (hbase.fenced_drive _) m

end Cache

end WatchCache
