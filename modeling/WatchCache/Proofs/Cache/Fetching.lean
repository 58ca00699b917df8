import WatchCache.Proofs.Cache.Deletion

set_option autoImplicit false

/-!
# Reads of dedicated kinds

A read of a dedicated kind is answered from its store if the object is there when it is asked
for.  If not, it fetches the object once, and its answer is what the fetch found, whatever the
store has been told since; nothing is ever written back.
-/

namespace WatchCache

namespace Cache

section

variable {base c : Cache}

/-! ## Calls and the clock -/

/-- A call changes only by being polled. -/
theorem getElem?_calls_move {id : Nat} {call : Call} (hcall : c.calls[id]? = some call) (m : Move) :
    m = .act (.poll id) ∧ (c.move m).calls[id]? = some (c.poll call).1 ∨
      m ≠ .act (.poll id) ∧ (c.move m).calls[id]? = some call := by
  cases m with
  | act a =>
    rcases getElem?_calls_act hcall a with ⟨rfl, hpolled⟩ | ⟨hother, hsame⟩
    · exact Or.inl ⟨rfl, hpolled⟩
    · exact Or.inr ⟨fun heq => hother (Move.act.inj heq), hsame⟩
  | subscribe topic => exact Or.inr ⟨by simp, hcall⟩
  | unsubscribe sub => exact Or.inr ⟨by simp, hcall⟩
  | receive sub => exact Or.inr ⟨by simp, hcall⟩
  | addIndex k name extract =>
    refine Or.inr ⟨by simp, ?_⟩
    simp only [move]
    split <;> exact hcall

theorem now_tryStore (h : Hub) (id : Nat) (f : Store → Answer Store) :
    (h.tryStore id f).2.now = h.now := by
  unfold Hub.tryStore
  split
  · rfl
  · split <;> rfl

theorem Stirs.now_le {a : Act} {h : Hub} (hstirs : Stirs c a h) : c.hub.now ≤ h.now := by
  cases hstirs with
  | step loop =>
    rcases c.hub.stepOnce_cases loop with ⟨-, hsame⟩ | ⟨l, -, hstep⟩
    · exact Nat.le_of_eq (congrArg Hub.now hsame).symm
    · exact Nat.le_of_eq hstep.now_eq.symm
  | outside s =>
    cases s with
    | advance ms => exact Nat.le_add_right _ _
    | cancel token => exact Nat.le_refl _
    | feed source e =>
      rcases c.hub.meet_feed_cases source e with hsame | ⟨queue, held, turns, -, hfed⟩
      · exact Nat.le_of_eq (congrArg Hub.now hsame).symm
      · exact Nat.le_of_eq (congrArg Hub.now hfed).symm
  | first _ => exact Nat.le_refl _
  | again _ => exact Nat.le_refl _
  | @index k field extract entry _ => exact Nat.le_of_eq (now_tryStore c.hub entry.store _).symm

/-- The clock never goes back. -/
theorem Fenced.now_le (hc : Fenced base c) (m : Move) : c.hub.now ≤ (c.move m).hub.now := by
  cases m with
  | act a =>
    rcases spares_or_stirs hc.sound a with hspares | hstirs
    · exact Nat.le_of_eq (spared_act hc.sound hspares).now.symm
    · exact hstirs.now_le
  | subscribe topic => exact Nat.le_refl _
  | unsubscribe sub => exact Nat.le_refl _
  | receive sub =>
    have hpart : (c.hub.receive sub).2.part base.share = c.hub.part base.share :=
      Hub.part_receive sub
    exact Nat.le_of_eq (congrArg Hub.now hpart).symm
  | addIndex k name extract =>
    cases hlookup : c.registry.lookup k with
    | none =>
      have hsame := move_addIndex_of_none hlookup name extract
      exact Nat.le_of_eq (congrArg (fun q : Cache => q.hub.now) hsame).symm
    | some e =>
      rw [move_addIndex hlookup]
      exact Nat.le_of_eq (now_tryStore c.hub e.store _).symm

/-- A fetch that is due ends with the object under the kind, or with the failure as it is. -/
theorem poll_fetching (c : Cache) (k : Kind) (due : Nat) (answer : Answer Object) :
    (c.poll (.fetching k due answer none)).1 =
      if due ≤ c.hub.now then .finished (replyOf .object (answer.map fun o => o.stamp k))
      else .fetching k due answer none := by
  rw [poll]
  split
  · cases answer <;> rfl
  · rfl

/-- A call that has ended stays as it ended. -/
theorem finished_drive {id : Nat} {reply : Reply} (hcall : c.calls[id]? = some (.finished reply))
    (later : List Move) : (c.drive later).calls[id]? = some (.finished reply) := by
  induction later using List.reverseRecOn with
  | nil => exact hcall
  | append_singleton later m ih =>
    rw [drive_concat]
    rcases getElem?_calls_move ih m with ⟨-, hpolled⟩ | ⟨-, hsame⟩
    · exact hpolled
    · exact hsame

/-- A fetch goes on until it is due, and ends with what it found when it is polled then. -/
theorem fetching_drive (hbase : base.Assembled) (moves : List Move) {id due : Nat} {k : Kind}
    {answer : Answer Object}
    (hcall : (base.drive moves).calls[id]? = some (.fetching k due answer none))
    (later : List Move) :
    (base.drive (moves ++ later)).calls[id]? = some (.fetching k due answer none) ∨
      due ≤ (base.drive (moves ++ later)).hub.now ∧
        (base.drive (moves ++ later)).calls[id]? =
          some (.finished (replyOf .object (answer.map fun o => o.stamp k))) := by
  induction later using List.reverseRecOn with
  | nil =>
    rw [List.append_nil]
    exact Or.inl hcall
  | append_singleton later m ih =>
    have hnow := (hbase.fenced_drive (moves ++ later)).now_le m
    rw [← List.append_assoc, drive_concat]
    rcases ih with hwaits | ⟨hdue, hended⟩
    · rcases getElem?_calls_move hwaits m with ⟨-, hpolled⟩ | ⟨-, hsame⟩
      · rw [hpolled, poll_fetching]
        split
        · next hdue => exact Or.inr ⟨Nat.le_trans hdue hnow, rfl⟩
        · exact Or.inl rfl
      · exact Or.inl hsame
    · exact Or.inr ⟨Nat.le_trans hdue hnow, finished_drive hended [m]⟩

/-! ## The stores of the dedicated kinds -/

theorem EntriesTold.move {ledger : List Hub.Delivery} (hbase : base.Assembled)
    (hc : Fenced base c) (htold : c.EntriesTold ledger) (m : Move) :
    ∃ more, (c.move m).EntriesTold more := by
  have hregistry := hc.registry_eq
  have hnodup : (c.registry.entries.map Entry.store).Nodup := hregistry.symm ▸ hbase.stores_nodup
  have hsound : c.registry.Sound := hregistry.symm ▸ hbase.registry_sound
  cases m with
  | act a => exact ⟨_, htold.act hc.sound hsound hnodup a⟩
  | subscribe topic => exact ⟨ledger, htold⟩
  | unsubscribe sub => exact ⟨ledger, htold⟩
  | receive sub => exact ⟨ledger, htold.congr rfl fun e _ => c.hub.store?_receive sub e.store⟩
  | addIndex k name extract =>
    cases hlookup : c.registry.lookup k with
    | none =>
      rw [move_addIndex_of_none hlookup]
      exact ⟨ledger, htold⟩
    | some e =>
      obtain ⟨he, -⟩ := hsound.found k e hlookup
      rw [move_addIndex hlookup]
      exact ⟨ledger, htold.index hnodup he name extract⟩

/-- The store of a dedicated kind stays there, and is for that kind. -/
theorem kind_of_entry (hbase : base.Assembled) (moves : List Move) {e : Entry}
    (he : e ∈ base.registry.entries) :
    ∃ s, (base.drive moves).hub.store? e.store = some s ∧ s.kind = e.kind := by
  have htold : ∃ ledger, (base.drive moves).EntriesTold ledger := by
    induction moves using List.reverseRecOn with
    | nil => exact ⟨[], entriesTold_run hbase.toUnused []⟩
    | append_singleton moves m ih =>
      obtain ⟨ledger, htold⟩ := ih
      rw [drive_concat]
      exact htold.move hbase (hbase.fenced_drive moves) m
  obtain ⟨ledger, htold⟩ := htold
  have hregistry := (hbase.fenced_drive moves).registry_eq
  obtain ⟨extractors, hhub⟩ := htold e (hregistry.symm ▸ he)
  obtain ⟨s, hs, hstore⟩ := hhub e.store List.mem_cons_self
  obtain ⟨calls, rfl⟩ := hstore.reached
  exact ⟨_, hs, Store.kind_run e.kind calls⟩

/-! ## Fetches -/

/-- The fetch that a move makes: a read of a dedicated kind makes one if the store of the kind
does not have the object. -/
def missed (c : Cache) : Move → List FetchRecord
  | .act (.request (.get k key)) =>
    match c.registry.lookup k with
    | some e => if (c.hub.table e.store key.text).isNone then [⟨e.kind, key⟩] else []
    | none => []
  | _ => []

/-- All fetches that moves make, in order. -/
def misses : Cache → List Move → List FetchRecord
  | _, [] => []
  | c, m :: rest => c.missed m ++ misses (c.move m) rest

theorem misses_concat (c : Cache) (moves : List Move) (m : Move) :
    c.misses (moves ++ [m]) = c.misses moves ++ (c.drive moves).missed m := by
  induction moves generalizing c with
  | nil => simp [misses]
  | cons first rest ih =>
    rw [List.cons_append, misses, ih, misses, List.append_assoc]
    rfl

/-- What a store returns for an address is the object in its table, under its kind. -/
theorem get?_of_store? {h : Hub} {id : Nat} {s : Store} (hs : h.store? id = some s)
    (key : ObjectKey) :
    (h.store? id).bind (·.get? key) = (h.table id key.text).map fun o => o.stamp s.kind := by
  rw [Hub.table, hs]
  rfl

theorem get?_eq_none_iff (h : Hub) (id : Nat) (key : ObjectKey) :
    (h.store? id).bind (·.get? key) = none ↔ h.table id key.text = none := by
  cases hs : h.store? id with
  | none => simp [Hub.table, hs]
  | some s =>
    rw [← hs, get?_of_store? hs, Option.map_eq_none_iff]

theorem begin_hit {k : Kind} {key : ObjectKey} {e : Entry} {s : Store} {o : Object}
    (hlookup : c.registry.lookup k = some e) (hs : c.hub.store? e.store = some s)
    (ho : c.hub.table e.store key.text = some o) :
    c.begin (.get k key) = (.finished (.object (o.stamp s.kind)), c.count (.reads "store")) := by
  have hfound : (c.hub.store? e.store).bind (·.get? key) = some (o.stamp s.kind) := by
    rw [get?_of_store? hs, ho]
    rfl
  simp only [begin, beginGet, hlookup, hfound]
  rfl

theorem begin_miss {k : Kind} {key : ObjectKey} {e : Entry}
    (hlookup : c.registry.lookup k = some e) (hnone : c.hub.table e.store key.text = none) :
    (c.begin (.get k key)).1 =
        .fetching e.kind
          (c.hub.now + (c.connector.fetch c.fetchLog.length e.kind key).delay)
          (c.connector.fetch c.fetchLog.length e.kind key).answer none ∧
      (c.begin (.get k key)).2.fetchLog = c.fetchLog ++ [⟨e.kind, key⟩] := by
  have hmissing := (get?_eq_none_iff c.hub e.store key).mpr hnone
  simp only [begin, beginGet, hlookup, hmissing]
  exact ⟨rfl, rfl⟩

/-- Every move makes the fetches that it has to make, and no others. -/
theorem fetchLog_move (c : Cache) (m : Move) : (c.move m).fetchLog = c.fetchLog ++ c.missed m := by
  cases m with
  | subscribe topic => exact (List.append_nil _).symm
  | unsubscribe sub => exact (List.append_nil _).symm
  | receive sub => exact (List.append_nil _).symm
  | addIndex k name extract =>
    have hkept : (c.move (.addIndex k name extract)).fetchLog = c.fetchLog := by
      simp only [move]
      split <;> rfl
    exact hkept.trans (List.append_nil _).symm
  | act a =>
    rcases c.fetchLog_act a with hsame | ⟨k, key, e, rfl, hlookup, hnone, hfetched⟩
    · have hnothing : c.missed (.act a) = [] := by
        unfold missed
        split
        · next k key heq =>
          cases heq
          cases hlookup : c.registry.lookup k with
          | none => rfl
          | some e =>
            cases hfound : c.hub.table e.store key.text with
            | some o => simp [hfound]
            | none =>
              -- a miss would have been entered into the log
              have hfetched := (begin_miss hlookup hfound).2.symm.trans hsame
              simp at hfetched
        · rfl
      rw [hnothing, List.append_nil]
      exact hsame
    · have hmissing := (get?_eq_none_iff c.hub e.store key).mp hnone
      have hone : c.missed (.act (.request (.get k key))) = [⟨e.kind, key⟩] := by
        simp [missed, hlookup, hmissing]
      rw [hone]
      exact hfetched

theorem fetchLog_drive (c : Cache) (moves : List Move) :
    (c.drive moves).fetchLog = c.fetchLog ++ c.misses moves := by
  induction moves using List.reverseRecOn with
  | nil => exact (List.append_nil _).symm
  | append_singleton moves m ih =>
    rw [drive_concat, fetchLog_move, ih, misses_concat, List.append_assoc]

/-! ## Reads of a dedicated kind -/

/-- A read of an object that the store holds has its reply at once, and keeps it. -/
theorem reply?_of_hit (hbase : base.Assembled) (moves later : List Move) {k : Kind}
    {key : ObjectKey} {e : Entry} {o : Object} (hlookup : base.registry.lookup k = some e)
    (ho : (base.drive moves).hub.table e.store key.text = some o) :
    (base.drive (moves ++ .act (.request (.get k key)) :: later)).reply?
        (base.drive moves).calls.length = some (.object (o.stamp e.kind)) := by
  have hregistry := (hbase.fenced_drive moves).registry_eq
  obtain ⟨he, -⟩ := hbase.registry_sound.found k e hlookup
  obtain ⟨s, hs, hkind⟩ := kind_of_entry hbase moves he
  have hbegin := begin_hit (hregistry ▸ hlookup) hs ho
  have hcall := (base.drive moves).call_act_request (.get k key)
  rw [hbegin, hkind] at hcall
  rw [drive_append]
  exact reply?_of_calls (finished_drive hcall later)

/-- A read of an object that the store does not hold waits for its fetch. -/
theorem calls_of_miss (hbase : base.Assembled) (moves later : List Move) {k : Kind}
    {key : ObjectKey} {e : Entry} (hlookup : base.registry.lookup k = some e)
    (hnone : (base.drive moves).hub.table e.store key.text = none) :
    let last := base.drive moves
    let after := base.drive (moves ++ .act (.request (.get k key)) :: later)
    let result := last.connector.fetch last.fetchLog.length e.kind key
    let due := last.hub.now + result.delay
    after.calls[last.calls.length]? = some (.fetching e.kind due result.answer none) ∨
      due ≤ after.hub.now ∧ after.calls[last.calls.length]? =
        some (.finished (replyOf .object (result.answer.map fun o => o.stamp e.kind))) := by
  intro last after result due
  have hregistry := (hbase.fenced_drive moves).registry_eq
  have hcall : (last.move (.act (.request (.get k key)))).calls[last.calls.length]? = _ :=
    last.call_act_request (.get k key)
  rw [(begin_miss (hregistry ▸ hlookup) hnone).1, ← drive_concat] at hcall
  have hlater := fetching_drive hbase (moves ++ [.act (.request (.get k key))]) hcall later
  rwa [List.append_assoc, List.singleton_append] at hlater

end

/-- What reads of dedicated kinds return, and that they leave no trace.

Whatever happened to a cache, and whatever happens to it later: a read of a dedicated kind whose
store holds the object returns this object under the kind, and fetches nothing.  If the store does
not hold it, the read makes one fetch, of this kind and this address; it has no reply before the
fetch is due, and afterwards gets one as soon as it is polled: the object that was fetched under
the kind, or the failure of the fetch as it is.  All fetches of a run are those of its misses.

No read, and no poll of any call, changes the store of a dedicated kind in any way or publishes
anything; a run without its reads, in which all other moves are the same, leaves all stores of
dedicated kinds and all that was published on their topics the same as the run with them. -/
theorem reads_leave_no_trace {c : Cache} (hc : c.Assembled) (moves : List Move) :
    let last := c.drive moves
    (∀ k key e, c.registry.lookup k = some e → ∀ later,
      let read : Move := .act (.request (.get k key))
      let call := last.calls.length
      let after := c.drive (moves ++ read :: later)
      (∀ o, last.hub.table e.store key.text = some o →
        (last.move read).fetchLog = last.fetchLog ∧
          after.reply? call =
            some (.object { o with types := some ⟨e.kind.apiVersion, e.kind.name⟩ })) ∧
      (last.hub.table e.store key.text = none →
        let result := last.connector.fetch last.fetchLog.length e.kind key
        let reply := replyOf .object (result.answer.map fun o =>
          { o with types := some ⟨e.kind.apiVersion, e.kind.name⟩ })
        (last.move read).fetchLog = last.fetchLog ++ [⟨e.kind, key⟩] ∧
          (after.reply? call = none ∨ after.reply? call = some reply) ∧
          (after.hub.now < last.hub.now + result.delay → after.reply? call = none) ∧
          (last.hub.now + result.delay ≤ after.hub.now →
            (after.move (.act (.poll call))).reply? call = some reply))) ∧
    last.fetchLog = c.fetchLog ++ c.misses moves ∧
    (∀ m : Move, (m.isRead = true ∨ ∃ call, m = .act (.poll call)) →
      (∀ e ∈ c.registry.entries,
        (last.move m).hub.stores[e.store]? = last.hub.stores[e.store]?) ∧
      last.hub.topics <+: (last.move m).hub.topics) ∧
    let without := c.drive (moves.filter fun m => !m.isRead)
    (∀ e ∈ c.registry.entries, without.hub.stores[e.store]? = last.hub.stores[e.store]?) ∧
      ∀ topic < c.hub.topics.length, without.hub.topics[topic]? = last.hub.topics[topic]? := by
  intro last
  have hfenced := hc.fenced_drive moves
  have hwithout := sameDedicated_drive hc moves
  refine ⟨fun k key e hlookup later => ?_, fetchLog_drive c moves, fun m hm => ?_, fun e he => ?_,
    fun topic htopic => (hwithout.topics_eq htopic)⟩
  · intro read call after
    have hread : last.missed read =
        if (last.hub.table e.store key.text).isNone then [⟨e.kind, key⟩] else [] := by
      have hregistry : last.registry = c.registry := hfenced.registry_eq
      simp only [read, missed, hregistry, hlookup]
    have hfetched : (last.move read).fetchLog = last.fetchLog ++ last.missed read :=
      fetchLog_move last read
    refine ⟨fun o ho => ?_, fun hnone => ?_⟩
    · rw [ho] at hread
      refine ⟨?_, reply?_of_hit hc moves later hlookup ho⟩
      rw [hfetched, hread]
      exact List.append_nil _
    · intro result reply
      rw [hnone] at hread
      refine ⟨hfetched.trans (congrArg (last.fetchLog ++ ·) hread), ?_⟩
      rcases calls_of_miss hc moves later hlookup hnone with hwaits | ⟨hdue, hended⟩
      · have hnothing : after.reply? call = none := reply?_of_calls hwaits
        refine ⟨Or.inl hnothing, fun _ => hnothing, fun hdue => ?_⟩
        rcases getElem?_calls_move hwaits (.act (.poll call)) with ⟨-, hpolled⟩ | ⟨hother, -⟩
        · rw [poll_fetching, if_pos hdue] at hpolled
          exact reply?_of_calls hpolled
        · exact absurd rfl hother
      · have hreply : after.reply? call = some reply := reply?_of_calls hended
        refine ⟨Or.inr hreply, fun hearly => ?_, fun _ => ?_⟩
        · exact absurd hdue (Nat.not_le.mpr hearly)
        · exact reply?_of_calls (finished_drive hended [.act (.poll call)])
  · have hspares : ∃ a, m = .act a ∧ Spares last.registry a := by
      rcases hm with hread | ⟨call, rfl⟩
      · exact Move.exists_of_isRead hread last.registry
      · exact ⟨_, rfl, trivial⟩
    obtain ⟨a, rfl, ha⟩ := hspares
    have hspared := spared_act hfenced.sound ha
    exact ⟨fun e he => hspared.cells e.store (hc.dedicated.entries e he), hspared.topics⟩
  · exact hwithout.stores_eq (hc.dedicated.entries e he)

/-- A fetch that takes its time: while it is under way a listing brings a newer object to the
store, which the next read returns.  The first read returns what it fetched, and the store keeps
the newer object, as it would without both reads. -/
theorem reads_leave_no_trace_when_a_fetch_is_late :
    let widget : Kind := ⟨"example.io", "v1", "Widget"⟩
    let key : ObjectKey := ⟨some "ops", "w1"⟩
    let older : Object := { metadata := { name := some "w1", ns := some "ops" } }
    let newer : Object :=
      { metadata := { name := some "w1", ns := some "ops", labels := some [("tier", "web")] } }
    let script : Script :=
      { kinds := [(widget, true)], remote := [⟨widget.key, key.text, 5, .ok older⟩] }
    let new : Cache := { connector := script.connector }
    let read : Move := .act (.request (.get widget key))
    let before : List Move := [.act (.request (.start "main")), .subscribe 0, .act (.step 0)]
    let crossing : List Move :=
      [.act (.outside (.feed 0 (.restarted [newer]))), .act (.step 0), read]
    let late : List Move := crossing ++ [.act (.outside (.advance 5))]
    let whole : List Move := before ++ read :: late
    ∃ c : Cache, new.addDedicatedAll [widget] = .ok c ∧ c.Assembled ∧
      (c.drive before).hub.table 0 key.text = none ∧
      ((c.drive before).move read).fetchLog = [⟨widget, key⟩] ∧
      (c.drive (before ++ read :: crossing)).reply? 1 = none ∧
      ((c.drive whole).move (.act (.poll 1))).reply? 1 = some (.object (older.stamp widget)) ∧
      (c.drive whole).reply? 2 = some (.object (newer.stamp widget)) ∧
      (c.drive whole).fetchLog = [⟨widget, key⟩] ∧
      (c.drive whole).hub.table 0 key.text = some newer ∧
      (c.drive (whole.filter fun m => !m.isRead)).hub.stores[0]? =
        (c.drive whole).hub.stores[0]? := by
  intro widget key older newer script new read before crossing late whole
  -- what is evaluated: the states in which the reads are made, and the clock afterwards
  obtain ⟨c, hbuilt, hentries, hlookup, hlog, hnone, hcount, hnow, hanswer, hheld, hcount',
      hcrossing, hlate, hkept, hmisses⟩ :
      ∃ c : Cache, new.addDedicatedAll [widget] = .ok c ∧
        c.registry.entries = [⟨widget, 0, 0, 0⟩] ∧
        c.registry.lookup widget = some ⟨widget, 0, 0, 0⟩ ∧
        (c.drive before).fetchLog = [] ∧ (c.drive before).hub.table 0 key.text = none ∧
        (c.drive before).calls.length = 1 ∧ (c.drive before).hub.now = 0 ∧
        (c.drive before).connector.fetch 0 widget key = ⟨5, .ok older⟩ ∧
        (c.drive (before ++ read :: crossing.dropLast)).hub.table 0 key.text = some newer ∧
        (c.drive (before ++ read :: crossing.dropLast)).calls.length = 2 ∧
        (c.drive (before ++ read :: crossing)).hub.now = 0 ∧ (c.drive whole).hub.now = 5 ∧
        (c.drive whole).hub.table 0 key.text = some newer ∧
        c.fetchLog ++ c.misses whole = [⟨widget, key⟩] :=
    ⟨_, rfl, by decide +kernel, by decide +kernel, by decide +kernel, by decide +kernel,
      by decide +kernel, by decide +kernel, rfl, by decide +kernel, by decide +kernel,
      by decide +kernel, by decide +kernel, by decide +kernel, by decide +kernel⟩
  have hc : c.Assembled := (assembled_new _ {} {}).addDedicatedAll hbuilt
  obtain ⟨hreads, -⟩ := reads_leave_no_trace hc before
  obtain ⟨hagain, -⟩ := reads_leave_no_trace hc (before ++ read :: crossing.dropLast)
  obtain ⟨-, hlogged, -, hwithout, -⟩ := reads_leave_no_trace hc whole
  obtain ⟨hfetched, -, hearly, -⟩ := (hreads widget key _ hlookup crossing).2 hnone
  obtain ⟨-, -, -, hended⟩ := (hreads widget key _ hlookup late).2 hnone
  obtain ⟨-, hhit⟩ := (hagain widget key _ hlookup [.act (.outside (.advance 5))]).1 newer hheld
  have hfinds : (c.drive before).connector.fetch (c.drive before).fetchLog.length
      (Entry.mk widget 0 0 0).kind key = ⟨5, .ok older⟩ := hlog ▸ hanswer
  rw [hnow, hcount, hfinds] at hearly hended
  rw [hcount'] at hhit
  rw [hlog] at hfetched
  refine ⟨c, hbuilt, hc, hnone, hfetched, hearly (by rw [hcrossing]; decide), ?_, hhit,
    hlogged.trans hmisses, hkept, hwithout ⟨widget, 0, 0, 0⟩ (hentries ▸ List.mem_singleton_self _)⟩
  exact hended (Nat.le_of_eq hlate.symm)

end Cache

end WatchCache
