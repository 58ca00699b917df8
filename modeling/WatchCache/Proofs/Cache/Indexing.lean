import WatchCache.Proofs.Cache.Ending
import WatchCache.Proofs.Cache.Indices
import WatchCache.Proofs.Cache.Scopes

set_option autoImplicit false

/-!
# Indices of an informer

An index is registered on the stores of an informer one after the other, up to the first that
refuses it.  Nothing is taken back when one refuses, but none ever refuses what an earlier one has
accepted: whoever asks, by a call, by a call that had to wait or through a handle, all stores of
the informer have the same indices at any time, namely the one that they were made with and those
of the calls that ended well.
-/

namespace WatchCache

namespace Hub

variable {h : Hub} {ledger : List Delivery} {kind : Kind} {stores : List Nat}
  {extractors : Store.Extractors} {name : String}

/-- An index that the stores have is refused by the first of them. -/
theorem Told.indexStores_refused (htold : h.Told ledger kind stores extractors)
    (hstores : stores ≠ []) {old : Extractor} (hold : extractors name = some old)
    (extract : Extractor) :
    Cache.indexStores (·.addIndex name extract) h stores = (.error (.indexConflict name), h) := by
  obtain ⟨id, rest, rfl⟩ := List.exists_cons_of_ne_nil hstores
  obtain ⟨s, hs, hstore⟩ := htold id List.mem_cons_self
  simp only [Cache.indexStores, tryStore, hs, hstore.addIndex_of_some hold extract]

end Hub

namespace Cache

/-! ## Calls for an index -/

/-- A call of a run for an index on the informer of a kind ended well. -/
def Registered (c : Cache) (acts : List Act) (k : Kind) (name : String) (extract : Extractor) :
    Prop :=
  c.Performs acts fun c a => c.Decides a k name extract .done

/-- The name of an index is taken: it is that of the index that every store is made with, or that
of a call that ended well. -/
def Taken (c : Cache) (acts : List Act) (k : Kind) (name : String) : Prop :=
  name = namespaceIndex ∨ ∃ extract, c.Registered acts k name extract

section

variable {c : Cache} {acts : List Act} {a : Act} {k : Kind} {name other : String}
  {extract other' : Extractor} {reply reply' : Reply}

/-- An act answers one call for an index at most. -/
theorem Decides.unique (hone : c.Decides a k name extract reply)
    (htwo : c.Decides a k other other' reply') :
    other = name ∧ other' = extract ∧ reply' = reply := by
  cases hone with
  | request hasks hreply =>
    cases htwo with
    | request _ hreply' =>
      cases hreply.symm.trans hreply'
      exact ⟨rfl, rfl, rfl⟩
  | poll hcall hreply =>
    cases htwo with
    | poll hcall' hreply' =>
      cases hcall.symm.trans hcall'
      cases hreply.symm.trans hreply'
      exact ⟨rfl, rfl, rfl⟩
  | handle hfind =>
    cases htwo with
    | handle hfind' =>
      cases hfind.symm.trans hfind'
      exact ⟨rfl, rfl, rfl⟩

/-- Such an act delivers nothing. -/
theorem Decides.delivers_eq (hdecides : c.Decides a k name extract reply) : c.delivers a = [] := by
  cases hdecides <;> rfl

theorem registered_concat : c.Registered (acts ++ [a]) k name extract ↔
    c.Registered acts k name extract ∨ (c.run acts).Decides a k name extract .done :=
  performs_concat

end

/-! ## What an act does to the stores of an informer -/

/-- The cache in which the informer is there that an act needs. -/
def staged (c : Cache) : Act → Cache
  | .request r =>
    match c.asks r with
    | some (k, _) => ((c.counted r).openInformer k).2
    | none => c
  | _ => c

theorem staged_request {c : Cache} {r : Request} {k : Kind} {goal : Goal}
    (hasks : c.asks r = some (k, goal)) :
    c.staged (.request r) = ((c.counted r).openInformer k).2 := by
  simp only [staged, hasks]

section

variable {floor : Nat} {c : Cache} {k k' : Kind} {i j : Informer}

/-- Reaching a goal adds an index to the stores of an informer, or leaves them as they are. -/
theorem reach_cases (hs : c.setup.Sound floor) (hi : c.informers.find? k = some i)
    (hj : c.informers.find? k' = some j) (goal : Goal) :
    (∃ field extract, k' = k ∧ goal = .index field extract ∧
      (c.reach j goal).1 = replyOf (fun _ => .done)
        (indexStores (·.addIndex (fieldIndex field) (Store.doubled extract)) c.hub i.stores).1 ∧
      (c.reach j goal).2.hub =
        (indexStores (·.addIndex (fieldIndex field) (Store.doubled extract)) c.hub i.stores).2) ∨
    ((∀ field extract, k' = k → goal ≠ .index field extract) ∧
      ∀ id ∈ i.stores, (c.reach j goal).2.hub.store? id = c.hub.store? id) := by
  cases goal with
  | get key type => exact Or.inr ⟨by simp, fun _ _ => rfl⟩
  | list o type =>
    refine Or.inr ⟨by simp, fun id _ => ?_⟩
    obtain ⟨metrics, hlisted⟩ := exists_informerList c j o
    exact (congrArg (fun c : Cache => c.hub.store? id) hlisted :)
  | informer => exact Or.inr ⟨by simp, fun _ _ => rfl⟩
  | index field extract =>
    by_cases hkind : k' = k
    · subst hkind
      cases hi.symm.trans hj
      exact Or.inl ⟨field, extract, rfl, rfl, rfl, rfl⟩
    · refine Or.inr ⟨fun _ _ heq => absurd heq hkind, fun id hid => ?_⟩
      exact store?_indexStores_of_not_mem _ (hs.disjoint_stores hi hj (Ne.symm hkind) id hid)

/-- Before an act takes effect, the stores of an informer are those of the cache before it, or
they are new. -/
theorem staged_cases {ledger : List Hub.Delivery} (hs : c.setup.Sound floor)
    (hlow : ∀ d ∈ ledger, d.store < c.hub.stores.length) {a : Act}
    (hfind : (c.act a).informers.find? k = some i) :
    (c.informers.find? k = some i ∧
      ∀ id ∈ i.stores, (c.staged a).hub.store? id = c.hub.store? id) ∨
    (c.informers.find? k = none ∧
      (c.staged a).hub.Told ledger k i.stores Store.firstExtractors) := by
  have hold (hthere : c.informers.find? k = some i) :
      ∀ id ∈ i.stores, (c.staged a).hub.store? id = c.hub.store? id := by
    intro id hid
    cases a with
    | request r =>
      cases hasks : c.asks r with
      | none => simp only [staged, hasks]
      | some question =>
        rw [staged_request hasks]
        exact (opened_old (hs.store_mem hthere id hid).2).1
    | poll _ | step _ | outside _ | addIndex _ _ _ | reconnect _ => rfl
  rcases informers_act hs a with hsame |
    ⟨r, kind, goal, made, built, rfl, hasks, hnew, hbuild, -, hinsert⟩
  · rw [hsame] at hfind
    exact Or.inl ⟨hfind, hold hfind⟩
  · rw [hinsert, Table.find?_insert] at hfind
    split at hfind
    · next heq =>
      subst heq
      cases hfind
      refine Or.inr ⟨hnew, ?_⟩
      obtain ⟨metrics, hcounted⟩ := c.counted_eq r
      have hstores : (c.counted r).hub.stores = c.hub.stores := by
        rw [hcounted]
        rfl
      obtain ⟨-, -, hcells, hids, -⟩ := buildInformer_ok hbuild
      rw [staged_request hasks, openInformer_of_ok (c.informers_counted r ▸ hnew) hbuild]
      rw [hstores] at hcells hids
      refine Hub.told_of_new (fun cell hcell => ?_) hcells (fun id hid => ?_) hlow
      · rw [List.eq_of_mem_replicate hcell]
      · rw [hids, List.mem_range'_1] at hid
        have hlength := congrArg List.length hcells
        rw [List.length_append, List.length_replicate] at hlength
        exact ⟨hid.1, Nat.lt_of_lt_of_eq hid.2 hlength.symm⟩
    · exact Or.inl ⟨hfind, hold hfind⟩

/-- What an act does to the stores of an informer: it asks all of them for an index and answers
with what they say, or it delivers to them whatever it delivers and answers no call for an index,
other than that of a cache that has stopped. -/
def Acts (c : Cache) (a : Act) (k : Kind) (i : Informer) : Prop :=
  (∃ name extract,
    c.Decides a k name extract (replyOf (fun _ => .done)
      (indexStores (·.addIndex name extract) (c.staged a).hub i.stores).1) ∧
    (c.act a).hub = (indexStores (·.addIndex name extract) (c.staged a).hub i.stores).2) ∨
  ((∀ name extract reply, c.Decides a k name extract reply →
      reply = .failed (stoppedError k) ∧ (c.act a).hub = c.hub ∧
        ∃ id token, a = .poll id ∧ c.hub.isCancelled token = true) ∧
    ∀ id ∈ i.stores, (c.act a).hub.store? id =
      ((c.staged a).hub.deliverAll (c.delivers a)).store? id)

theorem acts_request (hs : c.setup.Sound floor) {r : Request}
    (hfind : (c.act (.request r)).informers.find? k = some i) : c.Acts (.request r) k i := by
  cases hasks : c.asks r with
  | none =>
    -- a dedicated kind answers; its store belongs to no informer
    refine Or.inr ⟨fun name extract reply hdecides => ?_, fun id hid => ?_⟩
    · cases hdecides with
      | request hasks' _ => cases hasks.symm.trans hasks'
    obtain ⟨hinformers, hstores | ⟨kind, field, extract, entry, rfl, hentry, hbegin⟩⟩ :=
      begin_dedicated hs hasks
    · simp only [staged, hasks]
      show ((c.begin r).2.hub.stores[id]?).map StoreCell.store = _
      rw [hstores]
      rfl
    · have hthere : c.informers.find? k = some i := by
        rw [← hinformers]
        exact hfind
      have hne : entry.store ≠ id := by
        have hless := hs.dedicated.lookup kind entry hentry
        have hge := (hs.store_mem hthere id hid).1
        omega
      simp only [staged, hasks]
      show (c.begin (.index kind field extract)).2.hub.store? id = c.hub.store? id
      rw [hbegin]
      show (c.hub.tryStore entry.store _).2.store? id = _
      rw [Hub.store?_tryStore]
      cases c.hub.store? id <;> simp [hne]
  | some question =>
    obtain ⟨kind, goal⟩ := question
    have hbegun := begun_of_asks hasks
    have hs' := sound_opened hs hasks
    have hstaged := staged_request hasks
    have hinformers : (c.act (.request r)).informers = (c.begin r).2.informers := rfl
    have hhub : (c.act (.request r)).hub = (c.begin r).2.hub := rfl
    have hasked {name : String} {extract : Extractor} {reply : Reply}
        (hdecides : c.Decides (.request r) k name extract reply) :
        kind = k ∧ (∃ field extract, goal = .index field extract) ∧
          (c.begin r).1 = .finished reply := by
      cases hdecides with
      | request hasks' hreply =>
        cases hasks.symm.trans hasks'
        exact ⟨rfl, ⟨_, _, rfl⟩, hreply⟩
    rw [hinformers] at hfind
    unfold Acts
    rw [hstaged, hhub]
    rcases hbegin : c.begin r with ⟨call, begun⟩
    rw [hbegin] at hbegun hfind
    cases hbegun with
    | fails hnone hbuild =>
      rw [openInformer_of_error hnone hbuild]
      refine Or.inr ⟨fun name extract reply hdecides => ?_, fun _ _ => rfl⟩
      obtain ⟨rfl, -, -⟩ := hasked hdecides
      rw [(grown_of_buildInformer hbuild).informers_eq] at hfind
      cases hnone.symm.trans hfind
    | waits hopen _ _ =>
      rw [hopen]
      refine Or.inr ⟨fun name extract reply hdecides => ?_, fun _ _ => rfl⟩
      obtain ⟨-, -, hreply⟩ := hasked hdecides
      rw [hbegin] at hreply
      cases hreply
    | @reaches j opened hopen _ =>
      rw [hopen] at hs' ⊢
      have hj := find?_of_openInformer hopen
      have hi : opened.informers.find? k = some i := by
        rw [← hfind]
        exact congrArg (fun s : Setup => s.informers.find? k) (setup_reach opened j goal).symm
      rcases reach_cases hs' hi hj goal with
        ⟨field, extract, rfl, rfl, hreply, hreached⟩ | ⟨hother, hstores⟩
      · refine Or.inl ⟨fieldIndex field, Store.doubled extract, ?_, hreached⟩
        rw [← hreply]
        obtain rfl := eq_index_of_asks hasks
        exact .request hasks (by rw [hbegin])
      · refine Or.inr ⟨fun name extract reply hdecides => ?_, hstores⟩
        obtain ⟨hkind, ⟨field, extract', hgoal⟩, -⟩ := hasked hdecides
        exact absurd hgoal (hother field extract' hkind)

/-- Only a call that waits for an informer changes stores when it is polled. -/
theorem stores_poll {call : Call} (hcall : ∀ k token goal, call ≠ .syncing k token goal) :
    (c.poll call).2.hub.stores = c.hub.stores := by
  cases call with
  | syncing k token goal => exact absurd rfl (hcall k token goal)
  | finished reply => rfl
  | running token => rfl
  | awaitingFallback stores token => rfl
  | fetching kind due answer type =>
    rw [poll]
    split
    · cases answer <;> rfl
    · rfl
  | awaitingDedicated token =>
    rw [poll]
    split <;> rfl

theorem acts_poll (hs : c.setup.Sound floor) {id : Nat}
    (hfind : (c.act (.poll id)).informers.find? k = some i) : c.Acts (.poll id) k i := by
  -- what a poll does not change it leaves to the stores as it was
  have hquiet (hnever : ∀ name extract reply, ¬c.Decides (.poll id) k name extract reply)
      (hsame : ∀ store ∈ i.stores, (c.act (.poll id)).hub.store? store = c.hub.store? store) :
      c.Acts (.poll id) k i :=
    Or.inr ⟨fun _ _ _ hdecides => absurd hdecides (hnever _ _ _), hsame⟩
  cases hcall : c.calls[id]? with
  | none =>
    refine hquiet (fun name extract reply hdecides => ?_) fun _ _ => ?_
    · cases hdecides with
      | poll hcall' _ => cases hcall.symm.trans hcall'
    · simp only [act, hcall]
  | some call =>
    have hhub : (c.act (.poll id)).hub = (c.poll call).2.hub := by
      simp only [act, hcall]
      rfl
    have hinformers : (c.act (.poll id)).informers = c.informers :=
      congrArg Setup.informers (setup_act_of_not_request (by simp))
    rw [hinformers] at hfind
    have hasked {name : String} {extract : Extractor} {reply : Reply}
        (hdecides : c.Decides (.poll id) k name extract reply) :
        (∃ token field extract, call = .syncing k token (.index field extract)) ∧
          (c.poll call).1 = .finished reply := by
      cases hdecides with
      | poll hcall' hreply =>
        cases hcall.symm.trans hcall'
        exact ⟨⟨_, _, _, rfl⟩, hreply⟩
    cases call with
    | syncing kind token goal =>
      rcases hpoll : c.poll (.syncing kind token goal) with ⟨call, polled⟩
      rw [hpoll] at hhub hasked
      cases polled_of_poll hpoll with
      | waits _ =>
        refine hquiet (fun name extract reply hdecides => ?_) fun _ _ => by rw [hhub]
        obtain ⟨-, hreply⟩ := hasked hdecides
        cases hreply
      | @stops j hj hstopped =>
        refine Or.inr ⟨fun name extract reply hdecides => ?_, fun _ _ => by rw [hhub]; rfl⟩
        obtain ⟨⟨_, _, _, heq⟩, hreply⟩ := hasked hdecides
        cases heq
        cases hreply
        exact ⟨rfl, hhub, id, token, rfl, Hub.synced?_eq_false hstopped⟩
      | @reaches j hj _ =>
        rcases reach_cases hs hfind hj goal with
          ⟨field, extract, rfl, rfl, hreply, hreached⟩ | ⟨hother, hstores⟩
        · refine Or.inl ⟨fieldIndex field, Store.doubled extract, ?_, hhub.trans hreached⟩
          exact .poll hcall (by rw [hpoll]; exact congrArg Call.finished hreply)
        · refine hquiet (fun name extract reply hdecides => ?_) fun store hstore => ?_
          · obtain ⟨⟨_, field, extract', heq⟩, -⟩ := hasked hdecides
            cases heq
            exact hother field extract' rfl rfl
          · rw [hhub]
            exact hstores store hstore
    | finished _ | running _ | fetching _ _ _ _ | awaitingDedicated _ | awaitingFallback _ _ =>
      refine hquiet (fun name extract reply hdecides => ?_) fun store _ => ?_
      · obtain ⟨⟨_, _, _, heq⟩, -⟩ := hasked hdecides
        cases heq
      · rw [hhub, Hub.store?, stores_poll (by simp)]
        rfl

theorem acts_of_find? (hs : c.setup.Sound floor) {a : Act}
    (hfind : (c.act a).informers.find? k = some i) : c.Acts a k i := by
  cases a with
  | request r => exact acts_request hs hfind
  | poll id => exact acts_poll hs hfind
  | step loop =>
    refine Or.inr ⟨fun _ _ _ hdecides => (by cases hdecides), fun id _ => ?_⟩
    exact congrArg (fun cells => (cells[id]?).map StoreCell.store)
      (Hub.alike_stepOnce c.hub loop).stores
  | outside s =>
    refine Or.inr ⟨fun _ _ _ hdecides => (by cases hdecides), fun id _ => ?_⟩
    exact congrArg (fun cells => (cells[id]?).map StoreCell.store) (Hub.alike_meet c.hub s).stores
  | addIndex kind name extract =>
    have hthere : c.informers.find? k = some i := by
      rw [← hfind]
      exact congrArg (fun s : Setup => s.informers.find? k)
        (setup_act_of_not_request (by simp)).symm
    by_cases hkind : kind = k
    · subst hkind
      refine Or.inl ⟨name, extract, .handle hthere, ?_⟩
      simp only [act, hthere]
      rfl
    · refine Or.inr ⟨fun name extract reply hdecides => ?_, fun id hid => ?_⟩
      · cases hdecides
        exact absurd rfl hkind
      · simp only [act]
        split
        · next j hj =>
          exact store?_indexStores_of_not_mem _
            (hs.disjoint_stores hthere hj (Ne.symm hkind) id hid)
        · rfl
  | reconnect connector =>
    exact Or.inr ⟨fun _ _ _ hdecides => (by cases hdecides), fun _ _ => rfl⟩

/-- A call for an index that was answered has an informer, or is refused since the informer of its
kind cannot be made. -/
theorem Decides.found_or_refused (hs : c.setup.Sound floor) {a : Act} {name : String}
    {extract : Extractor} {reply : Reply} (hdecides : c.Decides a k name extract reply) :
    (∃ i, (c.act a).informers.find? k = some i) ∨
      c.informers.find? k = none ∧ ¬c.Supplies k ∧ (∃ e, reply = .failed e) ∧
        (c.act a).informers = c.informers := by
  have hthere (hsome : c.informers.find? k ≠ none) :
      ∃ i, (c.act a).informers.find? k = some i := by
    obtain ⟨i, hi⟩ := Option.ne_none_iff_exists'.mp hsome
    exact ⟨i, find?_act hs hi a⟩
  cases hdecides with
  | request hasks hreply =>
    cases hfind : c.informers.find? k with
    | some i => exact Or.inl (hthere (by simp [hfind]))
    | none =>
      rcases request_outcome hasks hfind with
        ⟨-, hmade⟩ | ⟨hno, ⟨e, hfailed, -⟩, hinformers, -⟩
      · exact Or.inl hmade
      · rw [reply?_of_calls (call_act_request _ _), hreply] at hfailed
        exact Or.inr ⟨rfl, hno, ⟨e, Option.some.inj hfailed⟩, hinformers⟩
  | poll _ hreply =>
    refine Or.inl (hthere fun hnone => ?_)
    simp only [Cache.poll, hnone] at hreply
    cases hreply
  | handle hfind => exact Or.inl (hthere (by simp [hfind]))

/-! ## Runs -/

/-- The indices that were made with the stores of a kind, and those that calls have added. -/
def Accounts (c : Cache) (acts : List Act) (k : Kind) (extractors : Store.Extractors) : Prop :=
  ∀ name extract, extractors name = some extract ↔
    name = namespaceIndex ∧ extract = Store.extractNamespace ∨ c.Registered acts k name extract

section

variable {acts : List Act} {extractors : Store.Extractors}

theorem Accounts.taken_iff (haccounts : c.Accounts acts k extractors) (name : String) :
    c.Taken acts k name ↔ ∃ extract, extractors name = some extract := by
  constructor
  · rintro (rfl | ⟨extract, hregistered⟩)
    · exact ⟨_, (haccounts _ _).mpr (Or.inl ⟨rfl, rfl⟩)⟩
    · exact ⟨extract, (haccounts _ _).mpr (Or.inr hregistered)⟩
  · rintro ⟨extract, hsome⟩
    exact ((haccounts _ _).mp hsome).imp And.left fun hregistered => ⟨extract, hregistered⟩

/-- A kind with a registered index has an informer. -/
theorem find?_of_registered (hfresh : c.Fresh) {name : String} {extract : Extractor}
    (hregistered : c.Registered acts k name extract) : (c.run acts).informers.find? k ≠ none := by
  obtain ⟨before, a, later, rfl, ha⟩ := hregistered
  have hs := sound_run hfresh.sound before
  rcases ha.found_or_refused hs with ⟨i, hi⟩ | ⟨-, -, ⟨e, he⟩, -⟩
  · rw [run_append, run_cons, find?_run (sound_act hs a) hi later]
    simp
  · cases he

/-- Without a call that ended well, the indices stay the ones that were made with the stores. -/
theorem accounts_first (hfresh : c.Fresh) (hnone : (c.run acts).informers.find? k = none) :
    c.Accounts acts k Store.firstExtractors := by
  intro name extract
  have hnever : ¬c.Registered acts k name extract :=
    fun hregistered => find?_of_registered hfresh hregistered hnone
  rw [or_iff_left hnever, Store.firstExtractors, Store.Extractors.add]
  split
  · next heq => simp [heq, eq_comm]
  · next hne => simp [hne]

/-- The stores of an informer before an act takes effect. -/
theorem exists_staged (hfresh : c.Fresh)
    (ih : ∀ k i, (c.run acts).informers.find? k = some i → ∃ extractors,
      (c.run acts).hub.Told (c.ledger acts) k i.stores extractors ∧ c.Accounts acts k extractors)
    {a : Act} (hfind : ((c.run acts).act a).informers.find? k = some i) :
    ∃ extractors, ((c.run acts).staged a).hub.Told (c.ledger acts) k i.stores extractors ∧
      c.Accounts acts k extractors := by
  rcases staged_cases (sound_run hfresh.sound acts) (ledger_low hfresh.sound acts) hfind with
    ⟨hthere, hsame⟩ | ⟨hnone, hnew⟩
  · obtain ⟨extractors, htold, haccounts⟩ := ih k i hthere
    exact ⟨extractors, htold.congr hsame, haccounts⟩
  · exact ⟨_, hnew, accounts_first hfresh hnone⟩

theorem Accounts.concat_of_done (haccounts : c.Accounts acts k extractors) {a : Act}
    {name : String} {extract : Extractor} (hnew : extractors name = none)
    (hdecides : (c.run acts).Decides a k name extract .done) :
    c.Accounts (acts ++ [a]) k (extractors.add name extract) := by
  intro other f
  rw [registered_concat, Store.Extractors.add, ← or_assoc, ← haccounts]
  split
  · next heq =>
    subst heq
    rw [hnew]
    refine ⟨fun hsome => Or.inr (Option.some.inj hsome ▸ hdecides), ?_⟩
    rintro (hnone | hother)
    · cases hnone
    · rw [(hdecides.unique hother).2.1]
  · next hne =>
    exact (or_iff_left fun hother => hne (hdecides.unique hother).1).symm

theorem Accounts.concat_of_not_done (haccounts : c.Accounts acts k extractors) {a : Act}
    (hnever : ∀ name extract, ¬(c.run acts).Decides a k name extract .done) :
    c.Accounts (acts ++ [a]) k extractors := by
  intro name extract
  rw [registered_concat, or_iff_left (hnever name extract)]
  exact haccounts name extract

/-- In a cache that nobody used before, all stores of an informer have the indices that they were
made with and those of the calls that ended well. -/
theorem exists_extractors (hfresh : c.Fresh) (acts : List Act) :
    ∀ k i, (c.run acts).informers.find? k = some i → ∃ extractors,
      (c.run acts).hub.Told (c.ledger acts) k i.stores extractors ∧
        c.Accounts acts k extractors := by
  induction acts using List.reverseRecOn with
  | nil =>
    intro k i hfind
    rw [run_nil, hfresh.informers] at hfind
    cases hfind
  | append_singleton acts a ih =>
    intro k i hfind
    have hs := sound_run hfresh.sound acts
    obtain ⟨hwatched, -⟩ := scopes_of_find? hfresh hfind
    rw [run_concat] at hfind ⊢
    rw [ledger_concat]
    obtain ⟨extractors, htold, haccounts⟩ := exists_staged hfresh ih hfind
    have hnodup := (sound_act hs a).nodup_stores hfind
    rcases acts_of_find? hs hfind with ⟨name, extract, hdecides, hhub⟩ | ⟨hnever, hstores⟩
    · rw [hdecides.delivers_eq, List.append_nil, hhub]
      cases hname : extractors name with
      | none =>
        obtain ⟨hok, hadded⟩ := indexStores_of_new htold hnodup hname extract
        rw [hok] at hdecides
        exact ⟨_, hadded, haccounts.concat_of_done hname hdecides⟩
      | some old =>
        have hrefused := htold.indexStores_refused
          (fun hnil => hwatched (List.map_eq_nil_iff.mp hnil)) hname extract
        rw [hrefused] at hdecides ⊢
        refine ⟨extractors, htold, haccounts.concat_of_not_done fun other f hdone => ?_⟩
        cases (hdecides.unique hdone).2.2
    · refine ⟨extractors, ?_, haccounts.concat_of_not_done fun name extract hdone => ?_⟩
      · have halike := Hub.Alike.refl
          (((c.run acts).staged a).hub.deliverAll ((c.run acts).delivers a))
        exact (htold.deliver halike).congr hstores
      · cases (hnever name extract .done hdone).1

end

end

end Cache

end WatchCache
