import WatchCache.Proofs.Cache.Awaiting
import WatchCache.Proofs.Cache.Scopes

set_option autoImplicit false

/-!
# Waits that are cancelled

A wait looks at its token only when it looks at a store, so a wait whose token is cancelled ends
with false as soon as there is one store that it has to wait for.  Every wait that a poll has left
pending waits for some store.  A wait that finds no store at all ends with true, cancelled or not.
-/

namespace WatchCache

namespace Hub

section

variable {h : Hub} {token : Token}

/-- With a cancelled token it only matters whether there is a store to wait for. -/
theorem synced?_of_cancelled (hcancelled : h.isCancelled token = true) (stores : List Nat) :
    h.synced? token stores = some stores.isEmpty := by
  cases stores with
  | nil => rfl
  | cons id rest =>
    rw [synced?, if_pos hcancelled]
    rfl

/-- Settling leaves the tokens and the waits to those who look at them afterwards. -/
theorem settleIn_frame (h : Hub) :
    (settleIn h.runOrder h.work h).cancelled = h.cancelled ∧
      (settleIn h.runOrder h.work h).waits = h.waits := by
  refine settleIn_induction h.runOrder h.work
    (P := fun g => g.cancelled = h.cancelled ∧ g.waits = h.waits) ⟨rfl, rfl⟩ ?_
  rintro g g' id l hstep ⟨hcancelled, hwaits⟩
  exact ⟨hstep.cancelled.trans hcancelled, hstep.waits.trans hwaits⟩

/-- A pending wait for stores whose token is cancelled ends with false when the hub settles. -/
theorem waits_settle_of_cancelled {id : Nat} {w : Wait} (hw : h.waits[id]? = some w)
    (hstores : w.stores ≠ []) (hpending : w.outcome = none)
    (hcancelled : h.isCancelled w.token = true) :
    h.settle.waits[id]? = some { w with outcome := some false } := by
  obtain ⟨htokens, hwaits⟩ := h.settleIn_frame
  have hlater : (settleIn h.runOrder h.work h).isCancelled w.token = true := by
    rw [isCancelled, htokens]
    exact hcancelled
  have hover := synced?_of_cancelled hlater w.stores
  rw [List.isEmpty_eq_false_iff.mpr hstores] at hover
  simp only [settle, resolveWaits, hwaits, List.getElem?_map, hw, Option.map_some, hpending,
    hover, Option.none_or]

end

/-- A token that is cancelled. -/
theorem isCancelled_cancel (h : Hub) (token : Token) : (h.cancel token).isCancelled token = true :=
  List.contains_iff_mem.mpr List.mem_cons_self

end Hub

namespace Cache

/-! ## Waits that were polled -/

/-- A wait that was polled has ended, or it waits for some store. -/
inductive Stays (c : Cache) (token : Token) : Call → Prop
  | dedicated (hsome : c.registry.entries ≠ []) : Stays c token (.awaitingDedicated token)
  | fallback {stores : List Nat} (hsome : stores ≠ []) :
      Stays c token (.awaitingFallback stores token)
  | ended {value : Bool} : Stays c token (.finished (.flag value))

section

variable {c r : Cache} {token : Token} {call : Call}

theorem pollFallback_of_cancelled (hcancelled : c.hub.isCancelled token = true)
    (stores : List Nat) : c.pollFallback stores token = .finished (.flag stores.isEmpty) := by
  rw [pollFallback, Hub.synced?_of_cancelled hcancelled]

theorem stays_pollFallback (c r : Cache) (stores : List Nat) (token : Token) :
    Stays c token (r.pollFallback stores token) := by
  unfold pollFallback
  cases hover : r.hub.synced? token stores with
  | some value => exact .ended
  | none =>
    obtain ⟨-, store, hstore, -⟩ := Hub.synced?_eq_none hover
    exact .fallback (List.ne_nil_of_mem hstore)

theorem stays_poll_dedicated (hregistry : r.registry = c.registry) :
    Stays c token (r.poll (.awaitingDedicated token)).1 := by
  rw [poll]
  rcases hover : r.hub.synced? token (r.registry.entries.map Entry.store) with _ | _ | _
  · obtain ⟨-, store, hstore, -⟩ := Hub.synced?_eq_none hover
    obtain ⟨e, he, -⟩ := List.mem_map.mp hstore
    exact .dedicated (List.ne_nil_of_mem (hregistry ▸ he))
  · exact .ended
  · exact stays_pollFallback c r r.fallbackStores token

theorem Stays.poll (hstays : Stays c token call) (hregistry : r.registry = c.registry) :
    Stays c token (r.poll call).1 := by
  cases hstays with
  | dedicated _ => exact stays_poll_dedicated hregistry
  | @fallback stores _ => exact stays_pollFallback c r stores token
  | ended => exact .ended

/-- When a wait that was polled is cancelled, the next poll ends it with false. -/
theorem Stays.poll_of_cancelled (hstays : Stays c token call) (hpending : call.reply? = none)
    (hregistry : r.registry = c.registry) (hcancelled : r.hub.isCancelled token = true) :
    (r.poll call).1 = .finished (.flag false) := by
  cases hstays with
  | dedicated hsome =>
    have hstores : (r.registry.entries.map Entry.store).isEmpty = false := by
      rw [List.isEmpty_eq_false_iff, hregistry]
      simpa using hsome
    simp only [Cache.poll, Hub.synced?_of_cancelled hcancelled, hstores]
  | @fallback stores hsome =>
    have hstores : stores.isEmpty = false := List.isEmpty_eq_false_iff.mpr hsome
    simp only [Cache.poll, pollFallback_of_cancelled hcancelled, hstores]
  | ended => cases hpending

/-- A wait with a cancelled token that is polled for the first time. -/
theorem poll_dedicated_of_cancelled (hcancelled : c.hub.isCancelled token = true) :
    (c.poll (.awaitingDedicated token)).1 =
      .finished (.flag (c.registry.entries.isEmpty && c.fallbackStores.isEmpty)) := by
  rw [Cache.poll, Hub.synced?_of_cancelled hcancelled, List.isEmpty_map]
  cases c.registry.entries.isEmpty with
  | true => exact pollFallback_of_cancelled hcancelled c.fallbackStores
  | false => rfl

/-- How a wait looks after any acts: untouched before its first poll. -/
theorem wait_run {floor : Nat} (hs : c.setup.Sound floor) (before : List Act) (token : Token)
    (later : List Act) :
    ∃ call, (c.run (before ++ .request (.waitForSync token) :: later)).calls[
        (c.run before).calls.length]? = some call ∧
      (.poll (c.run before).calls.length ∉ later → call = .awaitingDedicated token) ∧
      (.poll (c.run before).calls.length ∈ later → Stays c token call) := by
  induction later using List.reverseRecOn with
  | nil =>
    refine ⟨.awaitingDedicated token, ?_, fun _ => rfl, fun hmem => absurd hmem List.not_mem_nil⟩
    rw [run_concat]
    exact call_act_request _ (.waitForSync token)
  | append_singleton later a ih =>
    obtain ⟨call, hcall, hfirst, hpolled⟩ := ih
    rw [← List.cons_append, ← List.append_assoc, run_concat]
    have hregistry := registry_run hs (before ++ .request (.waitForSync token) :: later)
    rcases getElem?_calls_act hcall a with ⟨rfl, hnext⟩ | ⟨hother, hsame⟩
    · refine ⟨_, hnext, fun hnot => absurd (List.mem_append_right _ List.mem_cons_self) hnot,
        fun _ => ?_⟩
      by_cases hmem : .poll (c.run before).calls.length ∈ later
      · exact (hpolled hmem).poll hregistry
      · rw [hfirst hmem]
        exact stays_poll_dedicated hregistry
    · refine ⟨call, hsame, fun hnot => ?_, fun hmem => ?_⟩
      · exact hfirst fun hmem => hnot (List.mem_append_left _ hmem)
      · refine hpolled ((List.mem_append.mp hmem).resolve_right fun heq => ?_)
        exact hother (List.mem_singleton.mp heq).symm

end

/-- An informer has at least one store. -/
theorem isEmpty_fallbackStores {c : Cache} (hfresh : c.Fresh) (acts : List Act) :
    (c.run acts).fallbackStores.isEmpty = (c.run acts).informers.isEmpty := by
  cases hinformers : (c.run acts).informers with
  | nil =>
    rw [fallbackStores, hinformers]
    rfl
  | cons p rest =>
    obtain ⟨k, i⟩ := p
    have hfind : (c.run acts).informers.find? k = some i := by
      rw [hinformers]
      simp
    obtain ⟨w, hw⟩ := List.exists_mem_of_ne_nil _ (scopes_of_find? hfresh hfind).1
    have hmem : w.store ∈ (c.run acts).fallbackStores :=
      (mem_fallbackStores (sound_run hfresh.sound acts) w.store).mpr
        ⟨k, i, hfind, List.mem_map_of_mem hw⟩
    exact List.isEmpty_eq_false_iff.mpr (List.ne_nil_of_mem hmem)

/-- A cancelled token ends the waits for stores.

A wait for one store that begins with a cancelled token ends with false, and so does a pending one
when its token is cancelled, whether the store is synced or not.  A wait for the fallback that
begins with a cancelled token ends at once, with false exactly if the fallback has an informer; one
that is pending ends with false.  A wait for the cache whose token is cancelled when it is first
polled ends with false exactly if there is a dedicated kind or an informer; one that a poll has
left pending ends with false at the next poll after the cancellation; and none is pending in a
cache at rest. -/
theorem cancelled_waits_end {c : Cache} (hfresh : c.Fresh) :
    (∀ (h : Hub) (store : Nat) (token : Token), h.isCancelled token = true →
      (h.addWait store token).2.settle.waits[(h.addWait store token).1]? =
        some ⟨[store], token, some false⟩) ∧
    (∀ (h : Hub) (id : Nat) (w : Wait), h.waits[id]? = some w → w.stores ≠ [] →
      w.outcome = none →
      (h.cancel w.token).settle.waits[id]? = some { w with outcome := some false }) ∧
    (∀ acts token, (c.run acts).hub.isCancelled token = true →
      (c.run acts).pollFallback (c.run acts).fallbackStores token =
        .finished (.flag (c.run acts).informers.isEmpty)) ∧
    (∀ acts later stores token,
      (c.run acts).pollFallback stores token = .awaitingFallback stores token →
      (c.run (acts ++ later)).hub.isCancelled token = true →
      (c.run (acts ++ later)).pollFallback stores token = .finished (.flag false)) ∧
    ∀ before token later,
      let id := (c.run before).calls.length
      let acts := before ++ .request (.waitForSync token) :: later
      let last := c.run acts
      last.hub.isCancelled token = true →
      (.poll id ∉ later → c.EndsWith (acts ++ [.poll id]) id
        (.flag (c.registry.entries.isEmpty && last.informers.isEmpty))) ∧
      (.poll id ∈ later → last.reply? id = none →
        c.EndsWith (acts ++ [.poll id]) id (.flag false)) ∧
      (last.AtRest → last.reply? id ≠ none) := by
  refine ⟨fun h store token hcancelled => ?_, fun h id w hw hstores hpending => ?_,
    fun acts token hcancelled => ?_, fun acts later stores token hwaits hcancelled => ?_,
    fun before token later => ?_⟩
  · have hw : (h.addWait store token).2.waits[h.waits.length]? = some ⟨[store], token, none⟩ :=
      List.getElem?_concat_length
    exact Hub.waits_settle_of_cancelled hw (List.cons_ne_nil _ _) rfl hcancelled
  · have hw : (h.cancel w.token).waits[id]? = some w := hw
    exact Hub.waits_settle_of_cancelled hw hstores hpending (h.isCancelled_cancel w.token)
  · rw [pollFallback_of_cancelled hcancelled, isEmpty_fallbackStores hfresh]
  · have hstays := stays_pollFallback c (c.run acts) stores token
    rw [hwaits] at hstays
    have hregistry := registry_run hfresh.sound (acts ++ later)
    exact hstays.poll_of_cancelled rfl hregistry hcancelled
  intro id acts last hcancelled
  obtain ⟨call, hcall, hfirst, hpolled⟩ := wait_run hfresh.sound before token later
  have hregistry : last.registry = c.registry := registry_run hfresh.sound acts
  have hreply : last.reply? id = call.reply? := reply?_of_calls hcall
  have hends {value : Bool} (hpending : call.reply? = none)
      (hpoll : (last.poll call).1 = .finished (.flag value)) :
      c.EndsWith (acts ++ [.poll id]) id (.flag value) := by
    refine ⟨?_, ?_⟩
    · rw [List.dropLast_concat]
      exact hreply.trans hpending
    · rw [run_concat]
      rcases getElem?_calls_act hcall (.poll id) with ⟨-, hnext⟩ | ⟨hother, -⟩
      · exact reply?_of_calls (hnext.trans (congrArg some hpoll))
      · exact absurd rfl hother
  refine ⟨fun hnot => ?_, fun hmem hpending => ?_, fun hrest hpending => ?_⟩
  · obtain rfl := hfirst hnot
    refine hends rfl ?_
    rw [poll_dedicated_of_cancelled hcancelled, hregistry, isEmpty_fallbackStores hfresh acts]
  · have hnone := hreply.symm.trans hpending
    exact hends hnone ((hpolled hmem).poll_of_cancelled hnone hregistry hcancelled)
  · -- a call that a poll leaves as it is would have to be one that the poll ends
    have hnone := hreply.symm.trans hpending
    have hsame := hrest.calls call (List.mem_of_getElem? hcall)
    by_cases hmem : .poll id ∈ later
    · rw [(hpolled hmem).poll_of_cancelled hnone hregistry hcancelled] at hsame
      rw [← hsame] at hnone
      cases hnone
    · obtain rfl := hfirst hmem
      rw [poll_dedicated_of_cancelled hcancelled] at hsame
      cases hsame

/-- One wait that is left pending by an informer of two namespaces until it is cancelled, and
another one that begins after that. -/
theorem cancelled_waits_end_two_namespaces :
    let widget : Kind := ⟨"example.io", "v1", "Widget"⟩
    let new : Cache := { connector := Script.connector { kinds := [(widget, true)] } }
    let c := new.withNamespaces ["ops", "dev"]
    let before : List Act := [.request (.informer widget)]
    let later : List Act := [.poll 1, .outside (.cancel "gone")]
    let acts := before ++ .request (.waitForSync "gone") :: later
    let ended := acts ++ [.poll 1]
    c.Fresh ∧ (c.run acts).hub.isCancelled "gone" = true ∧ (c.run acts).reply? 1 = none ∧
      c.EndsWith ended 1 (.flag false) ∧
      c.EndsWith (ended ++ [.request (.waitForSync "gone"), .poll 2]) 2 (.flag false) := by
  intro widget new c before later acts ended
  have hfresh : c.Fresh := (fresh_new _ {} {}).withNamespaces _
  have hfirst : (c.run before).calls.length = 1 := by decide +kernel
  have hsecond : (c.run ended).calls.length = 2 := by decide +kernel
  have hcancelled : (c.run acts).hub.isCancelled "gone" = true := by decide +kernel
  have hpending : (c.run acts).reply? 1 = none := by decide +kernel
  have hthere : (c.run (ended ++ [.request (.waitForSync "gone")])).informers.isEmpty = false := by
    decide +kernel
  have hstill :
      (c.run (ended ++ [.request (.waitForSync "gone")])).hub.isCancelled "gone" = true := by
    decide +kernel
  obtain ⟨-, -, -, -, hwaits⟩ := cancelled_waits_end hfresh
  have hpolled := (hwaits before "gone" later hcancelled).2.1
  rw [hfirst] at hpolled
  have hnew := (hwaits ended "gone" [] hstill).1
  rw [hsecond, hthere, Bool.and_false, List.append_assoc] at hnew
  exact ⟨hfresh, hcancelled, hpending, hpolled List.mem_cons_self hpending, hnew List.not_mem_nil⟩

/-- A cache without dedicated kinds and without informers: a wait for it ends with true, although
its token was cancelled before it began. -/
theorem cancelled_wait_without_stores_is_true :
    let c : Cache := { connector := Script.connector {} }
    let acts : List Act := [.outside (.cancel "main"), .request (.waitForSync "main"), .poll 0]
    c.Fresh ∧ (c.run [.outside (.cancel "main")]).hub.isCancelled "main" = true ∧
      c.EndsWith acts 0 (.flag true) ∧
      ((c.cancel "main").waitForSync "main").2.reply? 0 = some (.flag true) := by
  intro c acts
  exact ⟨fresh_new _ {} {}, by decide +kernel, ⟨by decide +kernel, by decide +kernel⟩,
    by decide +kernel⟩

end Cache

end WatchCache
