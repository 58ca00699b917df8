import WatchCache.Proofs.Cache.Awaiting
import WatchCache.Proofs.Cache.Ending
import WatchCache.Proofs.Cache.Scopes

set_option autoImplicit false

/-!
# Waiting for a cache to be synced

A caller that waits for the cache to be synced waits for the dedicated stores and then for those
informers that are there by then.  No store gets anything before the cache was started, so a wait
that finds one does not end well before the start; but a wait that finds nothing to wait for does,
and a read that follows it before the start is answered by an informer that holds nothing yet.
-/

namespace WatchCache

namespace Cache

/-! ## Before the start -/

section

variable {c : Cache} {acts : List Act} {k : Kind} {i : Informer}

/-- Before the start nothing is delivered to any store. -/
theorem ledger_unstarted (hfresh : c.Fresh) (hidle : firstStart acts = none) :
    c.ledger acts = [] := by
  induction acts using List.reverseRecOn with
  | nil => rfl
  | append_singleton acts a ih =>
    rw [firstStart_append, Option.or_eq_none_iff] at hidle
    have hs := sound_run hfresh.sound acts
    have hrunning : (c.run acts).setup.runningUnder = none :=
      (hfresh.runningUnder_eq acts).trans hidle.1
    have hloops : (c.run acts).setup.extent.started = [] := by
      rw [hs.loops, Setup.due, hrunning]
      rfl
    rw [ledger_concat, ih hidle.1, List.nil_append, List.eq_nil_iff_forall_not_mem]
    intro d hd
    cases a with
    | step loop =>
      obtain ⟨l, hl, -⟩ := Hub.store_of_delivery? (Option.mem_toList.mp hd)
      have hl' : l ∈ (c.run acts).setup.extent.started := hl
      rw [hloops] at hl'
      cases hl'
    | request _ | poll _ | outside _ | addIndex _ _ _ | reconnect _ => cases hd

/-- Before the start no store is synced. -/
theorem isSynced_unstarted (hunused : c.Unused) (hidle : firstStart acts = none) {id : Nat}
    (hserving : (c.run acts).Serving id) : (c.run acts).hub.isSynced id = false := by
  rw [← Bool.not_eq_true, isSynced_iff_of_serving hunused hserving,
    ledger_unstarted hunused.toFresh hidle]
  rintro ⟨objects, hmem⟩
  cases hmem

/-- Before the start no informer is synced. -/
theorem isSynced_stores_unstarted (hunused : c.Unused) (hidle : firstStart acts = none)
    (hfind : (c.run acts).informers.find? k = some i) : (c.run acts).isSynced i.stores = false := by
  obtain ⟨w, hw⟩ := List.exists_mem_of_ne_nil _ (scopes_of_find? hunused.toFresh hfind).1
  have hstore : w.store ∈ i.stores := List.mem_map_of_mem hw
  exact isSynced_eq_false_iff.mpr
    ⟨w.store, hstore, isSynced_unstarted hunused hidle (Or.inr ⟨k, i, hfind, hstore⟩)⟩

end

/-! ## The wait -/

section

variable {c : Cache} {first middle : List Act} {token : Token}

/-- A wait turns to the fallback after it began. -/
theorem Turns.began {turned rest : List Act} {r : Request}
    (hturns : (c.run turned).Turns (c.run first).calls.length token)
    (hsame : first ++ .request r :: middle = turned ++ .poll (c.run first).calls.length :: rest) :
    ∃ more, turned = first ++ more := by
  rcases List.append_eq_append_iff.mp hsame with ⟨more, hturned, -⟩ | ⟨more, hfirst, -⟩
  · exact ⟨more, hturned⟩
  · -- a call that is there when the wait turns is there when the wait begins
    obtain ⟨call, hcall, -⟩ := exists_call_run (P := fun _ => True) ⟨_, hturns.call, trivial⟩
      (fun _ _ _ => trivial) more
    rw [← run_append, ← hfirst, List.getElem?_length] at hcall
    cases hcall

/-- A wait that ended well before the start has found nothing to wait for. -/
theorem nothing_awaited (hunused : c.Unused)
    (hwaited : (c.run (first ++ .request (.waitForSync token) :: middle)).reply?
      (c.run first).calls.length = some (.flag true))
    (hidle : firstStart (first ++ .request (.waitForSync token) :: middle) = none) :
    c.registry.entries = [] ∧ (c.run first).informers = [] := by
  obtain ⟨call, hcall, hawaits⟩ := awaits_run hunused first token middle
  obtain rfl := eq_finished_of_reply? ((reply?_of_calls hcall).symm.trans hwaited)
  obtain ⟨hdedicated, turned, rest, hacts, hturns, hinformers⟩ := hawaits.covers hunused
  constructor
  · refine List.eq_nil_iff_forall_not_mem.mpr fun e he => ?_
    have hthere := registry_run hunused.sound (first ++ .request (.waitForSync token) :: middle)
    cases (hdedicated e he).symm.trans
      (isSynced_unstarted hunused hidle (Or.inl ⟨e, hthere.symm ▸ he, rfl⟩))
  · refine List.eq_nil_iff_forall_not_mem.mpr fun ⟨k, i⟩ hmem => ?_
    have hs := sound_run hunused.sound first
    have hfind := hs.distinct.find?_of_mem hmem
    obtain ⟨more, rfl⟩ := hturns.began hacts
    have hturned : (c.run (first ++ more)).informers.find? k = some i := by
      rw [run_append]
      exact find?_run hs hfind more
    have hlast : (c.run (first ++ .request (.waitForSync token) :: middle)).informers.find? k =
        some i := by
      rw [run_append]
      exact find?_run hs hfind _
    cases (hinformers k i hturned).symm.trans (isSynced_stores_unstarted hunused hidle hlast)

end

/-- A call on the fallback that begins before the start does not wait: its informer answers it,
which is not synced. -/
theorem answered_unstarted {c : Cache} (hunused : c.Unused) {before : List Act}
    (hidle : firstStart before = none) {r : Request} {k : Kind} {goal : Goal}
    (hasks : (c.run before).asks r = some (k, goal))
    (hbuild : (c.run before).informers.find? k ≠ none ∨ (c.run before).Supplies k) :
    ∃ i reply, (c.run (before ++ [.request r])).informers.find? k = some i ∧
      (c.run (before ++ [.request r])).isSynced i.stores = false ∧
      c.EndsWith (before ++ [.request r]) (c.run before).calls.length reply ∧
      Answers (c.run (before ++ [.request r])) i goal reply := by
  have hrunning := (hunused.runningUnder_eq before).trans hidle
  obtain ⟨c', j, hfinished⟩ := begin_idle hasks hrunning hbuild
  have hends : c.EndsWith (before ++ [.request r]) (c.run before).calls.length
      (c'.reach j goal).1 := by
    constructor
    · rw [List.dropLast_concat, reply?, List.getElem?_length]
      rfl
    · rw [run_concat, reply?_of_calls (call_act_request _ r), hfinished]
      rfl
  obtain ⟨i, hfind, hanswers⟩ := answers_of_reach hasks hbuild hends rfl
  refine ⟨i, _, hfind, ?_, hends, hanswers⟩
  have hlater : firstStart (before ++ [.request r]) = none := by
    rw [firstStart_append, hidle]
    cases r <;> first | rfl | cases hasks
  exact isSynced_stores_unstarted hunused hlater hfind

/-- Reads that follow a wait for the cache.

The wait has returned true.  If there was a dedicated kind, or an informer when the wait began, the
cache was started.  A read that begins after the start and is answered that there is no such object,
or with a list of objects, was answered by an informer that is synced, unless it was refused since
the connector cannot supply its kind.  A read of a kind that the connector supplies, or that has an
informer, does not wait if it begins before the start: it is answered by an informer that is not
synced. -/
theorem reads_after_sync_wait {c : Cache} (hunused : c.Unused) {first middle : List Act}
    {token : Token}
    (hwaited : (c.run (first ++ .request (.waitForSync token) :: middle)).reply?
      (c.run first).calls.length = some (.flag true)) :
    let before := first ++ .request (.waitForSync token) :: middle
    (c.registry.entries ≠ [] ∨ (c.run first).informers ≠ [] →
      (firstStart before).isSome = true) ∧
    (∀ (r : Request) (later : List Act) (k : Kind) (goal : Goal) (reply : Reply),
      (c.run before).asks r = some (k, goal) → (firstStart before).isSome = true →
      c.EndsWith (before ++ .request r :: later) (c.run before).calls.length reply →
      ((∃ resource key, reply = .failed (.notFound resource key)) ∨
        ∃ objects, reply = .objects objects) →
      let last := c.run (before ++ .request r :: later)
      (last.informers.find? k = none ∧ ¬(c.run before).Supplies k ∧ ∃ e, reply = .failed e) ∨
        ∃ i, last.informers.find? k = some i ∧ last.isSynced i.stores = true) ∧
    ∀ (r : Request) (k : Kind) (goal : Goal),
      (c.run before).asks r = some (k, goal) → firstStart before = none →
      ((c.run before).informers.find? k ≠ none ∨ (c.run before).Supplies k) →
      let last := c.run (before ++ [.request r])
      ∃ i reply, last.informers.find? k = some i ∧ last.isSynced i.stores = false ∧
        c.EndsWith (before ++ [.request r]) (c.run before).calls.length reply ∧
        Answers last i goal reply := by
  intro before
  refine ⟨fun hthere => ?_, fun r later k goal reply hasks hstarted hends hreply => ?_,
    fun r k goal hasks hidle hbuild => answered_unstarted hunused hidle hasks hbuild⟩
  · rw [← Option.ne_none_iff_isSome]
    intro hidle
    obtain ⟨hentries, hinformers⟩ := nothing_awaited hunused hwaited hidle
    exact hthere.elim (absurd hentries) (absurd hinformers)
  · intro last
    cases ends_of_endsWith hunused.toFresh hasks hends with
    | refused _ hno _ hfind _ hrefused => exact Or.inl ⟨hfind, hno, _, hrefused⟩
    | stopped _ _ _ _ hstopped =>
      rw [hstopped] at hreply
      rcases hreply with ⟨resource, key, heq⟩ | ⟨objects, heq⟩ <;> cases heq
    | @answered i hfind _ hlisted =>
      refine Or.inr ⟨i, hfind, List.all_eq_true.mpr ?_⟩
      exact ((told_run hunused.toFresh _).listed_iff hfind).mp (hlisted hstarted)

/-- A wait that begins with an informer that was made before the start, and a list of another kind
after it, whose informer is made by the list. -/
theorem reads_after_sync_wait_of_one_informer :
    let widget : Kind := ⟨"example.io", "v1", "Widget"⟩
    let node : Kind := ⟨"", "v1", "Node"⟩
    let n : Object := { metadata := { name := some "n" } }
    let c : Cache := { connector := Script.connector { kinds := [(widget, true), (node, false)] } }
    let first : List Act := [.request (.informer widget)]
    let middle : List Act := [.request (.start "main"), .step 0, .outside (.feed 0 (.restarted [])),
      .step 0, .poll 1]
    let before := first ++ .request (.waitForSync "main") :: middle
    let r : Request := .list node {}
    let later : List Act := [.step 1, .outside (.feed 1 (.restarted [n])), .step 1, .poll 3]
    c.Unused ∧ (c.run before).reply? 1 = some (.flag true) ∧ (c.run first).informers ≠ [] ∧
      (firstStart before).isSome = true ∧
      c.EndsWith (before ++ .request r :: later) 3 (.objects [n.stamp node]) ∧
      ∃ i, (c.run (before ++ .request r :: later)).informers.find? node = some i ∧
        (c.run (before ++ .request r :: later)).isSynced i.stores = true := by
  intro widget node n c first middle before r later
  have hunused : c.Unused := unused_new _ {} {}
  have hfirst : (c.run first).calls.length = 1 := by decide +kernel
  have hbefore : (c.run before).calls.length = 3 := by decide +kernel
  have hwaited : (c.run before).reply? (c.run first).calls.length = some (.flag true) := by
    decide +kernel
  have hthere : (c.run first).informers ≠ [] := by decide +kernel
  have hasks : (c.run before).asks r = some (node, .list {} none) := by
    rw [asks_list rfl, show node.item = node by decide +kernel]
  have hends : c.EndsWith (before ++ .request r :: later) 3 (.objects [n.stamp node]) :=
    ⟨by decide +kernel, by decide +kernel⟩
  obtain ⟨hstart, hreads, -⟩ := reads_after_sync_wait hunused hwaited
  have hstarted := hstart (Or.inr hthere)
  have hsynced := hreads r later node _ _ hasks hstarted (hbefore.symm ▸ hends) (Or.inr ⟨_, rfl⟩)
  rcases hsynced with ⟨-, -, e, hrefused⟩ | hsynced
  · cases hrefused
  · exact ⟨hunused, hfirst ▸ hwaited, hthere, hstarted, hends, hsynced⟩

/-- A wait that finds nothing to wait for ends well before the start.  A read that follows it
before the start is answered that there is no such object, by an informer that is not synced; the
object is there as soon as the cache is started. -/
theorem read_before_start_is_not_synced :
    let widget : Kind := ⟨"example.io", "v1", "Widget"⟩
    let key : ObjectKey := ⟨some "ops", "w"⟩
    let w : Object := { metadata := { name := some "w", ns := some "ops" } }
    let c : Cache := { connector := Script.connector { kinds := [(widget, true)] } }
    let waited : List Act := [.request (.waitForSync "main"), .poll 0]
    let asked : List Act := waited ++ [.request (.get widget key)]
    let started : List Act := asked ++ [.request (.start "main"), .step 0,
      .outside (.feed 0 (.restarted [w])), .step 0, .request (.get widget key)]
    c.Fresh ∧ (c.run waited).reply? 0 = some (.flag true) ∧
      c.EndsWith asked 1 (.failed (.notFound widget.key key.text)) ∧
      (c.run asked).informers.find? widget = some ⟨widget, false, 0, [⟨none, 0, 0⟩]⟩ ∧
      (c.run asked).isSynced [0] = false ∧
      c.EndsWith started 3 (.object (w.stamp widget)) := by
  intro widget key w c waited asked started
  exact ⟨fresh_new _ {} {}, by decide +kernel, ⟨by decide +kernel, by decide +kernel⟩,
    by decide +kernel, by decide +kernel, by decide +kernel, by decide +kernel⟩

end Cache

end WatchCache
