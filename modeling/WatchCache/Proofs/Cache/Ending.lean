import WatchCache.Proofs.Cache.Synced

set_option autoImplicit false

/-!
# How calls on the fallback end

A call that the fallback has to answer ends in one of three ways: it is refused at once, since its
informer cannot be made; it is stopped while it waits; or its informer answers it, which has had
its listings if the cache was started before the call began.
-/

namespace WatchCache

namespace Cache

/-- How a call on the fallback ends: the request `r`, made after the acts `before`, gets its reply
by the last of the acts `later`. -/
inductive Ends (c : Cache) (before later : List Act) (r : Request) (k : Kind) (goal : Goal)
    (reply : Reply) : Prop
  | refused {e : CacheError} (hlater : later = []) (hno : ¬(c.run before).Supplies k)
      (habsent : (c.run before).informers.find? k = none)
      (hfind : (c.run (before ++ .request r :: later)).informers.find? k = none)
      (hcause : (c.run before).connector.isNamespaced k = .error e ∨
        ∃ ns, (c.run before).connector.watchSource k ns ((c.run before).selectors.find? k) =
          .error e)
      (hreply : reply = .failed e)
  | stopped {i : Informer} {token : Token} (hstarted : firstStart before = some token)
      (hfind : (c.run (before ++ .request r :: later)).informers.find? k = some i)
      (hunlisted : ¬i.Listed (c.ledger before))
      (hcancelled : (c.run (before ++ .request r :: later)).hub.isCancelled token = true)
      (hreply : reply = .failed (stoppedError k))
  | answered {i : Informer}
      (hfind : (c.run (before ++ .request r :: later)).informers.find? k = some i)
      (hanswers : Answers (c.run (before ++ .request r :: later)) i goal reply)
      (hlisted : (firstStart before).isSome = true →
        i.Listed (c.ledger (before ++ .request r :: later)))

section

variable {c : Cache} {before later : List Act} {r : Request} {k : Kind} {goal : Goal}
  {reply : Reply}

/-- In a cache that was not started, a call on an informer ends at once. -/
theorem begin_idle {c : Cache} (hasks : c.asks r = some (k, goal)) (hidle : c.runningUnder = none)
    (hbuild : c.informers.find? k ≠ none ∨ c.Supplies k) :
    ∃ (c' : Cache) (i : Informer), (c.begin r).1 = .finished (c'.reach i goal).1 := by
  have hidle' : (c.counted r).runningUnder = none :=
    (congrArg Setup.runningUnder (c.setup_counted r)).trans hidle
  have hbegun := begun_of_asks hasks
  rcases hbegin : c.begin r with ⟨call, begun⟩
  rw [hbegin] at hbegun
  cases hbegun with
  | fails hfind hfailed =>
    rw [informers_counted] at hfind
    have hno := mt (supplies_counted c r k).mpr (not_supplies_of_error hfailed)
    exact absurd hbuild (not_or.mpr ⟨not_not.mpr hfind, hno⟩)
  | waits hopen hrunning _ =>
    have hunder : begun.runningUnder = none := by
      cases opens_of_openInformer hopen with
      | found _ => exact hidle'
      | @made _ built _ hbuild =>
        exact (grown_of_buildInformer hbuild).runningUnder_eq.trans hidle'
    cases hunder.symm.trans hrunning
  | @reaches i opened _ _ => exact ⟨opened, i, rfl⟩

/-- A call whose informer is not there and cannot be made is refused at once. -/
theorem ends_refused (hasks : (c.run before).asks r = some (k, goal))
    (hfind : (c.run before).informers.find? k = none) (hno : ¬(c.run before).Supplies k)
    (hends : c.EndsWith (before ++ .request r :: later) (c.run before).calls.length reply) :
    Ends c before later r k goal reply := by
  rcases request_outcome hasks hfind with ⟨hyes, -⟩ | ⟨-, ⟨e, hreply, hcause⟩, hinformers, -⟩
  · exact absurd hyes hno
  · have hbegin : ((c.run before).begin r).1 = .finished (.failed e) := by
      rw [reply?_of_calls (call_act_request _ r)] at hreply
      exact eq_finished_of_reply? hreply
    rcases hends.cases hasks with ⟨rfl, hfinished⟩ | ⟨middle, token, -, hsyncing, -⟩
    · cases hbegin.symm.trans hfinished
      refine .refused rfl hno hfind ?_ hcause rfl
      rw [run_concat, hinformers]
      exact hfind
    · cases hbegin.symm.trans hsyncing

/-- An answer that is no error of a stopped cache comes from the informer of the kind. -/
theorem answers_of_reach (hasks : (c.run before).asks r = some (k, goal))
    (hbuild : (c.run before).informers.find? k ≠ none ∨ (c.run before).Supplies k)
    (hends : c.EndsWith (before ++ .request r :: later) (c.run before).calls.length reply)
    {c' : Cache} {j : Informer} (hreach : reply = (c'.reach j goal).1) :
    ∃ i, (c.run (before ++ .request r :: later)).informers.find? k = some i ∧
      Answers (c.run (before ++ .request r :: later)) i goal reply := by
  rcases hends.answers hasks with ⟨hno, hnone, -⟩ | hstopped | hanswers
  · exact absurd hbuild (not_or.mpr ⟨not_not.mpr hnone, hno⟩)
  · exact absurd (hreach.symm.trans hstopped) (reach_ne_remote hasks c' j _)
  · exact hanswers

theorem ends_of_endsWith (hfresh : c.Fresh) (hasks : (c.run before).asks r = some (k, goal))
    (hends : c.EndsWith (before ++ .request r :: later) (c.run before).calls.length reply) :
    Ends c before later r k goal reply := by
  by_cases hbuild : (c.run before).informers.find? k ≠ none ∨ (c.run before).Supplies k
  · cases hstart : firstStart before with
    | none =>
      have hidle := (hfresh.runningUnder_eq before).trans hstart
      obtain ⟨c', j, hfinished⟩ := begin_idle hasks hidle hbuild
      have hreach : reply = (c'.reach j goal).1 := by
        rcases hends.cases hasks with ⟨-, hreply⟩ | ⟨middle, token, -, hsyncing, -⟩
        · cases hreply.symm.trans hfinished
          rfl
        · cases hsyncing.symm.trans hfinished
      obtain ⟨i, hfind, hanswers⟩ := answers_of_reach hasks hbuild hends hreach
      exact .answered hfind hanswers fun hsome => by
        rw [hstart] at hsome
        cases hsome
    | some token =>
      obtain ⟨i, hreads⟩ := exists_reads hfresh hstart hasks hbuild
      rcases hreads.ends hends with
        ⟨hreply, hunlisted, hcancelled⟩ | ⟨hlisted, -, c', hreach⟩
      · exact .stopped hstart (hreads.find later) hunlisted hcancelled hreply
      · obtain ⟨j, hfind, hanswers⟩ := answers_of_reach hasks hbuild hends hreach
        cases hfind.symm.trans (hreads.find later)
        exact .answered hfind hanswers fun _ => hlisted
  · obtain ⟨hfind, hno⟩ := not_or.mp hbuild
    exact ends_refused hasks (not_not.mp hfind) hno hends

/-- At rest, a call that has not ended waits for the listings of its informer. -/
theorem unlisted_of_pending (hfresh : c.Fresh) (hasks : (c.run before).asks r = some (k, goal))
    (hbuild : (c.run before).informers.find? k ≠ none ∨ (c.run before).Supplies k)
    (hrest : (c.run (before ++ .request r :: later)).AtRest)
    (hpending : (c.run (before ++ .request r :: later)).reply? (c.run before).calls.length = none) :
    ∃ i, (c.run (before ++ .request r :: later)).informers.find? k = some i ∧
      ¬i.Listed (c.ledger (before ++ .request r :: later)) := by
  cases hstart : firstStart before with
  | none =>
    have hidle := (hfresh.runningUnder_eq before).trans hstart
    obtain ⟨c', i, hfinished⟩ := begin_idle hasks hidle hbuild
    obtain ⟨call, hcall, ⟨reply, rfl⟩ | ⟨token, rfl, hsyncing⟩⟩ := call_of_request hasks later
    · rw [reply?_of_calls hcall] at hpending
      cases hpending
    · cases hfinished.symm.trans hsyncing
  | some token =>
    obtain ⟨i, hreads⟩ := exists_reads hfresh hstart hasks hbuild
    exact ⟨i, hreads.find later, (hreads.pending hrest hpending).1⟩

end

end Cache

end WatchCache
