import WatchCache.Proofs.Cache.Opening

set_option autoImplicit false

/-!
# The life of a call

A call keeps its number.  One that the fallback has to answer ends at once, or waits for the
informer of its kind under the token that the cache runs under; from then on nothing but being
polled changes it, and being polled either ends it or leaves it as it is.
-/

namespace WatchCache

namespace Cache

/-! ## Acts and calls -/

theorem Grown.calls_eq {k : Kind} {c r : Cache} (h : Grown k c r) : r.calls = c.calls := by
  rw [h.rest]

theorem calls_openInformer (c : Cache) (k : Kind) : (c.openInformer k).2.calls = c.calls := by
  rcases hopen : c.openInformer k with ⟨answer, opened⟩
  cases opens_of_openInformer hopen with
  | found _ => rfl
  | failed _ hbuild => exact (grown_of_buildInformer hbuild).calls_eq
  | made _ hbuild => exact (grown_of_buildInformer hbuild).calls_eq

theorem calls_beginFallback (c : Cache) (k : Kind) (goal : Goal) :
    (c.beginFallback k goal).2.calls = c.calls := by
  have hcalls := c.calls_openInformer k
  rw [beginFallback]
  split
  · next hopen =>
    rw [hopen] at hcalls
    exact hcalls
  · next i opened hopen =>
    rw [hopen] at hcalls
    split
    · split
      · exact (calls_reach opened i goal).trans hcalls
      · exact hcalls
    · exact (calls_reach opened i goal).trans hcalls

theorem calls_begin (c : Cache) (r : Request) : (c.begin r).2.calls = c.calls := by
  cases hasks : c.asks r with
  | some question =>
    rw [begin_of_asks hasks, calls_beginFallback]
    cases r <;> rfl
  | none =>
    cases r with
    | get kind key =>
      simp only [begin, beginGet]
      split
      · exact calls_beginFallback _ _ _
      · split <;> rfl
    | list kind o =>
      simp only [begin, beginList]
      split
      · rfl
      · exact calls_beginFallback _ _ _
    | informer kind =>
      simp only [begin, beginInformer]
      split
      · rfl
      · exact calls_beginFallback _ _ _
    | index kind field extract =>
      simp only [begin, beginIndex]
      split
      · rfl
      · exact calls_beginFallback _ _ _
    | start token =>
      show (c.beginStart token).2.calls = c.calls
      unfold beginStart
      cases hstarted : c.started <;> cases hrunning : c.runningUnder <;>
        simp [spawnDedicated_eq, spawnInformers_eq, withLoops, withHub, hstarted, hrunning]
    | waitForSync token => rfl

/-- The call of a request gets the next number. -/
theorem calls_act_request (c : Cache) (r : Request) :
    (c.act (.request r)).calls = c.calls ++ [(c.begin r).1] :=
  congrArg (· ++ [(c.begin r).1]) (c.calls_begin r)

theorem call_act_request (c : Cache) (r : Request) :
    (c.act (.request r)).calls[c.calls.length]? = some (c.begin r).1 := by
  rw [calls_act_request, List.getElem?_concat_length]

/-- A call changes only by being polled. -/
theorem getElem?_calls_act {c : Cache} {id : Nat} {call : Call} (hcall : c.calls[id]? = some call)
    (a : Act) :
    a = .poll id ∧ (c.act a).calls[id]? = some (c.poll call).1 ∨
      a ≠ .poll id ∧ (c.act a).calls[id]? = some call := by
  have hlt := (List.getElem?_eq_some_iff.mp hcall).1
  cases a with
  | request r =>
    refine Or.inr ⟨by simp, ?_⟩
    rw [calls_act_request, List.getElem?_append_left hlt, hcall]
  | poll other =>
    by_cases heq : other = id
    · subst heq
      refine Or.inl ⟨rfl, ?_⟩
      simp only [act, hcall]
      rw [withCalls, calls_poll]
      exact List.getElem?_set_self hlt
    · refine Or.inr ⟨by simpa using heq, ?_⟩
      simp only [act]
      split
      · rw [withCalls, calls_poll]
        exact (List.getElem?_set_ne heq).trans hcall
      · exact hcall
  | step loop => exact Or.inr ⟨by simp, hcall⟩
  | outside s => exact Or.inr ⟨by simp, hcall⟩
  | addIndex k name extract =>
    refine Or.inr ⟨by simp, ?_⟩
    simp only [act]
    split <;> exact hcall
  | reconnect connector => exact Or.inr ⟨by simp, hcall⟩

theorem eq_finished_of_reply? {call : Call} {reply : Reply} (hreply : call.reply? = some reply) :
    call = .finished reply := by
  cases call with
  | finished other => exact congrArg Call.finished (Option.some.inj hreply)
  | syncing _ _ _ | fetching _ _ _ _ | awaitingDedicated _ | awaitingFallback _ _ | running _ =>
    cases hreply

theorem reply?_of_calls {c : Cache} {id : Nat} {call : Call} (hcall : c.calls[id]? = some call) :
    c.reply? id = call.reply? := by
  rw [reply?, hcall]
  rfl

/-- What every poll keeps of a call, every run keeps of it. -/
theorem exists_call_run {c : Cache} {id : Nat} {P : Call → Prop}
    (hbegan : ∃ call, c.calls[id]? = some call ∧ P call)
    (hpoll : ∀ (c' : Cache) (call : Call), P call → P (c'.poll call).1) (later : List Act) :
    ∃ call, (c.run later).calls[id]? = some call ∧ P call := by
  induction later using List.reverseRecOn with
  | nil => exact hbegan
  | append_singleton later a ih =>
    obtain ⟨call, hcall, hkept⟩ := ih
    rw [run_concat]
    rcases getElem?_calls_act hcall a with ⟨-, hpolled⟩ | ⟨-, hsame⟩
    · exact ⟨_, hpolled, hpoll _ call hkept⟩
    · exact ⟨call, hsame, hkept⟩

/-- A call that has ended stays as it ended. -/
theorem finished_run {c : Cache} {id : Nat} {reply : Reply}
    (hcall : c.calls[id]? = some (.finished reply)) (later : List Act) :
    (c.run later).calls[id]? = some (.finished reply) := by
  obtain ⟨call, hlater, rfl⟩ := exists_call_run (P := (· = .finished reply)) ⟨_, hcall, rfl⟩
    (fun c' call hcall => by rw [hcall]; rfl) later
  exact hlater

/-- A request that is answered when it begins has that answer, and no act after it ends it. -/
theorem EndsWith.at_once {c : Cache} {before later : List Act} {r : Request}
    {reply answer : Reply}
    (hends : c.EndsWith (before ++ .request r :: later) (c.run before).calls.length reply)
    (hbegin : ((c.run before).begin r).1 = .finished answer) : later = [] ∧ reply = answer := by
  have hcall := ((c.run before).call_act_request r).trans (congrArg some hbegin)
  have hanswer (middle : List Act) :
      (c.run (before ++ .request r :: middle)).reply? (c.run before).calls.length =
        some answer := by
    rw [run_append, run_cons]
    exact reply?_of_calls (finished_run hcall middle)
  obtain ⟨hbefore, hafter⟩ := hends
  rcases List.eq_nil_or_concat later with rfl | ⟨middle, a, rfl⟩
  · exact ⟨rfl, Option.some.inj (hafter.symm.trans (hanswer []))⟩
  · rw [List.concat_eq_append, ← List.cons_append, ← List.append_assoc, List.dropLast_concat,
      hanswer middle] at hbefore
    cases hbefore

/-! ## Calls that the fallback answers -/

/-- The wording for a wait that is over because the cache has stopped. -/
def stoppedError (k : Kind) : CacheError :=
  .remote ("cache stopped before " ++ k.key ++ " synced")

/-- What becomes of a call that waits for an informer when it is polled. -/
inductive Polled (c : Cache) (k : Kind) (token : Token) (goal : Goal) : Call → Cache → Prop
  | waits (hwaits : ∀ i, c.informers.find? k = some i → c.hub.synced? token i.stores = none) :
      Polled c k token goal (.syncing k token goal) c
  | stops {i : Informer} (hfind : c.informers.find? k = some i)
      (hstopped : c.hub.synced? token i.stores = some false) :
      Polled c k token goal (.finished (.failed (stoppedError k))) c
  | reaches {i : Informer} (hfind : c.informers.find? k = some i)
      (hsynced : c.hub.synced? token i.stores = some true) :
      Polled c k token goal (.finished (c.reach i goal).1) (c.reach i goal).2

theorem polled_of_poll {c polled : Cache} {k : Kind} {token : Token} {goal : Goal} {call : Call}
    (hpoll : c.poll (.syncing k token goal) = (call, polled)) :
    Polled c k token goal call polled := by
  cases hfind : c.informers.find? k with
  | none =>
    simp only [poll, hfind] at hpoll
    cases hpoll
    exact .waits fun i hi => by cases hfind.symm.trans hi
  | some i =>
    rcases hsynced : c.hub.synced? token i.stores with _ | _ | _
    · simp only [poll, hfind, hsynced] at hpoll
      cases hpoll
      exact .waits fun j hj => by cases hfind.symm.trans hj; exact hsynced
    · simp only [poll, hfind, hsynced] at hpoll
      cases hpoll
      exact .stops hfind hsynced
    · simp only [poll, hfind, hsynced] at hpoll
      cases hpoll
      exact .reaches hfind hsynced

/-- What becomes of a call on the fallback when it begins. -/
inductive Begun (c : Cache) (k : Kind) (goal : Goal) : Call → Cache → Prop
  | fails {e : CacheError} {built : Cache} (hfind : c.informers.find? k = none)
      (hbuild : c.buildInformer k = (.error e, built)) :
      Begun c k goal (.finished (.failed e)) built
  | waits {i : Informer} {token : Token} {opened : Cache}
      (hopen : c.openInformer k = (.ok i, opened)) (hrunning : opened.runningUnder = some token)
      (hunsynced : opened.isSynced i.stores = false) :
      Begun c k goal (.syncing k token goal) opened
  | reaches {i : Informer} {opened : Cache} (hopen : c.openInformer k = (.ok i, opened))
      (hready : ∀ token, opened.runningUnder = some token → opened.isSynced i.stores = true) :
      Begun c k goal (.finished (opened.reach i goal).1) (opened.reach i goal).2

theorem begun_of_beginFallback {c begun : Cache} {k : Kind} {goal : Goal} {call : Call}
    (hbegin : c.beginFallback k goal = (call, begun)) : Begun c k goal call begun := by
  rcases hopen : c.openInformer k with ⟨_ | i, opened⟩
  · simp only [beginFallback, hopen] at hbegin
    cases hbegin
    cases opens_of_openInformer hopen with
    | failed hfind hbuild => exact .fails hfind hbuild
  · simp only [beginFallback, hopen] at hbegin
    cases hrunning : opened.runningUnder with
    | none =>
      rw [hrunning] at hbegin
      cases hbegin
      exact .reaches hopen fun token htoken => by cases hrunning.symm.trans htoken
    | some token =>
      rw [hrunning] at hbegin
      cases hsynced : opened.isSynced i.stores with
      | false =>
        simp only [hsynced] at hbegin
        cases hbegin
        exact .waits hopen hrunning hsynced
      | true =>
        simp only [hsynced] at hbegin
        cases hbegin
        exact .reaches hopen fun _ _ => hsynced

/-- A request for the fallback is begun there. -/
theorem begun_of_asks {c : Cache} {r : Request} {k : Kind} {goal : Goal}
    (hasks : c.asks r = some (k, goal)) :
    Begun (c.counted r) k goal (c.begin r).1 (c.begin r).2 :=
  begun_of_beginFallback (begin_of_asks hasks).symm

/-- A call of the fallback has ended, or waits as it did when it began. -/
theorem call_of_request {c : Cache} {before : List Act} {r : Request} {k : Kind} {goal : Goal}
    (hasks : (c.run before).asks r = some (k, goal)) (later : List Act) :
    ∃ call, (c.run (before ++ .request r :: later)).calls[(c.run before).calls.length]? =
        some call ∧
      ((∃ reply, call = .finished reply) ∨
        ∃ token, call = .syncing k token goal ∧
          ((c.run before).begin r).1 = .syncing k token goal) := by
  rw [run_append, run_cons]
  refine exists_call_run ⟨((c.run before).begin r).1, call_act_request _ r, ?_⟩ ?_ later
  · have hbegun := begun_of_asks hasks
    rcases hbegin : (c.run before).begin r with ⟨call, begun⟩
    rw [hbegin] at hbegun
    cases hbegun with
    | fails _ _ => exact Or.inl ⟨_, rfl⟩
    | waits _ _ _ => exact Or.inr ⟨_, rfl, rfl⟩
    | reaches _ _ => exact Or.inl ⟨_, rfl⟩
  · rintro c' call (⟨reply, rfl⟩ | ⟨token, rfl, hbegun⟩)
    · exact Or.inl ⟨reply, rfl⟩
    · rcases hpoll : c'.poll (.syncing k token goal) with ⟨call, polled⟩
      cases polled_of_poll hpoll with
      | waits _ => exact Or.inr ⟨token, rfl, hbegun⟩
      | stops _ _ => exact Or.inl ⟨_, rfl⟩
      | reaches _ _ => exact Or.inl ⟨_, rfl⟩

/-- A call of the fallback ends when it begins, or when it is polled. -/
theorem EndsWith.cases {c : Cache} {before later : List Act} {r : Request} {k : Kind}
    {goal : Goal} {reply : Reply} (hasks : (c.run before).asks r = some (k, goal))
    (hends : c.EndsWith (before ++ .request r :: later) (c.run before).calls.length reply) :
    later = [] ∧ ((c.run before).begin r).1 = .finished reply ∨
      ∃ middle token, later = middle ++ [.poll (c.run before).calls.length] ∧
        ((c.run before).begin r).1 = .syncing k token goal ∧
        (c.run (before ++ .request r :: middle)).calls[(c.run before).calls.length]? =
          some (.syncing k token goal) ∧
        ((c.run (before ++ .request r :: middle)).poll (.syncing k token goal)).1 =
          .finished reply := by
  obtain ⟨hbefore, hafter⟩ := hends
  rcases List.eq_nil_or_concat later with rfl | ⟨middle, a, rfl⟩
  · refine Or.inl ⟨rfl, ?_⟩
    rw [run_concat, reply?_of_calls (call_act_request _ r)] at hafter
    exact eq_finished_of_reply? hafter
  · rw [List.concat_eq_append] at hbefore hafter ⊢
    rw [← List.cons_append, ← List.append_assoc, List.dropLast_concat] at hbefore
    rw [← List.cons_append, ← List.append_assoc, run_concat] at hafter
    obtain ⟨call, hcall, hhow⟩ := call_of_request hasks middle
    rw [reply?_of_calls hcall] at hbefore
    rcases hhow with ⟨other, rfl⟩ | ⟨token, rfl, hbegun⟩
    · cases hbefore
    · refine Or.inr ⟨middle, token, ?_⟩
      rcases getElem?_calls_act hcall a with ⟨rfl, hpolled⟩ | ⟨-, hsame⟩
      · refine ⟨rfl, hbegun, hcall, ?_⟩
        rw [reply?_of_calls hpolled] at hafter
        exact eq_finished_of_reply? hafter
      · rw [reply?, hsame, Option.bind_some] at hafter
        cases hafter

end Cache

end WatchCache
