import WatchCache.Cache.Call
import WatchCache.Proofs.Hub.Ledger

set_option autoImplicit false

/-!
# Running a cache

A cache is used by requests, each of which begins a call.  Calls are polled, loops make steps and
the outside does something, one at a time and in any order: `run` is the cache after such acts.
The ledger of a run lists what its loops delivered, and `EndsWith` is the moment at which a call
gets its reply.  The connector may answer differently from act to act.

What the library offers to callers settles after each of their calls; `settle_eq_run` says that
settling is itself a run, so all that holds of runs holds of these caches.
-/

namespace WatchCache

namespace Cache

/-! ## Requests and acts -/

/-- What a caller asks a cache to do. -/
inductive Request where
  | get (kind : Kind) (key : ObjectKey)
  | list (kind : Kind) (options : ListOptions)
  | informer (kind : Kind)
  | index (kind : Kind) (field : String) (extract : Extractor)
  | start (token : Token)
  | waitForSync (token : Token)

/-- The call of a request, as far as it comes at once. -/
def begin (c : Cache) : Request → Call × Cache
  | .get k key => c.beginGet k key none
  | .list k o => c.beginList k o none
  | .informer k => c.beginInformer k
  | .index k field extract => c.beginIndex k field extract
  | .start token => c.beginStart token
  | .waitForSync token => (.awaitingDedicated token, c)

/-- What happens to a cache, one thing at a time. -/
inductive Act where
  | request (r : Request)
  | poll (id : Nat)
  | step (loop : Nat)
  | outside (s : Hub.Stimulus)
  /-- Somebody adds an index to all stores of an informer. -/
  | addIndex (kind : Kind) (name : String) (extract : Extractor)
  | reconnect (connector : Connector)

/-- The cache with these calls. -/
def withCalls (c : Cache) (calls : List Call) : Cache := { c with calls := calls }

/-- The cache after an act. -/
def act (c : Cache) : Act → Cache
  | .request r => (c.begin r).2.withCalls ((c.begin r).2.calls ++ [(c.begin r).1])
  | .poll id =>
    match c.calls[id]? with
    | some call => (c.poll call).2.withCalls ((c.poll call).2.calls.set id (c.poll call).1)
    | none => c
  | .step loop => c.withHub (c.hub.stepOnce loop)
  | .outside s => c.withHub (c.hub.meet s)
  | .addIndex k name extract =>
    match c.informers.find? k with
    | some i => (c.handleIndex (informerHandle i) name extract).2
    | none => c
  | .reconnect connector => { c with connector := connector }

/-- The cache after acts. -/
def run (c : Cache) (acts : List Act) : Cache := acts.foldl act c

/-- What an act delivers to a store. -/
def delivers (c : Cache) : Act → List Hub.Delivery
  | .step loop => (c.hub.delivery? loop).toList
  | _ => []

/-- All deliveries of a run, in order. -/
def ledger : Cache → List Act → List Hub.Delivery
  | _, [] => []
  | c, a :: rest => c.delivers a ++ ledger (c.act a) rest

/-- The last of these acts gives a call its reply. -/
def EndsWith (c : Cache) (acts : List Act) (id : Nat) (reply : Reply) : Prop :=
  (c.run acts.dropLast).reply? id = none ∧ (c.run acts).reply? id = some reply

@[simp] theorem run_nil (c : Cache) : c.run [] = c := rfl

@[simp] theorem run_cons (c : Cache) (a : Act) (rest : List Act) :
    c.run (a :: rest) = (c.act a).run rest := rfl

theorem run_append (c : Cache) (first second : List Act) :
    c.run (first ++ second) = (c.run first).run second := List.foldl_append

@[simp] theorem run_concat (c : Cache) (acts : List Act) (a : Act) :
    c.run (acts ++ [a]) = (c.run acts).act a := run_append c acts [a]

theorem ledger_append (c : Cache) (first second : List Act) :
    c.ledger (first ++ second) = c.ledger first ++ (c.run first).ledger second := by
  induction first generalizing c with
  | nil => rfl
  | cons a rest ih => rw [List.cons_append, ledger, ih, ledger, List.append_assoc, run_cons]

@[simp] theorem ledger_concat (c : Cache) (acts : List Act) (a : Act) :
    c.ledger (acts ++ [a]) = c.ledger acts ++ (c.run acts).delivers a := by
  rw [ledger_append]
  simp [ledger]

/-- A request delivers nothing. -/
theorem ledger_request (c : Cache) (acts : List Act) (r : Request) :
    c.ledger (acts ++ [.request r]) = c.ledger acts :=
  (c.ledger_concat acts (.request r)).trans (List.append_nil _)

/-- Polling a call delivers nothing. -/
theorem ledger_poll (c : Cache) (acts : List Act) (id : Nat) :
    c.ledger (acts ++ [.poll id]) = c.ledger acts :=
  (c.ledger_concat acts (.poll id)).trans (List.append_nil _)

/-! ## Polling does not look at the calls -/

theorem endFetch_withCalls (c : Cache) (calls : List Call) (k : Kind) (answer : Answer Object)
    (type : Option ResourceType) :
    (c.withCalls calls).endFetch k answer type =
      ((c.endFetch k answer type).1, (c.endFetch k answer type).2.withCalls calls) := by
  cases answer <;> rfl

theorem reach_withCalls (c : Cache) (calls : List Call) (i : Informer) (goal : Goal) :
    (c.withCalls calls).reach i goal =
      ((c.reach i goal).1, (c.reach i goal).2.withCalls calls) := by
  cases goal <;> rfl

theorem poll_withCalls (c : Cache) (calls : List Call) (call : Call) :
    (c.withCalls calls).poll call = ((c.poll call).1, (c.poll call).2.withCalls calls) := by
  cases call with
  | finished reply => rfl
  | running token => rfl
  | fetching k due answer type =>
    have hend := endFetch_withCalls c calls k answer type
    have hnow : (c.withCalls calls).hub.now = c.hub.now := rfl
    simp only [poll, hend, hnow]
    split <;> rfl
  | syncing k token goal =>
    have hfind : (c.withCalls calls).informers.find? k = c.informers.find? k := rfl
    simp only [poll, hfind]
    cases c.informers.find? k with
    | none => rfl
    | some i =>
      have hsynced : (c.withCalls calls).hub.synced? token i.stores =
          c.hub.synced? token i.stores := rfl
      simp only [hsynced]
      rcases c.hub.synced? token i.stores with _ | _ | _
      · rfl
      · rfl
      · simp only [reach_withCalls]
  | awaitingDedicated token =>
    have hsynced : (c.withCalls calls).hub.synced? token
        ((c.withCalls calls).registry.entries.map Entry.store) =
        c.hub.synced? token (c.registry.entries.map Entry.store) := rfl
    simp only [poll, hsynced]
    rcases c.hub.synced? token (c.registry.entries.map Entry.store) with _ | _ | _ <;> rfl
  | awaitingFallback stores token => rfl

/-! ## Settling is a run -/

theorem calls_reach (c : Cache) (i : Informer) (goal : Goal) :
    (c.reach i goal).2.calls = c.calls := by
  cases goal <;> rfl

theorem calls_poll (c : Cache) (call : Call) : (c.poll call).2.calls = c.calls := by
  have hself : c.withCalls c.calls = c := rfl
  have hpoll := poll_withCalls c c.calls call
  rw [hself] at hpoll
  exact congrArg (fun p => p.2.calls) hpoll

/-- Calls are polled one after the other. -/
theorem pollAll_eq_run (c : Cache) (ended todo : List Call) :
    (pollAll c todo).2.withCalls (ended ++ (pollAll c todo).1) =
      (c.withCalls (ended ++ todo)).run ((List.range' ended.length todo.length).map .poll) := by
  induction todo generalizing c ended with
  | nil => rfl
  | cons call rest ih =>
    have hact : (c.withCalls (ended ++ call :: rest)).act (.poll ended.length) =
        (c.poll call).2.withCalls ((ended ++ [(c.poll call).1]) ++ rest) := by
      have hcall : (c.withCalls (ended ++ call :: rest)).calls[ended.length]? = some call := by
        simp [withCalls]
      simp only [act, hcall, poll_withCalls]
      simp [withCalls]
    have hrest := ih (c.poll call).2 (ended ++ [(c.poll call).1])
    rw [List.length_append, List.length_singleton] at hrest
    rw [List.length_cons, List.range'_succ, List.map_cons, run_cons, hact, ← hrest]
    simp only [pollAll, List.append_assoc, List.singleton_append]

theorem resolveWaits_of_nil {h : Hub} (hwaits : h.waits = []) : h.resolveWaits = h := by
  cases h
  cases hwaits
  rfl

theorem run_steps (c : Cache) (ids : List Nat) :
    c.run (ids.map .step) = c.withHub (c.hub.play (ids.map .step)) := by
  induction ids generalizing c with
  | nil => rfl
  | cons id rest ih =>
    rw [List.map_cons, run_cons, ih]
    rfl

theorem waits_steps (h : Hub) (ids : List Nat) : (h.play (ids.map .step)).waits = h.waits := by
  induction ids generalizing h with
  | nil => rfl
  | cons id rest ih =>
    have hstep : (h.stepOnce id).waits = h.waits := by
      rcases h.stepOnce_cases id with ⟨-, hsame⟩ | ⟨l, -, hstep⟩
      · rw [hsame]
      · exact hstep.waits
    rw [List.map_cons]
    exact (ih (h.stepOnce id)).trans hstep

/-- A cache settles by steps of its loops and by polling its calls. -/
theorem settle_eq_run {c : Cache} (hwaits : c.hub.waits = []) : ∃ acts, c.settle = c.run acts := by
  obtain ⟨ids, hids⟩ := Hub.settleIn_eq_play c.hub.runOrder c.hub.work c.hub
  have hsettle : c.hub.settle = c.hub.play (ids.map .step) := by
    rw [Hub.settle, hids, resolveWaits_of_nil]
    rw [waits_steps, hwaits]
  refine ⟨ids.map .step ++ (List.range' 0 c.calls.length).map .poll, ?_⟩
  rw [run_append, run_steps, ← hsettle]
  exact pollAll_eq_run (c.withHub c.hub.settle) [] c.calls

/-- A request to a cache that then settles is a run. -/
theorem enter_eq_run (c : Cache) (r : Request) (hwaits : (c.begin r).2.hub.waits = []) :
    ∃ acts, (enter (c.begin r)).2 = c.run (.request r :: acts) := by
  obtain ⟨acts, hacts⟩ := settle_eq_run (c := c.act (.request r)) hwaits
  exact ⟨acts, hacts⟩

end Cache

end WatchCache
