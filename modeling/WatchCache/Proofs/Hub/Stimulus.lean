import Mathlib.Data.List.Induction
import WatchCache.Proofs.Hub.Settling

set_option autoImplicit false

/-!
# Stimuli

A hub rests until the clock moves, a token is cancelled or a channel is fed, and then settles
again.  `serve` is a hub in which one more loop was started, after any such stimuli; the clock
stands at the `clockPoints` when the hub settles.
-/

namespace WatchCache

namespace Hub

/-- What reaches the loops of a hub from outside. -/
inductive Stimulus where
  | advance (ms : Nat)
  | cancel (token : Token)
  | feed (source : Nat) (event : Event)

/-- How far a stimulus moves the clock. -/
def Stimulus.elapsed : Stimulus → Nat
  | .advance ms => ms
  | _ => 0

/-- The settled hub after a stimulus; a source that takes no event leaves the hub as it is. -/
def respond (h : Hub) : Stimulus → Hub
  | .advance ms => (h.advance ms).settle
  | .cancel token => (h.cancel token).settle
  | .feed source e =>
    match h.feed source e with
    | .ok h => h.settle
    | .error _ => h

/-- The settled hub after one more loop was started and stimuli came. -/
def serve (base : Hub) (l : Loop) (stimuli : List Stimulus) : Hub :=
  stimuli.foldl respond (base.spawn l).2.settle

/-- The times at which the clock stops. -/
def clockPoints (start : Nat) (stimuli : List Stimulus) : List Nat :=
  stimuli.scanl (fun time s => time + s.elapsed) start

@[simp] theorem serve_nil (base : Hub) (l : Loop) :
    base.serve l [] = (base.spawn l).2.settle := rfl

theorem serve_concat (base : Hub) (l : Loop) (stimuli : List Stimulus) (s : Stimulus) :
    base.serve l (stimuli ++ [s]) = (base.serve l stimuli).respond s := by
  simp [serve]

@[simp] theorem clockPoints_nil (start : Nat) : clockPoints start [] = [start] := by
  simp [clockPoints]

theorem clockPoints_concat {start now : Nat} {stimuli : List Stimulus}
    (hnow : (clockPoints start stimuli).getLast? = some now) (s : Stimulus) :
    clockPoints start (stimuli ++ [s]) = clockPoints start stimuli ++ [now + s.elapsed] := by
  rw [clockPoints, List.getLast?_scanl, Option.some.injEq] at hnow
  rw [clockPoints, List.scanl_append, hnow]
  simp [clockPoints]

/-! ## Rest -/

/-- A hub whose loops wait between their subscriptions is at rest after every stimulus. -/
theorem respond_rests {h : Hub} (hpaced : h.Paced) (hrest : ∀ id, h.stepLoop id = none)
    (s : Stimulus) : (h.respond s).Paced ∧ ∀ id, (h.respond s).stepLoop id = none := by
  have hsettle (g : Hub) (hloops : g.loops = h.loops) :
      g.settle.Paced ∧ ∀ id, g.settle.stepLoop id = none := by
    have hg : g.Paced := fun l hl => hpaced l (hloops ▸ hl)
    exact ⟨hg.settle, settle_rests hg⟩
  cases s with
  | advance ms => exact hsettle _ rfl
  | cancel token => exact hsettle _ rfl
  | feed source e =>
    rw [respond]
    split
    · next hfeed =>
      obtain ⟨queue, held, turns, -, rfl⟩ := feed_ok hfeed
      exact hsettle _ rfl
    · exact ⟨hpaced, hrest⟩

theorem serve_rests {base : Hub} {l : Loop} (hpaced : base.Paced) (hresync : l.resync ≠ some 0)
    (stimuli : List Stimulus) :
    (base.serve l stimuli).Paced ∧ ∀ id, (base.serve l stimuli).stepLoop id = none := by
  induction stimuli using List.reverseRecOn with
  | nil =>
    have hstart : (base.spawn l).2.Paced := by
      intro other hother
      rcases List.mem_append.mp hother with hold | hnew
      · exact hpaced other hold
      · exact List.mem_singleton.mp hnew ▸ hresync
    exact ⟨hstart.settle, settle_rests hstart⟩
  | append_singleton stimuli s ih =>
    rw [serve_concat]
    exact respond_rests ih.1 ih.2 s

end Hub

end WatchCache
