import Mathlib.Data.List.Basic

/-! Dart's `StreamController`, as the calls made on it. It takes events until it is closed;
`add` on a closed controller throws. -/

namespace Dart

inductive StreamCall (ε : Type*) where
  | add (event : ε)
  | close
  deriving DecidableEq

structure StreamController (ε : Type*) where
  /-- the latest last -/
  calls : List (StreamCall ε) := []
  deriving DecidableEq

namespace StreamController

variable {ε : Type*} {c : StreamController ε} {event : ε}

def add (c : StreamController ε) (event : ε) : StreamController ε := ⟨c.calls ++ [.add event]⟩

def close (c : StreamController ε) : StreamController ε := ⟨c.calls ++ [.close]⟩

def isClosed (c : StreamController ε) : Bool :=
  c.calls.any fun
    | .add _ => false
    | .close => true

/-- No event is added once the controller is closed. -/
def NoneAfterClose (c : StreamController ε) : Prop :=
  ∀ before after, c.calls = before ++ .close :: after → ∀ event, .add event ∉ after

theorem isClosed_iff : c.isClosed = true ↔ .close ∈ c.calls := by
  rw [isClosed, List.any_eq_true]
  refine ⟨?_, fun h => ⟨.close, h, rfl⟩⟩
  intro ⟨call, hmem, hclose⟩
  cases call with
  | add event => cases hclose
  | close => exact hmem

@[simp] theorem isClosed_add : (c.add event).isClosed = c.isClosed := by
  simp [isClosed, add]

@[simp] theorem isClosed_close : c.close.isClosed = true := by
  simp [isClosed, close]

theorem noneAfterClose_of_open (h : c.isClosed = false) : c.NoneAfterClose := by
  intro before after hcalls
  have hclosed : c.isClosed = true := isClosed_iff.2 (by simp [hcalls])
  exact absurd hclosed (by simp [h])

theorem noneAfterClose_add (h : c.isClosed = false) : (c.add event).NoneAfterClose :=
  noneAfterClose_of_open (by rw [isClosed_add, h])

theorem NoneAfterClose.close (h : c.NoneAfterClose) : c.close.NoneAfterClose := by
  intro before after hcalls event hmem
  obtain rfl | ⟨after, call, rfl⟩ := List.eq_nil_or_concat after
  · exact List.not_mem_nil hmem
  · have hsplit : c.calls ++ [.close] = (before ++ .close :: after) ++ [call] := by
      simpa [StreamController.close] using hcalls
    obtain ⟨hinit, hlast⟩ := List.append_inj' hsplit rfl
    obtain rfl := List.singleton_inj.1 hlast
    exact h before after hinit event (by simpa using hmem)

/-- An event added to a closed controller comes after its closing. -/
theorem not_noneAfterClose_add (h : c.isClosed = true) : ¬ (c.add event).NoneAfterClose := by
  obtain ⟨before, after, hcalls⟩ := List.append_of_mem (isClosed_iff.1 h)
  intro hnone
  refine hnone before (after ++ [.add event]) ?_ event (by simp)
  rw [add, hcalls, List.append_assoc, List.cons_append]

end StreamController

end Dart
