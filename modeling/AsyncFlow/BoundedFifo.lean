import AsyncFlow.TransitionSystem

/-!
# Bounded FIFO queues

The specification of a bounded queue.  The state keeps everything that was ever
pushed and popped; what lies between the two is in the queue.
-/

namespace AsyncFlow

/-- All that was pushed to a queue and popped from it, in order. -/
structure Fifo (α : Type*) where
  pushed : List α
  popped : List α

namespace Fifo

variable {α : Type*}

inductive Action (α : Type*)
  | push (values : List α)
  | pop (count : Nat)

def step (capacity : Nat) (fifo : Fifo α) : Action α → Option (Fifo α)
  | .push values =>
    if fifo.pushed.length + values.length ≤ fifo.popped.length + capacity then
      some { fifo with pushed := fifo.pushed ++ values }
    else none
  | .pop count =>
    if fifo.popped.length + count ≤ fifo.pushed.length then
      some { fifo with popped := fifo.pushed.take (fifo.popped.length + count) }
    else none

def system (α : Type*) (capacity : Nat) : TransitionSystem (Fifo α) (Action α) where
  initial := fun fifo => fifo = ⟨[], []⟩
  step := step capacity

theorem exists_step {capacity : Nat} {pushed popped pushedAfter poppedAfter : List α}
    (grows : poppedAfter = popped ∧ pushed <+: pushedAfter ∨
      pushedAfter = pushed ∧ popped <+: poppedAfter) (isPrefix : poppedAfter <+: pushedAfter)
    (bounded : pushedAfter.length ≤ poppedAfter.length + capacity) :
    ∃ action, step capacity ⟨pushed, popped⟩ action = some ⟨pushedAfter, poppedAfter⟩ := by
  rcases grows with ⟨rfl, values, rfl⟩ | ⟨rfl, values, rfl⟩
  · rw [List.length_append] at bounded
    exact ⟨.push values, if_pos bounded⟩
  · have ordered := isPrefix.length_le
    refine ⟨.pop values.length, ?_⟩
    simp only [step]
    rw [← List.length_append, ← List.prefix_iff_eq_take.mp isPrefix]
    exact if_pos ordered

end Fifo

end AsyncFlow
