import Mathlib.Data.List.Nodup
import Mathlib.Logic.Function.Basic

/-!
# Threads at counted places

A counter that every thread raises on entering a part of its code and lowers on
leaving it counts the threads inside.  Tokens, each held by one thread, stay apart
while threads keep, drop or take fresh ones.
-/

namespace AsyncFlow

open Function List

variable {Thread Pc Token : Type*} [DecidableEq Thread]

theorem exists_update {selects : Pc → Bool} {pcs : Thread → Pc} {thread : Thread} {pc : Pc}
    (found : ∃ thread, selects (pcs thread) = true)
    (kept : selects (pcs thread) = true → selects pc = true) :
    ∃ other, selects (update pcs thread pc other) = true := by
  obtain ⟨other, selected⟩ := found
  by_cases isThread : other = thread
  · exact ⟨thread, by rw [update_self]; exact kept (isThread ▸ selected)⟩
  · exact ⟨other, by rwa [update_of_ne isThread]⟩

/-- Exactly `count` threads are at places that `inside` selects. -/
def CountsInside (inside : Pc → Bool) (pcs : Thread → Pc) (count : Nat) : Prop :=
  ∃ threads : List Thread, threads.Nodup ∧ threads.length = count ∧
    ∀ thread, thread ∈ threads ↔ inside (pcs thread) = true

namespace CountsInside

variable {inside : Pc → Bool} {pcs : Thread → Pc} {count : Nat} {thread : Thread} {pc : Pc}

omit [DecidableEq Thread] in
theorem of_none (outside : ∀ thread, inside (pcs thread) = false) : CountsInside inside pcs 0 :=
  ⟨[], nodup_nil, rfl, fun thread => by simp [outside thread]⟩

omit [DecidableEq Thread] in
theorem none_inside (counted : CountsInside inside pcs 0) (thread : Thread) :
    inside (pcs thread) = false := by
  obtain ⟨threads, -, empty, mem_iff⟩ := counted
  rw [length_eq_zero_iff] at empty
  subst empty
  simpa using (mem_iff thread).symm

theorem keep (counted : CountsInside inside pcs count) (same : inside pc = inside (pcs thread)) :
    CountsInside inside (update pcs thread pc) count := by
  obtain ⟨threads, nodup, length, mem_iff⟩ := counted
  refine ⟨threads, nodup, length, fun other => ?_⟩
  by_cases isThread : other = thread
  · rw [isThread, update_self, same, mem_iff]
  · rw [update_of_ne isThread, mem_iff]

theorem enter (counted : CountsInside inside pcs count) (outside : inside (pcs thread) = false)
    (enters : inside pc = true) : CountsInside inside (update pcs thread pc) (count + 1) := by
  obtain ⟨threads, nodup, length, mem_iff⟩ := counted
  have absent : thread ∉ threads := by
    rw [mem_iff, outside]
    exact Bool.false_ne_true
  refine ⟨thread :: threads, nodup_cons.mpr ⟨absent, nodup⟩,
    congrArg (· + 1) length, fun other => ?_⟩
  by_cases isThread : other = thread
  · simp [isThread, enters]
  · rw [update_of_ne isThread, mem_cons, or_iff_right isThread, mem_iff]

theorem leave (counted : CountsInside inside pcs count) (isInside : inside (pcs thread) = true)
    (leaves : inside pc = false) : CountsInside inside (update pcs thread pc) (count - 1) := by
  obtain ⟨threads, nodup, length, mem_iff⟩ := counted
  refine ⟨threads.erase thread, nodup.erase thread, ?_, fun other => ?_⟩
  · rw [length_erase_of_mem ((mem_iff thread).mpr isInside), length]
  · rw [nodup.mem_erase_iff]
    by_cases isThread : other = thread
    · simp [isThread, leaves]
    · rw [update_of_ne isThread, and_iff_right isThread, mem_iff]

end CountsInside

/-- No two threads hold the same token. -/
def HeldApart (token : Pc → Option Token) (pcs : Thread → Pc) : Prop :=
  ∀ first second held, token (pcs first) = some held → token (pcs second) = some held →
    first = second

namespace HeldApart

variable {token : Pc → Option Token} {pcs : Thread → Pc} {thread : Thread} {pc : Pc}

theorem take (apart : HeldApart token pcs)
    (fresh : ∀ held, token pc = some held → ∀ other, other ≠ thread →
      token (pcs other) ≠ some held) : HeldApart token (update pcs thread pc) := by
  intro first second held holdsFirst holdsSecond
  by_cases isFirst : first = thread <;> by_cases isSecond : second = thread
  · rw [isFirst, isSecond]
  · subst isFirst
    rw [update_self] at holdsFirst
    rw [update_of_ne isSecond] at holdsSecond
    exact absurd holdsSecond (fresh held holdsFirst second isSecond)
  · subst isSecond
    rw [update_self] at holdsSecond
    rw [update_of_ne isFirst] at holdsFirst
    exact absurd holdsFirst (fresh held holdsSecond first isFirst)
  · rw [update_of_ne isFirst] at holdsFirst
    rw [update_of_ne isSecond] at holdsSecond
    exact apart first second held holdsFirst holdsSecond

theorem keep (apart : HeldApart token pcs)
    (kept : token pc = token (pcs thread) ∨ token pc = none) :
    HeldApart token (update pcs thread pc) := by
  refine apart.take fun held holds other different holdsOther => ?_
  rcases kept with same | dropped
  · exact different (apart other thread held holdsOther (same ▸ holds))
  · rw [dropped] at holds
    cases holds

end HeldApart

end AsyncFlow
