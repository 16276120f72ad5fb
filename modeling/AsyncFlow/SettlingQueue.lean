import Mathlib.Data.List.Basic

/-!
# Queues that settle what they serve

The owner of a queue runs its tasks in order; some may open what the owner serves,
and some close it for sure.  A queue settles it when a closing task has no opening
one behind it, or when it is closed and no task can open it.
-/

namespace AsyncFlow

open List

namespace SettlingQueue

variable {Task : Type*} {opens closes : Task → Prop} {isOpen stays : Prop} {task : Task}
  {queue : List Task}

/-- A closing task has no opening one behind it. -/
def EndsClosed (opens closes : Task → Prop) (queue : List Task) : Prop :=
  ∃ before last behind, queue = before ++ last :: behind ∧ closes last ∧
    ∀ task ∈ behind, ¬ opens task

/-- What is served will be closed when the queue is empty. -/
def Settles (opens closes : Task → Prop) (isOpen : Prop) (queue : List Task) : Prop :=
  EndsClosed opens closes queue ∨ ¬ isOpen ∧ ∀ task ∈ queue, ¬ opens task

theorem endsClosed_append {added : List Task} (queue : List Task) (inside : task ∈ added)
    (closing : closes task) (harmless : ∀ other ∈ added, ¬ opens other) :
    EndsClosed opens closes (queue ++ added) := by
  obtain ⟨before, behind, rfl⟩ := append_of_mem inside
  refine ⟨queue ++ before, task, behind, (append_assoc ..).symm, closing, fun other isIn => ?_⟩
  exact harmless other (mem_append_right _ (mem_cons_of_mem _ isIn))

theorem EndsClosed.append {added : List Task} (ends : EndsClosed opens closes queue)
    (harmless : ∀ other ∈ added, ¬ opens other) : EndsClosed opens closes (queue ++ added) := by
  obtain ⟨before, last, behind, rfl, closing, quiet⟩ := ends
  refine ⟨before, last, behind ++ added, by simp, closing, fun other inside => ?_⟩
  obtain old | new := mem_append.mp inside
  · exact quiet other old
  · exact harmless other new

theorem Settles.append {added : List Task} (settles : Settles opens closes isOpen queue)
    (harmless : ∀ other ∈ added, ¬ opens other) : Settles opens closes isOpen (queue ++ added) := by
  refine settles.imp (fun ends => ends.append harmless) fun ⟨closed, quiet⟩ => ⟨closed, ?_⟩
  intro other inside
  obtain old | new := mem_append.mp inside
  · exact quiet other old
  · exact harmless other new

theorem endsClosed_concat (queue : List Task) (closing : closes task) (harmless : ¬ opens task) :
    EndsClosed opens closes (queue ++ [task]) :=
  endsClosed_append queue (mem_singleton_self task) closing
    fun _ inside => mem_singleton.mp inside ▸ harmless

theorem Settles.concat (settles : Settles opens closes isOpen queue) (harmless : ¬ opens task) :
    Settles opens closes isOpen (queue ++ [task]) :=
  settles.append fun _ inside => mem_singleton.mp inside ▸ harmless

theorem Settles.pop (settles : Settles opens closes isOpen (task :: queue))
    (closing : closes task → ¬ stays)
    (keeps : (∀ other ∈ task :: queue, ¬ opens other) → stays → isOpen) :
    Settles opens closes stays queue := by
  obtain ⟨before, last, behind, split, isLast, quiet⟩ | ⟨closed, quiet⟩ := settles
  · cases before with
    | nil =>
      obtain ⟨rfl, rfl⟩ := List.cons.inj split
      exact .inr ⟨closing isLast, quiet⟩
    | cons first before =>
      exact .inl ⟨before, last, behind, (List.cons.inj split).2, isLast, quiet⟩
  · exact .inr ⟨fun now => closed (keeps quiet now),
      fun other inside => quiet other (mem_cons_of_mem _ inside)⟩

theorem Settles.mono (settles : Settles opens closes isOpen queue)
    (keeps : (∀ task ∈ queue, ¬ opens task) → stays → isOpen) : Settles opens closes stays queue :=
  settles.imp_right fun ⟨closed, quiet⟩ => ⟨fun now => closed (keeps quiet now), quiet⟩

theorem Settles.of_nil (settles : Settles opens closes isOpen []) : ¬ isOpen := by
  obtain ⟨before, last, behind, split, _⟩ | ⟨closed, _⟩ := settles
  · exact absurd split.symm (append_ne_nil_of_right_ne_nil _ (cons_ne_nil _ _))
  · exact closed

theorem Settles.mem_of_open (settles : Settles opens closes isOpen queue) (now : isOpen) :
    ∃ task ∈ queue, closes task := by
  obtain ⟨before, last, behind, rfl, closing, _⟩ | ⟨closed, _⟩ := settles
  · exact ⟨last, by simp, closing⟩
  · exact absurd now closed

end SettlingQueue

end AsyncFlow
