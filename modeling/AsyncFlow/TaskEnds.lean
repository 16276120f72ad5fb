import AsyncFlow.TaskLifetime

/-!
# Who finishes a task

While a task runs, and after it is `Done` until the runtime's reference is
dropped, an executor has it on its stack.  So nothing is left of a task when it is
done, no thread is at work on it and its handle is gone.
-/

namespace AsyncFlow

open Scheduler Frame

/-- A run has begun and the runtime has not dropped the task since. -/
def TaskCell.underWay (cell : TaskCell) : Prop :=
  cell.state = .starting ∨ cell.state = .running ∨ cell.state = .done ∧ cell.runtimeRef = true

def Attended (view : TaskView) : Prop :=
  view.cell.underWay →
    ∃ frame ∈ view.live, frame.ownedState = some view.cell.state

theorem Frame.access_attended {cell cell' : TaskCell} {frame : Frame} {next : Option Frame}
    {invalidThread : Nat} {spurious : Bool}
    (linked : ∀ known, frame.ownedState = some known → cell.state = known)
    (accesses : frame.access invalidThread cell spurious = some (cell', next))
    (busy : cell'.underWay) : next.bind ownedState = some cell'.state ∨
      cell.underWay ∧ cell'.state = cell.state ∧ frame.ownedState = none := by
  simp only [TaskCell.underWay] at busy ⊢
  cases frame with
  | post call pc =>
    cases pc with
    | requestCas seen | cancel seen =>
      cases seen <;> simp only [access, PostCall.access] at accesses <;>
        grind -linarith [IdleState.toTaskState, ownedState]
    | _ =>
      simp only [access, PostCall.access, PostCall.requestSchedule, PostCall.requestWake,
        PostCall.resolveCleared, TaskCell.promise, TaskCell.handOver] at accesses
      (try split at accesses) <;> grind -linarith [ownedState]
  | exec task pc | complete task pc | release task pc =>
    cases pc <;> simp [ownedState] at linked <;>
      simp only [access, execAccess, completeAccess, releaseAccess, TaskCell.handOver,
        TaskCell.releaseLifetimeRef] at accesses <;>
      (try split at accesses) <;> grind -linarith [ownedState]

theorem Attended.move {config : Config} {permits : TaskView → TaskEvent → Prop} {task : TaskId}
    {before after : TaskView} (attended : Attended before) (linked : before.Linked)
    (move : TaskMove config permits task before after) : Attended after := by
  have replaced : ∀ {cell : TaskCell} {inQueue : Prop} {frame next : Frame} {others : Set Frame},
      Attended ⟨cell, inQueue, insert frame others⟩ → next.ownedState = frame.ownedState →
        Attended ⟨cell, inQueue, insert next others⟩ := by
    intro cell inQueue frame next others attended same busy
    obtain ⟨owner, rfl | live, owns⟩ := attended busy
    · exact ⟨next, .inl rfl, same.trans owns⟩
    · exact ⟨owner, .inr live, owns⟩
  cases move with
  | idle => exact attended
  | call | complete | release | pop =>
    intro busy
    obtain ⟨owner, live, owns⟩ := attended busy
    exact ⟨owner, .inr live, owns⟩
  | access cell inQueue frame others spurious cell' next _ _ _ accesses =>
    intro busy
    rcases access_attended (linked.owned frame (Set.mem_insert _ _)) accesses busy with
      nextOwns | ⟨wasBusy, same, ownsNothing⟩
    · obtain ⟨following, isNext, owns⟩ := Option.bind_eq_some_iff.mp nextOwns
      exact ⟨following, .inl isNext, owns⟩
    · obtain ⟨owner, rfl | live, owns⟩ := attended wasBusy
      · cases ownsNothing.symm.trans owns
      · exact ⟨owner, .inr live, owns.trans (congrArg some same.symm)⟩
  | proceed _ _ _ _ _ _ _ proceeds => exact replaced attended proceeds.ownedState
  | count _ _ _ _ _ _ _ _ counts => exact replaced attended (ownedState_of_counts counts).1
  | push cell inQueue frame others _ _ pushes =>
    have isQueued : cell.state = .queued :=
      linked.owned frame (Set.mem_insert _ _) _ (ownedState_of_pushes pushes)
    have same : (afterPush cell frame).state = cell.state := by
      unfold afterPush
      split <;> rfl
    intro busy
    simp [TaskCell.underWay, same, isQueued] at busy

theorem attended_of_reachable {config : Config} {state : SchedulerState}
    (reached : (system config).Reachable state) (task : TaskId) :
    Attended (view state task) := by
  induction reached with
  | start starts =>
    obtain ⟨handled, rfl⟩ := starts
    simp [Attended, TaskCell.underWay, view, start, TaskCell.allocated]
  | @next before after action reachedBefore _ steps attended =>
    have coherent := coherent_of_reachable reachedBefore
    have permitted : eventAllowed (fun _ _ => True) before action := fun _ _ => trivial
    exact attended.move (coherent.occupancy.linked task)
      (coherent.view_move (step_move steps) permitted)


namespace Scheduler

/-- A task that is done, and that nobody works on, is freed exactly when its start
handle is gone. -/
theorem done_task_freed {config : Config} {state : SchedulerState} {task : TaskId}
    (reached : (system config).ReachableUnder (eventAllowed lifetimePermits) state)
    (isDone : (state.cells task).state = .done)
    (unused : ∀ thread, ∀ frame ∈ state.callStack thread, frame.task ≠ task) :
    (state.cells task).frees = if (state.cells task).handle.references = 0 then 1 else 0 := by
  have dropped : (state.cells task).runtimeRef = false := by
    refine Bool.eq_false_iff.mpr fun isHeld => ?_
    obtain ⟨frame, ⟨sameTask, thread, live⟩, _⟩ :=
      attended_of_reachable reached.reachable task (.inr (.inr ⟨isDone, isHeld⟩))
    exact unused thread frame live sameTask
  have inv := lifetimeInv_of_reachable reached task
  have frees : (state.cells task).frees = _ := inv.counted.frees
  rw [frees]
  simp [view, dropped]

theorem done_task_freed_after_release : ∃ state,
    (system (twoExecutors .reject)).ReachableUnder (eventAllowed lifetimePermits) state ∧
      (state.cells 0).frees = 1 := by
  obtain ⟨state, replays, ⟨isDone, isReleased⟩, quiet⟩ := exists_quiet_replay
    (eventChecked lifetimePermits [.external 0, .executor 0]) (twoExecutors .reject)
    (fun _ => true) releasedRun
    (fun state => (state.cells 0).state = .done ∧ (state.cells 0).handle = .released) (by decide)
  have reached := reachable_of_eventChecked (.replay (.start ⟨_, rfl⟩) replays)
  refine ⟨state, reached, (done_task_freed reached isDone fun thread frame live => ?_).trans ?_⟩
  · simp [quiet thread] at live
  · simp [isReleased, HandleStatus.references]

end Scheduler

end AsyncFlow
