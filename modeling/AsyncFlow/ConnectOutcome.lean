import AsyncFlow.ConnectSocket

/-!
# The outcome of a connecting task

The last run of the task calls `on_listener_error` once, or gives the socket to
`create_connection` once, and never does both; the runs before leave the outcome
open.
-/

namespace AsyncFlow

namespace TcpConnectState

/-- `on_runtime_cancel`, when the runtime is stopped and cancels its tasks. -/
def onRuntimeCancel (state : TcpConnectState) : TcpConnectState :=
  let state := { state with task := { state.task with active := false } }.closeFd
  let state := (state.withWaits (state.waits.setResult connectState .new)).resetDeadline
  { state with
    task := { state.task with
      connectWaiting := false
      queued := false
      done := true } }

end TcpConnectState

namespace TcpConnect

variable {state : TcpConnectState} {task before after : TcpConnectTask}
  {available timeout : Bool} {answers : ConnectAnswers}

structure SameOutcome (before after : TcpConnectTask) : Prop where
  done : after.done = before.done
  reported : after.reported = before.reported
  handovers : after.handovers = before.handovers

namespace SameOutcome

theorem refl (task : TcpConnectTask) : SameOutcome task task :=
  ⟨rfl, rfl, rfl⟩

theorem trans (first : SameOutcome before task) (second : SameOutcome task after) :
    SameOutcome before after :=
  ⟨second.done.trans first.done, second.reported.trans first.reported,
    second.handovers.trans first.handovers⟩

theorem of_sameSocket (same : SameSocket before after) : SameOutcome before after := by
  obtain ⟨_, _, rfl⟩ := same
  exact ⟨rfl, rfl, rfl⟩

theorem closeFd (same : SameOutcome before state.task) : SameOutcome before state.closeFd.task := by
  unfold TcpConnectState.closeFd
  split
  · exact same
  · exact { same with }

theorem prepare (timeout : Bool) (state : TcpConnectState) (answers : ConnectAnswers) :
    SameOutcome state.task (state.prepare timeout answers).1.task := by
  unfold TcpConnectState.prepare
  split
  · exact refl _
  · split
    · exact refl _
    · split
      · exact closeFd ⟨rfl, rfl, rfl⟩
      · split <;> exact ⟨rfl, rfl, rfl⟩

theorem attempt (available timeout : Bool) (state : TcpConnectState) (answers : ConnectAnswers) :
    SameOutcome state.task (state.attempt available timeout answers).1.task := by
  have prepared := prepare timeout state answers
  unfold TcpConnectState.attempt
  generalize state.prepare timeout answers = outcome at prepared
  obtain ⟨next, error⟩ := outcome
  cases error with
  | some error => exact prepared
  | none =>
    dsimp only
    split
    · have checked := of_sameSocket (sameSocket_checkTimeout available next answers)
      generalize next.checkTimeout available answers = outcome at checked
      obtain ⟨checkedState, status⟩ := outcome
      cases status with
      | ready =>
        exact (prepared.trans checked).trans
          (of_sameSocket (sameSocket_ioConnect available checkedState answers))
      | pending | failed => exact prepared.trans checked
    · exact prepared.trans (of_sameSocket (sameSocket_ioConnect available next answers))

end SameOutcome

inductive RunsTo (before after : TcpConnectTask) : Prop
  | pending (same : SameOutcome before after)
  | failed (done : after.done = true) (reported : after.reported.isSome = true)
      (handovers : after.handovers = before.handovers)
  | connected (done : after.done = true) (reported : after.reported = before.reported)
      (handovers : after.handovers = before.handovers + 1)

theorem SameOutcome.finishFailed {start : TcpConnectTask} (same : SameOutcome start state.task)
    (error : Errno) : RunsTo start (state.finishFailed error).task :=
  .failed rfl rfl same.closeFd.handovers

theorem SameOutcome.finishConnected {start : TcpConnectTask} (same : SameOutcome start state.task)
    (answers : ConnectAnswers) : RunsTo start (state.finishConnected answers).task := by
  unfold TcpConnectState.finishConnected
  split
  · refine SameOutcome.finishFailed ?_ _
    exact { same with }
  · exact .connected rfl same.reported (congrArg (· + 1) same.handovers)

theorem runsTo_run (available timeout : Bool) (state : TcpConnectState) (answers : ConnectAnswers) :
    RunsTo state.task (state.run available timeout answers).task := by
  unfold TcpConnectState.run
  split
  · exact (SameOutcome.refl state.task).finishFailed _
  · have attempted : SameOutcome state.task _ := SameOutcome.attempt available timeout
      (state.withWaits (IoWaits.withFails state.waits answers.fails)) answers
    generalize (state.withWaits (IoWaits.withFails state.waits answers.fails)).attempt available
      timeout answers = outcome at attempted
    obtain ⟨after, status⟩ := outcome
    cases status with
    | failed => exact attempted.finishFailed _
    | ready =>
      dsimp only
      split
      · exact attempted.finishFailed _
      · exact attempted.finishConnected _
    | pending =>
      dsimp only
      have started := attempted.trans
        (.of_sameSocket (sameSocket_startTimeout available after answers))
      generalize after.startTimeout available answers = outcome at started
      obtain ⟨started, status⟩ := outcome
      split
      · cases status with
        | failed => exact started.finishFailed _
        | pending | ready => exact .pending { started with }
      · exact .pending { attempted with }

theorem sameOutcome_cancel (state : TcpConnectState) :
    SameOutcome state.task (state.requestCancelOnOwner available).task := by
  unfold TcpConnectState.requestCancelOnOwner
  dsimp only
  split
  · exact ⟨rfl, rfl, rfl⟩
  · split <;> exact .closeFd ⟨rfl, rfl, rfl⟩

theorem sameOutcome_wake (state next : TcpConnectState) :
    SameOutcome next.task (state.wake next).task :=
  ⟨rfl, rfl, rfl⟩

theorem sameOutcome_of_step {next : TcpConnectState} {action : Action}
    (steps : step available timeout state action = some next) (other : ∀ answers, action ≠ .run answers) :
    SameOutcome state.task next.task := by
  cases action with
  | other action =>
    obtain ⟨-, steps⟩ := Option.ite_none_right_eq_some.mp steps
    obtain ⟨waits, -, rfl⟩ := Option.map_eq_some_iff.mp steps
    exact sameOutcome_wake state (state.withWaits waits)
  | run answers => exact absurd rfl (other answers)
  | cancel fails =>
    cases steps
    exact (sameOutcome_cancel
      (state.withWaits (IoWaits.withFails state.waits fails))).trans (sameOutcome_wake _ _)

end TcpConnect

end AsyncFlow
