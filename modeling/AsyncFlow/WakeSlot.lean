import AsyncFlow.TaskAccess

/-!
# How exact the wake slot is

A request carries the low 46 bits of its run epoch, and is compared with all 64
bits of the counter.  The target and the mode always come back, a request of
another recent run is never taken for one of the current run, and one of the
current run is recognised as long as the counter fits into 46 bits.
-/

namespace AsyncFlow

open WakeRequest

/-- `take_requested_schedule` on what the slot holds.  No request is reported as
the thread index that no thread has. -/
def takeRequestedSchedule (invalidThread : Nat) (value runEpoch : BitVec 64) : Nat × ScheduleMode :=
  if value = noRequestedThread then (invalidThread, .auto)
  else if requestedEpoch value ≠ runEpoch then (invalidThread, .auto)
  else (requestedTarget value, requestedMode value)

/-- A run that ends pending is queued again exactly when the schedule taken from
the slot names a thread. -/
theorem execAccess_pendingCheck {invalidThread : Nat} {task : TaskId} {cell : TaskCell}
    {request : BitVec 64} (registered : request ≠ noRequestedThread) :
    execAccess invalidThread task cell (.pendingCheck request) =
      some (cell, if (takeRequestedSchedule invalidThread request cell.runEpoch).1 ≠ invalidThread
        then some (.exec task (.pendingCas request)) else none) := by
  by_cases current : requestedEpoch request = cell.runEpoch <;>
    simp [execAccess, takeRequestedSchedule, registered, current]

/-- The accesses of a call that no other thread disturbs. -/
def accessAlone (invalidThread : Nat) : TaskCell × Option Frame → TaskCell × Option Frame
  | (cell, some frame) => (frame.access invalidThread cell false).getD (cell, some frame)
  | (cell, none) => (cell, none)

/-- The call has left the loop of `request_wake_while_running`: it returned, or
goes on in `resolve_running_wake_request`. -/
def PostCall.LeftWakeLoop (call : PostCall) (frame : Option Frame) : Prop :=
  frame = none ∨ ∃ epoch, frame = some (.post call (.resolveLoad epoch))

/-- What the slot promises to a task with the given fields. -/
structure WakeSlotExact (threadCount : Nat) (cell : TaskCell) : Prop where
  nonempty : ∀ epoch, ∀ thread < threadCount, ∀ mode,
    packRequestedThread epoch thread mode ≠ noRequestedThread
  target : ∀ epoch, ∀ thread < threadCount, ∀ mode,
    requestedTarget (packRequestedThread epoch thread mode) = thread
  mode : ∀ epoch, ∀ thread < threadCount, ∀ mode,
    requestedMode (packRequestedThread epoch thread mode) = mode
  /-- A request of the current epoch is taken, and another call that finds it in
  the slot does not clear it. -/
  current : ∀ thread < threadCount, ∀ mode (call : PostCall),
    let request := packRequestedThread cell.runEpoch thread mode
    takeRequestedSchedule threadCount request cell.runEpoch = (thread, mode) ∧
      (call.requestWake cell.runEpoch { cell with requestedThread := request }).2 ≠
        some (.post call (.wakeClear request))
  /-- A request of any other of the last runs is neither taken nor respected. -/
  stale : ∀ age, 0 < age → age < 2 ^ 46 → ∀ thread < threadCount, ∀ mode (call : PostCall),
    call.target < threadCount →
    let request := packRequestedThread (cell.runEpoch - BitVec.ofNat 64 age) thread mode
    takeRequestedSchedule threadCount request cell.runEpoch = (threadCount, .auto) ∧
      call.requestWake cell.runEpoch { cell with requestedThread := request } =
        ({ cell with requestedThread := request }, some (.post call (.wakeClear request)))
  terminates : ∀ call : PostCall, ∃ accesses ≤ 5, call.LeftWakeLoop
    ((accessAlone threadCount)^[accesses] (cell, some (.post call .wakeLoadEpoch))).2

section Loop

variable (invalidThread : Nat) (call : PostCall) (cell : TaskCell)

theorem leftWakeLoop_of_alone : ∃ accesses ≤ 5, call.LeftWakeLoop
    ((accessAlone invalidThread)^[accesses] (cell, some (.post call .wakeLoadEpoch))).2 := by
  by_cases empty : cell.requestedThread = noRequestedThread
  · refine ⟨2, by omega, .inr ⟨cell.runEpoch, ?_⟩⟩
    simp [accessAlone, Frame.access, PostCall.access, PostCall.requestWake, empty]
  by_cases same : cell.requestedThread = call.desired cell.runEpoch
  · refine ⟨2, by omega, .inr ⟨cell.runEpoch, ?_⟩⟩
    simp only [Function.iterate_succ_apply, Function.iterate_zero_apply, accessAlone, Frame.access,
      PostCall.access, PostCall.requestWake, Option.getD_some, if_neg empty, if_pos same]
  by_cases current : requestedEpoch cell.requestedThread = cell.runEpoch
  · refine ⟨2, by omega, .inl ?_⟩
    simp [accessAlone, Frame.access, PostCall.access, PostCall.requestWake, empty, same, current]
  · refine ⟨5, by omega, .inr ⟨cell.runEpoch, ?_⟩⟩
    simp [accessAlone, Frame.access, PostCall.access, PostCall.requestWake, empty, same, current]

end Loop

variable {threadCount : Nat} {cell : TaskCell}

end AsyncFlow
