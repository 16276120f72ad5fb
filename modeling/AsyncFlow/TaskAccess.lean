import AsyncFlow.TaskTypes

/-!
# Atomic accesses to one task

Every function of the runtime that touches the atomic fields of a task is cut at
those accesses.  A `Frame` is an activation record of such a function;
`Frame.access` performs its next access on the task's cell and yields the next
frame, if any.  Steps that touch no task field are left to the scheduler.
-/

namespace AsyncFlow

open WakeRequest

abbrev TaskId := Nat

/-- The start handle that `make_task` returns.  Tasks from `allocate_task`
have none. -/
inductive HandleStatus
  | absent | held | releasing | released
  deriving DecidableEq

/-- The shared fields of a task, followed by history variables that no access
reads. -/
structure TaskCell where
  state : TaskState
  requestedThread : BitVec 64
  runEpoch : BitVec 64
  lifetimeRefs : BitVec 32
  handle : HandleStatus
  /-- How many runs have begun, counted at `Queued` to `Starting`. -/
  runs : Nat
  /-- For every post that returned true, `runs` at its first access. -/
  promises : List Nat
  /-- A wake of the current epoch was given up because the task was `Queued`. -/
  handedOver : Bool
  /-- The runtime's own lifetime reference is still held. -/
  runtimeRef : Bool
  /-- How often the last reference was dropped. -/
  frees : Nat
  deriving DecidableEq

/-- A task as `allocate_task` leaves it, with a start handle attached when
`handled`. -/
def TaskCell.allocated (handled : Bool) : TaskCell where
  state := .created
  requestedThread := noRequestedThread
  runEpoch := 0
  lifetimeRefs := if handled then 2 else 1
  handle := if handled then .held else .absent
  runs := 0
  promises := []
  handedOver := false
  runtimeRef := true
  frees := 0

/-- `release_lifetime_ref`: the drop to zero destroys the task. -/
def TaskCell.releaseLifetimeRef (cell : TaskCell) : TaskCell :=
  { cell with
    lifetimeRefs := cell.lifetimeRefs - 1
    frees := if cell.lifetimeRefs = 1 then cell.frees + 1 else cell.frees }

/-- `post` or `post_blocking` on a task. -/
structure PostCall where
  task : TaskId
  target : Nat
  mode : ScheduleMode
  blocking : Bool
  viaHandle : Bool
  /-- `runs` of the task at the first access of this call. -/
  born : Nat
  deriving DecidableEq

/-- The states in which a task waits to be scheduled.  A post that made the
task `Queued` remembers which of them it came from. -/
inductive IdleState
  | created | pending
  deriving DecidableEq

def IdleState.toTaskState : IdleState → TaskState
  | .created => .created
  | .pending => .pending

theorem IdleState.toTaskState_idle (idle : IdleState) :
    idle.toTaskState = .created ∨ idle.toTaskState = .pending := by
  cases idle <;> simp [IdleState.toTaskState]

inductive PostPc
  /-- first `state_.load` of `request_schedule` -/
  | begin
  | requestLoad
  | requestCas (seen : IdleState)
  /-- `request_wake_while_running` -/
  | wakeLoadEpoch
  | wakeCas (epoch : BitVec 64)
  | wakeClear (expected : BitVec 64)
  /-- `resolve_running_wake_request` -/
  | resolveLoad (epoch : BitVec 64)
  | resolveEpoch (epoch : BitVec 64)
  | resolveClear (epoch : BitVec 64) (seen : TaskState)
  | resolveCas (epoch : BitVec 64)
  /-- `on_task_started`, then the enqueue and its rollback -/
  | started
  | push (previous : IdleState) (waited : Bool)
  | finished
  | cancel (previous : IdleState)
  deriving DecidableEq

inductive ExecPc
  | casStarting
  | loadEpoch
  | storeEpoch (next : BitVec 64)
  | storeRunning
  | running
  /-- `finish_done` -/
  | storeDone
  | doneTake
  | doneCheck
  | doneFinished
  | doneRelease
  /-- `finish_pending` -/
  | storePending
  | pendingTake
  | pendingCheck (request : BitVec 64)
  | pendingCas (request : BitVec 64)
  | pendingPush (request : BitVec 64) (waited : Bool)
  /-- `finish_again` -/
  | storeQueued
  | againTake
  | againCheck
  | againPush
  deriving DecidableEq

/-- `enqueue_pending_blocking` called for a completed IO wait. -/
inductive CompletePc
  | cas
  | push
  deriving DecidableEq

inductive ReleasePc
  | load
  | first (seen : TaskState)
  | second
  deriving DecidableEq

inductive Frame
  | post (call : PostCall) (pc : PostPc)
  | exec (task : TaskId) (pc : ExecPc)
  | complete (task : TaskId) (pc : CompletePc)
  | release (task : TaskId) (pc : ReleasePc)
  deriving DecidableEq

def Frame.task : Frame → TaskId
  | .post call _ => call.task
  | .exec task _ => task
  | .complete task _ => task
  | .release task _ => task

/-- The word this call registers for the run with the given epoch. -/
def PostCall.desired (call : PostCall) (epoch : BitVec 64) : BitVec 64 :=
  packRequestedThread epoch call.target call.mode

def TaskCell.promise (cell : TaskCell) (call : PostCall) : TaskCell :=
  { cell with promises := call.born :: cell.promises }

/-- Record that a wake request of the given epoch is dropped in favour of the
schedule that has made the task `Queued`. -/
def TaskCell.handOver (cell : TaskCell) (epoch : BitVec 64) : TaskCell :=
  { cell with
    handedOver := cell.handedOver ||
      decide (cell.state = .queued ∧ epoch = cell.runEpoch) }

/-- The switch of `request_schedule` on the loaded state.  `Queued` and `Done`
trip the assertion and reject. -/
def PostCall.requestSchedule (call : PostCall) : TaskState → Option Frame
  | .created => some (.post call (.requestCas .created))
  | .pending => some (.post call (.requestCas .pending))
  | .starting => some (.post call .requestLoad)
  | .running => some (.post call .wakeLoadEpoch)
  | .queued | .done => none

/-- After `requested_thread_.compare_exchange_strong` from the empty word. -/
def PostCall.requestWake (call : PostCall) (epoch : BitVec 64)
    (cell : TaskCell) : TaskCell × Option Frame :=
  let desired := call.desired epoch
  if cell.requestedThread = noRequestedThread then
    ({ cell with requestedThread := desired }, some (.post call (.resolveLoad epoch)))
  else if cell.requestedThread = desired then
    (cell, some (.post call (.resolveLoad epoch)))
  else if requestedEpoch cell.requestedThread ≠ epoch then
    (cell, some (.post call (.wakeClear cell.requestedThread)))
  else
    (cell, none)

/-- After `clear_requested_thread_if(desired)` in
`resolve_running_wake_request`, where `seen` is the state loaded before. -/
def PostCall.resolveCleared (call : PostCall) (epoch : BitVec 64)
    (seen : TaskState) (cell : TaskCell) : TaskCell × Option Frame :=
  if cell.requestedThread = call.desired epoch then
    let cleared := { cell with requestedThread := noRequestedThread }
    match seen with
    | .pending => (cleared, some (.post call (.resolveCas epoch)))
    | .queued | .starting | .running =>
      ((cleared.handOver epoch).promise call, none)
    | .done => (cleared.promise call, none)
    | .created => (cleared, none)
  else
    (cell.promise call, none)

/-- One atomic access of a post.  `spurious` makes a weak compare-exchange
fail. -/
def PostCall.access (call : PostCall) (cell : TaskCell) (spurious : Bool) :
    PostPc → Option (TaskCell × Option Frame)
  | .begin =>
    some (cell, { call with born := cell.runs }.requestSchedule cell.state)
  | .requestLoad => some (cell, call.requestSchedule cell.state)
  | .requestCas seen =>
    if cell.state = seen.toTaskState ∧ spurious = false then
      some ({ cell with state := .queued },
        some (.post call (if seen = .created then .started else .push seen false)))
    else
      some (cell, some (.post call .requestLoad))
  | .wakeLoadEpoch => some (cell, some (.post call (.wakeCas cell.runEpoch)))
  | .wakeCas epoch => some (call.requestWake epoch cell)
  | .wakeClear expected =>
    some (if cell.requestedThread = expected then
        { cell with requestedThread := noRequestedThread }
      else cell, some (.post call .wakeLoadEpoch))
  | .resolveLoad epoch =>
    some (cell, some (.post call (if cell.state = .running then
      .resolveEpoch epoch else .resolveClear epoch cell.state)))
  | .resolveEpoch epoch =>
    if cell.runEpoch = epoch then
      some (cell.promise call, none)
    else
      some (cell, some (.post call (.resolveClear epoch .running)))
  | .resolveClear epoch seen => some (call.resolveCleared epoch seen cell)
  | .resolveCas epoch =>
    if cell.state = .pending then
      some ({ cell with state := .queued }.handOver epoch, some (.post call (.push .pending false)))
    else
      some (cell.handOver epoch, some (.post call (.resolveLoad epoch)))
  | .cancel previous =>
    if cell.state = .queued then
      some ({ cell with state := previous.toTaskState }, none)
    else
      some (cell, none)
  | .started | .push _ _ | .finished => none

def execAccess (invalidThread : Nat) (task : TaskId) (cell : TaskCell) :
    ExecPc → Option (TaskCell × Option Frame)
  | .casStarting =>
    if cell.state = .queued then
      some ({ cell with
        state := .starting, runs := cell.runs + 1, handedOver := false },
        some (.exec task .loadEpoch))
    else
      some (cell, none)
  | .loadEpoch => some (cell, some (.exec task (.storeEpoch (cell.runEpoch + 1))))
  | .storeEpoch next =>
    some ({ cell with runEpoch := next }, some (.exec task .storeRunning))
  | .storeRunning => some ({ cell with state := .running }, some (.exec task .running))
  | .storeDone => some ({ cell with state := .done }, some (.exec task .doneTake))
  | .doneTake =>
    some ({ cell with requestedThread := noRequestedThread },
      some (.exec task (if cell.requestedThread = noRequestedThread then
        .doneFinished else .doneCheck)))
  | .doneCheck => some (cell, some (.exec task .doneFinished))
  | .doneRelease =>
    some ({ cell with runtimeRef := false }.releaseLifetimeRef, none)
  | .storePending => some ({ cell with state := .pending }, some (.exec task .pendingTake))
  | .pendingTake =>
    some ({ cell with requestedThread := noRequestedThread },
      if cell.requestedThread = noRequestedThread then none
      else some (.exec task (.pendingCheck cell.requestedThread)))
  | .pendingCheck request =>
    some (cell,
      if requestedEpoch request = cell.runEpoch ∧ requestedTarget request ≠ invalidThread then
        some (.exec task (.pendingCas request))
      else none)
  | .pendingCas request =>
    if cell.state = .pending then
      some ({ cell with state := .queued }, some (.exec task (.pendingPush request false)))
    else
      some (cell.handOver (requestedEpoch request), none)
  | .storeQueued => some ({ cell with state := .queued }, some (.exec task .againTake))
  | .againTake =>
    some ({ cell with requestedThread := noRequestedThread },
      some (.exec task (if cell.requestedThread = noRequestedThread then
        .againPush else .againCheck)))
  | .againCheck => some (cell, some (.exec task (.againPush)))
  | .running | .doneFinished | .pendingPush _ _ | .againPush => none

def completeAccess (task : TaskId) (cell : TaskCell) : CompletePc → Option (TaskCell × Option Frame)
  | .cas =>
    if cell.state = .pending then
      some ({ cell with state := .queued }, some (.complete task .push))
    else
      some (cell, none)
  | .push => none

def releaseAccess (task : TaskId) (cell : TaskCell) : ReleasePc → Option (TaskCell × Option Frame)
  | .load => some (cell, some (.release task (.first cell.state)))
  | .first seen =>
    some ({ cell with handle := .released }.releaseLifetimeRef,
      if seen = .created then some (.release task .second) else none)
  | .second =>
    some ({ cell with runtimeRef := false }.releaseLifetimeRef, none)

def Frame.access (invalidThread : Nat) (cell : TaskCell) (spurious : Bool) :
    Frame → Option (TaskCell × Option Frame)
  | .post call pc => call.access cell spurious pc
  | .exec task pc => execAccess invalidThread task cell pc
  | .complete task pc => completeAccess task cell pc
  | .release task pc => releaseAccess task cell pc

end AsyncFlow
