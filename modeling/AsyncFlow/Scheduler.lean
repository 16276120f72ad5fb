import AsyncFlow.TaskAccess
import AsyncFlow.TransitionSystem

/-!
# The scheduler

Executors and other threads run frames on call stacks.  An executor with an empty
stack may pop a task and execute it, or deliver an IO completion or a callback
from its poll loop; a running task may post other tasks.  A blocking push to the
executor's own full ring executes the oldest task of that ring inline.  Queues are
bounded FIFO lists and a push or pop is one step.  Waking an executor and the gate
for external posts are separate protocols over other variables.
-/

namespace AsyncFlow

open WakeRequest

inductive Thread
  | executor (index : Nat)
  | external (index : Nat)
  deriving DecidableEq

inductive Place
  | localRing (index : Nat)
  | spsc (source target : Nat)
  | external (target : Nat)
  deriving DecidableEq

def Place.consumer : Place → Nat
  | .localRing index => index
  | .spsc _ target => target
  | .external target => target

/-- Traits of a runtime.  Capacities are the normalized ones. -/
structure Config where
  threadCount : Nat
  threadCount_le : threadCount ≤ 65535
  spscCapacity : Nat
  externalCapacity : Nat
  runtimeQueueFullPolicy : QueueFullPolicy
  externalQueueFullPolicy : QueueFullPolicy
  shutdownPolicy : ShutdownPolicy

def Config.capacity (config : Config) : Place → Nat
  | .localRing _ => config.spscCapacity
  | .spsc _ _ => config.spscCapacity
  | .external _ => config.externalCapacity

structure SchedulerState where
  cells : TaskId → TaskCell
  queues : Place → List TaskId
  callStack : Thread → List Frame
  unfinished : BitVec 32
  /-- History: the tasks counted in `unfinished`. -/
  counted : List TaskId

namespace Scheduler

/-- The queue a thread uses for a target: `ready_route_from_runtime_thread`
for executors, the external queue otherwise. -/
def readyRoute (thread : Thread) (target : Nat) (mode : ScheduleMode) : Place :=
  match thread with
  | .external _ => .external target
  | .executor source =>
    if mode = .ordered then .external target
    else if source = target then .localRing target
    else .spsc source target

/-- Whether a failed push is retried until there is room:
`enqueue_ready_by_policy` for `post`, always for `post_blocking`. -/
def postBlocks (config : Config) (thread : Thread) (call : PostCall) : Bool :=
  call.blocking || match thread with
    | .executor _ => config.runtimeQueueFullPolicy = .yield
    | .external _ => config.externalQueueFullPolicy = .yield

def pushTarget (config : Config) (thread : Thread) : Frame → Option (Place × Bool)
  | .post call (.push _ _) =>
    some (readyRoute thread call.target call.mode, postBlocks config thread call)
  | .exec _ (.pendingPush request _) =>
    some (readyRoute thread (requestedTarget request) (requestedMode request), true)
  | .exec _ .againPush =>
    match thread with
    | .executor index => some (.localRing index, true)
    | .external _ => none
  | .complete _ .push =>
    match thread with
    | .executor index => some (.localRing index, true)
    | .external _ => none
  | _ => none

def markWaited : Frame → Frame
  | .post call (.push previous _) => .post call (.push previous true)
  | .exec task (.pendingPush request _) => .exec task (.pendingPush request true)
  | frame => frame

def hasWaited : Frame → Bool
  | .post _ (.push _ waited) => waited
  | .exec _ (.pendingPush _ waited) => waited
  | _ => false

/-- Only a post learns the result of its push. -/
def afterPush (cell : TaskCell) : Frame → TaskCell
  | .post call _ => cell.promise call
  | _ => cell

/-- A refused first schedule is first taken out of the task count. -/
def afterRefusal : Frame → Frame
  | .post call (.push previous _) =>
    .post call (if previous = .created then .finished else .cancel previous)
  | frame => frame

inductive Action
  | call (thread : Thread) (call : PostCall)
  /-- an executor completes an IO wait of the task -/
  | complete (executor : Nat) (task : TaskId)
  | release (thread : Thread) (task : TaskId)
  /-- the consumer of the queue pops and executes its oldest task -/
  | pop (place : Place)
  | finish (executor : Nat) (result : TaskResult)
  | access (thread : Thread) (spurious : Bool)
  /-- `on_task_started` or `on_task_finished` -/
  | count (thread : Thread)
  | push (thread : Thread)
  deriving DecidableEq

def withStack (state : SchedulerState) (thread : Thread) (stack : List Frame) : SchedulerState :=
  { state with callStack := Function.update state.callStack thread stack }

def withCell (state : SchedulerState) (task : TaskId) (cell : TaskCell) : SchedulerState :=
  { state with cells := Function.update state.cells task cell }

def withQueue (state : SchedulerState) (place : Place) (queue : List TaskId) : SchedulerState :=
  { state with queues := Function.update state.queues place queue }

/-- User code runs on the thread: an external thread between calls, an
executor inside `run` or in a callback of its poll loop. -/
def canCall (config : Config) (state : SchedulerState) : Thread → Bool
  | .external index => state.callStack (.external index) = []
  | .executor index =>
    index < config.threadCount && match state.callStack (.executor index) with
      | [] => true
      | .exec _ .running :: _ => true
      | _ => false

/-- `post` refuses an invalid target, and `Fast` outside the runtime;
`post_blocking` is only called by executors. -/
def validCall (config : Config) (thread : Thread) (call : PostCall) : Bool :=
  call.target < config.threadCount && match thread with
    | .executor _ => true
    | .external _ => call.mode ≠ .fast && call.blocking = false

/-- The caller reaches the task through its start handle, or it created a task
that has none, or the task handed itself out from a run. -/
def reachesTask (cell : TaskCell) (call : PostCall) : Bool :=
  if call.viaHandle then cell.handle = .held
  else cell.handle = .absent || 0 < cell.runs

def finishPc : TaskResult → ExecPc
  | .done | .failed | .cancelled => .storeDone
  | .pending => .storePending
  | .again => .storeQueued

def countStarted (config : Config) (state : SchedulerState) (task : TaskId) : SchedulerState :=
  if config.shutdownPolicy = .waitForTasks then
    { state with
      unfinished := state.unfinished + 1
      counted := task :: state.counted }
  else state

def countFinished (config : Config) (state : SchedulerState) (task : TaskId) : SchedulerState :=
  if config.shutdownPolicy = .waitForTasks then
    { state with
      unfinished := state.unfinished - 1
      counted := state.counted.erase task }
  else state

def stepCall (config : Config) (state : SchedulerState) (thread : Thread)
    (call : PostCall) : Option SchedulerState :=
  if canCall config state thread ∧ validCall config thread call ∧
      reachesTask (state.cells call.task) call then
    some (withStack state thread (.post call .begin :: state.callStack thread))
  else none

def stepComplete (config : Config) (state : SchedulerState) (executor : Nat)
    (task : TaskId) : Option SchedulerState :=
  if canCall config state (.executor executor) then
    some (withStack state (.executor executor)
      (.complete task .cas :: state.callStack (.executor executor)))
  else none

def stepRelease (config : Config) (state : SchedulerState) (thread : Thread)
    (task : TaskId) : Option SchedulerState :=
  if canCall config state thread ∧ (state.cells task).handle = .held then
    some (withStack (withCell state task { state.cells task with handle := .releasing })
      thread (.release task .load :: state.callStack thread))
  else none

def stepPop (config : Config) (state : SchedulerState) (place : Place) : Option SchedulerState :=
  let thread := Thread.executor place.consumer
  match state.queues place, state.callStack thread with
  | task :: queue, [] =>
    if place.consumer < config.threadCount then
      some (withStack (withQueue state place queue) thread [.exec task .casStarting])
    else none
  | _, _ => none

def stepFinish (state : SchedulerState) (executor : Nat) (result : TaskResult) :
    Option SchedulerState :=
  match state.callStack (.executor executor) with
  | .exec task .running :: frames =>
    some (withStack state (.executor executor) (.exec task (finishPc result) :: frames))
  | _ => none

def stepAccess (config : Config) (state : SchedulerState) (thread : Thread)
    (spurious : Bool) : Option SchedulerState :=
  match state.callStack thread with
  | [] => none
  | frame :: frames =>
    (frame.access config.threadCount (state.cells frame.task) spurious).map fun (cell, next) =>
        withStack (withCell state frame.task cell) thread (next.toList ++ frames)

def stepCount (config : Config) (state : SchedulerState) (thread : Thread) :
    Option SchedulerState :=
  match state.callStack thread with
  | .post call .started :: frames =>
    some (withStack (countStarted config state call.task) thread
      (.post call (.push .created false) :: frames))
  | .post call .finished :: frames =>
    some (withStack (countFinished config state call.task) thread
      (.post call (.cancel .created) :: frames))
  | .exec task .doneFinished :: frames =>
    some (withStack (countFinished config state task) thread (.exec task .doneRelease :: frames))
  | _ => none

/-- One attempt to push.  A full ring of the executor itself gives up its
oldest task, which is executed inline before the next attempt. -/
def stepPush (config : Config) (state : SchedulerState) (thread : Thread) : Option SchedulerState :=
  match state.callStack thread with
  | [] => none
  | frame :: frames =>
    match pushTarget config thread frame with
    | none => none
    | some (place, blocking) =>
      if (state.queues place).length < config.capacity place then
        some (withStack (withCell (withQueue state place (state.queues place ++ [frame.task]))
            frame.task (afterPush (state.cells frame.task) frame)) thread frames)
      else if blocking then
        match place, state.queues place with
        | .localRing _, task :: queue =>
          some (withStack (withQueue state place queue) thread
            (.exec task .casStarting :: frame :: frames))
        | .localRing _, [] => some state
        | _, _ => some (withStack state thread (markWaited frame :: frames))
      else
        some (withStack state thread (afterRefusal frame :: frames))

def step (config : Config) (state : SchedulerState) : Action → Option SchedulerState
  | .call thread call => stepCall config state thread call
  | .complete executor task => stepComplete config state executor task
  | .release thread task => stepRelease config state thread task
  | .pop place => stepPop config state place
  | .finish executor result => stepFinish state executor result
  | .access thread spurious => stepAccess config state thread spurious
  | .count thread => stepCount config state thread
  | .push thread => stepPush config state thread

/-- No task is scheduled yet; `handled` tells which tasks come from
`make_task`. -/
def start (handled : TaskId → Bool) : SchedulerState where
  cells := fun task => .allocated (handled task)
  queues := fun _ => []
  callStack := fun _ => []
  unfinished := 0
  counted := []

def system (config : Config) : TransitionSystem SchedulerState Action where
  initial := fun state => ∃ handled, state = start handled
  step := step config

/-! ### Fragments of runs -/

def twoExecutors (policy : QueueFullPolicy) : Config where
  threadCount := 2
  threadCount_le := by decide
  spscCapacity := 2
  externalCapacity := 2
  runtimeQueueFullPolicy := policy
  externalQueueFullPolicy := policy
  shutdownPolicy := .waitForTasks

def postOf (task : TaskId) (target : Nat) : PostCall where
  task := task
  target := target
  mode := .auto
  blocking := false
  viaHandle := true
  born := 0

def accesses (thread : Thread) (count : Nat) : List Action :=
  List.replicate count (.access thread false)

/-- Up to and including the compare-exchange that makes the task `Queued`. -/
def claim (thread : Thread) (call : PostCall) : List Action :=
  .call thread call :: accesses thread 2

def firstPost (thread : Thread) (call : PostCall) : List Action :=
  claim thread call ++ [.count thread, .push thread]

def laterPost (thread : Thread) (call : PostCall) : List Action :=
  claim thread call ++ [.push thread]

def beginRun (place : Place) : List Action :=
  .pop place :: accesses (.executor place.consumer) 4

end Scheduler

end AsyncFlow
