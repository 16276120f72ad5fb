import AsyncFlow.ExternalPostGate
import AsyncFlow.Scheduler

/-!
# The whole runtime

The gate for external posts, the scheduler and the loops of the executors side by
side.  An external post makes its schedule between `try_enter_post` and
`leave_post`; an executor pops tasks and runs callbacks where its loop is; and
`shutdown` waits for idleness, stops and joins the executors and clears the
queues.
-/

namespace AsyncFlow

open Function

inductive LoopPhase
  /-- not started, or returned -/
  | off
  /-- `while (pop_one())`, with the queues not yet found empty -/
  | sweep (didWork : Bool) (unseen : List Place)
  | checkStop (didWork : Bool)
  /-- `poll_io(0)`, where IO completions and channel callbacks run -/
  | poll
  /-- the last `pop_one` before going to sleep -/
  | settle (unseen : List Place)
  /-- asleep or in `poll_io(-1)` -/
  | sleep
  deriving DecidableEq

structure RuntimeState where
  gate : GateState
  scheduler : SchedulerState
  phases : Nat → LoopPhase
  stopRequested : Nat → Bool
  /-- The external thread has begun the schedule of the post it entered for. -/
  posted : Nat → Bool

namespace Runtime

inductive Action
  | gate (action : Gate.Action)
  | scheduler (action : Scheduler.Action)
  /-- the loop of an executor goes on; `found` is the result of `poll_io` -/
  | loop (executor : Nat) (found : Bool)
  deriving DecidableEq

def queuesOf (config : Config) (executor : Nat) : List Place :=
  .localRing executor ::
    ((List.range config.threadCount).filter (· ≠ executor)).map (.spsc · executor) ++
    [.external executor]

def loopTop (config : Config) (executor : Nat) : LoopPhase :=
  .sweep false (queuesOf config executor)

def withPhase (state : RuntimeState) (executor : Nat) (phase : LoopPhase) : RuntimeState :=
  { state with phases := update state.phases executor phase }

def withScheduler (state : RuntimeState) (scheduler : SchedulerState) : RuntimeState :=
  { state with scheduler := scheduler }

def nextPhase (config : Config) (state : RuntimeState) (executor : Nat) (found : Bool) :
    LoopPhase → Option LoopPhase
  | .off => none
  | .sweep didWork [] => some (.checkStop didWork)
  | .sweep didWork (place :: unseen) =>
    if state.scheduler.queues place = [] then some (.sweep didWork unseen) else none
  | .checkStop didWork =>
    some (if state.stopRequested executor then
      if didWork then loopTop config executor else .off
    else .poll)
  | .poll =>
    some (if found || state.stopRequested executor then loopTop config executor
      else .settle (queuesOf config executor))
  | .settle [] => some .sleep
  | .settle (place :: unseen) =>
    if state.scheduler.queues place = [] then some (.settle unseen) else none
  | .sleep => some (loopTop config executor)

def stepLoop (config : Config) (state : RuntimeState) (executor : Nat) (found : Bool) :
    Option RuntimeState :=
  if state.scheduler.callStack (.executor executor) = [] then
    (nextPhase config state executor found (state.phases executor)).map (withPhase state executor)
  else none

/-- The phase in which an executor executes a task that it popped. -/
def phaseAfterPop (config : Config) (executor : Nat) : LoopPhase → Option LoopPhase
  | .sweep _ _ => some (.sweep true (queuesOf config executor))
  | .settle _ => some (loopTop config executor)
  | .off | .checkStop _ | .poll | .sleep => none

/-- User code runs on the executor: a task, or a callback of `poll_io`. -/
def runsUserCode (state : RuntimeState) (executor : Nat) : Bool :=
  state.scheduler.callStack (.executor executor) ≠ [] ∨
    state.phases executor = .poll ∨ state.phases executor = .sleep

/-- `try_enter_post` on a runtime thread.  `post_blocking` does not call it. -/
def admitsRuntimePost (config : Config) (status : RuntimeStatus) (call : PostCall) : Bool :=
  call.blocking ∨ status = .running ∨ config.shutdownPolicy = .waitForTasks ∧ status = .stopping

/-! ### Steps of the scheduler -/

def stepScheduler (config : Config) (state : RuntimeState) (action : Scheduler.Action) :
    Option RuntimeState :=
  let steps := (Scheduler.step config state.scheduler action).map (withScheduler state)
  match action with
  | .call (.external thread) call =>
    if (state.gate.posters thread).entry = some call.target ∧ state.posted thread = false then
      steps.map fun state =>
        { state with posted := update state.posted thread true }
    else none
  | .call (.executor executor) call =>
    if runsUserCode state executor ∧ admitsRuntimePost config state.gate.status call then
      steps
    else none
  | .complete executor _ | .release (.executor executor) _ =>
    if runsUserCode state executor then steps else none
  | .release (.external thread) _ =>
    if state.gate.posters thread = .idle then steps else none
  | .pop place =>
    (phaseAfterPop config place.consumer (state.phases place.consumer)).bind fun phase =>
      steps.map fun state => withPhase state place.consumer phase
  | .push (.external thread) =>
    (Gate.stepPush state.gate thread).bind fun gate =>
      steps.map fun state => { state with gate := gate }
  | .push (.executor _) | .finish _ _ | .access _ _ | .count _ => steps

/-! ### Steps of the gate -/

/-- The controller need not wait. -/
def controllerReady (config : Config) (state : RuntimeState) : ControllerPc → Bool
  | .waitForIdle =>
    config.shutdownPolicy ≠ .waitForTasks ∨ state.scheduler.unfinished = 0
  | .join executor => executor < config.threadCount → state.phases executor = .off
  | _ => true

def controllerEffect (config : Config) (state : RuntimeState) : ControllerPc → RuntimeState
  | .initQueues => withScheduler state { state.scheduler with queues := fun _ => [] }
  | .initExecutors =>
    { state with
      phases := fun executor =>
        if executor < config.threadCount then loopTop config executor else .off
      stopRequested := fun _ => false }
  | .requestStop executor =>
    if executor < config.threadCount then
      { state with stopRequested := update state.stopRequested executor true }
    else state
  | .clear =>
    withScheduler state { state.scheduler with
      queues := fun _ => []
      unfinished := 0
      counted := [] }
  | _ => state

/-- A post leaves the gate when its schedule is over. -/
def posterReady (state : RuntimeState) (thread : Nat) : Bool :=
  match state.gate.posters thread with
  | .entered _ _ =>
    state.posted thread ∧ state.scheduler.callStack (.external thread) = []
  | _ => true

def stepGate (config : Config) (state : RuntimeState) (action : Gate.Action) :
    Option RuntimeState :=
  let steps := (Gate.step config.threadCount state.gate action).map fun gate =>
    { state with gate := gate }
  match action with
  | .poster thread =>
    if posterReady state thread then
      steps.map fun state =>
        { state with posted := update state.posted thread false }
    else none
  | .controller controller =>
    if controllerReady config state (state.gate.controllers controller) then
      steps.map fun after =>
        controllerEffect config after (state.gate.controllers controller)
    else none
  | .push _ => none
  | .post thread _ =>
    if state.scheduler.callStack (.external thread) = [] then steps else none
  | .init _ | .shutdown _ => steps

def step (config : Config) (state : RuntimeState) : Action → Option RuntimeState
  | .gate action => stepGate config state action
  | .scheduler action => stepScheduler config state action
  | .loop executor found => stepLoop config state executor found

def start (handled : TaskId → Bool) : RuntimeState where
  gate := Gate.start
  scheduler := Scheduler.start handled
  phases := fun _ => .off
  stopRequested := fun _ => false
  posted := fun _ => false

def system (config : Config) : TransitionSystem RuntimeState Action where
  initial := fun state => ∃ handled, state = start handled
  step := step config

end Runtime

end AsyncFlow
