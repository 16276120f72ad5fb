import AsyncFlow.TransitionSystem
import Mathlib.Logic.Function.Basic

/-!
# Log backends that run on the runtime

`RuntimeLogTaskBinding` with the sender tasks of the UDP, TCP and file backends.
A producer fills batches and wakes the sender task, other threads wake it to
flush, and `stop_and_wait` ends it.  Every access to a shared counter, flag or
queue is a step.  Of the runtime, `schedule` and the end of a run are one step
each, and a request that arrives during a run makes the task run again.
-/

namespace AsyncFlow

open Function

structure LogBatch where
  number : Nat
  recordCount : Nat
  /-- History: how many batches were pushed before it. -/
  serial : Nat
  deriving DecidableEq

/-- Where `enqueue` is.  Of the records that are left it matters which have a message;
`any` is `enqueued_any`. -/
inductive LogEnqueuePc
  | checking (records : List Bool)
  | acquiring (records : List Bool) (any : Bool)
  | counting (batch : LogBatch) (records : List Bool) (any : Bool)
  | pushing (batch : LogBatch) (records : List Bool) (any : Bool)
  deriving DecidableEq

inductive LogWakePc
  | loadFinished
  | exchangeQueued
  | exchangeStarted
  | schedule (starts : Bool)
  | restoreStarted
  | restoreQueued
  deriving DecidableEq

/-- Where `stop_and_wait` is, apart from its `wake`. -/
inductive LogStopPc
  | storeStopping
  | loadStarted
  | loadPending
  | waiting
  | resetting
  deriving DecidableEq

inductive LogCaller
  | idle
  | enqueuing (pc : LogEnqueuePc)
  | requesting
  | waking (pc : LogWakePc) (stops : Bool)
  | stopping (pc : LogStopPc)
  deriving DecidableEq

/-- Where `run` is.  `drained` counts the batches of the run; there is none while a
stopped sender drops its batches. -/
inductive SenderPc
  | checkStopping
  | checkWait
  | dropReady
  | top (drained : Nat)
  | sending (drained : Nat)
  | recycling (batch : LogBatch) (drained : Option Nat)
  | abandoning (drained : Option Nat)
  | flushing
  | syncing
  | acknowledging (synced : Bool)
  | completing (requested : Nat) (synced : Bool)
  | emptied
  | idleStore
  | idleLoadStopping
  | idleLoadPending
  | idleLoadFlush
  | idleRestore
  | finishStore
  | finishMark
  | finishNotify
  deriving DecidableEq

inductive SenderTask
  | created
  | queued
  | running (pc : SenderPc)
  | pending
  | done
  deriving DecidableEq

/-- The next records are sent or dropped, the socket or file has to be waited for, or
an `fsync` succeeds. -/
inductive SendOutcome
  | sent (count : Nat)
  | dropped (count : Nat)
  | blocked
  | synced
  deriving DecidableEq

/-- Acknowledged flushes: those requested first, and whether an `fsync` succeeded. -/
structure FlushAck where
  upTo : Nat
  synced : Bool

/-- `perMessage` is the UDP backend.  The file backend counts flush requests, and may
sync the file for them. -/
structure LogConfig where
  batches : Nat
  queueCapacity : Nat
  maxBatchRecords : Nat
  maxBatchesPerRun : Nat
  perMessage : Bool
  countsFlushes : Bool
  fsyncOnFlush : Bool
  batches_le : batches ≤ queueCapacity
  maxBatchRecords_pos : 0 < maxBatchRecords

structure LogBackend where
  freeBatches : List LogBatch
  readyBatches : List LogBatch
  producerSpareBatch : Option LogBatch
  /-- The current batch, and how many of its records are done. -/
  current : Option (LogBatch × Nat)
  sentRecords : Nat
  droppedRecords : Nat
  pendingBatches : Nat
  flushRequests : Nat
  completedFlushes : Nat
  wakeQueued : Bool
  taskStarted : Bool
  shutdownStarted : Bool
  stopping : Bool
  finished : Bool
  ioWaiting : Bool
  task : SenderTask
  /-- The running task was asked to run again. -/
  requested : Bool
  callers : Nat → LogCaller
  destroyed : Bool
  /-- History: the records with a message that were passed to `enqueue`. -/
  passed : Nat
  /-- History: the batches pushed into the ready queue. -/
  pushed : Nat
  /-- History: what `pushed` was at each flush request. -/
  goals : List Nat
  acks : List FlushAck
  /-- History: the serials of batches written or dropped since the last `fsync`. -/
  unsynced : List Nat
  /-- History: a `schedule` found the task queued or done. -/
  misscheduled : Bool

namespace LogBackend

variable (config : LogConfig) (state : LogBackend)

def withCaller (thread : Nat) (caller : LogCaller) : LogBackend :=
  { state with callers := update state.callers thread caller }

/-- Move records with a message into a batch with room for `max`. -/
def fillBatch (max : Nat) : List Bool → Nat × List Bool
  | [] => (0, [])
  | false :: records => fillBatch max records
  | true :: records =>
    match max with
    | 0 => (0, true :: records)
    | max + 1 => ((fillBatch max records).1 + 1, (fillBatch max records).2)

def acquireProducerBatch : Option (LogBatch × LogBackend) :=
  match state.producerSpareBatch, state.freeBatches with
  | some batch, _ => some (batch, { state with producerSpareBatch := none })
  | none, batch :: rest => some (batch, { state with freeBatches := rest })
  | none, [] => none

/-- `enqueue` returns, and `enqueue_and_wake` goes on. -/
def leaveEnqueue (thread : Nat) (any : Bool) : LogBackend :=
  state.withCaller thread (if any then .waking .loadFinished false else .idle)

def stepEnqueue (thread : Nat) : LogEnqueuePc → LogBackend
  | .checking records =>
    if records.isEmpty || state.stopping then state.leaveEnqueue thread false
    else { state.withCaller thread (.enqueuing (.acquiring records false)) with
      passed := state.passed + records.count true }
  | .acquiring records any =>
    if records.count true = 0 then state.leaveEnqueue thread any
    else
      match state.acquireProducerBatch with
      | none => { state.leaveEnqueue thread any with
          droppedRecords := state.droppedRecords + records.count true }
      | some (batch, after) =>
        let filled := fillBatch config.maxBatchRecords records
        after.withCaller thread (.enqueuing (.counting ⟨batch.number, filled.1, 0⟩ filled.2 any))
  | .counting batch records any =>
    { state.withCaller thread (.enqueuing (.pushing batch records any)) with
      pendingBatches := state.pendingBatches + 1 }
  | .pushing batch records any =>
    if state.readyBatches.length < config.queueCapacity then
      { state.withCaller thread (.enqueuing (.acquiring records true)) with
        readyBatches := state.readyBatches ++ [{ batch with serial := state.pushed }]
        pushed := state.pushed + 1 }
    else
      { state.leaveEnqueue thread any with
        pendingBatches := state.pendingBatches - 1
        droppedRecords := state.droppedRecords + batch.recordCount
        producerSpareBatch := some batch }

/-- `flush` up to its `wake`; waiting for the outcome leaves the state as it is. -/
def stepFlush (thread : Nat) : LogBackend :=
  if config.countsFlushes then
    { state.withCaller thread (.waking .loadFinished false) with
      flushRequests := state.flushRequests + 1
      goals := state.goals ++ [state.pushed] }
  else
    state.withCaller thread
      (if state.pendingBatches = 0 then .idle else .waking .loadFinished false)

/-- `wake_runtime_log_task` returns; `stop_and_wait` waits if it returned true. -/
def leaveWake (thread : Nat) (stops woken : Bool) : LogBackend :=
  state.withCaller thread
    (if stops then .stopping (if woken then .waiting else .resetting) else .idle)

/-- `schedule`, where `accepts` says whether the ready queue has room.  A task that is
queued or done trips an assertion. -/
def schedule (accepts : Bool) : LogBackend × Bool :=
  match state.task with
  | .created | .pending =>
    if accepts then ({ state with task := .queued }, true) else (state, false)
  | .running _ => ({ state with requested := true }, true)
  | .queued | .done => ({ state with misscheduled := true }, false)

def stepWake (thread : Nat) (stops accepts : Bool) : LogWakePc → LogBackend
  | .loadFinished =>
    if state.finished then state.leaveWake thread stops true
    else state.withCaller thread (.waking .exchangeQueued stops)
  | .exchangeQueued =>
    if state.wakeQueued then state.leaveWake thread stops true
    else { state.withCaller thread (.waking .exchangeStarted stops) with wakeQueued := true }
  | .exchangeStarted =>
    { state.withCaller thread (.waking (.schedule (!state.taskStarted)) stops) with
      taskStarted := true }
  | .schedule starts =>
    match state.schedule accepts with
    | (after, true) => after.leaveWake thread stops true
    | (after, false) =>
      after.withCaller thread (.waking (if starts then .restoreStarted else .restoreQueued) stops)
  | .restoreStarted =>
    { state.withCaller thread (.waking .restoreQueued stops) with taskStarted := false }
  | .restoreQueued => { state.leaveWake thread stops false with wakeQueued := false }

/-- `expired` says that the deadline is over. -/
def stepStop (thread : Nat) (expired : Bool) : LogStopPc → Option LogBackend
  | .storeStopping =>
    some { state.withCaller thread (.stopping .loadStarted) with stopping := true }
  | .loadStarted =>
    some (state.withCaller thread
      (if state.taskStarted then .waking .loadFinished true else .stopping .loadPending))
  | .loadPending =>
    if state.pendingBatches = 0 then
      some { state.withCaller thread (.stopping .resetting) with finished := true }
    else
      some (state.withCaller thread (.waking .loadFinished true))
  | .waiting =>
    if state.finished || expired then some (state.withCaller thread (.stopping .resetting))
    else none
  | .resetting => some { state.withCaller thread .idle with destroyed := true }

def goTo (pc : SenderPc) : LogBackend :=
  { state with task := .running pc }

def returnPending : LogBackend :=
  { state with task := if state.requested then .queued else .pending, requested := false }

def returnAgain : LogBackend :=
  { state with task := .queued, requested := false }

def settle (batch : LogBatch) (drained : Option Nat) : LogBackend :=
  { state.goTo (.recycling batch drained) with unsynced := batch.serial :: state.unsynced }

/-- Records of the current batch are done, and the batch with the last of them. -/
def advance (batch : LogBatch) (finished drained : Nat) : LogBackend :=
  if finished = batch.recordCount then
    { state.settle batch (some drained) with current := none }
  else
    { state with current := some (batch, finished) }

def sendCurrent (drained : Nat) (outcome : SendOutcome) : Option LogBackend :=
  match state.current, outcome with
  | none, _ | some _, .synced => none
  | some _, .blocked => some { state with ioWaiting := true }.returnPending
  | some (batch, finished), .sent count =>
    if 0 < count ∧ finished + count ≤ batch.recordCount ∧
        (config.perMessage = true ∨ count = batch.recordCount) then
      some { state.advance batch (finished + count) drained with
        sentRecords := state.sentRecords + count }
    else
      none
  | some (batch, finished), .dropped count =>
    if 0 < count ∧ finished + count ≤ batch.recordCount ∧
        (config.perMessage = true ∨ count = batch.recordCount) then
      some { state.advance batch (finished + count) drained with
        droppedRecords := state.droppedRecords + count }
    else
      none

def stepSender (outcome : SendOutcome) : SenderPc → Option LogBackend
  | .checkStopping =>
    if state.stopping then
      match state.current with
      | none => some (state.goTo .dropReady)
      | some (batch, finished) =>
        some { state.settle batch none with
          current := none
          ioWaiting := false
          droppedRecords := state.droppedRecords + (batch.recordCount - finished) }
    else
      some (state.goTo .checkWait)
  | .checkWait => some (if state.ioWaiting then state.returnPending else state.goTo (.top 0))
  | .dropReady =>
    match state.readyBatches with
    | [] => some (state.goTo .finishStore)
    | batch :: rest =>
      some { state.settle batch none with
        readyBatches := rest
        droppedRecords := state.droppedRecords + batch.recordCount }
  | .top drained =>
    match state.current, state.readyBatches with
    | some _, _ => some (state.goTo (.sending drained))
    | none, batch :: rest =>
      some { state.goTo (.sending drained) with readyBatches := rest, current := some (batch, 0) }
    | none, [] => some (state.goTo .flushing)
  | .sending drained => state.sendCurrent config drained outcome
  | .recycling batch drained =>
    some { state.goTo (.abandoning drained) with
      freeBatches := if state.freeBatches.length < config.queueCapacity then
        state.freeBatches ++ [batch] else state.freeBatches }
  | .abandoning drained =>
    let after := { state with pendingBatches := state.pendingBatches - 1 }
    match drained with
    | none => some (after.goTo .dropReady)
    | some drained =>
      some (if config.maxBatchesPerRun ≤ drained + 1 then after.returnAgain
        else after.goTo (.top (drained + 1)))
  | .flushing =>
    some (state.goTo (if state.completedFlushes < state.flushRequests then .syncing else .emptied))
  | .syncing =>
    -- Without `fsync_on_flush`, or with the file closed, nothing is synced.
    some (if config.fsyncOnFlush ∧ outcome = .synced then
      { state.goTo (.acknowledging true) with unsynced := [] }
    else
      state.goTo (.acknowledging false))
  | .acknowledging synced => some (state.goTo (.completing state.flushRequests synced))
  | .completing requested synced =>
    some { state.goTo .emptied with
      completedFlushes := requested
      acks := state.acks ++ [⟨requested, synced⟩] }
  | .emptied => some (state.goTo (if state.stopping then .finishStore else .idleStore))
  | .idleStore => some { state.goTo .idleLoadStopping with wakeQueued := false }
  | .idleLoadStopping =>
    some (state.goTo (if state.stopping then .idleRestore else .idleLoadPending))
  | .idleLoadPending =>
    some (state.goTo (if state.pendingBatches = 0 then .idleLoadFlush else .idleRestore))
  | .idleLoadFlush =>
    some (if state.completedFlushes < state.flushRequests then state.goTo .idleRestore
      else state.returnPending)
  | .idleRestore => some { state.returnAgain with wakeQueued := true }
  | .finishStore => some { state.goTo .finishMark with wakeQueued := false }
  | .finishMark => some { state.goTo .finishNotify with finished := true }
  | .finishNotify => some { state with task := .done, requested := false }

/-- Thread 0 is the producer.  `answer` is what the runtime says to a `schedule`, or
that the deadline of a stop is over. -/
inductive Action
  | enqueue (records : List Bool)
  | flush (thread : Nat)
  | stop (thread : Nat)
  | caller (thread : Nat) (answer : Bool)
  | run
  | sender (outcome : SendOutcome)
  | ioReady

def call (thread : Nat) (caller : LogCaller) : Option LogBackend :=
  if state.callers thread = .idle ∧ state.destroyed = false then
    some (state.withCaller thread caller)
  else
    none

def step : Action → Option LogBackend
  | .enqueue records => state.call 0 (.enqueuing (.checking records))
  | .flush thread => state.call thread .requesting
  | .stop thread =>
    if state.shutdownStarted then none
    else { state with shutdownStarted := true }.call thread (.stopping .storeStopping)
  | .caller thread answer =>
    if state.destroyed then none
    else
      match state.callers thread with
      | .idle => none
      | .enqueuing pc => some (state.stepEnqueue config thread pc)
      | .requesting => some (state.stepFlush config thread)
      | .waking pc stops => some (state.stepWake thread stops answer pc)
      | .stopping pc => state.stepStop thread answer pc
  | .run =>
    match state.task with
    | .queued => some (state.goTo .checkStopping)
    | _ => none
  | .sender outcome =>
    match state.task with
    | .running pc => state.stepSender config outcome pc
    | _ => none
  | .ioReady =>
    if (state.task = .pending ∨ state.task = .queued) ∧ state.ioWaiting = true then
      some { state with task := .queued, ioWaiting := false }
    else
      none

def initial : LogBackend where
  freeBatches := (List.range config.batches).map (⟨·, 0, 0⟩)
  readyBatches := []
  producerSpareBatch := none
  current := none
  sentRecords := 0
  droppedRecords := 0
  pendingBatches := 0
  flushRequests := 0
  completedFlushes := 0
  wakeQueued := false
  taskStarted := false
  shutdownStarted := false
  stopping := false
  finished := false
  ioWaiting := false
  task := .created
  requested := false
  callers := fun _ => .idle
  destroyed := false
  passed := 0
  pushed := 0
  goals := []
  acks := []
  unsynced := []
  misscheduled := false

def system : TransitionSystem LogBackend Action where
  initial := fun state => state = initial config
  step := step config

end LogBackend

/-- A step of `flush`, `wake` or `stop_and_wait` leaves the batches, the records and
the run of the sender as they are. -/
structure LogBackend.OtherStep (state : LogBackend) (thread : Nat) (after : LogBackend) where
  caller : LogCaller
  task : SenderTask
  requested : Bool
  misscheduled : Bool
  wakeQueued : Bool
  taskStarted : Bool
  stopping : Bool
  finished : Bool
  destroyed : Bool
  flushRequests : Nat
  goals : List Nat
  after_eq : after = { state with
    callers := update state.callers thread caller
    task, requested, misscheduled, wakeQueued, taskStarted, stopping, finished, destroyed,
    flushRequests, goals }
  caller_ne : ∀ pc, caller ≠ .enqueuing pc
  task_eq : task = state.task ∨ task = .queued ∧ (state.task = .created ∨ state.task = .pending)
  goals_eq : flushRequests = state.flushRequests ∧ goals = state.goals ∨
    flushRequests = state.flushRequests + 1 ∧ goals = state.goals ++ [state.pushed]

namespace LogBackend

variable {config : LogConfig} {state after : LogBackend} {thread : Nat}

theorem schedule_cases {accepts took : Bool} (scheduled : state.schedule accepts = (after, took)) :
    took = true ∧ (state.task = .created ∨ state.task = .pending) ∧
        after = { state with task := .queued } ∨
      took = true ∧ (∃ pc, state.task = .running pc) ∧ after = { state with requested := true } ∨
      took = false ∧ accepts = false ∧ (state.task = .created ∨ state.task = .pending) ∧
        after = state ∨ took = false ∧ (state.task = .queued ∨ state.task = .done) ∧
        after = { state with misscheduled := true } := by
  unfold schedule at scheduled
  split at scheduled <;> (try split at scheduled) <;> cases scheduled <;> simp_all

theorem stepWake_other {stops answer : Bool} {pc : LogWakePc} :
    Nonempty (state.OtherStep thread (state.stepWake thread stops answer pc)) := by
  have leaves : ∀ stop pc, (if stops then .stopping stop else .idle) ≠ LogCaller.enqueuing pc := by
    cases stops <;> simp
  unfold stepWake leaveWake withCaller
  cases pc with
  | schedule starts =>
    cases isTask : state.task <;> cases answer <;> simp only [schedule, isTask, if_true] <;>
      refine ⟨⟨_, _, _, _, _, _, _, _, _, _, _, rfl, ?_, ?_, .inl ⟨rfl, rfl⟩⟩⟩ <;>
      simp [isTask, leaves]
  | _ =>
    dsimp only
    repeat' split
    all_goals
      refine ⟨⟨_, _, _, _, _, _, _, _, _, _, _, rfl, ?_, .inl rfl, .inl ⟨rfl, rfl⟩⟩⟩
      simp

theorem step_caller {answer : Bool}
    (steps : step config state (.caller thread answer) = some after) :
    (∃ pc, state.callers thread = .enqueuing pc ∧ after = state.stepEnqueue config thread pc) ∨
      (∀ pc, state.callers thread ≠ .enqueuing pc) ∧ Nonempty (state.OtherStep thread after) := by
  simp only [step] at steps
  split at steps
  · cases steps
  split at steps
  case h_1 => cases steps
  case h_2 pc isPc =>
    cases steps
    exact .inl ⟨pc, isPc, rfl⟩
  case h_3 isPc =>
    cases steps
    refine .inr ⟨by simp [isPc], ?_⟩
    unfold stepFlush withCaller
    split
    · exact ⟨⟨_, _, _, _, _, _, _, _, _, _, _, rfl, by simp, .inl rfl, .inr ⟨rfl, rfl⟩⟩⟩
    · split <;>
        exact ⟨⟨_, _, _, _, _, _, _, _, _, _, _, rfl, by simp, .inl rfl, .inl ⟨rfl, rfl⟩⟩⟩
  case h_4 pc stops isPc =>
    cases steps
    exact .inr ⟨by simp [isPc], stepWake_other⟩
  case h_5 pc isPc =>
    refine .inr ⟨by simp [isPc], ?_⟩
    unfold stepStop withCaller at steps
    cases pc <;> dsimp only at steps <;> repeat' split at steps
    all_goals cases steps
    all_goals exact ⟨⟨_, _, _, _, _, _, _, _, _, _, _, rfl, by simp, .inl rfl, .inl ⟨rfl, rfl⟩⟩⟩

theorem stepEnqueue_eq (pc : LogEnqueuePc) :
    ∃ caller freeBatches readyBatches producerSpareBatch droppedRecords pendingBatches passed pushed,
      state.stepEnqueue config thread pc = { state with
          callers := update state.callers thread caller
          freeBatches, readyBatches, producerSpareBatch, droppedRecords, pendingBatches, passed,
          pushed } ∧
      (caller = .idle ∨ caller = .waking .loadFinished false ∨ ∃ pc, caller = .enqueuing pc) := by
  unfold stepEnqueue acquireProducerBatch leaveEnqueue withCaller
  cases pc with
  | acquiring records any =>
    cases spare : state.producerSpareBatch <;> cases free : state.freeBatches <;> dsimp only <;>
      split <;> exact ⟨_, _, _, _, _, _, _, _, rfl, by grind⟩
  | _ =>
    dsimp only
    repeat' split
    all_goals exact ⟨_, _, _, _, _, _, _, _, rfl, by grind⟩

theorem stepSender_same {pc : SenderPc} {outcome : SendOutcome} (isPc : state.task = .running pc)
    (steps : state.stepSender config outcome pc = some after) :
    after.callers = state.callers ∧ after.taskStarted = state.taskStarted ∧
      after.shutdownStarted = state.shutdownStarted ∧ after.stopping = state.stopping ∧
      after.destroyed = state.destroyed ∧ after.misscheduled = state.misscheduled ∧
      after.task ≠ .created := by
  unfold stepSender sendCurrent advance settle goTo returnPending returnAgain at steps
  cases pc <;> dsimp only at steps <;> repeat' split at steps
  all_goals cases steps
  all_goals grind

end LogBackend

end AsyncFlow
