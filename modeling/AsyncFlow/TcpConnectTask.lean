import AsyncFlow.IoWaits

/-!
# The task that connects a client

One `TcpConnectTask` on an executor with the epoll backend.  The executor may
write two results: that of the wait for the socket, in `connect_state_`, and that
of the wait for the timer, in `deadline_.wait`.  Everything else that happens to
the waits is done by other tasks and by `poll_native_io`.  On epoll
`io_wait_timeout` fails with `ENOSYS`, so the deadline uses a timerfd.  What
system calls answer during a run is part of the action.
-/

namespace AsyncFlow

/-- The task, and the results in its states. -/
def connectTask : TaskId := 0

def connectState : ResultId := 0

def deadlineWait : ResultId := 1

def IoResult.new : IoResult := ⟨-1, .none, none⟩

inductive IoStatus
  | pending
  | ready
  | failed (error : Errno)
  deriving DecidableEq

/-- `IoDeadline`, with its result in the state of the waits. -/
structure IoDeadline where
  /-- `delay` is positive -/
  configured : Bool
  timer : Option Nat
  waiting : Bool
  armed : Bool
  deriving DecidableEq

structure TcpConnectTask where
  fd : Option Nat
  prepared : Bool
  connectWaiting : Bool
  deadline : IoDeadline
  /-- `cancel_requested_` and `active_` of its control -/
  cancelRequested : Bool
  active : Bool
  queued : Bool
  done : Bool
  /-- The error that `on_listener_error` got. -/
  reported : Option Errno
  /-- The sockets that were opened, closed and given to `create_connection`. -/
  opened : Nat
  closes : Nat
  handovers : Nat
  deriving DecidableEq

structure TcpConnectState where
  waits : IoWaitsState
  task : TcpConnectTask

inductive ConnectAnswer
  | connected
  | inProgress
  | failed (error : Errno)
  deriving DecidableEq

/-- What `read` on the timer returns, `EINTR` aside. -/
inductive TimerRead
  | expired
  | wouldBlock
  | failed (error : Errno)
  deriving DecidableEq

structure ConnectAnswers where
  runtimeStopping : Bool
  clientRunning : Bool
  clientStillRunning : Bool
  socket : Except Errno Nat
  /-- An option of the socket, or `bind`, failed. -/
  prepareError : Option Errno
  connect : ConnectAnswer
  connectMemory : WaitMemory
  /-- The read of a timer that was reported to be expired. -/
  expiredRead : TimerRead
  expiredMemory : WaitMemory
  timer : Except Errno Nat
  timerSet : Except Errno Unit
  /-- The read of a timer that was just set. -/
  timerRead : TimerRead
  timerMemory : WaitMemory
  commandChannelError : Option Errno
  fails : List (Option Errno)

namespace IoWaitsState

variable (available : Bool)

def armIoWait (waits : IoWaitsState) (fd : Option Nat) (events : IoEvents) (result : ResultId)
    (memory : WaitMemory) : IoWaitsState × Option Errno :=
  match fd with
  | none => (waits.setResult result (setIoResultError (-1) .badf), some .badf)
  | some fd =>
    let (waits, registered) := (waits.setResult result ⟨fd, .none, none⟩).registerNativeIoWait
      available ⟨fd, events, connectTask, result⟩ memory
    if registered then (waits, none)
    else (waits, some ((waits.results result).error.getD .inval))

def cancelIo (waits : IoWaitsState) (waiting : Bool) (result : ResultId)
    (runningTask : Option TaskId) : IoWaitsState × Bool :=
  if waiting && (waits.results result).error = some .canceled then (waits, true)
  else if !waiting then
    (waits.setResult result (setIoResultError (waits.results result).fd .noent), false)
  else waits.cancelNativeIoWait available result runningTask

def resultReady (waits : IoWaitsState) (waiting : Bool) (result : ResultId) : Bool :=
  waiting && ((waits.results result).events ≠ .none || (waits.results result).error.isSome)

def hasWait (waits : IoWaitsState) (fd : Int) (result : ResultId) : Bool :=
  (waits.ioWaits fd).any fun entry => (entry.find waits.registrations result).isSome

end IoWaitsState

namespace TcpConnectState

def withWaits (state : TcpConnectState) (waits : IoWaitsState) : TcpConnectState :=
  { state with waits := waits }

def withDeadline (state : TcpConnectState) (deadline : IoDeadline) : TcpConnectState :=
  { state with task := { state.task with deadline := deadline } }

def closeFd (state : TcpConnectState) : TcpConnectState :=
  match state.task.fd with
  | none => state
  | some fd =>
    { waits := { state.waits with epoll := state.waits.epoll.close fd }
      task := { state.task with fd := none, closes := state.task.closes + 1 } }

def resetRuntime (state : TcpConnectState) : TcpConnectState :=
  (state.withWaits (state.waits.setResult deadlineWait .new)).withDeadline
    { state.task.deadline with waiting := false, armed := false }

def resetDeadline (state : TcpConnectState) : TcpConnectState :=
  let waits := match state.task.deadline.timer with
    | none => state.waits
    | some timer => { state.waits with epoll := state.waits.epoll.close timer }
  (state.withWaits (waits.setResult deadlineWait .new)).withDeadline ⟨false, none, false, false⟩

def finishFailed (state : TcpConnectState) (error : Errno) : TcpConnectState :=
  let state := state.closeFd
  let state := (state.withWaits (state.waits.setResult connectState .new)).resetDeadline
  { state with
    task := { state.task with
      active := false
      connectWaiting := false
      queued := false
      done := true
      reported := some error } }

def finishConnected (state : TcpConnectState) (answers : ConnectAnswers) : TcpConnectState :=
  let state := { state with task := { state.task with active := false } }
  match answers.commandChannelError with
  | some error => state.finishFailed error
  | none =>
    { state with
      task := { state.task with
        fd := none
        handovers := state.task.handovers + 1
        queued := false
        done := true } }

def returnPending (state : TcpConnectState) : TcpConnectState :=
  { state with task := { state.task with queued := false } }

variable (available : Bool)

/-! ### The deadline -/

def waitTimerfd (state : TcpConnectState) (read : TimerRead) (memory : WaitMemory) :
    TcpConnectState × IoStatus :=
  let deadline := state.task.deadline
  let cleared := state.withDeadline { deadline with waiting := false }
  if deadline.waiting && (state.waits.results deadlineWait).error = some .canceled then
    (cleared, .failed .canceled)
  else
    match read with
    | .expired => (cleared, .ready)
    | .failed error => (cleared, .failed error)
    | .wouldBlock =>
      match state.waits.armIoWait available deadline.timer ⟨true, false, false, false⟩
        deadlineWait memory with
      | (waits, none) =>
        ((state.withWaits waits).withDeadline { deadline with waiting := true }, .pending)
      | (waits, some error) => (cleared.withWaits waits, .failed error)

/-- `arm_io_timeout` for a deadline that is armed. -/
def checkTimeout (state : TcpConnectState) (answers : ConnectAnswers) :
    TcpConnectState × IoStatus :=
  let connectReady := state.waits.resultReady state.task.connectWaiting connectState
  let deadlineReady := state.waits.resultReady state.task.deadline.waiting deadlineWait
  if connectReady then
    let state :=
      if deadlineReady then
        (state.waitTimerfd available answers.expiredRead answers.expiredMemory).1
      else if state.task.deadline.waiting then
        state.withWaits (state.waits.cancelIo available true deadlineWait (some connectTask)).1
      else state
    (state.resetRuntime, .ready)
  else if deadlineReady then
    match state.waitTimerfd available answers.expiredRead answers.expiredMemory with
    | (state, .ready) =>
      match state.waits.cancelIo available state.task.connectWaiting connectState
        (some connectTask) with
      | (waits, false) =>
        ((state.withWaits waits).resetRuntime,
          .failed ((waits.results connectState).error.getD .io))
      | (waits, true) =>
        let state := state.withWaits waits
        ({ state with task := { state.task with connectWaiting := false } }.resetRuntime,
          .failed .timedOut)
    | (state, .failed error) => (state.resetRuntime, .failed error)
    | (state, .pending) => (state.resetRuntime, .failed .io)
  else (state, .pending)

/-- `arm_io_timeout` for a deadline that is not armed yet. -/
def startTimeout (state : TcpConnectState) (answers : ConnectAnswers) :
    TcpConnectState × IoStatus :=
  if !state.task.connectWaiting then (state, .failed .inval)
  else
    let state := (state.withWaits (state.waits.setResult deadlineWait .new)).withDeadline
      { state.task.deadline with waiting := false }
    let timer : Except Errno Nat := match state.task.deadline.timer with
      | some timer => .ok timer
      | none => answers.timer
    match timer with
    | .error error => (state, .failed error)
    | .ok timer =>
      let state := state.withDeadline { state.task.deadline with timer := some timer }
      match answers.timerSet with
      | .error error => (state, .failed error)
      | .ok () =>
        match state.waitTimerfd available answers.timerRead answers.timerMemory with
        | (state, .pending) =>
          (state.withDeadline { state.task.deadline with armed := true }, .pending)
        | (state, status) => (state, status)

/-- `prepare_socket` and what follows it in the first run. -/
def prepare (timeout : Bool) (state : TcpConnectState) (answers : ConnectAnswers) :
    TcpConnectState × Option Errno :=
  if state.task.prepared then (state, none)
  else
    match answers.socket with
    | .error error => (state, some error)
    | .ok fd =>
      let state := { state with
        task := { state.task with fd := some fd, opened := state.task.opened + 1 } }
      match answers.prepareError with
      | some error => (state.closeFd, some error)
      | none =>
        let state := { state with
          task := { state.task with prepared := true, active := true } }
        if timeout then
          (state.resetRuntime.withDeadline
            { state.resetRuntime.task.deadline with configured := true }, none)
        else (state, none)

def ioConnect (state : TcpConnectState) (answers : ConnectAnswers) : TcpConnectState × IoStatus :=
  let cleared := { state with task := { state.task with connectWaiting := false } }
  if state.task.connectWaiting && (state.waits.results connectState).error = some .canceled then
    (cleared, .failed .canceled)
  else
    match answers.connect with
    | .connected => (cleared, .ready)
    | .failed error => (cleared, .failed error)
    | .inProgress =>
      match state.waits.armIoWait available state.task.fd ⟨false, true, false, false⟩
        connectState answers.connectMemory with
      | (waits, none) =>
        ({ waits := waits, task := { state.task with connectWaiting := true } }, .pending)
      | (waits, some error) => (cleared.withWaits waits, .failed error)

def attempt (timeout : Bool) (state : TcpConnectState) (answers : ConnectAnswers) :
    TcpConnectState × IoStatus :=
  match state.prepare timeout answers with
  | (state, some error) => (state, .failed error)
  | (state, none) =>
    if state.task.deadline.armed then
      match state.checkTimeout available answers with
      | (state, .ready) => state.ioConnect available answers
      | (state, status) => (state, status)
    else state.ioConnect available answers

def stops (state : TcpConnectState) (answers : ConnectAnswers) : Bool :=
  answers.runtimeStopping || !answers.clientRunning || state.task.cancelRequested

def run (timeout : Bool) (state : TcpConnectState) (answers : ConnectAnswers) : TcpConnectState :=
  if state.stops answers then state.finishFailed .canceled
  else
    match (state.withWaits (IoWaits.withFails state.waits answers.fails)).attempt available
      timeout answers with
    | (state, .failed error) => state.finishFailed error
    | (state, .ready) =>
      if !answers.clientStillRunning || state.task.cancelRequested then
        state.finishFailed .canceled
      else state.finishConnected answers
    | (state, .pending) =>
      if state.task.deadline.configured && !state.task.deadline.armed then
        match state.startTimeout available answers with
        | (state, .failed error) => state.finishFailed error
        | (state, _) => state.returnPending
      else state.returnPending

/-- `request_cancel_on_owner`, called by the task that stops the shard. -/
def requestCancelOnOwner (state : TcpConnectState) : TcpConnectState :=
  let state := { state with task := { state.task with cancelRequested := true } }
  if !state.task.active then state
  else if state.task.connectWaiting then
    (state.withWaits (state.waits.cancelIo available true connectState none).1).closeFd
  else state.closeFd

/-- A wait of the task that left the table enqueued the task. -/
def wake (before after : TcpConnectState) : TcpConnectState :=
  let lost := fun (fd : Nat) result =>
    before.waits.hasWait fd result && !after.waits.hasWait fd result
  { after with
    task := { after.task with
      queued := after.task.queued ||
        before.task.fd.any (fun fd => lost fd connectState) ||
        before.task.deadline.timer.any (fun timer => lost timer deadlineWait) } }

end TcpConnectState

namespace TcpConnect

inductive Action
  | other (action : IoWaits.Action)
  | run (answers : ConnectAnswers)
  | cancel (fails : List (Option Errno))

/-- Others use results, and close descriptors, of their own. -/
def byOthers (state : TcpConnectState) : IoWaits.Action → Bool
  | .registerWait registration _ _ =>
    registration.task ≠ connectTask ∧ registration.result ≠ connectState ∧
      registration.result ≠ deadlineWait
  | .cancelWait result runningTask _ =>
    result ≠ connectState ∧ result ≠ deadlineWait ∧ runningTask ≠ some connectTask
  | .writeResult result _ => result ≠ connectState ∧ result ≠ deadlineWait
  | .closeFd fd =>
    state.task.fd.all (fun (own : Nat) => fd ≠ own) ∧
      state.task.deadline.timer.all (fun (own : Nat) => fd ≠ own)
  | .registerChannel _ _ _ | .updateChannel _ _ _ | .unregisterChannel _ _ | .epollWait _
  | .handleEvent _ | .enqueued _ => true

def step (available timeout : Bool) (state : TcpConnectState) : Action → Option TcpConnectState
  | .other action =>
    if byOthers state action then
      (IoWaits.step available state.waits action).map fun waits =>
        state.wake (state.withWaits waits)
    else none
  | .run answers =>
    if state.task.queued && !state.task.done then some (state.run available timeout answers)
    else none
  | .cancel fails =>
    some (state.wake ((state.withWaits
      (IoWaits.withFails state.waits fails)).requestCancelOnOwner available))

def start (fds : Nat → Int) : TcpConnectState where
  waits := IoWaits.start fds
  task :=
    { fd := none
      prepared := false
      connectWaiting := false
      deadline := ⟨false, none, false, false⟩
      cancelRequested := false
      active := false
      queued := true
      done := false
      reported := none
      opened := 0
      closes := 0
      handovers := 0 }

def system (available timeout : Bool) : TransitionSystem TcpConnectState Action where
  initial := fun state => ∃ fds, state = start fds
  step := step available timeout

end TcpConnect

end AsyncFlow
