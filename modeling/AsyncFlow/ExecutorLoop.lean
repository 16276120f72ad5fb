import AsyncFlow.Scheduler

/-!
# The loop of one executor

One executor with its queues, and the threads that push to them.  The executor
runs `run_loop`: it pops and executes tasks, polls for IO, and sleeps in
`wake_epoch_.wait`, or in `epoll_wait` when it has an IO backend.  A producer
pushes a task, or stores the stop flag, and then calls `notify` or `notify_force`.
Every access to a shared variable is one step; a push to an external queue is two.
-/

namespace AsyncFlow

structure ExecutorConfig where
  runtime : Config
  index : Nat
  /-- `io_thread() && io_backend_available()` -/
  ioBackend : Bool

/-- A reserved position of the external queue; `writer` is the thread that has
not yet published it. -/
structure ExternalCell where
  task : TaskId
  writer : Option Nat
  deriving DecidableEq

/-- The queues of the executor and what `pop_one` keeps beside them. -/
structure ReadyQueues where
  localQueue : List TaskId
  spscQueues : Nat → List TaskId
  externalQueue : List ExternalCell
  readySources : Nat → Bool
  externalReady : Bool
  nextSource : Nat
  nextReadyWord : Nat

/-- The next access of `pop_one`. -/
inductive ScanPc
  | popLocal
  | loadWord (checked : Nat)
  | tryMasked (checked source : Nat) (mask : List Nat)
  | clearMasked (checked source : Nat) (mask : List Nat)
  | retryMasked (checked source : Nat) (mask : List Nat)
  | tryFallback (sources : List Nat)
  /-- `mark_ready` after a pop from the source -/
  | mark (source : Nat) (task : TaskId)
  | loadExternalReady
  | tryReady
  | clearReady
  | retryReady
  | restoreReady (task : TaskId)
  | tryExternal
  deriving DecidableEq

inductive ScanOutcome
  | goOn (scan : ScanPc)
  | result (task : Option TaskId)
  deriving DecidableEq

inductive LoopPc
  | drain (didWork : Bool) (scan : ScanPc)
  /-- a popped task runs; `again` when the drain goes on after it -/
  | execute (again : Bool)
  | checkStop (didWork : Bool)
  /-- `poll_io(0)`, at its load of `io_wake_pending_` -/
  | pollPending
  /-- `epoll_wait`, with timeout -1 when it `blocks` and 0 otherwise -/
  | epollWait (blocks : Bool)
  /-- events are handled; `wake` when that of the eventfd is still to come -/
  | events (blocks wake didWork : Bool)
  | drainRead (blocks : Bool)
  | drainStore (blocks : Bool)
  | loadEpoch
  | storeSleeping (observed : BitVec 32)
  | recheckStop (observed : BitVec 32)
  /-- the last `pop_one` before the wait -/
  | settle (observed : BitVec 32) (scan : ScanPc)
  | recheckEpoch (observed : BitVec 32)
  | futexWait (observed : BitVec 32)
  | clearSleeping (executes : Bool)
  | returned
  deriving DecidableEq

/-- Where a thread is between its push, or its store of the stop flag, and the
end of the notification. -/
inductive ProducerPc
  | idle
  /-- the position in the external queue is reserved -/
  | publish
  | markReady
  | loadExternalReady
  | storeExternalReady
  /-- the `fetch_add` on `wake_epoch_` of `notify`, or of `notify_force` -/
  | bump (force : Bool)
  | loadSleeping
  | casSleeping
  | casPending
  | writeEvent
  | notifyOne
  deriving DecidableEq

structure ExecutorState where
  queues : ReadyQueues
  wakeEpoch : BitVec 32
  sleeping : Bool
  stopRequested : Bool
  ioWakePending : Bool
  eventfd : Nat
  loop : LoopPc
  producers : Nat → ProducerPc
  /-- History: notifications since the executor last loaded `wake_epoch_` for a
  sleep. -/
  notifications : Nat

structure Poll where
  /-- `io_waits_` or `net_channels_` is not empty -/
  registered : Bool
  /-- the eventfd is among the events, or is the next one -/
  wake : Bool
  /-- another descriptor is ready, or is the next one -/
  others : Bool
  works : Bool
  interrupted : Bool
  deriving DecidableEq

namespace Executor

/-! ### `pop_one` -/

def wordCount (config : ExecutorConfig) : Nat :=
  (config.runtime.threadCount + 63) / 64

/-- The set bits of a ready word, lowest first. -/
def loadWord (config : ExecutorConfig) (queues : ReadyQueues) (word : Nat) : List Nat :=
  (List.range config.runtime.threadCount).filter fun source =>
    source / 64 = word ∧ queues.readySources source = true

def wordAt (config : ExecutorConfig) (queues : ReadyQueues) (checked : Nat) : Nat :=
  let word := checked + queues.nextReadyWord
  if wordCount config ≤ word then word - wordCount config else word

def nextMasked (config : ExecutorConfig) (checked : Nat) : List Nat → ScanPc
  | [] => .loadWord (checked + 1)
  | source :: mask =>
    if source = config.index then nextMasked config checked mask
    else .tryMasked checked source mask

/-- The other executors, in the order of the fallback loop. -/
def fallbackSources (config : ExecutorConfig) (queues : ReadyQueues) : List Nat :=
  ((List.range config.runtime.threadCount).map fun checked =>
    (queues.nextSource + checked) % config.runtime.threadCount).filter (· ≠ config.index)

def withSpsc (queues : ReadyQueues) (source : Nat) (queue : List TaskId) : ReadyQueues :=
  { queues with spscQueues := Function.update queues.spscQueues source queue }

def withReady (queues : ReadyQueues) (source : Nat) (ready : Bool) : ReadyQueues :=
  { queues with readySources := Function.update queues.readySources source ready }

def advanceReadyWord (config : ExecutorConfig) (queues : ReadyQueues) (word : Nat) : ReadyQueues :=
  { queues with nextReadyWord := if word + 1 = wordCount config then 0 else word + 1 }

def advanceSource (config : ExecutorConfig) (queues : ReadyQueues) (source : Nat) : ReadyQueues :=
  { queues with nextSource := (source + 1) % config.runtime.threadCount }

/-- The cursors after a pop from a source of the mask. -/
def advanceMasked (config : ExecutorConfig) (queues : ReadyQueues) (checked source : Nat) :
    ReadyQueues :=
  advanceSource config (advanceReadyWord config queues (wordAt config queues checked)) source

/-- `try_pop` of the external queue: nothing while its first position is not
published. -/
def tryPopExternal (queues : ReadyQueues) : ReadyQueues × Option TaskId :=
  match queues.externalQueue with
  | ⟨task, none⟩ :: cells => ({ queues with externalQueue := cells }, some task)
  | _ => (queues, none)

def stepScan (config : ExecutorConfig) (queues : ReadyQueues) : ScanPc → ReadyQueues × ScanOutcome
  | .popLocal =>
    match queues.localQueue with
    | task :: rest => ({ queues with localQueue := rest }, .result (some task))
    | [] => (queues, .goOn (.loadWord 0))
  | .loadWord checked =>
    if checked < wordCount config then
      let mask := loadWord config queues (wordAt config queues checked)
      (queues, .goOn (nextMasked config checked mask))
    else (queues, .goOn (.tryFallback (fallbackSources config queues)))
  | .tryMasked checked source mask =>
    match queues.spscQueues source with
    | task :: rest =>
      (advanceMasked config (withSpsc queues source rest) checked source, .result (some task))
    | [] => (queues, .goOn (.clearMasked checked source mask))
  | .clearMasked checked source mask =>
    (withReady queues source false, .goOn (.retryMasked checked source mask))
  | .retryMasked checked source mask =>
    match queues.spscQueues source with
    | task :: rest =>
      (advanceMasked config (withSpsc queues source rest) checked source, .goOn (.mark source task))
    | [] => (queues, .goOn (nextMasked config checked mask))
  | .tryFallback [] => (queues, .goOn .loadExternalReady)
  | .tryFallback (source :: sources) =>
    match queues.spscQueues source with
    | task :: rest =>
      (advanceSource config (withSpsc queues source rest) source, .goOn (.mark source task))
    | [] => (queues, .goOn (.tryFallback sources))
  | .mark source task => (withReady queues source true, .result (some task))
  | .loadExternalReady =>
    (queues, .goOn (if queues.externalReady then .tryReady else .tryExternal))
  | .tryReady =>
    match tryPopExternal queues with
    | (rest, some task) => (rest, .result (some task))
    | (rest, none) => (rest, .goOn .clearReady)
  | .clearReady => ({ queues with externalReady := false }, .goOn .retryReady)
  | .retryReady =>
    match tryPopExternal queues with
    | (rest, some task) => (rest, .goOn (.restoreReady task))
    | (rest, none) => (rest, .goOn .tryExternal)
  | .restoreReady task => ({ queues with externalReady := true }, .result (some task))
  | .tryExternal =>
    let (rest, task) := tryPopExternal queues
    (rest, .result task)

/-! ### `run_loop` -/

def loopTop : LoopPc :=
  .drain false .popLocal

/-- User code runs: a task, or a handler of an event. -/
def userCode : LoopPc → Bool
  | .execute _ | .events _ _ _ => true
  | _ => false

def withLoop (state : ExecutorState) (pc : LoopPc) : ExecutorState :=
  { state with loop := pc }

/-- One access of a `pop_one`: `goOn` and `result` say where the loop is after
it. -/
def stepPopOne (config : ExecutorConfig) (state : ExecutorState) (scan : ScanPc)
    (goOn : ScanPc → LoopPc) (result : Option TaskId → LoopPc) : ExecutorState :=
  match stepScan config state.queues scan with
  | (queues, .goOn next) => { state with queues := queues, loop := goOn next }
  | (queues, .result task) => { state with queues := queues, loop := result task }

def afterPoll (blocks didWork : Bool) : LoopPc :=
  if blocks then .clearSleeping false
  else if didWork then loopTop
  else .loadEpoch

/-- `epoll_wait` reports the eventfd, unless other events fill its array. -/
def reportsWake (state : ExecutorState) (poll : Poll) : Bool :=
  state.eventfd ≠ 0 && (poll.wake || !poll.others)

def stepLoop (config : ExecutorConfig) (state : ExecutorState) (poll : Poll) :
    Option ExecutorState :=
  match state.loop with
  | .drain didWork scan =>
    some (stepPopOne config state scan (.drain didWork) fun
      | some _ => .execute true
      | none => .checkStop didWork)
  | .execute again => some (withLoop state (.drain again .popLocal))
  | .checkStop didWork =>
    some (withLoop state (if state.stopRequested then if didWork then loopTop else .returned
      else .pollPending))
  | .pollPending =>
    some (withLoop state
      (if config.ioBackend ∧ (poll.registered ∨ state.ioWakePending) then .epollWait false
      else .loadEpoch))
  | .epollWait blocks =>
    if reportsWake state poll ∨ poll.others then
      some (withLoop state (.events blocks (reportsWake state poll) false))
    else if blocks = false ∨ poll.interrupted then
      some (withLoop state (afterPoll blocks false))
    else none
  | .events blocks wake didWork =>
    if wake ∧ poll.wake then some (withLoop state (.drainRead blocks))
    else if poll.others then
      some (withLoop state (.events blocks wake (didWork || poll.works)))
    else if wake then none
    else some (withLoop state (afterPoll blocks didWork))
  | .drainRead blocks =>
    some (if state.eventfd = 0 then withLoop state (.drainStore blocks)
      else { state with eventfd := 0, loop := .drainRead blocks })
  | .drainStore blocks =>
    some { state with ioWakePending := false, loop := .events blocks false true }
  | .loadEpoch =>
    some { state with loop := .storeSleeping state.wakeEpoch, notifications := 0 }
  | .storeSleeping observed =>
    some { state with sleeping := true, loop := .recheckStop observed }
  | .recheckStop observed =>
    some (withLoop state
      (if state.stopRequested then .clearSleeping false else .settle observed .popLocal))
  | .settle observed scan =>
    some (stepPopOne config state scan (.settle observed) fun
      | some _ => .clearSleeping true
      | none => .recheckEpoch observed)
  | .recheckEpoch observed =>
    some (withLoop state (if state.wakeEpoch ≠ observed then .clearSleeping false
      else if config.ioBackend then .epollWait true
      else .futexWait observed))
  | .futexWait observed =>
    if state.wakeEpoch ≠ observed then some (withLoop state (.clearSleeping false))
    else none
  | .clearSleeping executes =>
    some { state with
      sleeping := false
      loop := if executes then .execute false else loopTop }
  | .returned => none

/-! ### Producers -/

inductive Action
  | loop (poll : Poll)
  | pushLocal (task : TaskId)
  /-- a full ring gives up its oldest task, which is executed inline -/
  | popLocal
  | pushSpsc (source : Nat) (task : TaskId)
  | pushExternal (thread : Nat) (task : TaskId)
  | requestStop (thread : Nat)
  | producer (thread : Nat)
  deriving DecidableEq

def withProducer (state : ExecutorState) (thread : Nat) (pc : ProducerPc) : ExecutorState :=
  { state with producers := Function.update state.producers thread pc }

def withQueues (state : ExecutorState) (queues : ReadyQueues) : ExecutorState :=
  { state with queues := queues }

/-- The thread may call: it is in no other call, and the executor itself calls
only from user code. -/
def canCall (config : ExecutorConfig) (state : ExecutorState) (thread : Nat) : Bool :=
  state.producers thread = .idle && (thread ≠ config.index || userCode state.loop)

def publishBy (thread : Nat) (cell : ExternalCell) : ExternalCell :=
  if cell.writer = some thread then { cell with writer := none } else cell

def stepProducer (config : ExecutorConfig) (state : ExecutorState) (thread : Nat) :
    Option ExecutorState :=
  match state.producers thread with
  | .idle => none
  | .publish =>
    some (withProducer (withQueues state { state.queues with
        externalQueue := state.queues.externalQueue.map (publishBy thread) })
      thread .loadExternalReady)
  | .markReady =>
    some (withProducer (withQueues state (withReady state.queues thread true)) thread (.bump false))
  | .loadExternalReady =>
    some (withProducer state thread
      (if state.queues.externalReady then .bump false else .storeExternalReady))
  | .storeExternalReady =>
    some (withProducer (withQueues state { state.queues with externalReady := true })
      thread (.bump true))
  | .bump force =>
    some (withProducer { state with
        wakeEpoch := state.wakeEpoch + 1
        notifications := state.notifications + 1 }
      thread
      (if config.ioBackend then if force then .casPending else .loadSleeping
      else .notifyOne))
  | .loadSleeping =>
    some (withProducer state thread (if state.sleeping then .casSleeping else .idle))
  | .casSleeping =>
    some (if state.sleeping then withProducer { state with sleeping := false } thread .casPending
      else withProducer state thread .idle)
  | .casPending =>
    some (if state.ioWakePending then withProducer state thread .idle
      else withProducer { state with ioWakePending := true } thread .writeEvent)
  | .writeEvent =>
    some (withProducer { state with eventfd := state.eventfd + 1 } thread .idle)
  | .notifyOne => some (withProducer state thread .idle)

def step (config : ExecutorConfig) (state : ExecutorState) : Action → Option ExecutorState
  | .loop poll =>
    if state.producers config.index = .idle then stepLoop config state poll else none
  | .pushLocal task =>
    if canCall config state config.index ∧
        state.queues.localQueue.length < config.runtime.spscCapacity then
      some (withQueues state { state.queues with
        localQueue := state.queues.localQueue ++ [task] })
    else none
  | .popLocal =>
    if canCall config state config.index ∧ state.queues.localQueue ≠ [] then
      some (withQueues state { state.queues with localQueue := state.queues.localQueue.tail })
    else none
  | .pushSpsc source task =>
    if canCall config state source ∧ source < config.runtime.threadCount ∧ source ≠ config.index ∧
        (state.queues.spscQueues source).length < config.runtime.spscCapacity then
      some (withProducer (withQueues state (withSpsc state.queues source
          (state.queues.spscQueues source ++ [task]))) source .markReady)
    else none
  | .pushExternal thread task =>
    if canCall config state thread ∧
        state.queues.externalQueue.length < config.runtime.externalCapacity then
      some (withProducer (withQueues state { state.queues with
          externalQueue := state.queues.externalQueue ++ [⟨task, some thread⟩] })
        thread .publish)
    else none
  | .requestStop thread =>
    if canCall config state thread ∧ config.runtime.threadCount ≤ thread then
      some (withProducer { state with stopRequested := true } thread (.bump true))
    else none
  | .producer thread => stepProducer config state thread

def start : ExecutorState where
  queues :=
    { localQueue := []
      spscQueues := fun _ => []
      externalQueue := []
      readySources := fun _ => false
      externalReady := false
      nextSource := 0
      nextReadyWord := 0 }
  wakeEpoch := 0
  sleeping := false
  stopRequested := false
  ioWakePending := false
  eventfd := 0
  loop := loopTop
  producers := fun _ => .idle
  notifications := 0

def system (config : ExecutorConfig) : TransitionSystem ExecutorState Action where
  initial := fun state => state = start
  step := step config

end Executor

end AsyncFlow
