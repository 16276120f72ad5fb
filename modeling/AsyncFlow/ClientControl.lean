import AsyncFlow.UdpControl

/-!
# The control thread of a client

`TcpClient` counts the connects whose outcome it has not seen and keeps weak
references to them.  A connect is a task on a shard, which reports its outcome to
the control thread.  A stop cancels the waiting connects, closes all connections,
and is over when every shard has reported.

A shard reports in a step of its own, because handlers are called before.  The
runtime may refuse every task, reports included.
-/

namespace AsyncFlow

structure ConnectControl where
  number : Nat
  shard : Nat
  deriving DecidableEq

structure ConnectConfig where
  threads : List Nat
  remoteEndpoint : UdpAddress
  localEndpoint : UdpAddress
  bindLocal : Bool
  readBudgetBytes : Nat
  readBufferSize : Nat
  outputHighWatermark : Nat
  deriving DecidableEq

inductive ClientTask
  | connect (control : ConnectControl)
  | stop (pending : List ConnectControl)
  deriving DecidableEq

inductive ClientResult
  | connect (control : ConnectControl) (connected : Bool)
  | stop
  deriving DecidableEq

structure ClientShard where
  tasks : List ClientTask
  /-- the connects that wait for the kernel -/
  connecting : List ConnectControl
  /-- the connects with `cancel_requested` -/
  cancelled : List ConnectControl
  connections : List ConnectControl
  /-- what the shard has done and not yet reported -/
  outcomes : List ClientResult
  /-- the reports on their way to the control thread -/
  results : List ClientResult
  deriving DecidableEq

structure ClientState where
  running : Bool
  stopping : Bool
  inflightConnects : Nat
  pendingStopShards : Nat
  hasConnected : Bool
  pendingConnects : List ConnectControl
  nextConnectSlot : Nat
  shards : Nat → ClientShard
  /-- History: how many connects there were. -/
  connects : Nat
  /-- History: the connects that were accepted since the last stop was over, and whose
  outcome the control thread has not seen. -/
  outstanding : List ConnectControl
  /-- History: the connects that were accepted since the last stop began. -/
  recent : List ConnectControl

structure ClientEnv where
  accepts : Nat → Bool
  /-- Memory is short for what comes first in the operation. -/
  fails : Bool
  pushFails : Bool
  /-- Memory is short for the lists of pending connects by shards. -/
  collectFails : Bool
  /-- Memory is short for empty lists in their place. -/
  resizeFails : Bool
  /-- There is memory to put the connect on the list of its shard. -/
  collects : ConnectControl → Bool

def ClientEnv.good : ClientEnv where
  accepts := fun _ => true
  fails := false
  pushFails := false
  collectFails := false
  resizeFails := false
  collects := fun _ => true

namespace ConnectConfig

variable (config : ConnectConfig)

def addressed : Bool :=
  config.remoteEndpoint.resolves && (!config.bindLocal ||
    config.localEndpoint.resolves && config.localEndpoint.family = config.remoteEndpoint.family)

def validate (server : ServerConfig) : Bool :=
  !(config.threads.isEmpty || config.readBudgetBytes = 0 || config.readBufferSize = 0 ||
    config.outputHighWatermark = 0 || config.threads.any (fun thread =>
      server.threadCount ≤ thread || !server.isIoThread thread)) && config.threads.Nodup

def shardFor (ticket : Nat) : Nat := config.threads.getD (ticket % config.threads.length) 0

end ConnectConfig

def connectSlots : Nat := 2 ^ 32

namespace ClientTask

def keeps : ClientTask → List ConnectControl
  | connect control => [control]
  | stop pending => pending

end ClientTask

namespace ClientResult

def keeps : ClientResult → List ConnectControl
  | connect control _ => [control]
  | stop => []

end ClientResult

namespace ClientShard

def kept (shard : ClientShard) : List ConnectControl :=
  shard.tasks.flatMap ClientTask.keeps ++ shard.connecting ++
    shard.outcomes.flatMap ClientResult.keeps ++ shard.results.flatMap ClientResult.keeps

inductive Outcome
  | waits
  | ends (connected : Bool)
  deriving DecidableEq

def runConnect (shard : ClientShard) (control : ConnectControl) : Outcome → ClientShard
  | .waits => { shard with connecting := shard.connecting ++ [control] }
  | .ends connected => { shard with
      outcomes := shard.outcomes ++ [.connect control connected]
      connections := if connected then shard.connections ++ [control] else shard.connections }

def runStop (shard : ClientShard) (pending : List ConnectControl) : ClientShard :=
  { shard with
    cancelled := shard.cancelled ++ pending
    connections := []
    outcomes := shard.outcomes ++ [.stop] }

end ClientShard

namespace ClientState

variable (config : ServerConfig) (env : ClientEnv)

def withShard (state : ClientState) (index : Nat) (shard : ClientShard) : ClientState :=
  { state with shards := Function.update state.shards index shard }

def lives (state : ClientState) (control : ConnectControl) : Bool :=
  (List.range config.threadCount).any fun shard => control ∈ (state.shards shard).kept

def compactPendingConnects (state : ClientState) : ClientState :=
  { state with pendingConnects := state.pendingConnects.filter (state.lives config) }

def schedule (state : ClientState) (shard : Nat) (task : ClientTask) : ClientState :=
  state.withShard shard { state.shards shard with tasks := (state.shards shard).tasks ++ [task] }

def handleConnectResult (state : ClientState) (control : ConnectControl) (connected : Bool) :
    ClientState :=
  let matched := control ∈ state.pendingConnects
  let compacted := { state with
    pendingConnects := state.pendingConnects.filter fun other =>
      other ≠ control && state.lives config other
    outstanding := state.outstanding.erase control }
  if !matched then compacted
  else
    let inflight := state.inflightConnects - 1
    let hasConnected := state.hasConnected || connected
    { compacted with
      inflightConnects := inflight
      hasConnected := hasConnected
      running := if inflight = 0 && !hasConnected && !state.stopping then false else state.running }

def handleStopResult (state : ClientState) : ClientState :=
  if !state.stopping then state
  else
    let pending := state.pendingStopShards - 1
    if pending ≠ 0 then { state with pendingStopShards := pending }
    else
      { state with
        pendingStopShards := pending
        inflightConnects := 0
        hasConnected := false
        pendingConnects := []
        stopping := false
        running := false
        outstanding := [] }

def activatePendingConnect (state : ClientState) (control : ConnectControl) : Bool × ClientState :=
  if state.stopping then (false, state)
  else
    let compacted := state.compactPendingConnects config
    if env.pushFails then (false, compacted)
    else (true, { compacted with
      pendingConnects := compacted.pendingConnects ++ [control]
      inflightConnects := compacted.inflightConnects + 1
      running := true })

/-- `finish_pending_connect_start` of a connect that could not be scheduled. -/
def finishPendingConnectStart (state : ClientState) (control : ConnectControl) : ClientState :=
  let matched := control ∈ state.pendingConnects
  let pending := state.pendingConnects.filter fun other =>
    other ≠ control && state.lives config other
  let erased := { state with pendingConnects := pending }
  if !matched then erased
  else
    let inflight := state.inflightConnects - 1
    { erased with
      inflightConnects := inflight
      running := if inflight = 0 && !state.hasConnected && pending.isEmpty then false
        else state.running }

def numbered (state : ClientState) : ClientState :=
  { state with
    nextConnectSlot := (state.nextConnectSlot + 1) % connectSlots
    connects := state.connects + 1 }

def connect (state : ClientState) (connecting : ConnectConfig) : Bool × ClientState :=
  if !connecting.addressed || !connecting.validate config then (false, state)
  else
    let control := ⟨state.connects, connecting.shardFor state.nextConnectSlot⟩
    if env.fails then (false, state.numbered)
    else
      let (activated, active) := state.numbered.activatePendingConnect config env control
      if !activated then (false, active)
      else if env.accepts control.shard then
        (true, { active.schedule control.shard (.connect control) with
          outstanding := active.outstanding ++ [control]
          recent := active.recent ++ [control] })
      else (false, active.finishPendingConnectStart config control)

def scheduleStops (collected : List ConnectControl) (shards : List Nat) (state : ClientState) :
    ClientState :=
  shards.foldl (fun state shard =>
    if env.accepts shard then
      state.schedule shard (.stop (collected.filter (·.shard = shard)))
    else state.handleStopResult) state

/-- `collect_pending_connects_by_shard`: the list without expired connects, and the
connects that go to the stop tasks of their shards. -/
def collectPendingConnects (state : ClientState) : List ConnectControl × List ConnectControl :=
  if env.collectFails then (state.pendingConnects, [])
  else
    let pending := state.pendingConnects.filter (state.lives config)
    (pending, pending.filter env.collects)

def beginStop (state : ClientState) (shards : Nat) : ClientState :=
  { state with
    stopping := true
    running := false
    pendingConnects := (state.collectPendingConnects config env).1
    pendingStopShards := shards
    recent := [] }

def stop (state : ClientState) : Bool × ClientState :=
  if state.stopping then (false, state)
  else if state.running && env.fails then (false, state)
  else
    let shards := if state.running then List.range config.threadCount else []
    let collected := (state.collectPendingConnects config env).2
    let begun := state.beginStop config env shards.length
    if shards.isEmpty then (true, begun.handleStopResult)
    else if env.collectFails && env.resizeFails then (false, begun)
    else (shards.all env.accepts, scheduleStops env collected shards begun)

def mustFail (state : ClientState) (control : ConnectControl) : Bool :=
  !state.running || state.stopping || control ∈ (state.shards control.shard).cancelled

def handleResult (state : ClientState) : ClientResult → ClientState
  | .connect control connected => state.handleConnectResult config control connected
  | .stop => state.handleStopResult

/-- A shard reports; on the control thread this is handled at once. -/
def complete (state : ClientState) (index : Nat) (result : ClientResult) (accepted : Bool) :
    ClientState :=
  if index = config.controlThread then state.handleResult config result
  else if accepted then
    state.withShard index
      { state.shards index with results := (state.shards index).results ++ [result] }
  else state

end ClientState

namespace Client

inductive Action
  | connect (connecting : ConnectConfig) (env : ClientEnv)
  | stop (env : ClientEnv)
  | handleResult (shard : Nat)
  /-- a shard runs its next task; the outcome is that of a connect -/
  | runTask (shard : Nat) (outcome : ClientShard.Outcome)
  /-- a connect that waited goes on, or the runtime cancels it -/
  | resume (shard : Nat) (control : ConnectControl) (outcome : ClientShard.Outcome)
  | close (shard : Nat) (control : ConnectControl)
  | complete (shard : Nat) (accepted : Bool)

def step (config : ServerConfig) (state : ClientState) : Action → Option ClientState
  | .connect connecting env => some (state.connect config env connecting).2
  | .stop env => some (state.stop config env).2
  | .handleResult index =>
    match (state.shards index).results with
    | result :: results =>
      let taken := state.withShard index { state.shards index with results := results }
      some (taken.handleResult config result)
    | [] => none
  | .runTask index outcome =>
    match (state.shards index).tasks with
    | task :: tasks =>
      let taken := { state.shards index with tasks := tasks }
      match task with
      | .connect control =>
        if state.mustFail control && outcome ≠ .ends false then none
        else some (state.withShard index (taken.runConnect control outcome))
      | .stop pending => some (state.withShard index (taken.runStop pending))
    | [] => none
  | .resume index control outcome =>
    if control ∈ (state.shards index).connecting &&
        !(state.mustFail control && outcome ≠ .ends false) then
      let taken := { state.shards index with
        connecting := (state.shards index).connecting.erase control }
      some (state.withShard index (taken.runConnect control outcome))
    else none
  | .close index control =>
    if control ∈ (state.shards index).connections then
      some (state.withShard index { state.shards index with
        connections := (state.shards index).connections.erase control })
    else none
  | .complete index accepted =>
    match (state.shards index).outcomes with
    | result :: outcomes =>
      let taken := state.withShard index { state.shards index with outcomes := outcomes }
      some (taken.complete config index result accepted)
    | [] => none

def initial : ClientState where
  running := false
  stopping := false
  inflightConnects := 0
  pendingStopShards := 0
  hasConnected := false
  pendingConnects := []
  nextConnectSlot := 0
  shards := fun _ => ⟨[], [], [], [], [], []⟩
  connects := 0
  outstanding := []
  recent := []

def system (config : ServerConfig) : TransitionSystem ClientState Action where
  initial := fun state => state = initial
  step := step config

end Client

end AsyncFlow
