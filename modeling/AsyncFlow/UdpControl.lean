import AsyncFlow.ServerControl

/-!
# The control thread of a UDP socket

`UdpSocket` opens a socket on each shard of its configuration.  Its control thread
lists the shards that it takes to be active, and sends start and stop tasks.  A
shard that could not open its socket reports the error, with its index only, and
is taken off the list.
-/

namespace AsyncFlow

open Function

inductive AddressFamily
  | ipv4
  | ipv6
  | unix
  deriving DecidableEq

/-- What is checked of an endpoint; `resolves` says whether `socket_address_from_endpoint`
succeeds. -/
structure UdpAddress where
  family : AddressFamily
  emptyAddress : Bool
  port : Nat
  resolves : Bool
  deriving DecidableEq

structure UdpSocketConfig where
  threads : List Nat
  localEndpoint : UdpAddress
  remoteEndpoint : UdpAddress
  connectRemote : Bool
  reusePort : Bool
  readBudgetDatagrams : Nat
  receiveBufferSize : Nat
  maxDatagramSize : Nat
  deriving DecidableEq

namespace UdpSocketConfig

variable (config : UdpSocketConfig)

def validateRemote : Bool :=
  !(config.remoteEndpoint.family = .unix && config.remoteEndpoint.emptyAddress ||
    !config.remoteEndpoint.resolves || config.remoteEndpoint.family ≠ config.localEndpoint.family ||
    config.remoteEndpoint.family ≠ .unix && config.remoteEndpoint.port = 0)

def validate (server : ServerConfig) : Bool :=
  let unixSocket := decide (config.localEndpoint.family = .unix)
  !(config.threads.isEmpty || config.readBudgetDatagrams = 0 || config.receiveBufferSize = 0 ||
    config.maxDatagramSize = 0 || !config.localEndpoint.resolves ||
    1 < config.threads.length && (!config.reusePort || unixSocket) ||
    unixSocket && config.localEndpoint.emptyAddress ||
    config.connectRemote && !config.validateRemote ||
    config.threads.any (fun thread => server.threadCount ≤ thread || !server.isIoThread thread)) &&
    config.threads.Nodup

end UdpSocketConfig

inductive UdpTask
  | start
  | stop
  deriving DecidableEq

structure UdpState where
  running : Bool
  activeShards : List Nat
  sockets : Nat → Bool
  /-- the tasks on their way to each shard -/
  tasks : Nat → List UdpTask
  /-- the results on their way from each shard: whether there was an error -/
  results : Nat → List Bool

structure UdpEnv where
  startAccepted : Nat → Bool
  stopAccepted : Nat → Bool
  fails : Bool
  startedFails : Bool
  stoppedFails : Bool
  /-- Memory is short for the list of the shards that could not be stopped. -/
  remainingFails : Bool

def UdpEnv.good : UdpEnv where
  startAccepted := fun _ => true
  stopAccepted := fun _ => true
  fails := false
  startedFails := false
  stoppedFails := false
  remainingFails := false

namespace UdpState

variable (config : ServerConfig) (env : UdpEnv)

/-! ### Operations of the control thread -/

def schedule (state : UdpState) (shard : Nat) (task : UdpTask) : UdpState :=
  { state with tasks := update state.tasks shard (state.tasks shard ++ [task]) }

def scheduleOn (accepted : Nat → Bool) (task : UdpTask) (shards : List Nat) (state : UdpState) :
    UdpState :=
  shards.foldl (fun state shard => if accepted shard then state.schedule shard task else state) state

/-- Whether all shards were stopped, which were, and the state after it. -/
def stopShards (shards : List Nat) (state : UdpState) : Bool × List Nat × UdpState :=
  if shards.isEmpty then (true, [], state)
  else if env.stoppedFails then (false, [], state)
  else (shards.all env.stopAccepted, shards.filter env.stopAccepted,
    scheduleOn env.stopAccepted .stop shards state)

def cleared (state : UdpState) : UdpState := { state with running := false, activeShards := [] }

def start (state : UdpState) (socket : UdpSocketConfig) : Bool × UdpState :=
  if state.running || !socket.validate config || env.fails then (false, state)
  else if env.startedFails then (false, state.cleared)
  else
    let started := scheduleOn env.startAccepted .start socket.threads
      { state with running := true, activeShards := socket.threads }
    if socket.threads.all env.startAccepted then (true, started)
    else (false, (stopShards env (socket.threads.filter env.startAccepted) started.cleared).2.2)

def publishRemainingAfterFailedStop (state : UdpState) (requested stopped : List Nat) : UdpState :=
  if env.remainingFails then state
  else
    let remaining := requested.filter (· ∉ stopped)
    { state with activeShards := remaining, running := !remaining.isEmpty }

def stop (state : UdpState) : Bool × UdpState :=
  if !state.running then (true, state)
  else if env.fails then (false, state)
  else
    let (ok, stopped, after) := stopShards env state.activeShards state.cleared
    if ok then (true, after)
    else (false, publishRemainingAfterFailedStop env after state.activeShards stopped)

def dropShard (state : UdpState) (shard : Nat) : UdpState :=
  if shard ∈ state.activeShards then
    let active := state.activeShards.filter (· ≠ shard)
    { state with activeShards := active, running := !active.isEmpty }
  else state

/-- `UdpStartResultTask::run`. -/
def handleResult (state : UdpState) (shard : Nat) (error : Bool) : UdpState :=
  if error then state.dropShard shard else state

def startOnOwner (state : UdpState) (shard : Nat) (fails : Bool) : Bool × UdpState :=
  if state.sockets shard || fails then (true, state)
  else (false, { state with sockets := update state.sockets shard true })

def stopOnOwner (state : UdpState) (shard : Nat) : UdpState :=
  { state with sockets := update state.sockets shard false }

/-- The result is handled at once on the control thread; otherwise the runtime may
refuse the task with it. -/
def completeUdpStart (state : UdpState) (shard : Nat) (error accepted : Bool) : UdpState :=
  if shard = config.controlThread then state.handleResult shard error
  else if accepted then
    { state with results := update state.results shard (state.results shard ++ [error]) }
  else state

def runTask (state : UdpState) (shard : Nat) (fails accepted : Bool) : UdpTask → UdpState
  | .start =>
    let (error, started) := state.startOnOwner shard fails
    started.completeUdpStart config shard error accepted
  | .stop => state.stopOnOwner shard

end UdpState

namespace Udp

inductive Action
  | start (socket : UdpSocketConfig) (env : UdpEnv)
  | stop (env : UdpEnv)
  | handleResult (shard : Nat)
  | runTask (shard : Nat) (fails accepted : Bool)

def step (config : ServerConfig) (state : UdpState) : Action → Option UdpState
  | .start socket env => some (state.start config env socket).2
  | .stop env => some (state.stop env).2
  | .handleResult shard =>
    match state.results shard with
    | error :: results =>
      let taken := { state with results := update state.results shard results }
      some (taken.handleResult shard error)
    | [] => none
  | .runTask shard fails accepted =>
    match state.tasks shard with
    | task :: tasks =>
      let taken := { state with tasks := update state.tasks shard tasks }
      some (taken.runTask config shard fails accepted task)
    | [] => none

def initial : UdpState where
  running := false
  activeShards := []
  sockets := fun _ => false
  tasks := fun _ => []
  results := fun _ => []

def system (config : ServerConfig) : TransitionSystem UdpState Action where
  initial := fun state => state = initial
  step := step config

end Udp

end AsyncFlow
