import AsyncFlow.ConnectionTable

/-!
# The control thread of a server

A server keeps an entry for each listener.  Its control thread sends tasks to the
shards: to add a listener, to remove one, and to stop.  A shard sends the result
of adding a listener back, and the entry counts the results it waits for.  Tasks
and results carry the id of the listener, but not which start they belong to.
Every operation of the control thread is one step; what is refused or fails is
part of the action.
-/

namespace AsyncFlow

structure ListenerId where
  slot : Nat
  generation : Nat
  deriving DecidableEq

inductive AcceptStrategy
  | auto
  | reusePortPerIoThread
  | singleAcceptor
  deriving DecidableEq

/-- What is checked of the configuration of a listener, and its threads. -/
structure ListenerConfig where
  threads : List Nat
  acceptStrategy : AcceptStrategy
  isUnix : Bool
  reusePort : Bool
  backlog : Int
  acceptBudget : Nat
  readBudgetBytes : Nat
  outputHighWatermark : Nat
  deriving DecidableEq

/-- `ListenerState`; an entry that is removed is destroyed at once. -/
inductive ListenerPhase
  | configured
  | starting
  | active
  | failed
  deriving DecidableEq

inductive RemoveListenerPolicy
  | stopAcceptOnly
  | closeExistingConnections
  deriving DecidableEq

structure ListenerEntry where
  id : ListenerId
  config : ListenerConfig
  phase : ListenerPhase
  activeShards : List Nat
  startingShards : List Nat
  startedShards : List Nat
  pendingStartShards : Nat
  /-- History: the number of its last start. -/
  attempt : Option Nat
  /-- History: the server was stopped since its last start. -/
  stopped : Bool
  deriving DecidableEq

/-- A task for a shard.  The number of the start is not in the code. -/
inductive ShardTask
  | addListener (id : ListenerId) (openListener : Bool) (targetShards : List Nat) (attempt : Nat)
  | removeListener (id : ListenerId) (policy : RemoveListenerPolicy)
  | stop
  deriving DecidableEq

structure StartResult where
  id : ListenerId
  succeeded : Bool
  attempt : Nat
  deriving DecidableEq

structure ShardListener where
  id : ListenerId
  openListener : Bool
  targetShards : List Nat
  deriving DecidableEq

structure ServerShard where
  listeners : Nat → Option ShardListener
  connections : List ListenerId

/-- History: a shard reported the result of a start. -/
structure StartReport where
  shard : Nat
  result : StartResult
  deriving DecidableEq

structure ServerState where
  running : Bool
  listeners : List (Option ListenerEntry)
  listenerGenerations : List Nat
  /-- `free_listener_slots`, with its back at the end -/
  freeListenerSlots : List Nat
  shards : Nat → ServerShard
  tasks : Nat → List ShardTask
  results : Nat → List StartResult
  /-- the connections on their way from one shard to another, by their listeners -/
  adoptions : Nat → Nat → List ListenerId
  /-- History: how many starts there were. -/
  attempts : Nat
  /-- History. -/
  reports : List StartReport

structure ServerConfig where
  threadCount : Nat
  isIoThread : Nat → Bool

/-- `first_io_thread_index`; there is none past the last thread. -/
def ServerConfig.controlThread (config : ServerConfig) : Nat :=
  ((List.range config.threadCount).find? config.isIoThread).getD config.threadCount

structure ControlEnv where
  /-- The runtime accepts a task for the shard; for a start, by the slot of the listener. -/
  accepts : Nat → Nat → Bool
  startFails : Nat → Bool
  /-- Memory is short for what comes first in the operation. -/
  fails : Bool
  /-- Memory is short where `started_shards` grows or `active_shards` takes them over. -/
  growFails : Bool
  startedFails : Bool
  installedFails : Bool
  freeFails : Bool

def ControlEnv.good : ControlEnv where
  accepts := fun _ _ => true
  startFails := fun _ => false
  fails := false
  growFails := false
  startedFails := false
  installedFails := false
  freeFails := false

namespace ListenerConfig

variable (config : ListenerConfig)

def validate (server : ServerConfig) : Bool :=
  !(config.threads.isEmpty || config.backlog ≤ 0 || config.acceptBudget = 0 ||
    config.readBudgetBytes = 0 || config.outputHighWatermark = 0 ||
    config.isUnix && config.acceptStrategy ≠ .singleAcceptor && 1 < config.threads.length ||
    config.isUnix && config.acceptStrategy = .reusePortPerIoThread ||
    config.acceptStrategy = .reusePortPerIoThread && !config.reusePort ||
    config.threads.any (fun thread => server.threadCount ≤ thread || !server.isIoThread thread)) &&
    config.threads.Nodup

def installShards : List Nat := config.threads

def openShards : List Nat :=
  if config.acceptStrategy = .reusePortPerIoThread ||
      config.acceptStrategy = .auto && config.reusePort then config.threads
  else config.threads.take 1

/-- Where the connections go that the listener on a shard accepts. -/
def targetShards (shard : Nat) : List Nat :=
  if config.openShards.length = config.installShards.length then [shard] else config.installShards

end ListenerConfig

namespace ServerState

/-! ### Slots of listeners -/

def entryAt (state : ServerState) (slot : Nat) : Option ListenerEntry :=
  state.listeners[slot]?.join

def setEntry (state : ServerState) (slot : Nat) (entry : ListenerEntry) : ServerState :=
  { state with listeners := state.listeners.set slot (some entry) }

/-- `acquire_listener_slot` up to the generation of the slot. -/
def takeSlot (state : ServerState) : Nat × ServerState :=
  let grown := fun (slot : Nat) (free : List Nat) =>
    { state with
      listeners := state.listeners ++ List.replicate (slot + 1 - state.listeners.length) none
      listenerGenerations := state.listenerGenerations ++
        List.replicate (slot + 1 - state.listenerGenerations.length) 0
      freeListenerSlots := free }
  match state.freeListenerSlots.getLast? with
  | some slot => (slot, grown slot state.freeListenerSlots.dropLast)
  | none => (state.listeners.length, grown state.listeners.length [])

def acquireListenerSlot (state : ServerState) : ListenerId × ServerState :=
  let (slot, taken) := state.takeSlot
  let generation := nextGeneration (taken.listenerGenerations.getD slot 0)
  (⟨slot, generation⟩,
    { taken with listenerGenerations := taken.listenerGenerations.set slot generation })

/-- The last entry of the free list with the slot is removed. -/
def eraseFreeListenerSlot (free : List Nat) (slot : Nat) : List Nat :=
  (free.reverse.erase slot).reverse

/-- `trim_empty_listener_tail`; each round removes a slot. -/
def trimLoop : Nat → List (Option ListenerEntry) → List Nat → List (Option ListenerEntry) × List Nat
  | 0, listeners, free => (listeners, free)
  | rounds + 1, listeners, free =>
    match listeners.getLast? with
    | some none =>
      trimLoop rounds listeners.dropLast (eraseFreeListenerSlot free (listeners.length - 1))
    | _ => (listeners, free)

def releaseListenerSlot (state : ServerState) (slot : Nat) (freeFails : Bool) : ServerState :=
  if state.listeners.length ≤ slot then state
  else
    let listeners := state.listeners.set slot none
    let free :=
      if slot + 1 < listeners.length && slot ∉ state.freeListenerSlots && !freeFails then
        state.freeListenerSlots ++ [slot]
      else state.freeListenerSlots
    let (listeners, free) := trimLoop listeners.length listeners free
    { state with listeners := listeners, freeListenerSlots := free }

def schedule (state : ServerState) (shard : Nat) (task : ShardTask) : ServerState :=
  { state with tasks := Function.update state.tasks shard (state.tasks shard ++ [task]) }

def scheduleRemoveListenerFromShard (config : ServerConfig) (env : ControlEnv)
    (state : ServerState) (id : ListenerId) (policy : RemoveListenerPolicy) (shard : Nat) :
    ServerState :=
  if shard < config.threadCount && env.accepts id.slot shard then
    state.schedule shard (.removeListener id policy)
  else state

def scheduleRemoveListenerFromShards (config : ServerConfig) (env : ControlEnv)
    (state : ServerState) (id : ListenerId) (shards : List Nat) (policy : RemoveListenerPolicy) :
    ServerState :=
  shards.foldl (fun state shard => state.scheduleRemoveListenerFromShard config env id policy shard)
    state

/-! ### Results of starts -/

def clearProgress (entry : ListenerEntry) (phase : ListenerPhase) (active : List Nat) :
    ListenerEntry :=
  { entry with
    phase := phase
    activeShards := active
    startingShards := []
    startedShards := []
    pendingStartShards := 0 }

/-- The start of a listener failed: what was started is removed. -/
def failStart (config : ServerConfig) (env : ControlEnv) (state : ServerState)
    (entry : ListenerEntry) (started : List Nat) : ServerState :=
  (state.setEntry entry.id.slot (clearProgress entry .failed [])).scheduleRemoveListenerFromShards
    config env entry.id (if env.startedFails then [] else started) .stopAcceptOnly

def countStarted (config : ServerConfig) (env : ControlEnv) (state : ServerState)
    (entry : ListenerEntry) (shard : Nat) : ServerState :=
  if shard ∉ entry.startedShards && env.growFails then
    state.failStart config env entry entry.startedShards
  else
    let started :=
      if shard ∈ entry.startedShards then entry.startedShards else entry.startedShards ++ [shard]
    let pending := entry.pendingStartShards - 1
    if pending ≠ 0 then
      state.setEntry entry.id.slot
        { entry with startedShards := started, pendingStartShards := pending }
    else if env.installedFails then state.failStart config env entry started
    else if state.running then
      state.setEntry entry.id.slot (clearProgress entry .active entry.startingShards)
    else
      (state.setEntry entry.id.slot
        (clearProgress entry .configured [])).scheduleRemoveListenerFromShards
          config env entry.id started .closeExistingConnections

def handleListenerStartResult (config : ServerConfig) (env : ControlEnv) (state : ServerState)
    (id : ListenerId) (shard : Nat) (succeeded : Bool) : ServerState :=
  let unexpected :=
    if succeeded then state.scheduleRemoveListenerFromShard config env id .stopAcceptOnly shard
    else state
  if state.listeners.length ≤ id.slot then state
  else
    match state.entryAt id.slot with
    | none => unexpected
    | some entry =>
      if entry.id ≠ id || entry.phase ≠ .starting then unexpected
      else if succeeded then state.countStarted config env entry shard
      else state.failStart config env entry entry.startedShards

end ServerState

end AsyncFlow
