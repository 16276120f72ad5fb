import AsyncFlow.OpenConnections

/-!
# Accepted descriptors

A listener shard accepts a descriptor and routes it: `create_connection` keeps it,
`enqueue_adopt_connection` sends it in a command to another shard, whose thread
adopts it or, when it stops, discards it.  Descriptors are passed as plain
numbers, so a function that closed one does not tell its caller.

Each shard has a thread of its own, with the functions in progress on an explicit
stack; in a callback to the user, connections may be closed and tasks may run.  A
descriptor is named by the call of `accept` that returned it.
-/

namespace AsyncFlow

open Function

/-- An `AdoptConnection` command.  Other commands hold no descriptor. -/
structure AdoptCommand where
  listener : Nat
  fd : Nat
  deriving DecidableEq

inductive CreatePhase
  | starting
  /-- It closed the descriptor and calls `on_listener_error`. -/
  | failed
  /-- The channel was not registered, and the connection is being closed. -/
  | refused (slot : ConnectionSlot)
  | accepted
  deriving DecidableEq

inductive EnqueuePhase
  | creating
  /-- before `active_enqueues_` is incremented -/
  | counting
  /-- before `accepting_commands_` is read -/
  | loading
  | pushing
  /-- before `active_enqueues_` is decremented -/
  | leaving (pushed : Bool)
  deriving DecidableEq

/-- Where `route_connection` is, as called by `handle_listener`. -/
inductive Routing
  | idle
  | create (fd : Nat) (phase : CreatePhase)
  | enqueue (fd target : Nat) (phase : EnqueuePhase)
  deriving DecidableEq

/-- Where `stop_on_owner` is; the last three phases are `close_wake_channel`. -/
inductive StopPhase
  | sealing
  | waiting
  | discarding
  | sweeping (index : Nat)
  | discardingAgain
  | resealing
  | waitingAgain
  | discardingLast
  deriving DecidableEq

inductive AcceptFrame
  | handleListener (listener accepted : Nat) (routing : Routing)
  | drainCommands (batch : List AdoptCommand) (adopting : Option (Nat × CreatePhase))
  | closeNow (slot : ConnectionSlot)
  | stopOnOwner (phase : StopPhase)
  | callback
  deriving DecidableEq

/-- What the history of a queue says about it. -/
inductive Sealing
  | unsealed
  /-- It was sealed, and no enqueue was in progress after that. -/
  | quiet
  /-- Its commands were discarded after that. -/
  | drained
  deriving DecidableEq

structure AcceptShard where
  acceptingCommands : Bool
  activeEnqueues : Nat
  commands : List AdoptCommand
  listeners : List Nat
  slots : TableState
  /-- the descriptors of the connections, by their serial numbers -/
  fds : Nat → Nat
  stack : List AcceptFrame
  /-- History. -/
  sealing : Sealing

structure AcceptState where
  shards : Nat → AcceptShard
  /-- the calls of `accept` that returned a descriptor or an error -/
  accepts : Nat
  returned : Nat → Bool
  closes : Nat → Nat
  /-- how often each call was reported to `on_listener_error` -/
  reports : Nat → Nat
  destroyed : Bool

structure AcceptConfig where
  shardCount : Nat
  acceptBudget : Nat
  deriving DecidableEq

namespace AcceptShard

def new : AcceptShard where
  acceptingCommands := false
  activeEnqueues := 0
  commands := []
  listeners := []
  slots := Table.start
  fds := fun _ => 0
  stack := []
  sealing := .unsealed

def connectionsWith (shard : AcceptShard) (fd : Nat) : Nat :=
  shard.slots.table.openCount fun connection => shard.fds connection.serial = fd

def runsTasks (shard : AcceptShard) : Bool :=
  match shard.stack with
  | [] | .callback :: _ => true
  | _ => false

def mayClose (shard : AcceptShard) : Bool :=
  match shard.stack with
  | [] | .callback :: _ | .drainCommands _ none :: _ => true
  | _ => false

def push (shard : AcceptShard) (frame : AcceptFrame) : AcceptShard :=
  { shard with stack := frame :: shard.stack }

def withSlots (shard : AcceptShard) (slots : TableState) : AcceptShard :=
  { shard with slots := slots }

def startAcceptingCommands (shard : AcceptShard) : AcceptShard :=
  { shard with acceptingCommands := true, sealing := .unsealed }

end AcceptShard

namespace AcceptState

def withShard (state : AcceptState) (index : Nat) (shard : AcceptShard) : AcceptState :=
  { state with shards := update state.shards index shard }

def closeFd (state : AcceptState) (fd : Nat) : AcceptState :=
  { state with closes := update state.closes fd (state.closes fd + 1) }

def reportError (state : AcceptState) (call : Nat) : AcceptState :=
  { state with reports := update state.reports call (state.reports call + 1) }

end AcceptState

namespace Accept

inductive CreateOutcome
  | noSlot
  | noMemory
  | noChannel
  | created
  deriving DecidableEq

def storeConnection (shard : AcceptShard) (fd : Nat) : Option (AcceptShard × ConnectionSlot) :=
  (Table.step shard.slots .acquire).bind fun acquiring =>
    acquiring.acquired.bind fun slot =>
      (Table.step acquiring .create).map fun slots =>
        ({ shard with
            slots := slots
            fds := update shard.fds shard.slots.nextSerial fd }, slot)

/-- `create_connection` up to its callback. -/
def createConnection (state : AcceptState) (index fd : Nat) :
    CreateOutcome → Option (AcceptState × CreatePhase)
  | .noSlot =>
    if (state.shards index).slots.table.free = [] then
      some ((state.closeFd fd).reportError fd, .failed)
    else none
  | .noMemory =>
    (Table.step (state.shards index).slots .acquire).bind fun acquiring =>
      (Table.step acquiring .createFails).map fun slots =>
        let released := state.withShard index ((state.shards index).withSlots slots)
        ((released.closeFd fd).reportError fd, .failed)
  | .noChannel =>
    (storeConnection (state.shards index) fd).bind fun (stored, slot) =>
      (Table.step stored.slots (.close slot.index)).map fun slots =>
        ((state.withShard index (stored.withSlots slots)).closeFd fd, .refused slot)
  | .created =>
    (storeConnection (state.shards index) fd).map fun (stored, _) =>
      (state.withShard index stored, .accepted)

def leaveCreate (slots : TableState) : CreatePhase → Option TableState
  | .starting => none
  | .failed => some slots
  | .refused slot => (Table.step slots (.retire slot)).bind fun retired => Table.step retired .reap
  | .accepted => Table.step slots .reap

/-- `close_now` of an open connection, up to its callback. -/
def closeConnection (state : AcceptState) (index slot : Nat) (stack : List AcceptFrame) :
    Option AcceptState :=
  let shard := state.shards index
  match shard.slots.table.connections[slot]? with
  | some (some connection) =>
    (Table.step shard.slots (.close slot)).map fun slots =>
      (state.withShard index { shard with
        slots := slots
        stack := .callback :: .closeNow ⟨slot, connection.generation⟩ :: stack }).closeFd
          (shard.fds connection.serial)
  | _ => none

/-! ### Listening -/

/-- `route_connection` returned false: `handle_listener` closes its descriptor. -/
def refuse (state : AcceptState) (index listener accepted fd : Nat) (rest : List AcceptFrame) :
    AcceptState :=
  let refused := state.withShard index { state.shards index with
    stack := .callback :: .handleListener listener (accepted + 1) .idle :: rest }
  (refused.closeFd fd).reportError fd

def proceed (state : AcceptState) (index listener accepted : Nat) (rest : List AcceptFrame) :
    AcceptState :=
  state.withShard index { state.shards index with
    stack := .handleListener listener (accepted + 1) .idle :: rest }

def reroute (state : AcceptState) (index listener accepted : Nat) (routing : Routing)
    (rest : List AcceptFrame) : AcceptState :=
  state.withShard index { state.shards index with
    stack := .handleListener listener accepted routing :: rest }

/-- `accept` returned a descriptor, and `route_connection` chose a target. -/
def accept (state : AcceptState) (index target : Nat) (routable : Bool)
    (listener accepted : Nat) (rest : List AcceptFrame) : AcceptState :=
  let fd := state.accepts
  let taken := { state with
    accepts := state.accepts + 1
    returned := update state.returned fd true }
  if !routable then refuse taken index listener accepted fd rest
  else if target = index then reroute taken index listener accepted (.create fd .starting) rest
  else reroute taken index listener accepted (.enqueue fd target .creating) rest

def acceptFails (state : AcceptState) (index : Nat) (rest : List AcceptFrame) : AcceptState :=
  let call := state.accepts
  let left := state.withShard index { state.shards index with stack := .callback :: rest }
  { left with accepts := state.accepts + 1 }.reportError call

/-- A step of `enqueue_adopt_connection`; `succeeds` says whether memory or a
place in the queue was found. -/
def enqueue (config : AcceptConfig) (state : AcceptState) (index : Nat) (succeeds : Bool)
    (listener accepted fd target : Nat) (rest : List AcceptFrame) : EnqueuePhase → AcceptState
  | .creating =>
    if succeeds && target < config.shardCount then
      reroute state index listener accepted (.enqueue fd target .counting) rest
    else refuse state index listener accepted fd rest
  | .counting =>
    let shard := state.shards target
    let counted := state.withShard target
      { shard with activeEnqueues := shard.activeEnqueues + 1 }
    reroute counted index listener accepted (.enqueue fd target .loading) rest
  | .loading =>
    let next : EnqueuePhase :=
      if (state.shards target).acceptingCommands then .pushing else .leaving false
    reroute state index listener accepted (.enqueue fd target next) rest
  | .pushing =>
    if succeeds then
      let shard := state.shards target
      let pushed := state.withShard target
        { shard with commands := shard.commands ++ [⟨listener, fd⟩] }
      reroute pushed index listener accepted (.enqueue fd target (.leaving true)) rest
    else reroute state index listener accepted (.enqueue fd target (.leaving false)) rest
  | .leaving pushed =>
    let shard := state.shards target
    let left := state.withShard target
      { shard with activeEnqueues := shard.activeEnqueues - 1 }
    if pushed then proceed left index listener accepted rest
    else refuse left index listener accepted fd rest

end Accept

end AsyncFlow
