import AsyncFlow.AcceptRouting
import AsyncFlow.Custody

/-!
# Accepting, adopting and stopping

The steps of the shards of a server: accepting and routing, draining and
discarding commands, closing, stopping and the destruction at the end.
-/

namespace AsyncFlow

namespace Accept

def batchSize : Nat := 64

def popCommands (shard : AcceptShard) (count : Nat) : Option (List AdoptCommand × AcceptShard) :=
  if 0 < count ∧ count ≤ batchSize ∧ count ≤ shard.commands.length then
    some (shard.commands.take count, { shard with commands := shard.commands.drop count })
  else none

def discardCommands (state : AcceptState) (batch : List AdoptCommand) : AcceptState :=
  batch.foldl (fun state command => state.closeFd command.fd) state

/-- A round of `discard_pending_commands`, followed by the given phase. -/
def discardPending (state : AcceptState) (index count : Nat) (phase : StopPhase)
    (rest : List AcceptFrame) (finished : AcceptShard → AcceptShard) : Option AcceptState :=
  let shard := state.shards index
  if shard.commands = [] then
    some (state.withShard index (finished { shard with
      sealing := if shard.sealing = .quiet then .drained else shard.sealing }))
  else
    (popCommands shard count).map fun (batch, popped) =>
      discardCommands (state.withShard index
        { popped with stack := .stopOnOwner phase :: rest }) batch

def waited (shard : AcceptShard) : AcceptShard :=
  { shard with sealing := if shard.acceptingCommands then .unsealed else .quiet }

def atPhase (shard : AcceptShard) (phase : StopPhase) (rest : List AcceptFrame) : AcceptShard :=
  { shard with stack := .stopOnOwner phase :: rest }

/-- A step of `stop_on_owner`; `count` is what `try_pop_many` returns. -/
def stopOnOwner (state : AcceptState) (index count : Nat) (rest : List AcceptFrame) :
    StopPhase → Option AcceptState
  | .sealing =>
    some (state.withShard index
      (atPhase { state.shards index with acceptingCommands := false } .waiting rest))
  | .waiting =>
    if (state.shards index).activeEnqueues = 0 then
      some (state.withShard index (atPhase (waited (state.shards index)) .discarding rest))
    else none
  | .discarding =>
    discardPending state index count .discarding rest fun shard =>
      atPhase { shard with listeners := [] } (.sweeping 0) rest
  | .sweeping slot =>
    let shard := state.shards index
    match shard.slots.table.connections[slot]? with
    | none =>
      (Table.step shard.slots .reap).map fun slots =>
        state.withShard index (atPhase (shard.withSlots slots) .discardingAgain rest)
    | some connection =>
      if connection.any (·.alive) then
        closeConnection state index slot (.stopOnOwner (.sweeping (slot + 1)) :: rest)
      else some (state.withShard index (atPhase shard (.sweeping (slot + 1)) rest))
  | .discardingAgain =>
    discardPending state index count .discardingAgain rest fun shard =>
      atPhase shard .resealing rest
  | .resealing =>
    some (state.withShard index
      (atPhase { state.shards index with acceptingCommands := false } .waitingAgain rest))
  | .waitingAgain =>
    if (state.shards index).activeEnqueues = 0 then
      some (state.withShard index (atPhase (waited (state.shards index)) .discardingLast rest))
    else none
  | .discardingLast =>
    discardPending state index count .discardingLast rest fun shard =>
      { shard with stack := rest }

inductive Action
  | listenerEvent (index listener : Nat) (hangup : Bool)
  | accept (index target : Nat) (routable : Bool)
  | acceptFails (index : Nat)
  /-- `handle_listener` returns: nothing to accept, or its budget is used up -/
  | acceptEnds (index : Nat)
  | create (index : Nat) (outcome : CreateOutcome)
  | enqueue (index : Nat) (succeeds : Bool)
  /-- `handle_wake` starts to drain commands -/
  | wakeEvent (index : Nat)
  | pop (index count : Nat)
  | adopt (index : Nat)
  | callbackReturns (index : Nat)
  | resumes (index : Nat)
  | close (index slot : Nat)
  | reap (index : Nat)
  /-- `stop_on_owner`, or only its `close_wake_channel` -/
  | stop (index : Nat) (channelOnly : Bool)
  | stopGoesOn (index count : Nat)
  | addListener (index listener : Nat)
  | removeListener (index listener : Nat)
  | sealCommands (index : Nat)
  | resumeCommands (index : Nat)
  /-- the last reference to the state of the server is released -/
  | destroy
  deriving DecidableEq

def Action.shard : Action → Option Nat
  | .listenerEvent index _ _ | .accept index _ _ | .acceptFails index | .acceptEnds index
  | .create index _ | .enqueue index _ | .wakeEvent index | .pop index _ | .adopt index
  | .callbackReturns index | .resumes index | .close index _ | .reap index | .stop index _
  | .stopGoesOn index _ | .addListener index _ | .removeListener index _ | .sealCommands index
  | .resumeCommands index => some index
  | .destroy => none

def resume (state : AcceptState) (index : Nat) (rest : List AcceptFrame) :
    AcceptFrame → Option AcceptState
  | .handleListener listener accepted (.create fd phase) =>
    (leaveCreate (state.shards index).slots phase).map fun slots =>
      let left := state.withShard index ((state.shards index).withSlots slots)
      match phase with
      | .accepted => proceed left index listener accepted rest
      | .starting | .failed | .refused _ => refuse left index listener accepted fd rest
  | .drainCommands batch (some (_, phase)) =>
    (leaveCreate (state.shards index).slots phase).map fun slots =>
      state.withShard index { state.shards index with
        slots := slots
        stack := .drainCommands batch none :: rest }
  | .closeNow slot =>
    (Table.step (state.shards index).slots (.retire slot)).map fun slots =>
      state.withShard index { state.shards index with slots := slots, stack := rest }
  | _ => none

/-- The state after the destructors of the shards, which close connections. -/
def destroyed (config : AcceptConfig) (state : AcceptState) : AcceptState :=
  { state with
    shards := fun _ => .new
    closes := fun fd => state.closes fd +
      ∑ index ∈ Finset.range config.shardCount, (state.shards index).connectionsWith fd
    destroyed := true }

def stepShard (config : AcceptConfig) (state : AcceptState) (index : Nat) :
    Action → Option AcceptState
  | .listenerEvent _ listener hangup =>
    if (state.shards index).stack = [] ∧ listener ∈ (state.shards index).listeners then
      some (state.withShard index ((state.shards index).push
        (if hangup then .callback else .handleListener listener 0 .idle)))
    else none
  | .accept _ target routable =>
    match (state.shards index).stack with
    | .handleListener listener accepted .idle :: rest =>
      if accepted < config.acceptBudget then
        some (accept state index target routable listener accepted rest)
      else none
    | _ => none
  | .acceptFails _ =>
    match (state.shards index).stack with
    | .handleListener _ accepted .idle :: rest =>
      if accepted < config.acceptBudget then some (acceptFails state index rest) else none
    | _ => none
  | .acceptEnds _ =>
    match (state.shards index).stack with
    | .handleListener _ _ .idle :: rest =>
      some (state.withShard index { state.shards index with stack := rest })
    | _ => none
  | .create _ outcome =>
    match (state.shards index).stack with
    | .handleListener listener accepted (.create fd .starting) :: rest =>
      (createConnection state index fd outcome).map fun (created, phase) =>
        created.withShard index { created.shards index with
          stack := .callback :: .handleListener listener accepted (.create fd phase) :: rest }
    | .drainCommands batch (some (fd, .starting)) :: rest =>
      (createConnection state index fd outcome).map fun (created, phase) =>
        created.withShard index { created.shards index with
          stack := .callback :: .drainCommands batch (some (fd, phase)) :: rest }
    | _ => none
  | .enqueue _ succeeds =>
    match (state.shards index).stack with
    | .handleListener listener accepted (.enqueue fd target phase) :: rest =>
      some (enqueue config state index succeeds listener accepted fd target rest phase)
    | _ => none
  | .wakeEvent _ =>
    if (state.shards index).stack = [] then
      some (state.withShard index ((state.shards index).push (.drainCommands [] none)))
    else none
  | .pop _ count =>
    match (state.shards index).stack with
    | .drainCommands [] none :: rest =>
      if (state.shards index).commands = [] then
        some (state.withShard index { state.shards index with stack := rest })
      else
        (popCommands (state.shards index) count).map fun (batch, popped) =>
          state.withShard index { popped with stack := .drainCommands batch none :: rest }
    | _ => none
  | .adopt _ =>
    match (state.shards index).stack with
    | .drainCommands (command :: batch) none :: rest =>
      if command.listener ∈ (state.shards index).listeners then
        some (state.withShard index { state.shards index with
          stack := .drainCommands batch (some (command.fd, .starting)) :: rest })
      else
        some ((state.withShard index { state.shards index with
          stack := .drainCommands batch none :: rest }).closeFd command.fd)
    | _ => none
  | .callbackReturns _ =>
    match (state.shards index).stack with
    | .callback :: rest =>
      some (state.withShard index { state.shards index with stack := rest })
    | _ => none
  | .resumes _ =>
    match (state.shards index).stack with
    | frame :: rest => resume state index rest frame
    | [] => none
  | .close _ slot =>
    if (state.shards index).mayClose then
      closeConnection state index slot (state.shards index).stack
    else none
  | .reap _ =>
    if (state.shards index).mayClose then
      (Table.step (state.shards index).slots .reap).map fun slots =>
        state.withShard index ((state.shards index).withSlots slots)
    else none
  | .stop _ channelOnly =>
    if (state.shards index).runsTasks then
      some (state.withShard index ((state.shards index).push
        (.stopOnOwner (if channelOnly then .resealing else .sealing))))
    else none
  | .stopGoesOn _ count =>
    match (state.shards index).stack with
    | .stopOnOwner phase :: rest => stopOnOwner state index count rest phase
    | _ => none
  | .addListener _ listener =>
    if (state.shards index).runsTasks then
      some (state.withShard index { (state.shards index).startAcceptingCommands with
        listeners := (state.shards index).listeners.insert listener })
    else none
  | .removeListener _ listener =>
    if (state.shards index).runsTasks then
      some (state.withShard index { state.shards index with
        listeners := (state.shards index).listeners.erase listener })
    else none
  | .sealCommands _ =>
    some (state.withShard index { state.shards index with acceptingCommands := false })
  | .resumeCommands _ =>
    some (state.withShard index (state.shards index).startAcceptingCommands)
  | .destroy => none

def step (config : AcceptConfig) (state : AcceptState) (action : Action) : Option AcceptState :=
  if state.destroyed then none
  else
    match action.shard with
    | some index => if index < config.shardCount then stepShard config state index action else none
    | none =>
      if ∀ index < config.shardCount, (state.shards index).stack = [] then
        some (destroyed config state)
      else none

def start : AcceptState where
  shards := fun _ => .new
  accepts := 0
  returned := fun _ => false
  closes := fun _ => 0
  reports := fun _ => 0
  destroyed := false

def system (config : AcceptConfig) : TransitionSystem AcceptState Action where
  initial := fun state => state = start
  step := step config

end Accept

end AsyncFlow
