import AsyncFlow.TransitionSystem
import Mathlib.Logic.Function.Basic

/-!
# The command channel of a shard

`TcpServerShard` and `UdpSocketShard` take commands from other threads through the
same channel: a bounded queue, an eventfd that wakes the owner, a flag that says
whether commands are accepted and a counter of the threads inside `enqueue`.

A producer takes one atomic access at a time; a push first reserves a position and
then publishes it.  The owner has a stack of calls, because callbacks may run
further tasks.  The channel is generic in its commands and in the other calls of a
shard.
-/

namespace AsyncFlow

/-- A command with a position in the queue; `id` is the number of its `enqueue`. -/
structure QueuedCommand (α : Type*) where
  id : Nat
  command : α
  published : Bool
  deriving DecidableEq

inductive EnqueuePc (α : Type*)
  | idle
  | counting (id : Nat) (command : α)
  | loading (id : Nat) (command : α)
  | pushing (id : Nat) (command : α)
  | publishing (id : Nat)
  | checking (id : Nat)
  | exchanging (id fd : Nat)
  | writing (id fd : Nat)
  | leaving (id : Nat) (pushed : Bool)
  deriving DecidableEq

/-- The loop around `try_pop_many`: filling a batch, or working it off. -/
inductive CommandLoop (α : Type*)
  | popping (batch : List (QueuedCommand α))
  | running (batch : List (QueuedCommand α))
  deriving DecidableEq

inductive OpenPhase
  | creating | registering | accepting
  deriving DecidableEq

inductive WakePhase (α : Type*)
  | reading
  | clearing
  | draining (loop : CommandLoop α)
  deriving DecidableEq

inductive ClosePhase (α : Type*)
  | sealing
  | waiting
  | discarding (loop : CommandLoop α)
  | unregistering
  | closing
  | clearing
  deriving DecidableEq

/-- Where `stop_on_owner` is, up to its call of `close_wake_channel`. -/
inductive OwnerStopPhase (α : Type*)
  | sealing
  | waiting
  | discarding (loop : CommandLoop α)
  /-- listeners, connections or the socket are closed -/
  | releasing
  | discardingAgain (loop : CommandLoop α)
  deriving DecidableEq

inductive ChannelFrame (α κ : Type*)
  | opening (phase : OpenPhase)
  | handlingWake (phase : WakePhase α)
  | closing (phase : ClosePhase α)
  | stopping (phase : OwnerStopPhase α)
  /-- a call of the shard that waits for `open_wake_channel` -/
  | own (frame : κ)
  deriving DecidableEq

structure CommandChannel (α κ : Type*) where
  acceptingCommands : Bool
  activeEnqueues : Nat
  commands : List (QueuedCommand α)
  wakePending : Bool
  wakeFd : Option Nat
  registered : Bool
  eventPending : Bool
  producers : Nat → EnqueuePc α
  stack : List (ChannelFrame α κ)
  /-- History: how many eventfds were opened. -/
  fds : Nat
  /-- History: the commands of the calls of `enqueue`. -/
  issued : List α
  /-- History: the commands that were pushed, that `enqueue` returned true for, and
  that the owner executed or discarded. -/
  pushed : List Nat
  accepted : List Nat
  executed : List Nat
  discarded : List Nat

def commandBatchSize : Nat := 64

namespace CommandChannel

variable {α κ : Type*}

def fresh : CommandChannel α κ where
  acceptingCommands := false
  activeEnqueues := 0
  commands := []
  wakePending := false
  wakeFd := none
  registered := false
  eventPending := false
  producers := fun _ => .idle
  stack := []
  fds := 0
  issued := []
  pushed := []
  accepted := []
  executed := []
  discarded := []

def withProducer (state : CommandChannel α κ) (producer : Nat) (pc : EnqueuePc α) :
    CommandChannel α κ :=
  { state with producers := Function.update state.producers producer pc }

def call (state : CommandChannel α κ) (producer : Nat) (command : α) :
    Option (CommandChannel α κ) :=
  match state.producers producer with
  | .idle =>
    some { state.withProducer producer (.counting state.issued.length command) with
      issued := state.issued ++ [command] }
  | _ => none

def publish (id : Nat) (queued : QueuedCommand α) : QueuedCommand α :=
  if queued.id = id then { queued with published := true } else queued

def stepProducer (capacity : Nat) (state : CommandChannel α κ) (producer : Nat) (room : Bool) :
    Option (CommandChannel α κ) :=
  match state.producers producer with
  | .idle => none
  | .counting id command =>
    some { state.withProducer producer (.loading id command) with
      activeEnqueues := state.activeEnqueues + 1 }
  | .loading id command =>
    if state.acceptingCommands then
      some (state.withProducer producer (.pushing id command))
    else
      some (state.withProducer producer (.leaving id false))
  | .pushing id command =>
    if room && decide (state.commands.length < capacity) then
      some { state.withProducer producer (.publishing id) with
        commands := state.commands ++ [⟨id, command, false⟩]
        pushed := state.pushed ++ [id] }
    else
      some (state.withProducer producer (.leaving id false))
  | .publishing id =>
    some { state.withProducer producer (.checking id) with
      commands := state.commands.map (publish id) }
  | .checking id =>
    match state.wakeFd with
    | none => some (state.withProducer producer (.leaving id true))
    | some fd => some (state.withProducer producer (.exchanging id fd))
  | .exchanging id fd =>
    if state.wakePending then
      some (state.withProducer producer (.leaving id true))
    else
      some { state.withProducer producer (.writing id fd) with wakePending := true }
  | .writing id _ =>
    -- the member is read again; a write to no descriptor fails
    match state.wakeFd with
    | none =>
      some { state.withProducer producer (.leaving id true) with wakePending := false }
    | some _ =>
      some { state.withProducer producer (.leaving id true) with eventPending := true }
  | .leaving id pushed =>
    some { state.withProducer producer .idle with
      activeEnqueues := state.activeEnqueues - 1
      accepted := if pushed then state.accepted ++ [id] else state.accepted }

inductive Fate
  | execute | discard
  deriving DecidableEq

def handle (state : CommandChannel α κ) (fate : Fate) (queued : QueuedCommand α) :
    CommandChannel α κ :=
  match fate with
  | .execute => { state with executed := state.executed ++ [queued.id] }
  | .discard => { state with discarded := state.discarded ++ [queued.id] }

def endBatch (batch : List (QueuedCommand α)) : Option (CommandLoop α) :=
  if batch.isEmpty then none else some (.running batch)

/-- One step of a loop around `try_pop_many`; `none` when the loop is left. -/
def stepLoop (state : CommandChannel α κ) (fate : Fate) :
    CommandLoop α → CommandChannel α κ × Option (CommandLoop α)
  | .popping batch =>
    match state.commands with
    | [] => (state, endBatch batch)
    | queued :: rest =>
      if queued.published && decide (batch.length < commandBatchSize) then
        ({ state with commands := rest }, some (.popping (batch ++ [queued])))
      else
        (state, endBatch batch)
  | .running [] => (state, some (.popping []))
  | .running (queued :: batch) => (state.handle fate queued, some (.running batch))

def withStack (state : CommandChannel α κ) (stack : List (ChannelFrame α κ)) : CommandChannel α κ :=
  { state with stack := stack }

/-- The loop of the frame on top takes a step; `inLoop` is the frame while the loop
runs and `afterLoop` what follows it. -/
def stepFrameLoop (state : CommandChannel α κ) (fate : Fate) (loop : CommandLoop α)
    (inLoop : CommandLoop α → ChannelFrame α κ) (afterLoop rest : List (ChannelFrame α κ)) :
    CommandChannel α κ :=
  match state.stepLoop fate loop with
  | (after, some loop) => after.withStack (inLoop loop :: rest)
  | (after, none) => after.withStack (afterLoop ++ rest)

/-- `open_wake_channel`; `succeeds` is the outcome of a system call. -/
def stepOpening (state : CommandChannel α κ) (rest : List (ChannelFrame α κ))
    (succeeds : Bool) : OpenPhase → CommandChannel α κ
  | .creating =>
    match state.wakeFd with
    | some _ => state.withStack (.opening .accepting :: rest)
    | none =>
      if succeeds then
        { state with
          wakeFd := some state.fds
          fds := state.fds + 1
          eventPending := false
          stack := .opening .registering :: rest }
      else
        state.withStack rest
  | .registering =>
    if succeeds then
      { state with registered := true, stack := .opening .accepting :: rest }
    else
      { state with wakeFd := none, eventPending := false, stack := rest }
  | .accepting => { state with acceptingCommands := true, stack := rest }

def stepHandlingWake (state : CommandChannel α κ) (rest : List (ChannelFrame α κ)) :
    WakePhase α → CommandChannel α κ
  | .reading => { state with eventPending := false, stack := .handlingWake .clearing :: rest }
  | .clearing =>
    { state with wakePending := false, stack := .handlingWake (.draining (.popping [])) :: rest }
  | .draining loop =>
    state.stepFrameLoop .execute loop (fun loop => .handlingWake (.draining loop)) [] rest

/-- `close_wake_channel`; it spins while a thread is inside `enqueue`. -/
def stepClosing (state : CommandChannel α κ) (rest : List (ChannelFrame α κ)) :
    ClosePhase α → Option (CommandChannel α κ)
  | .sealing => some { state with acceptingCommands := false, stack := .closing .waiting :: rest }
  | .waiting =>
    if state.activeEnqueues = 0 then
      some (state.withStack (.closing (.discarding (.popping [])) :: rest))
    else
      none
  | .discarding loop =>
    some (state.stepFrameLoop .discard loop (fun loop => .closing (.discarding loop))
      [.closing .unregistering] rest)
  | .unregistering => some { state with registered := false, stack := .closing .closing :: rest }
  | .closing =>
    some { state with
      wakeFd := none
      eventPending := false
      stack := .closing .clearing :: rest }
  | .clearing => some { state with wakePending := false, stack := rest }

/-- `stop_on_owner`; it ends in `close_wake_channel`. -/
def stepStopping (state : CommandChannel α κ) (rest : List (ChannelFrame α κ)) :
    OwnerStopPhase α → Option (CommandChannel α κ)
  | .sealing => some { state with acceptingCommands := false, stack := .stopping .waiting :: rest }
  | .waiting =>
    if state.activeEnqueues = 0 then
      some (state.withStack (.stopping (.discarding (.popping [])) :: rest))
    else
      none
  | .discarding loop =>
    some (state.stepFrameLoop .discard loop (fun loop => .stopping (.discarding loop))
      [.stopping .releasing] rest)
  | .releasing => some (state.withStack (.stopping (.discardingAgain (.popping [])) :: rest))
  | .discardingAgain loop =>
    some (state.stepFrameLoop .discard loop (fun loop => .stopping (.discardingAgain loop))
      [.closing .sealing] rest)

def stepOwner (state : CommandChannel α κ) (succeeds : Bool) : Option (CommandChannel α κ) :=
  match state.stack with
  | [] => none
  | .opening phase :: rest => some (state.stepOpening rest succeeds phase)
  | .handlingWake phase :: rest => some (state.stepHandlingWake rest phase)
  | .closing phase :: rest => state.stepClosing rest phase
  | .stopping phase :: rest => state.stepStopping rest phase
  | .own _ :: _ => none

/-- The owner runs no call, or one whose callbacks may run a task. -/
def mayBegin (state : CommandChannel α κ) : Bool :=
  match state.stack with
  | [] => true
  | .handlingWake (.draining (.running _)) :: _ | .stopping .releasing :: _ => true
  | _ => false

inductive Operation (κ : Type*)
  | openChannel
  | handleWake
  | closeChannel
  | stopOnOwner
  | start (frame : κ)
  deriving DecidableEq

def Operation.frames : Operation κ → List (ChannelFrame α κ)
  | .openChannel => [.opening .creating]
  | .handleWake => [.handlingWake .reading]
  | .closeChannel => [.closing .sealing]
  | .stopOnOwner => [.stopping .sealing]
  | .start frame => [.opening .creating, .own frame]

/-- An event is dispatched by the executor only; any other call may also begin in a
task that runs inside a callback. -/
def Operation.enabled (state : CommandChannel α κ) : Operation κ → Bool
  | .handleWake => state.stack.isEmpty
  | _ => state.mayBegin

def begin (state : CommandChannel α κ) (operation : Operation κ) : Option (CommandChannel α κ) :=
  if operation.enabled state then
    some (state.withStack (operation.frames ++ state.stack))
  else
    none

/-- The call of the shard on top returns, or goes on with `close_wake_channel`. -/
def leaveOwn (state : CommandChannel α κ) (closes : Bool) : Option (CommandChannel α κ) :=
  match state.stack with
  | .own _ :: rest =>
    some (state.withStack (if closes then .closing .sealing :: rest else rest))
  | _ => none

/-- The store of `seal_commands_from_control`; the wait that follows changes nothing. -/
def sealCommands (state : CommandChannel α κ) : CommandChannel α κ :=
  { state with acceptingCommands := false }

/-- What happens to a channel next: an access of a producer or of the owner, or a
store of the control thread. -/
inductive Move (α κ : Type*)
  | call (producer : Nat) (command : α)
  | producer (producer : Nat) (room : Bool)
  | begin (operation : Operation κ)
  | owner (succeeds : Bool)
  | leaveOwn (closes : Bool)
  | sealCommands
  deriving DecidableEq

def move (capacity : Nat) (state : CommandChannel α κ) : Move α κ → Option (CommandChannel α κ)
  | .call producer command => state.call producer command
  | .producer producer room => state.stepProducer capacity producer room
  | .begin operation => state.begin operation
  | .owner succeeds => state.stepOwner succeeds
  | .leaveOwn closes => state.leaveOwn closes
  | .sealCommands => some state.sealCommands

end CommandChannel

end AsyncFlow
