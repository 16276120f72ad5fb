import AsyncFlow.CommandHandling
import AsyncFlow.RingCounters

/-!
# The commands of a UDP shard

The command channel of `UdpSocketShard`.  A handle carries the generation of the
shard at the time it was made; `send` compares it before it builds a command, and
the owner before it hands the datagram to the kernel.  `start_on_owner` makes a
new generation, opens the channel and then the socket.  The history says which
generation each start made and on the socket of which start each datagram was
sent.
-/

namespace AsyncFlow

open List Option

inductive UdpCommandKind
  | send | sendTo
  deriving DecidableEq

structure UdpCommand where
  kind : UdpCommandKind
  generation : Nat
  deriving DecidableEq

/-- Where a thread is in `UdpSocketHandle::send`, before `enqueue`. -/
inductive UdpSendPc
  | idle
  | matching (command : UdpCommand) (early : Bool)
  /-- the check of `accepting_commands_` before a buffer or an address is prepared -/
  | checkingEarly (command : UdpCommand)
  | preparing (command : UdpCommand)
  | checking (command : UdpCommand)
  | creating (command : UdpCommand)
  deriving DecidableEq

/-- `start_on_owner` waits for `open_wake_channel`; the start has a number. -/
structure UdpStart where
  number : Nat
  deriving DecidableEq

structure UdpShardCommands where
  channel : CommandChannel UdpCommand UdpStart
  generation : Nat
  /-- The open socket, by the number of the start that opened it. -/
  socket : Option Nat
  senders : Nat → UdpSendPc
  /-- History: the generations that the starts made. -/
  made : List Nat
  /-- History: the datagrams handed to the kernel, with the generation of the handle and
  the start that opened the socket. -/
  sent : List (Nat × Nat)

namespace UdpCommands

open CommandChannel (Fate)

inductive Action
  | send (thread : Nat) (command : UdpCommand) (early : Bool)
  /-- the next access of `send`; buffers, addresses and commands may be refused -/
  | sender (thread : Nat) (succeeds : Bool)
  | producer (thread : Nat) (room : Bool)
  | sendOnOwner (command : UdpCommand) (hands : Bool)
  | startOnOwner
  | stopOnOwner
  | handleWake
  /-- the next step of the call on top; `hands` says whether an executed command gets as
  far as the kernel -/
  | owner (succeeds hands : Bool)
  | openSocket (succeeds : Bool)
  | sealCommands
  deriving DecidableEq

def generations : Nat := 2 ^ 32

def matchesGeneration (state : UdpShardCommands) (generation : Nat) : Bool :=
  generation != 0 && state.generation == generation

def withSender (state : UdpShardCommands) (thread : Nat) (pc : UdpSendPc) : UdpShardCommands :=
  { state with senders := Function.update state.senders thread pc }

def stepSender (state : UdpShardCommands) (thread : Nat) (succeeds : Bool) :
    Option UdpShardCommands :=
  match state.senders thread with
  | .idle => none
  | .matching command early =>
    if matchesGeneration state command.generation then
      some (withSender state thread (if early then .checkingEarly command else .checking command))
    else
      some (withSender state thread .idle)
  | .checkingEarly command =>
    if state.channel.acceptingCommands then
      some (withSender state thread (.preparing command))
    else
      some (withSender state thread .idle)
  | .preparing command =>
    some (withSender state thread (if succeeds then .checking command else .idle))
  | .checking command =>
    if state.channel.acceptingCommands then
      some (withSender state thread (.creating command))
    else
      some (withSender state thread .idle)
  | .creating command =>
    if succeeds then
      (state.channel.call thread command).map fun channel =>
        { withSender state thread .idle with channel := channel }
    else
      some (withSender state thread .idle)

def sendDatagram (state : UdpShardCommands) (generation : Nat) (hands : Bool) : UdpShardCommands :=
  match state.socket with
  | some start =>
    if hands then { state with sent := state.sent ++ [(generation, start)] } else state
  | none => state

def settle (state : UdpShardCommands) (hands : Bool) :
    Option (Fate × QueuedCommand UdpCommand) → UdpShardCommands
  | some (.execute, queued) =>
    if queued.command.generation = state.generation then
      sendDatagram state queued.command.generation hands
    else
      state
  | some (.discard, _) | none => state

def releases (channel : CommandChannel UdpCommand UdpStart) : Bool :=
  match channel.stack with
  | .stopping .releasing :: _ => true
  | _ => false

def callSend (state : UdpShardCommands) (thread : Nat) (command : UdpCommand) (early : Bool) :
    Option UdpShardCommands :=
  match state.senders thread, state.channel.producers thread with
  | .idle, .idle => some (withSender state thread (.matching command early))
  | _, _ => none

def sendOnOwner (state : UdpShardCommands) (command : UdpCommand) (hands : Bool) :
    Option UdpShardCommands :=
  if state.channel.mayBegin then
    if matchesGeneration state command.generation then
      some (sendDatagram state command.generation hands)
    else
      some state
  else
    none

/-- `start_on_owner`, up to its call of `open_wake_channel`. -/
def startOnOwner (state : UdpShardCommands) : Option UdpShardCommands :=
  match state.socket with
  -- EALREADY
  | some _ => if state.channel.mayBegin then some state else none
  | none =>
    (state.channel.begin (.start ⟨state.made.length⟩)).map fun channel =>
      { state with
        channel := channel
        generation := Ring.skipZero generations state.generation
        made := state.made ++ [Ring.skipZero generations state.generation] }

/-- `start_on_owner` after `open_wake_channel`; when the socket cannot be opened the
channel is closed again. -/
def openSocket (state : UdpShardCommands) (succeeds : Bool) : Option UdpShardCommands :=
  match state.channel.stack, state.channel.wakeFd with
  | .own _ :: _, none =>
    (state.channel.leaveOwn false).map fun channel => { state with channel := channel }
  | .own start :: _, some _ =>
    (state.channel.leaveOwn (!succeeds)).map fun channel =>
      { state with
        channel := channel
        socket := if succeeds then some start.number else state.socket }
  | _, _ => none

def step (capacity : Nat) (state : UdpShardCommands) : Action → Option UdpShardCommands
  | .send thread command early => callSend state thread command early
  | .sender thread succeeds => stepSender state thread succeeds
  | .producer thread room =>
    (state.channel.stepProducer capacity thread room).map fun channel =>
      { state with channel := channel }
  | .sendOnOwner command hands => sendOnOwner state command hands
  | .startOnOwner => startOnOwner state
  | .stopOnOwner =>
    (state.channel.begin .stopOnOwner).map fun channel => { state with channel := channel }
  | .handleWake =>
    (state.channel.begin .handleWake).map fun channel => { state with channel := channel }
  | .owner succeeds hands =>
    (state.channel.stepOwner succeeds).map fun channel =>
      { settle state hands state.channel.handling with
        channel := channel
        socket := if releases state.channel then none else state.socket }
  | .openSocket succeeds => openSocket state succeeds
  | .sealCommands => some { state with channel := state.channel.sealCommands }

def initial : UdpShardCommands where
  channel := .fresh
  generation := 0
  socket := none
  senders := fun _ => .idle
  made := []
  sent := []

def system (capacity : Nat) : TransitionSystem UdpShardCommands Action where
  initial := fun state => state = initial
  step := step capacity

variable {capacity : Nat} {state after : UdpShardCommands}

def generationAt (starts : Nat) : Nat :=
  if starts = 0 then 0 else Ring.skipZeroAt generations starts

theorem skipZero_generationAt (starts : Nat) :
    Ring.skipZero generations (generationAt starts) = Ring.skipZeroAt generations (starts + 1) := by
  unfold generationAt
  split
  · rename_i none
    subst none
    rfl
  · rename_i some
    exact Ring.skipZero_skipZeroAt (by decide) (Nat.one_le_iff_ne_zero.mpr some)

/-- The open socket is that of the last start, which made the current generation. -/
structure Inv (state : UdpShardCommands) : Prop where
  inventory : state.channel.Inventory
  guarded : state.channel.Guarded
  onTop : CommandChannel.OwnOnTop state.channel.stack
  made : ∀ start generation, state.made[start]? = some generation →
    generation = Ring.skipZeroAt generations (start + 1)
  current : state.generation = generationAt state.made.length
  socket : ∀ start, state.socket = some start → start + 1 = state.made.length
  opening : ∀ start, .own start ∈ state.channel.stack →
    start.number + 1 = state.made.length ∧ state.socket = none
  sent : ∀ generation start, (generation, start) ∈ state.sent → state.made[start]? = some generation

theorem inv_initial : Inv initial where
  inventory := CommandChannel.inventory_fresh
  guarded := CommandChannel.guarded_fresh
  onTop := .of_tail fun _ member => (by cases member)
  made := fun _ _ found => (by cases found)
  current := rfl
  socket := fun _ isOpen => (by cases isOpen)
  opening := fun _ member => (by cases member)
  sent := fun _ _ member => (by cases member)

variable {start : Nat}

theorem Inv.made_current (inv : Inv state) (isOpen : state.socket = some start) :
    state.made[start]? = some state.generation := by
  have last := inv.socket start isOpen
  obtain ⟨generation, found⟩ : ∃ generation, state.made[start]? = some generation :=
    ⟨_, getElem?_eq_getElem (by omega)⟩
  rw [found, inv.current, generationAt, if_neg (by omega), inv.made start generation found, last]

open CommandChannel (Move)

theorem Inv.channelMoves (inv : Inv state) (capacity : Nat) (move : Move UdpCommand UdpStart)
    (moves : state.channel.move capacity move = some after.channel)
    (noStart : ∀ own, move ≠ .begin (.start own))
    (generation : after.generation = state.generation) (made : after.made = state.made)
    (socket : ∀ start, after.socket = some start → state.socket = some start)
    (sent : ∀ generation start, (generation, start) ∈ after.sent →
      (generation, start) ∈ state.sent ∨
        generation = state.generation ∧ state.socket = some start) : Inv after where
  inventory := inv.inventory.move moves
  guarded := inv.guarded.move inv.inventory moves
  onTop := inv.onTop.move moves
  made := by
    rw [made]
    exact inv.made
  current := by
    rw [generation, made]
    exact inv.current
  socket := fun start isOpen => by
    rw [made]
    exact inv.socket start (socket start isOpen)
  opening := fun start member => by
    obtain ⟨last, closed⟩ := inv.opening start (CommandChannel.own_of_move moves noStart member)
    refine ⟨made ▸ last, ?_⟩
    by_contra isOpen
    obtain ⟨other, opened⟩ := ne_none_iff_exists'.mp isOpen
    cases closed.symm.trans (socket other opened)
  sent := fun generation start member => by
    rw [made]
    rcases sent generation start member with old | ⟨rfl, isOpen⟩
    · exact inv.sent generation start old
    · exact inv.made_current isOpen

variable {generation : Nat} {hands : Bool}

theorem sent_sendDatagram {other : Nat}
    (member : (other, start) ∈ (sendDatagram state generation hands).sent) :
    (other, start) ∈ state.sent ∨ other = generation ∧ state.socket = some start := by
  unfold sendDatagram at member
  split at member
  · rename_i opened isOpen
    split at member
    · rcases mem_append.mp member with old | isNew
      · exact .inl old
      · obtain ⟨rfl, rfl⟩ := Prod.mk.inj (mem_singleton.mp isNew)
        exact .inr ⟨rfl, isOpen⟩
    · exact .inl member
  · exact .inl member

structure SameShard (state after : UdpShardCommands) : Prop where
  channel : after.channel = state.channel
  generation : after.generation = state.generation
  made : after.made = state.made
  socket : after.socket = state.socket

theorem sameShard_sendDatagram (state : UdpShardCommands) (generation : Nat) (hands : Bool) :
    SameShard state (sendDatagram state generation hands) := by
  unfold sendDatagram
  split
  · split <;> exact ⟨rfl, rfl, rfl, rfl⟩
  · exact ⟨rfl, rfl, rfl, rfl⟩

theorem sameShard_settle (state : UdpShardCommands) (hands : Bool)
    (handled : Option (Fate × QueuedCommand UdpCommand)) :
    SameShard state (settle state hands handled) := by
  unfold settle
  split
  · split
    · exact sameShard_sendDatagram state _ hands
    · exact ⟨rfl, rfl, rfl, rfl⟩
  · exact ⟨rfl, rfl, rfl, rfl⟩
  · exact ⟨rfl, rfl, rfl, rfl⟩

theorem sent_settle {handled : Option (Fate × QueuedCommand UdpCommand)}
    (member : (generation, start) ∈ (settle state hands handled).sent) :
    (generation, start) ∈ state.sent ∨
      generation = state.generation ∧ state.socket = some start := by
  unfold settle at member
  split at member
  · split at member
    · rename_i current
      rw [← current]
      exact sent_sendDatagram member
    · exact .inl member
  · exact .inl member
  · exact .inl member

theorem Inv.sends (inv : Inv state) (matching : matchesGeneration state generation = true) :
    Inv (sendDatagram state generation hands) := by
  have current : state.generation = generation := by
    simpa using (Bool.and_eq_true_iff.mp matching).2
  have same := sameShard_sendDatagram state generation hands
  refine ⟨same.channel ▸ inv.inventory, same.channel ▸ inv.guarded, same.channel ▸ inv.onTop,
    same.made ▸ inv.made, ?_, ?_, ?_, fun other start member => ?_⟩
  · rw [same.generation, same.made]
    exact inv.current
  · rw [same.socket, same.made]
    exact inv.socket
  · rw [same.channel, same.made, same.socket]
    exact inv.opening
  · rw [same.made]
    rcases sent_sendDatagram member with old | ⟨rfl, isOpen⟩
    · exact inv.sent other start old
    · rw [← current]
      exact inv.made_current isOpen

theorem Inv.stepSender (inv : Inv state) {thread : Nat} {succeeds : Bool}
    (steps : stepSender state thread succeeds = some after) : Inv after := by
  have stays : ∀ pc, Inv (withSender state thread pc) := fun _ => { inv with }
  unfold UdpCommands.stepSender at steps
  split at steps
  · cases steps
  · split at steps <;> exact Option.some.inj steps ▸ stays _
  · split at steps <;> exact Option.some.inj steps ▸ stays _
  · exact Option.some.inj steps ▸ stays _
  · split at steps <;> exact Option.some.inj steps ▸ stays _
  · split at steps
    · obtain ⟨channel, calls, rfl⟩ := map_eq_some_iff.mp steps
      exact inv.channelMoves 0 (.call thread _) calls
        (fun _ same => (by cases same)) rfl rfl (fun _ => id) (fun _ _ => .inl)
    · exact Option.some.inj steps ▸ stays _

theorem Inv.starts (inv : Inv state) (closed : state.socket = none)
    {channel : CommandChannel UdpCommand UdpStart}
    (begins : state.channel.begin (.start ⟨state.made.length⟩) = some channel) : Inv { state with
      channel := channel
      generation := Ring.skipZero generations state.generation
      made := state.made ++ [Ring.skipZero generations state.generation] } := by
  have next : Ring.skipZero generations state.generation =
      Ring.skipZeroAt generations (state.made.length + 1) := by
    rw [inv.current, skipZero_generationAt]
  have moves : state.channel.move 0 (.begin (.start ⟨state.made.length⟩)) = some channel := begins
  obtain ⟨enabled, rfl⟩ := CommandChannel.begin_eq begins
  have free := inv.onTop.free_of_enabled enabled
  have older : ∀ {start generation : Nat}, state.made[start]? = some generation →
      (state.made ++ [Ring.skipZero generations state.generation])[start]? = some generation := by
    intro start generation found
    obtain ⟨inside, -⟩ := List.getElem?_eq_some_iff.mp found
    rw [getElem?_append_left inside, found]
  refine ⟨inv.inventory.move moves, inv.guarded.move inv.inventory moves, inv.onTop.move moves,
    fun start generation found => ?_, ?_, fun start isOpen => ?_, fun start member => ?_,
    fun generation start member => older (inv.sent generation start member)⟩
  · by_cases inside : start < state.made.length
    · rw [getElem?_append_left inside] at found
      exact inv.made start generation found
    · rw [getElem?_append_right (Nat.not_lt.mp inside), getElem?_singleton] at found
      split at found
      · rename_i last
        rw [← Option.some.inj found, next, show start = state.made.length by omega]
      · cases found
  · rw [length_append, generationAt, if_neg (by simp), next]
    rfl
  · cases closed.symm.trans isOpen
  · rcases mem_append.mp member with isNew | isOld
    · simp only [CommandChannel.Operation.frames, mem_cons, reduceCtorEq, false_or,
        ChannelFrame.own.injEq, not_mem_nil, or_false] at isNew
      subst isNew
      exact ⟨by simp, closed⟩
    · cases free _ isOld

theorem Inv.openSocket (inv : Inv state) {succeeds : Bool}
    (steps : openSocket state succeeds = some after) : Inv after := by
  unfold UdpCommands.openSocket at steps
  split at steps
  · obtain ⟨channel, leaves, rfl⟩ := map_eq_some_iff.mp steps
    exact inv.channelMoves 0 (.leaveOwn false) leaves (fun _ same => (by cases same)) rfl rfl
      (fun _ => id) (fun _ _ => .inl)
  · rename_i start rest fd stacked wakeFd
    obtain ⟨channel, leaves, rfl⟩ := map_eq_some_iff.mp steps
    have left : Inv { state with channel := channel } :=
      inv.channelMoves 0 (.leaveOwn (!succeeds)) leaves (fun _ same => (by cases same)) rfl rfl
        (fun _ => id) (fun _ _ => .inl)
    cases succeeds with
    | false => exact left
    | true =>
      obtain ⟨last, closed⟩ := inv.opening start (by rw [stacked]; exact mem_cons_self)
      refine { left with socket := fun opened isOpen => ?_, opening := fun other member => ?_ }
      · cases isOpen
        exact last
      · -- the start that returns was the only one on the stack
        obtain ⟨own, rest', stacked', rfl⟩ := CommandChannel.leaveOwn_eq leaves
        rw [stacked] at stacked'
        obtain ⟨-, rfl⟩ := List.cons.inj stacked'
        have free := inv.onTop.second (.own start) (by rw [stacked]; rfl) rfl (.own other)
          (by rw [stacked]; exact member)
        cases free
  · cases steps

theorem inv_step (inv : Inv state) {action : Action}
    (steps : step capacity state action = some after) : Inv after := by
  cases action with
  | send thread command early =>
    simp only [step, callSend] at steps
    split at steps
    · cases steps
      exact { inv with }
    · cases steps
  | sender thread succeeds => exact inv.stepSender steps
  | producer thread room =>
    obtain ⟨channel, moves, rfl⟩ := map_eq_some_iff.mp steps
    exact inv.channelMoves capacity (.producer thread room) moves (fun _ same => (by cases same))
      rfl rfl (fun _ => id) (fun _ _ => .inl)
  | sendOnOwner command hands =>
    simp only [step, sendOnOwner] at steps
    split at steps
    · split at steps
      · rename_i matching
        cases steps
        exact inv.sends matching
      · exact Option.some.inj steps ▸ inv
    · cases steps
  | startOnOwner =>
    simp only [step, startOnOwner] at steps
    split at steps
    · split at steps
      · exact Option.some.inj steps ▸ inv
      · cases steps
    · rename_i closed
      obtain ⟨channel, begins, rfl⟩ := map_eq_some_iff.mp steps
      exact inv.starts closed begins
  | stopOnOwner | handleWake =>
    obtain ⟨channel, moves, rfl⟩ := map_eq_some_iff.mp steps
    exact inv.channelMoves 0 (.begin _) moves (fun _ same => (by cases same))
      rfl rfl (fun _ => id) (fun _ _ => .inl)
  | owner succeeds hands =>
    obtain ⟨channel, moves, rfl⟩ := map_eq_some_iff.mp steps
    have same := sameShard_settle state hands state.channel.handling
    refine inv.channelMoves 0 (.owner succeeds) moves (fun _ same => (by cases same))
      same.generation same.made (fun start isOpen => ?_) (fun _ _ => sent_settle)
    split at isOpen
    · cases isOpen
    · exact isOpen
  | openSocket succeeds => exact inv.openSocket steps
  | sealCommands =>
    cases steps
    exact inv.channelMoves 0 .sealCommands rfl (fun _ same => (by cases same)) rfl rfl
      (fun _ => id) (fun _ _ => .inl)

theorem inv_reachable (reached : (system capacity).Reachable state) : Inv state := by
  induction reached with
  | start starts =>
    obtain rfl := starts
    exact inv_initial
  | next reached permitted steps ih => exact inv_step ih steps

theorem Inv.start_unique (inv : Inv state) (few : state.made.length < generations - 1)
    {first second : Nat} (isFirst : state.made[first]? = some generation)
    (isSecond : state.made[second]? = some generation) : first = second := by
  obtain ⟨insideFirst, -⟩ := List.getElem?_eq_some_iff.mp isFirst
  obtain ⟨insideSecond, -⟩ := List.getElem?_eq_some_iff.mp isSecond
  have same := (inv.made first generation isFirst).symm.trans (inv.made second generation isSecond)
  have := Ring.eq_of_skipZeroAt_eq (by omega) (by omega) (by omega) (by omega) same
  omega

/-- A datagram of a handle goes to the socket of the start that made its generation; a
command for which `send` returned `Queued` is worked off once; and when
`stop_on_owner` returns the queue is empty and no thread is inside `enqueue` past the
accepting flag. -/
theorem commands_keep_generation (reached : (system capacity).Reachable state)
    (few : state.made.length < 2 ^ 32 - 1) : (∀ generation start, (generation, start) ∈ state.sent →
      state.made[start]? = some generation ∧
        ∀ other, state.made[other]? = some generation → other = start) ∧
    (∀ id ∈ state.channel.accepted, (state.channel.kept.map QueuedCommand.id).count id +
      state.channel.executed.count id + state.channel.discarded.count id = 1) ∧
    (∀ rest succeeds hands after, state.channel.stack = .closing .clearing :: rest →
      step capacity state (.owner succeeds hands) = some after →
        after.channel.stack = rest ∧ after.channel.commands = [] ∧
          ∀ thread, (after.channel.producers thread).committed = false) := by
  have inv := inv_reachable reached
  refine ⟨fun generation start member => ?_, fun id accepted => ?_,
    fun rest succeeds hands after stacked steps => ?_⟩
  · have made := inv.sent generation start member
    exact ⟨made, fun other isOther => inv.start_unique few isOther made⟩
  · have balance := inv.inventory.balance id
    rw [count_eq_one_of_mem inv.inventory.once (inv.inventory.accepted id accepted)] at balance
    exact balance
  · have closed : state.channel.wakeFd = none := (inv.guarded.topFacts stacked).holds
    obtain ⟨channel, moves, rfl⟩ := map_eq_some_iff.mp steps
    rw [CommandChannel.stepOwner, stacked] at moves
    cases moves
    exact ⟨rfl, inv.guarded.closed closed, (inv.guarded.quiet_of_closed closed).uncommitted⟩

theorem commands_keep_generation_first :
    ∃ state, (system 4).Reachable state ∧ state.sent = [(1, 0)] ∧
      state.made[0]? = some 1 ∧ ∀ other, state.made[other]? = some 1 → other = 0 := by
  obtain ⟨state, reached, sent, few⟩ :=
    (system 4).exists_reachableUnder (fun _ _ => True) (show (system 4).initial initial from rfl)
    (.flatten [[.startOnOwner], .replicate 3 (.owner true true), [.openSocket true],
      [.send 3 ⟨.sendTo, 1⟩ true], .replicate 5 (.sender 3 true), .replicate 8 (.producer 3 true),
      [.handleWake], .replicate 5 (.owner true true)])
    (fun state => state.sent = [(1, 0)] ∧ state.made.length < 2 ^ 32 - 1) (by decide +kernel)
  obtain ⟨sameGeneration, -⟩ := commands_keep_generation reached few
  exact ⟨state, reached, sent, sameGeneration 1 0 (by rw [sent]; exact mem_singleton_self _)⟩

end UdpCommands

end AsyncFlow
