import AsyncFlow.CommandHandling

/-!
# The commands of a server shard

The command channel of `TcpServerShard`.  A command acts on a connection of the shard
or carries an accepted descriptor, which `adopt_connection` makes a connection of, or
closes; a discarded command closes its descriptor.
-/

namespace AsyncFlow

open List Option

inductive TcpCommandKind
  | send | close | closeAfterFlush | shutdownWrite | pauseRead | resumeRead
  | setNoDelay (flag : Bool)
  | setKeepAlive (flag : Bool)
  deriving DecidableEq

inductive TcpCommand
  | connection (kind : TcpCommandKind) (slot generation : Nat)
  | adoptConnection (listener fd : Nat)
  deriving DecidableEq

/-- A descriptor is named by the call of `enqueue` that passed it. -/
structure TcpShardCommands where
  channel : CommandChannel TcpCommand Empty
  /-- History: the descriptors that became connections. -/
  adopted : List Nat
  closed : List Nat

namespace TcpCommands

open CommandChannel (Fate Move)

/-- `adopts` is the outcome of `adopt_connection` when the move executes one. -/
structure Action where
  move : Move TcpCommand Empty
  adopts : Bool
  deriving DecidableEq

/-- A command is worked off: `adopt_connection` keeps its descriptor or closes it, and
`discard_command` closes it. -/
def settle (state : TcpShardCommands) (adopts : Bool) :
    Option (Fate × QueuedCommand TcpCommand) → TcpShardCommands
  | some (.execute, ⟨id, .adoptConnection _ _, _⟩) =>
    if adopts then
      { state with adopted := state.adopted ++ [id] }
    else
      { state with closed := state.closed ++ [id] }
  | some (.discard, ⟨id, .adoptConnection _ _, _⟩) =>
    { state with closed := state.closed ++ [id] }
  | some (_, ⟨_, .connection _ _ _, _⟩) | none => state

def step (capacity : Nat) (state : TcpShardCommands) (action : Action) : Option TcpShardCommands :=
  (state.channel.move capacity action.move).map fun channel =>
    { settle state action.adopts (state.channel.handledBy action.move) with channel := channel }

def system (capacity : Nat) : TransitionSystem TcpShardCommands Action where
  initial := fun state => state = ⟨.fresh, [], []⟩
  step := step capacity

variable {capacity : Nat} {state after : TcpShardCommands} {action : Action}

def settlements (state : TcpShardCommands) (id : Nat) : Nat :=
  state.adopted.count id + state.closed.count id

def workedOff (state : TcpShardCommands) (id : Nat) : Nat :=
  state.channel.executed.count id + state.channel.discarded.count id

def carries : Option TcpCommand → Bool
  | some (.adoptConnection _ _) => true
  | _ => false

structure Inv (state : TcpShardCommands) : Prop where
  inventory : state.channel.Inventory
  guarded : state.channel.Guarded
  settled : ∀ id, settlements state id =
    if carries state.channel.issued[id]? then workedOff state id else 0

theorem settlements_settle (state : TcpShardCommands) (adopts : Bool) (fate : Fate)
    (queued : QueuedCommand TcpCommand) (id : Nat) :
    settlements (settle state adopts (some (fate, queued))) id = settlements state id +
      if carries (some queued.command) then [queued.id].count id else 0 := by
  obtain ⟨number, command, published⟩ := queued
  cases command with
  | connection kind slot generation => cases fate <;> rfl
  | adoptConnection listener fd =>
    cases fate with
    | discard =>
      simp only [settle, settlements, count_append, carries, if_true]
      omega
    | execute =>
      cases adopts <;>
        simp only [settle, settlements, count_append, carries, if_true,
          Bool.false_eq_true, if_false] <;>
        omega

theorem workedOff_handle (state : TcpShardCommands) {channel : CommandChannel TcpCommand Empty}
    (fate : Fate) (queued : QueuedCommand TcpCommand)
    (executed : channel.executed = (state.channel.handle fate queued).executed)
    (discarded : channel.discarded = (state.channel.handle fate queued).discarded) (id : Nat) :
    workedOff { state with channel := channel } id = workedOff state id + [queued.id].count id := by
  cases fate <;>
    simp only [workedOff, executed, discarded, CommandChannel.handle, count_append] <;>
    omega

theorem Inv.workedOff_unissued (inv : Inv state) {id : Nat}
    (unissued : state.channel.issued.length ≤ id) : workedOff state id = 0 := by
  have places := inv.inventory.places_unissued unissued
  unfold CommandChannel.places at places
  unfold workedOff
  omega

theorem inv_step (inv : Inv state) (steps : step capacity state action = some after) :
    Inv after := by
  obtain ⟨channel, moves, rfl⟩ := map_eq_some_iff.mp steps
  refine ⟨inv.inventory.move moves, inv.guarded.move inv.inventory moves, fun id => ?_⟩
  have handled := CommandChannel.handled_move moves
  obtain ⟨commands, issued, noCall⟩ := CommandChannel.issued_move moves
  have settled := inv.settled id
  cases handles : state.channel.handledBy action.move with
  | none =>
    rw [handles] at handled
    have sameWork : workedOff { state with channel := channel } id = workedOff state id := by
      rw [workedOff, handled.1, handled.2]
      rfl
    change settlements state id = if carries channel.issued[id]? then
      workedOff { state with channel := channel } id else 0
    rw [sameWork, settled, issued]
    by_cases known : id < state.channel.issued.length
    · rw [getElem?_append_left known]
    · rw [inv.workedOff_unissued (Nat.not_lt.mp known)]
      simp
  | some handling =>
    obtain ⟨fate, queued⟩ := handling
    rw [handles] at handled noCall
    rw [noCall (some_ne_none _), append_nil] at issued
    obtain ⟨kept, executed, discarded⟩ := handled
    have isIssued := inv.inventory.issued queued kept
    change settlements (settle state action.adopts (some (fate, queued))) id =
      if carries channel.issued[id]? then workedOff { state with channel := channel } id else 0
    rw [settlements_settle, workedOff_handle state fate queued executed discarded, settled, issued]
    by_cases same : queued.id = id
    · subst same
      rw [isIssued]
      split <;> rfl
    · have none : [queued.id].count id = 0 := by simp [same]
      rw [none]
      simp

theorem inv_reachable (reached : (system capacity).Reachable state) : Inv state := by
  induction reached with
  | start starts =>
    obtain rfl := starts
    exact ⟨CommandChannel.inventory_fresh, CommandChannel.guarded_fresh, fun id => by
      simp [settlements, carries, CommandChannel.fresh]⟩
  | next reached permitted steps ih => exact inv_step ih steps

theorem accepted_while_closed (inv : Inv state) {later : TcpShardCommands}
    (runs : ((system capacity).startingAt state).ReachableUnder
      (fun state _ => state.channel.wakeFd = none) later) :
    Inv later ∧ later.channel.accepted = state.channel.accepted := by
  induction runs with
  | start starts =>
    obtain rfl := starts
    exact ⟨inv, rfl⟩
  | next reached closed steps ih =>
    obtain ⟨channel, moves, rfl⟩ := map_eq_some_iff.mp steps
    refine ⟨inv_step ih.1 steps, ?_⟩
    exact (CommandChannel.accepted_of_quiet (ih.1.guarded.quiet_of_closed closed) moves).trans ih.2

/-- A command whose `enqueue` returned true is in the queue, in a batch, or was
executed or discarded, once; its descriptor is then adopted or closed.  A command in
the queue of an open channel has a wake-up, a drain in progress, or a producer inside
`wake`. -/
theorem commands_handled_once (reached : (system capacity).Reachable state) :
    (∀ id ∈ state.channel.accepted,
      (state.channel.kept.map QueuedCommand.id).count id + workedOff state id = 1) ∧
    (∀ id listener fd, state.channel.issued[id]? = some (.adoptConnection listener fd) →
      settlements state id = workedOff state id) ∧
    (state.channel.wakeFd.isSome = true → state.channel.commands ≠ [] →
      state.channel.eventPending = true ∨ (∃ frame ∈ state.channel.stack, frame.drains = true) ∨
          ∃ producer, (state.channel.producers producer).waking = true) ∧
    (∀ producer fd, (state.channel.producers producer).touches = some fd →
      state.channel.wakeFd = some fd) ∧
    (∀ rest, state.channel.stack = .closing .clearing :: rest → state.channel.wakeFd = none) ∧
    (state.channel.wakeFd = none → state.channel.commands = [] ∧
      ∀ later, ((system capacity).startingAt state).ReachableUnder
        (fun state _ => state.channel.wakeFd = none) later →
          later.channel.accepted = state.channel.accepted) := by
  have inv := inv_reachable reached
  refine ⟨fun id accepted => ?_, fun id listener fd issued => ?_,
    fun _ nonempty => inv.guarded.covered nonempty, inv.guarded.touches,
    fun rest stacked => (inv.guarded.topFacts stacked).holds,
    fun closed => ⟨inv.guarded.closed closed, fun later runs => (accepted_while_closed inv runs).2⟩⟩
  · have balance := inv.inventory.balance id
    rw [count_eq_one_of_mem inv.inventory.once (inv.inventory.accepted id accepted),
      CommandChannel.places] at balance
    unfold workedOff
    omega
  · have settled := inv.settled id
    rw [issued] at settled
    exact settled

def adopting (moves : List (Move TcpCommand Empty)) : List Action :=
  moves.map fun move => ⟨move, true⟩

def opens : List (Move TcpCommand Empty) :=
  [.begin .openChannel, .owner true, .owner true, .owner true]

theorem commands_handled_once_adopted :
    ∃ state, (system 4).Reachable state ∧ 0 ∈ state.channel.accepted ∧ state.adopted = [0] ∧
      (state.channel.kept.map QueuedCommand.id).count 0 + workedOff state 0 = 1 ∧
      settlements state 0 = workedOff state 0 := by
  obtain ⟨state, reached, accepted, adopted, issued⟩ :=
    (system 4).exists_reachableUnder (fun _ _ => True)
    (show (system 4).initial ⟨.fresh, [], []⟩ from rfl)
    (adopting (.flatten [opens, [.call 7 (.adoptConnection 1 5)], .replicate 8 (.producer 7 true),
      [.begin .handleWake], .replicate 5 (.owner true)]))
    (fun state => 0 ∈ state.channel.accepted ∧ state.adopted = [0] ∧
      state.channel.issued[0]? = some (.adoptConnection 1 5)) (by decide +kernel)
  obtain ⟨once, settled, -⟩ := commands_handled_once reached
  exact ⟨state, reached, accepted, adopted, once 0 accepted, settled 0 1 5 issued⟩

/-- The second of two producers finds the wake-up flag set by the first, which has not
written yet: its command is in the queue without a value in the eventfd and without a
drain. -/
theorem returned_command_waits_for_other_producer :
    ∃ state, (system 4).Reachable state ∧ state.channel.wakeFd.isSome = true ∧
      state.channel.eventPending = false ∧ state.channel.stack = [] ∧
      ∃ queued ∈ state.channel.commands, queued.id ∈ state.channel.accepted :=
  (system 4).exists_reachableUnder (fun _ _ => True)
    (show (system 4).initial ⟨.fresh, [], []⟩ from rfl)
    (adopting (.flatten [opens, [.call 0 (.connection .send 3 1)], .replicate 6 (.producer 0 true),
      [.call 1 (.connection .close 3 1)], .replicate 7 (.producer 1 true)]))
    _ (by decide +kernel)

end TcpCommands

end AsyncFlow
