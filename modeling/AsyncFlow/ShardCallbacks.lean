import AsyncFlow.ConnectionHandles

/-!
# Callbacks on the thread of a shard

A shard, its connections and the code of its users run on one thread.  Users may
close connections, call their functions, and start tasks; when the queue of the
executor is full, such a task runs at once, so that a function of the shard can
run inside a callback.  The functions in progress are an explicit stack, over the
connection table.

Some functions reap closed connections whatever is on the stack, others only
outside of callbacks.  An event of a batch carries the address of the channel of
its connection, which is part of the connection.
-/

namespace AsyncFlow

open Option

/-- The address of a connection, with what its fields say. -/
structure ConnectionRef where
  serial : Nat
  slot : ConnectionSlot
  deriving DecidableEq

inductive ShardFrame
  | onEvent (ref : ConnectionRef)
  | onRead (ref : ConnectionRef)
  | member (ref : ConnectionRef)
  /-- `close_now` after it closed the descriptor; `told` when it called the user -/
  | closeNow (ref : ConnectionRef) (told : Bool)
  | onClose (ref : ConnectionRef)
  | onAccept (ref : ConnectionRef)
  /-- a function of the shard that reaps at its end: `create_connection`,
  `remove_listener_on_owner`, `stop_on_owner` or the draining of commands -/
  | reaping
  /-- a function of the shard for a handle, which reaps outside of callbacks -/
  | reapingIfSafe
  deriving DecidableEq

namespace ShardFrame

def connection : ShardFrame → Option ConnectionRef
  | onEvent ref | onRead ref | member ref | closeNow ref _ | onClose ref | onAccept ref => some ref
  | reaping | reapingIfSafe => none

def isCallback : ShardFrame → Bool
  | onRead _ | onClose _ | onAccept _ => true
  | onEvent _ | member _ | closeNow _ _ | reaping | reapingIfSafe => false

end ShardFrame

structure ShardState where
  slots : TableState
  userCallbackDepth : Nat
  stack : List ShardFrame
  batch : List ConnectionRef

namespace TableState

def holds (slots : TableState) (ref : ConnectionRef) : Bool :=
  match slots.table.connections[ref.slot.index]? with
  | some (some connection) =>
    connection.serial = ref.serial ∧ connection.generation = ref.slot.generation
  | _ => false

def isOpen (slots : TableState) (ref : ConnectionRef) : Bool :=
  match slots.table.connections[ref.slot.index]? with
  | some (some connection) =>
    connection.serial = ref.serial ∧ connection.generation = ref.slot.generation ∧ connection.alive
  | _ => false

end TableState

namespace ShardState

def runsUserCode (state : ShardState) : Bool :=
  match state.stack with
  | [] => true
  | frame :: _ => frame.isCallback

/-- The user has references to connections whose callbacks are in progress, and
functions of the shard look up open ones. -/
def mayCall (state : ShardState) (ref : ConnectionRef) : Bool :=
  match state.stack with
  | [] => false
  | frame :: _ =>
    frame.isCallback ∧
        state.stack.any (fun outer => outer.isCallback ∧ outer.connection = some ref) ∨
      (frame = .reaping ∨ frame = .reapingIfSafe) ∧ state.slots.isOpen ref

end ShardState

namespace Shard

inductive Action
  | fetch (events : List ConnectionRef)
  /-- the next event of the batch, whose channel is `active` or not -/
  | deliver (active : Bool)
  | read
  | close
  | notify
  | leave
  | enter (ref : ConnectionRef)
  | handle
  /-- `remove_listener_on_owner`, `stop_on_owner` or the draining of commands -/
  | sweep
  /-- `create_connection`, whose channel `starts` or not -/
  | create (starts : Bool)
  | createFails
  deriving DecidableEq

def withSlots (state : ShardState) (slots : TableState) : ShardState :=
  { state with slots := slots }

def push (state : ShardState) (frame : ShardFrame) : ShardState :=
  { state with stack := frame :: state.stack }

def beginUserCallback (state : ShardState) : ShardState :=
  { state with userCallbackDepth := state.userCallbackDepth + 1 }

def endUserCallback (state : ShardState) : ShardState :=
  { state with userCallbackDepth := state.userCallbackDepth - 1 }

def reapRetiredConnections (state : ShardState) : Option ShardState :=
  (Table.step state.slots .reap).map (withSlots state)

def reapRetiredConnectionsIfSafe (state : ShardState) : Option ShardState :=
  if state.userCallbackDepth = 0 then reapRetiredConnections state else some state

def leave (state : ShardState) (rest : List ShardFrame) : ShardFrame → Option ShardState
  | .onEvent _ | .reaping => reapRetiredConnections { state with stack := rest }
  | .reapingIfSafe => reapRetiredConnectionsIfSafe { state with stack := rest }
  | .member _ => some { state with stack := rest }
  | .closeNow ref _ =>
    (Table.step state.slots (.retire ref.slot)).map (withSlots { state with stack := rest })
  | .onRead _ | .onClose _ | .onAccept _ => some (endUserCallback { state with stack := rest })

def close (state : ShardState) : ShardFrame → Option ShardState
  | .onEvent ref | .member ref =>
    if state.slots.isOpen ref then
      (Table.step state.slots (.close ref.slot.index)).map fun slots =>
        push (withSlots state slots) (.closeNow ref false)
    else none
  | _ => none

/-- A slot is acquired and a connection stored in it. -/
def createConnection (state : ShardState) (starts : Bool) : Option ShardState :=
  (Table.step state.slots .acquire).bind fun acquiring =>
    acquiring.acquired.bind fun slot =>
      (Table.step acquiring .create).map fun slots =>
        let ref : ConnectionRef := ⟨state.slots.nextSerial, slot⟩
        let created := push (withSlots state slots) .reaping
        if starts then beginUserCallback (push created (.onAccept ref))
        else push created (.member ref)

def step (state : ShardState) : Action → Option ShardState
  | .fetch events =>
    if state.stack = [] ∧ state.batch = [] ∧ events.all state.slots.isOpen then
      some { state with batch := events }
    else none
  | .deliver active =>
    match state.stack, state.batch with
    | [], ref :: batch =>
      let handling := { state with batch := batch }
      some (if state.slots.isOpen ref ∧ active then push handling (.onEvent ref) else handling)
    | _, _ => none
  | .read =>
    match state.stack with
    | .onEvent ref :: _ =>
      if state.slots.isOpen ref then some (beginUserCallback (push state (.onRead ref))) else none
    | _ => none
  | .close =>
    match state.stack with
    | frame :: _ => close state frame
    | [] => none
  | .notify =>
    match state.stack with
    | .closeNow ref false :: rest =>
      some (beginUserCallback
        (push { state with stack := .closeNow ref true :: rest } (.onClose ref)))
    | _ => none
  | .leave =>
    match state.stack with
    | frame :: rest => leave state rest frame
    | [] => none
  | .enter ref => if state.mayCall ref then some (push state (.member ref)) else none
  | .handle => if state.runsUserCode then some (push state .reapingIfSafe) else none
  | .sweep => if state.runsUserCode then some (push state .reaping) else none
  | .create starts => if state.runsUserCode then createConnection state starts else none
  | .createFails =>
    if state.runsUserCode then
      (Table.step state.slots .acquire).bind fun acquiring =>
        (Table.step acquiring .createFails).map (withSlots state)
    else none

def start : ShardState where
  slots := Table.start
  userCallbackDepth := 0
  stack := []
  batch := []

def system : TransitionSystem ShardState Action where
  initial := fun state => state = start
  step := step

/-! ### The steps of a shard, by what they do -/

variable {state after : ShardState} {action : Action}

inductive Steps (state : ShardState) : Action → ShardState → Prop
  | fetch {events : List ConnectionRef} (idle : state.stack = []) (empty : state.batch = [])
      (opened : ∀ ref ∈ events, state.slots.isOpen ref) :
      Steps state (.fetch events) { state with batch := events }
  | deliver {active : Bool} {ref : ConnectionRef} {batch : List ConnectionRef}
      (idle : state.stack = []) (next : state.batch = ref :: batch) (opened : state.slots.isOpen ref) :
      Steps state (.deliver active) (push { state with batch := batch } (.onEvent ref))
  | skip {active : Bool} {ref : ConnectionRef} {batch : List ConnectionRef}
      (idle : state.stack = []) (next : state.batch = ref :: batch) :
      Steps state (.deliver active) { state with batch := batch }
  | read {ref : ConnectionRef} {rest : List ShardFrame} (top : state.stack = .onEvent ref :: rest)
      (opened : state.slots.isOpen ref) :
      Steps state .read (beginUserCallback (push state (.onRead ref)))
  | close {ref : ConnectionRef} {frame : ShardFrame} {rest : List ShardFrame} {slots : TableState}
      (top : state.stack = frame :: rest) (own : frame.connection = some ref)
      (opened : state.slots.isOpen ref)
      (closes : Table.step state.slots (.close ref.slot.index) = some slots) :
      Steps state .close (push (withSlots state slots) (.closeNow ref false))
  | notify {ref : ConnectionRef} {rest : List ShardFrame}
      (top : state.stack = .closeNow ref false :: rest) : Steps state .notify (beginUserCallback
        (push { state with stack := .closeNow ref true :: rest } (.onClose ref)))
  | reap {frame : ShardFrame} {rest : List ShardFrame} {slots : TableState}
      (top : state.stack = frame :: rest)
      (reaps : (∃ ref, frame = .onEvent ref) ∨ frame = .reaping ∨
        frame = .reapingIfSafe ∧ state.userCallbackDepth = 0)
      (moves : Table.step state.slots .reap = some slots) :
      Steps state .leave (withSlots { state with stack := rest } slots)
  | leave {frame : ShardFrame} {rest : List ShardFrame} (top : state.stack = frame :: rest)
      (plain : frame.isCallback = false) : Steps state .leave { state with stack := rest }
  | retire {ref : ConnectionRef} {told : Bool} {rest : List ShardFrame} {slots : TableState}
      (top : state.stack = .closeNow ref told :: rest)
      (retires : Table.step state.slots (.retire ref.slot) = some slots) :
      Steps state .leave (withSlots { state with stack := rest } slots)
  | endCallback {frame : ShardFrame} {rest : List ShardFrame} (top : state.stack = frame :: rest)
      (callback : frame.isCallback) :
      Steps state .leave (endUserCallback { state with stack := rest })
  | enter {ref : ConnectionRef} (may : state.mayCall ref) :
      Steps state (.enter ref) (push state (.member ref))
  | handle (user : state.runsUserCode) : Steps state .handle (push state .reapingIfSafe)
  | sweep (user : state.runsUserCode) : Steps state .sweep (push state .reaping)
  | create {starts : Bool} {acquiring slots : TableState} {slot : ConnectionSlot}
      (user : state.runsUserCode) (acquires : Table.step state.slots .acquire = some acquiring)
      (acquired : acquiring.acquired = some slot)
      (creates : Table.step acquiring .create = some slots) : Steps state (.create starts)
        (if starts then
          beginUserCallback (push (push (withSlots state slots) .reaping)
            (.onAccept ⟨state.slots.nextSerial, slot⟩))
        else push (push (withSlots state slots) .reaping) (.member ⟨state.slots.nextSerial, slot⟩))
  | createFails {acquiring slots : TableState} (user : state.runsUserCode)
      (acquires : Table.step state.slots .acquire = some acquiring)
      (fails : Table.step acquiring .createFails = some slots) :
      Steps state .createFails (withSlots state slots)

theorem steps_of_leave {frame : ShardFrame} {rest : List ShardFrame}
    (top : state.stack = frame :: rest) (steps : leave state rest frame = some after) :
    Steps state .leave after := by
  cases frame with
  | onEvent ref =>
    obtain ⟨slots, moves, rfl⟩ := map_eq_some_iff.mp steps
    exact .reap top (.inl ⟨ref, rfl⟩) moves
  | reaping =>
    obtain ⟨slots, moves, rfl⟩ := map_eq_some_iff.mp steps
    exact .reap top (.inr (.inl rfl)) moves
  | reapingIfSafe =>
    simp only [leave, reapRetiredConnectionsIfSafe] at steps
    split at steps
    · rename_i outside
      obtain ⟨slots, moves, rfl⟩ := map_eq_some_iff.mp steps
      exact .reap top (.inr (.inr ⟨rfl, outside⟩)) moves
    · cases steps
      exact .leave top rfl
  | member ref =>
    cases steps
    exact .leave top rfl
  | closeNow ref told =>
    obtain ⟨slots, retires, rfl⟩ := map_eq_some_iff.mp steps
    exact .retire top retires
  | onRead ref | onClose ref | onAccept ref => cases steps; exact .endCallback top rfl

theorem steps_of_step (steps : step state action = some after) : Steps state action after := by
  cases action <;> simp only [step] at steps <;> split at steps <;> try contradiction
  case fetch.isTrue events enabled =>
    cases steps
    exact .fetch enabled.1 enabled.2.1 (by simpa using enabled.2.2)
  case h_1 active ref batch idle next =>
    cases steps
    split
    · rename_i opened
      exact .deliver idle next opened.1
    · exact .skip idle next
  case h_1 ref rest top =>
    obtain ⟨opened, ⟨⟩⟩ := ite_none_right_eq_some.mp steps
    exact .read top opened
  case h_1 frame rest top =>
    cases frame <;> simp only [close, reduceCtorEq] at steps
    all_goals
      obtain ⟨opened, steps⟩ := ite_none_right_eq_some.mp steps
      obtain ⟨slots, closes, rfl⟩ := map_eq_some_iff.mp steps
      exact .close top rfl opened closes
  case h_1 ref rest top =>
    cases steps
    exact .notify top
  case h_1 frame rest top => exact steps_of_leave top steps
  case enter.isTrue ref may =>
    cases steps
    exact .enter may
  case handle.isTrue user =>
    cases steps
    exact .handle user
  case sweep.isTrue user =>
    cases steps
    exact .sweep user
  case create.isTrue starts user =>
    obtain ⟨acquiring, acquires, steps⟩ := bind_eq_some_iff.mp steps
    obtain ⟨slot, acquired, steps⟩ := bind_eq_some_iff.mp steps
    obtain ⟨slots, creates, rfl⟩ := map_eq_some_iff.mp steps
    exact .create user acquires acquired creates
  case createFails.isTrue user =>
    obtain ⟨acquiring, acquires, steps⟩ := bind_eq_some_iff.mp steps
    obtain ⟨slots, fails, rfl⟩ := map_eq_some_iff.mp steps
    exact .createFails user acquires fails

end Shard

end AsyncFlow
