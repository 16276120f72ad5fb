import AsyncFlow.Epoll
import AsyncFlow.RequestLedger
import AsyncFlow.TaskAccess
import AsyncFlow.TcpConnection

/-!
# IO waits and channels of an executor

The table `io_waits_` of an executor with the epoll backend.  Tasks register and
cancel waits for descriptors, channels share the epoll instance, and
`poll_native_io` completes the waits that a batch of events makes ready, all on
the thread of the executor.

`poll_native_io` and `cancel_native_io_wait` can be interrupted: if the local
queue is full, `enqueue_pending_blocking` executes other tasks, which may register
and cancel further waits.  A step reaches from one such point to the next.
Registrations have serial numbers, so that memory that is used again does not hide
a use after destruction.  Once the iterator of `poll_native_io` is invalid the
program is undefined; the model goes on as if it looked its entry up again.
-/

namespace AsyncFlow

open Function

/-- An `IoResult` object, in the state of an operation of a task. -/
abbrev ResultId := Nat

structure IoWaitRegistration where
  fd : Int
  events : IoEvents
  task : TaskId
  result : ResultId
  deriving DecidableEq

structure IoResult where
  fd : Int
  events : IoEvents
  error : Option Errno
  deriving DecidableEq

def setIoResultError (fd : Int) (error : Errno) : IoResult :=
  ⟨fd, .ioError, some error⟩

structure IoWaitEntry where
  read : Option Nat
  write : Option Nat
  deriving DecidableEq

namespace IoWaitEntry

def new : IoWaitEntry := ⟨none, none⟩

def isEmpty (entry : IoWaitEntry) : Bool :=
  entry.read.isNone && entry.write.isNone

def contains (entry : IoWaitEntry) (registration : Nat) : Bool :=
  entry.read = some registration ∨ entry.write = some registration

def conflicts (entry : IoWaitEntry) (events : IoEvents) : Bool :=
  events.readable && entry.read.isSome || events.writable && entry.write.isSome

def add (entry : IoWaitEntry) (events : IoEvents) (registration : Nat) : IoWaitEntry where
  read := if events.readable then some registration else entry.read
  write := if events.writable then some registration else entry.write

def remove (entry : IoWaitEntry) (registration : Nat) : IoWaitEntry where
  read := if entry.read = some registration then none else entry.read
  write := if entry.write = some registration then none else entry.write

def find (registrations : Nat → IoWaitRegistration) (entry : IoWaitEntry) (result : ResultId) :
    Option Nat :=
  match entry.read.filter fun registration => (registrations registration).result = result with
  | some registration => some registration
  | none =>
    entry.write.filter fun registration =>
      entry.write ≠ entry.read ∧ (registrations registration).result = result

/-- `epoll_events_for_entry`, with the token of the descriptor. -/
def interest (entry : IoWaitEntry) (fd : Int) : Option EpollInterest :=
  if entry.read.isSome || entry.write.isSome then
    some ⟨.wait fd, entry.read.isSome, entry.write.isSome, true, true⟩
  else none

end IoWaitEntry

def IoWaitRegistration.ready (registration : IoWaitRegistration) (readyEvents : IoEvents) : Bool :=
  readyEvents.error || readyEvents.hangup || registration.events.readable && readyEvents.readable ||
    registration.events.writable && readyEvents.writable

structure NetIoChannel where
  fd : Int
  interests : NetInterests
  active : Bool
  deriving DecidableEq

structure EpollEvent where
  token : EpollToken
  events : EpollEvents
  deriving DecidableEq

structure PollFrame where
  fd : Int
  readyEvents : IoEvents
  iteratorValid : Bool
  registration : Nat
  completed : List Nat
  deriving DecidableEq

structure IoWaitsState where
  ioWaits : Int → Option IoWaitEntry
  netChannels : Int → Option Nat
  channels : Nat → NetIoChannel
  registrations : Nat → IoWaitRegistration
  results : ResultId → IoResult
  epoll : Epoll
  batch : List EpollEvent
  polling : Option PollFrame
  /-- The calls of `cancel_native_io_wait` that enqueue a task, the innermost
  first, by the registrations that they will destroy. -/
  cancelling : List Nat
  ledger : Ledger

structure WaitMemory where
  createFails : Bool
  emplaceFails : Bool
  rehashes : Bool
  deriving DecidableEq

namespace IoWaitsState

def setResult (state : IoWaitsState) (result : ResultId) (value : IoResult) : IoWaitsState :=
  { state with results := update state.results result value }

def setEntry (state : IoWaitsState) (fd : Int) (entry : IoWaitEntry) : IoWaitsState :=
  { state with ioWaits := update state.ioWaits fd (some entry) }

def eraseEntry (state : IoWaitsState) (fd : Int) : IoWaitsState :=
  { state with
    ioWaits := update state.ioWaits fd none
    polling := state.polling.map fun frame =>
      { frame with iteratorValid := frame.iteratorValid && frame.fd ≠ fd } }

def tryEmplace (state : IoWaitsState) (fd : Int) (rehashes : Bool) : IoWaitsState × IoWaitEntry :=
  match state.ioWaits fd with
  | some entry => (state, entry)
  | none =>
    ({ state.setEntry fd .new with
        polling := state.polling.map fun frame =>
          { frame with iteratorValid := frame.iteratorValid && !rehashes } }, .new)

def updateEpollInterest (state : IoWaitsState) (fd : Int) (entry : IoWaitEntry) :
    IoWaitsState × Bool :=
  match entry.interest fd with
  | none => ({ state with epoll := state.epoll.del fd }, true)
  | some interest =>
    let (epoll, succeeded) := state.epoll.modOrAdd fd interest
    ({ state with epoll := epoll }, succeeded)

def eraseOrUpdate (state : IoWaitsState) (fd : Int) (entry : IoWaitEntry) : IoWaitsState :=
  if entry.isEmpty then
    let state := state.eraseEntry fd
    { state with epoll := state.epoll.del fd }
  else ((state.setEntry fd entry).updateEpollInterest fd entry).1

/-- The error of a wait that is not registered, in the order of the checks. -/
def waitError (state : IoWaitsState) (available : Bool) (fd : Int) (events : IoEvents) :
    Option Errno :=
  if fd < 0 then some .badf
  else if !events.readable && !events.writable then some .inval
  else if !available then some .nosys
  else if (state.ioWaits fd).any (·.conflicts events) || (state.netChannels fd).isSome then
    some .already
  else none

def createRegistration (state : IoWaitsState) (registration : IoWaitRegistration) : IoWaitsState :=
  { state with
    registrations := update state.registrations state.ledger.created registration }

def enterRegistration (state : IoWaitsState) (registration : IoWaitRegistration)
    (rehashes : Bool) : IoWaitsState × IoWaitEntry :=
  let (state, entry) := state.tryEmplace registration.fd rehashes
  let entry := entry.add registration.events state.ledger.created
  (state.setEntry registration.fd entry, entry)

def registerNativeIoWait (state : IoWaitsState) (available : Bool)
    (registration : IoWaitRegistration) (memory : WaitMemory) : IoWaitsState × Bool :=
  let fd := registration.fd
  let result := registration.result
  match state.waitError available fd registration.events with
  | some error => (state.setResult result (setIoResultError fd error), false)
  | none =>
    if memory.createFails then (state.setResult result (setIoResultError fd .nomem), false)
    else
      let state := state.createRegistration registration
      if (state.ioWaits fd).isNone && memory.emplaceFails then
        ({ state with ledger := state.ledger.reject }.setResult result
          (setIoResultError fd .nomem), false)
      else
        let (state, entry) := state.enterRegistration registration memory.rehashes
        let (state, updated) := state.updateEpollInterest fd entry
        if updated then
          ({ state with ledger := state.ledger.accept }.setResult result ⟨fd, .none, none⟩, true)
        else
          let error := state.epoll.errno.getD .io
          let state := state.eraseOrUpdate fd (entry.remove state.ledger.created)
          ({ state with ledger := state.ledger.reject }.setResult result
            (setIoResultError fd error), false)

/-- `cancel_native_io_wait`, up to the enqueueing of the task. -/
def cancelNativeIoWait (state : IoWaitsState) (available : Bool) (result : ResultId)
    (runningTask : Option TaskId) : IoWaitsState × Bool :=
  let fd := (state.results result).fd
  if !available then (state.setResult result (setIoResultError fd .nosys), false)
  else
    match (state.ioWaits fd).bind fun entry =>
      (entry.find state.registrations result).map (entry, ·) with
    | none => (state.setResult result (setIoResultError fd .noent), false)
    | some (entry, registration) =>
      if fd < 0 then (state.setResult result (setIoResultError fd .noent), false)
      else
        let state := (state.eraseOrUpdate fd (entry.remove registration)).setResult result
          (setIoResultError fd .canceled)
        let state := { state with ledger := state.ledger.cancel registration }
        if runningTask = some (state.registrations registration).task then
          ({ state with ledger := state.ledger.destroy registration }, true)
        else ({ state with cancelling := registration :: state.cancelling }, true)

def collectReady (state : IoWaitsState) (readyEvents : IoEvents) (entry : IoWaitEntry) : List Nat :=
  let ready := fun registration => (state.registrations registration).ready readyEvents
  let first := (entry.read.filter ready).toList
  first ++ (entry.write.filter fun registration =>
    ready registration ∧ registration ∉ first).toList

def complete (state : IoWaitsState) (frame : PollFrame) : IoWaitsState :=
  let state := match state.ioWaits frame.fd with
    | some entry => state.setEntry frame.fd (entry.remove frame.registration)
    | none => state
  { state.setResult (state.registrations frame.registration).result
      ⟨frame.fd, frame.readyEvents, none⟩ with
    ledger := state.ledger.complete frame.registration
    polling := some frame }

def handleEvent (state : IoWaitsState) : Option IoWaitsState :=
  match state.batch with
  | [] => none
  | event :: batch =>
    let state := { state with batch := batch }
    match event.token with
    | .wake | .channel _ => some state
    | .wait fd =>
      match state.ioWaits fd with
      | none => some { state with epoll := state.epoll.del fd }
      | some entry =>
        let readyEvents := ioEventsFromNative event.events
        match state.collectReady readyEvents entry with
        | [] => some (state.updateEpollInterest fd entry).1
        | registration :: completed =>
          some (state.complete ⟨fd, readyEvents, true, registration, completed⟩)

def destroy (state : IoWaitsState) (registration : Nat) : IoWaitsState :=
  { state with ledger := state.ledger.destroy registration }

/-- `poll_native_io` goes on after `enqueue_pending_blocking`. -/
def continuePoll (state : IoWaitsState) (frame : PollFrame) : IoWaitsState :=
  let state := { state.destroy frame.registration with polling := none }
  match frame.completed with
  | registration :: completed =>
    state.complete { frame with registration := registration, completed := completed }
  | [] =>
    match state.ioWaits frame.fd with
    | some entry => state.eraseOrUpdate frame.fd entry
    | none => state

def enqueued (state : IoWaitsState) : Option IoWaitsState :=
  match state.cancelling, state.polling with
  | registration :: cancelling, _ =>
    some { state.destroy registration with cancelling := cancelling }
  | [], some frame => some (state.continuePoll frame)
  | [], none => none

def setChannel (state : IoWaitsState) (channel : Nat) (value : NetIoChannel) : IoWaitsState :=
  { state with channels := update state.channels channel value }

def updateNetChannelInterest (state : IoWaitsState) (channel : Nat) (events : NetInterests) :
    IoWaitsState × Bool :=
  let value := state.channels channel
  if !events.readable && !events.writable then
    let epoll := if value.active then state.epoll.del value.fd else state.epoll
    ({ state with epoll := epoll }.setChannel channel ⟨value.fd, ⟨false, false⟩, false⟩, true)
  else
    let interest : EpollInterest :=
      ⟨.channel channel, events.readable, events.writable, false, true⟩
    let (epoll, succeeded) := state.epoll.setChannel value.active value.fd interest
    let state := { state with epoll := epoll }
    if succeeded then (state.setChannel channel ⟨value.fd, events, true⟩, true)
    else (state, false)

def registerNetChannel (state : IoWaitsState) (available : Bool) (channel : Nat)
    (events : NetInterests) : IoWaitsState × Bool :=
  let fd := (state.channels channel).fd
  if fd < 0 || !available || (state.netChannels fd).isSome || (state.ioWaits fd).isSome then
    (state, false)
  else
    let idle : NetIoChannel := ⟨fd, ⟨false, false⟩, false⟩
    let state := { state.setChannel channel idle with
      netChannels := update state.netChannels fd (some channel) }
    let (state, updated) := state.updateNetChannelInterest channel events
    if updated then (state, true)
    else
      ({ state.setChannel channel idle with
          netChannels := update state.netChannels fd none }, false)

def updateNetChannel (state : IoWaitsState) (channel : Nat) (events : NetInterests) :
    IoWaitsState × Bool :=
  let fd := (state.channels channel).fd
  if fd < 0 || state.netChannels fd ≠ some channel then (state, false)
  else state.updateNetChannelInterest channel events

def unregisterNetChannel (state : IoWaitsState) (channel : Nat) : IoWaitsState × Bool :=
  let fd := (state.channels channel).fd
  if fd < 0 || state.netChannels fd ≠ some channel then (state, false)
  else
    let (state, _) := state.updateNetChannelInterest channel ⟨false, false⟩
    ({ state.setChannel channel ⟨fd, ⟨false, false⟩, false⟩ with
        netChannels := update state.netChannels fd none }, true)

end IoWaitsState

namespace IoWaits

/-- Each action says how the calls of `epoll_ctl` fail during it. -/
inductive Action
  | registerWait (registration : IoWaitRegistration) (memory : WaitMemory)
      (fails : List (Option Errno))
  | cancelWait (result : ResultId) (runningTask : Option TaskId) (fails : List (Option Errno))
  | writeResult (result : ResultId) (value : IoResult)
  | registerChannel (channel : Nat) (events : NetInterests) (fails : List (Option Errno))
  | updateChannel (channel : Nat) (events : NetInterests) (fails : List (Option Errno))
  | unregisterChannel (channel : Nat) (fails : List (Option Errno))
  | closeFd (fd : Int)
  | epollWait (events : List EpollEvent)
  | handleEvent (fails : List (Option Errno))
  | enqueued (fails : List (Option Errno))
  deriving DecidableEq

def withFails (state : IoWaitsState) (fails : List (Option Errno)) : IoWaitsState :=
  { state with epoll := { state.epoll with failsNext := fails } }

def atRest (state : IoWaitsState) : Prop :=
  state.polling = none ∧ state.cancelling = []

instance (state : IoWaitsState) : Decidable (atRest state) :=
  inferInstanceAs (Decidable (_ ∧ _))

def step (available : Bool) (state : IoWaitsState) : Action → Option IoWaitsState
  | .registerWait registration memory fails =>
    some ((withFails state fails).registerNativeIoWait available registration memory).1
  | .cancelWait result runningTask fails =>
    some ((withFails state fails).cancelNativeIoWait available result runningTask).1
  | .writeResult result value => some (state.setResult result value)
  | .registerChannel channel events fails =>
    some ((withFails state fails).registerNetChannel available channel events).1
  | .updateChannel channel events fails =>
    some ((withFails state fails).updateNetChannel channel events).1
  | .unregisterChannel channel fails =>
    some ((withFails state fails).unregisterNetChannel channel).1
  | .closeFd fd => some { state with epoll := state.epoll.close fd }
  | .epollWait events =>
    if available ∧ atRest state ∧ state.batch = [] then
      some { state with
        batch := events
        epoll := state.epoll.report fun fd => events.any (·.token = .wait fd) }
    else none
  | .handleEvent fails =>
    if atRest state then (withFails state fails).handleEvent else none
  | .enqueued fails => (withFails state fails).enqueued

def start (fds : Nat → Int) : IoWaitsState where
  ioWaits := fun _ => none
  netChannels := fun _ => none
  channels := fun channel => ⟨fds channel, ⟨false, false⟩, false⟩
  registrations := fun _ => ⟨-1, .none, 0, 0⟩
  results := fun _ => ⟨-1, .none, none⟩
  epoll := .new
  batch := []
  polling := none
  cancelling := []
  ledger := .empty

def system (available : Bool) : TransitionSystem IoWaitsState Action where
  initial := fun state => ∃ fds, state = start fds
  step := step available

end IoWaits

end AsyncFlow
