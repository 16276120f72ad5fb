import AsyncFlow.BufferChain
import AsyncFlow.TransitionSystem

/-!
# A TCP connection

One `TcpConnection` of a shard: the calls of its user, the handling of its events
and the socket below it, all on the thread of the shard.  Calls and events
interleave only where a callback of the user runs: between events, and in
`on_read`.  What the system answers is part of the action.  The sending side of
the socket is the list of the system calls made on it; the receiving side is a
queue of bytes that the peer fills.
-/

namespace AsyncFlow

inductive CloseReason
  | localSide
  | peer
  | error
  deriving DecidableEq

inductive SendResult
  | accepted
  | backpressure
  | closed
  deriving DecidableEq

structure NetEvents where
  readable : Bool
  writable : Bool
  error : Bool
  hangup : Bool
  deriving DecidableEq

structure NetInterests where
  readable : Bool
  writable : Bool
  deriving DecidableEq

structure TcpListenerOptions where
  readBufferSize : Nat
  readBudgetBytes : Nat
  outputHighWatermark : Nat
  deriving DecidableEq

inductive SendAnswer
  | took (count : Nat)
  | interrupted
  | wouldBlock
  | failed
  deriving DecidableEq

inductive ShutdownAnswer
  | done
  | notConnected
  | failed
  deriving DecidableEq

structure Answers where
  sends : List SendAnswer
  shutdown : ShutdownAnswer
  /-- `epoll_ctl` succeeds -/
  updates : Bool
  /-- memory is allocated when asked for -/
  allocates : Bool
  deriving DecidableEq

inductive KernelCall
  | send (offered : List Byte) (answer : SendAnswer)
  | shutdownWrite (answer : ShutdownAnswer)
  deriving DecidableEq

namespace KernelCall

def taken : KernelCall → List Byte
  | send offered (.took count) => offered.take count
  | _ => []

/-- A send on a live socket fails or takes at least one of the bytes offered. -/
def lawful : KernelCall → Bool
  | send offered (.took count) => 1 ≤ count ∧ count ≤ offered.length
  | _ => true

end KernelCall

structure TcpConnection where
  fd : Int
  interests : NetInterests
  output : BufferChain
  readBuffer : Nat
  queuedBytes : Nat
  readPaused : Bool
  closesAfterFlush : Bool
  writeShutdownRequested : Bool
  writeShutdownDone : Bool
  /-- History: the system calls made on the sending side. -/
  kernelCalls : List KernelCall
  /-- History: the calls of `on_close`. -/
  onClose : List CloseReason
  deriving DecidableEq

namespace TcpConnection

def alive (connection : TcpConnection) : Bool :=
  0 ≤ connection.fd

def log (connection : TcpConnection) (call : KernelCall) : TcpConnection :=
  { connection with kernelCalls := connection.kernelCalls ++ [call] }

/-- The channel is unregistered, the descriptor closed and the user told.  In
`on_close` the user finds the connection closed. -/
def closeNow (connection : TcpConnection) (reason : CloseReason) : TcpConnection :=
  if connection.fd < 0 then connection
  else
    { connection with
      fd := -1
      interests := ⟨false, false⟩
      onClose := connection.onClose ++ [reason] }

/-- A channel without interests is taken out of the epoll set, which is not
reported to fail. -/
def updateInterest (connection : TcpConnection) (answers : Answers) : TcpConnection :=
  if !connection.alive then connection
  else
    let events : NetInterests := ⟨!connection.readPaused, !connection.output.isEmpty⟩
    if events ≠ connection.interests ∧ (answers.updates ∨ events = ⟨false, false⟩) then
      { connection with interests := events }
    else connection

def shutdownWriteNow (connection : TcpConnection) (answers : Answers) : TcpConnection × Bool :=
  if !connection.alive || connection.writeShutdownDone then (connection, false)
  else
    let called := connection.log (.shutdownWrite answers.shutdown)
    if answers.shutdown = .failed then (called, false)
    else (({ called with writeShutdownDone := true }).updateInterest answers, true)

/-! ### Output -/

def consumeOutput (connection : TcpConnection) (written : Nat) : TcpConnection :=
  let consumed := min written connection.queuedBytes
  { connection with
    queuedBytes := connection.queuedBytes - consumed
    output := connection.output.removePrefix consumed }

def afterFlush (connection : TcpConnection) (answers : Answers) : TcpConnection :=
  if connection.closesAfterFlush then connection.closeNow .localSide
  else if connection.writeShutdownRequested && !connection.writeShutdownDone then
    (connection.shutdownWriteNow answers).1
  else connection.updateInterest answers

def flushViews : Nat := 64

/-- `flush_output`.  Each round of the loop asks the kernel once; there is no
result while the kernel has not answered. -/
def flushOutput (answers : Answers) : List SendAnswer → TcpConnection → Option TcpConnection
  | sends, connection =>
    if !connection.alive || connection.output.isEmpty then
      some (connection.afterFlush answers)
    else
      let views := connection.output.fillViews flushViews
      if views = [] then some (connection.afterFlush answers)
      else
        match sends with
        | [] => none
        | answer :: sends =>
          let called := connection.log (.send views.flatten answer)
          match answer with
          | .took 0 => some (called.afterFlush answers)
          | .took (count + 1) => flushOutput answers sends (called.consumeOutput (count + 1))
          | .interrupted => flushOutput answers sends called
          | .wouldBlock => some (called.updateInterest answers)
          | .failed => some (called.closeNow .error)

def refusesOutput (connection : TcpConnection) : Bool :=
  !connection.alive || connection.writeShutdownRequested || connection.writeShutdownDone

def lacksRoom (options : TcpListenerOptions) (connection : TcpConnection) (size : Nat) : Bool :=
  options.outputHighWatermark ≤ connection.queuedBytes ∨
    options.outputHighWatermark - connection.queuedBytes < size

/-- `send(Buffer)`, with the answers of the kernel to the sends in it. -/
def sendBuffer (options : TcpListenerOptions) (connection : TcpConnection) (buffer : Buffer)
    (answers : Answers) (sends : List SendAnswer) : Option (TcpConnection × SendResult) :=
  if connection.refusesOutput then some (connection, .closed)
  else if buffer.isEmpty then some (connection, .accepted)
  else if connection.lacksRoom options buffer.size then some (connection, .backpressure)
  else if !answers.allocates then some (connection, .backpressure)
  else
    let queued :=
      { connection with
        output := connection.output.pushBack buffer
        queuedBytes := connection.queuedBytes + buffer.size }
    (queued.flushOutput answers sends).map fun flushed =>
      (flushed, if flushed.alive then .accepted else .closed)

inductive DirectSend
  | sentAll
  | left (view : List Byte)
  | failed
  deriving DecidableEq

/-- The loop of `send(BufferView)`.  It also returns the answers not used. -/
def directSend (view : List Byte) : List SendAnswer → TcpConnection →
      Option (TcpConnection × DirectSend × List SendAnswer)
  | [], _ => none
  | answer :: sends, connection =>
    let called := connection.log (.send view answer)
    match answer with
    | .took count =>
      if count = view.length then some (called, .sentAll, sends)
      else if 0 < count then some (called, .left (view.drop count), sends)
      else some (called, .left view, sends)
    | .interrupted => directSend view sends called
    | .wouldBlock => some (called, .left view, sends)
    | .failed => some (called, .failed, sends)

def sendCopy (options : TcpListenerOptions) (connection : TcpConnection) (view : List Byte)
    (answers : Answers) (sends : List SendAnswer) : Option (TcpConnection × SendResult) :=
  if answers.allocates then connection.sendBuffer options (Buffer.copy view) answers sends
  else some (connection, .backpressure)

def sendView (options : TcpListenerOptions) (connection : TcpConnection) (view : List Byte)
    (answers : Answers) : Option (TcpConnection × SendResult) :=
  if connection.refusesOutput then some (connection, .closed)
  else if view.isEmpty then some (connection, .accepted)
  else if connection.lacksRoom options view.length then some (connection, .backpressure)
  else if connection.output.isEmpty then
    (connection.directSend view answers.sends).bind fun (called, result, sends) =>
      match result with
      | .sentAll => some (called, .accepted)
      | .left rest => called.sendCopy options rest answers sends
      | .failed => some (called.closeNow .error, .closed)
  else connection.sendCopy options view answers answers.sends

def closeAfterFlush (connection : TcpConnection) (answers : Answers) : TcpConnection :=
  if !connection.alive then connection
  else
    let closing := { connection with readPaused := true, closesAfterFlush := true }
    if closing.output.isEmpty then closing.closeNow .localSide
    else closing.updateInterest answers

def shutdownWrite (connection : TcpConnection) (answers : Answers) : TcpConnection :=
  if !connection.alive || connection.writeShutdownDone then connection
  else
    let requested := { connection with writeShutdownRequested := true }
    if !requested.output.isEmpty then requested.updateInterest answers
    else (requested.shutdownWriteNow answers).1

def setReadPaused (connection : TcpConnection) (paused : Bool) (answers : Answers) :
    TcpConnection :=
  if !connection.alive then connection
  else ({ connection with readPaused := paused }).updateInterest answers

def pauseRead (connection : TcpConnection) (answers : Answers) : TcpConnection :=
  connection.setReadPaused true answers

def resumeRead (connection : TcpConnection) (answers : Answers) : TcpConnection :=
  connection.setReadPaused false answers

/-! ### Input -/

def readSize (options : TcpListenerOptions) : Nat :=
  if options.readBufferSize = 0 then 16 * 1024 else options.readBufferSize

/-- The buffer that `read_available` needs, unless it cannot be allocated. -/
def prepareRead (options : TcpListenerOptions) (connection : TcpConnection)
    (answers : Answers) : Option TcpConnection :=
  if connection.readBuffer < readSize options then
    if answers.allocates then some { connection with readBuffer := readSize options } else none
  else some connection

def keepsReading (options : TcpListenerOptions) (connection : TcpConnection)
    (consumed : Nat) : Bool :=
  connection.alive && !connection.readPaused && decide (consumed < options.readBudgetBytes)

def new (fd : Nat) : TcpConnection where
  fd := fd
  interests := ⟨true, false⟩
  output := BufferChain.new
  readBuffer := 0
  queuedBytes := 0
  readPaused := false
  closesAfterFlush := false
  writeShutdownRequested := false
  writeShutdownDone := false
  kernelCalls := []
  onClose := []

end TcpConnection

/-- The receiving side of the socket, and the peer. -/
structure Socket where
  /-- all that the peer sent -/
  sent : List Byte
  inFlight : List Byte
  unread : List Byte
  peerClosed : Bool
  /-- the end of the peer's stream has arrived -/
  endArrived : Bool
  deriving DecidableEq

def Socket.new : Socket where
  sent := []
  inFlight := []
  unread := []
  peerClosed := false
  endArrived := false

inductive RecvAnswer
  | received (count : Nat)
  | ended
  | interrupted
  | wouldBlock
  | failed
  deriving DecidableEq

/-- `recv` returns what has arrived, the end of the stream after all of it, and
blocks only where there is neither. -/
def RecvAnswer.lawful (socket : Socket) (size : Nat) : RecvAnswer → Bool
  | received count => 1 ≤ count ∧ count ≤ socket.unread.length ∧ count ≤ size
  | ended => socket.unread = [] ∧ socket.endArrived
  | wouldBlock => socket.unread = [] ∧ !socket.endArrived
  | interrupted | failed => true

inductive Handling
  | idle
  /-- at the loop condition of `read_available` -/
  | reading (events : NetEvents) (consumed : Nat)
  /-- in `on_read` -/
  | callback (events : NetEvents) (consumed : Nat)
  /-- `read_available` has returned or was not called -/
  | finishing (events : NetEvents)
  deriving DecidableEq

def Handling.runsUserCode : Handling → Bool
  | idle | callback _ _ => true
  | reading _ _ | finishing _ => false

inductive UserCall
  | send (payload : List Byte) (result : SendResult)
  | shutdownWrite
  deriving DecidableEq

def UserCall.accepted : UserCall → List Byte
  | send payload .accepted => payload
  | _ => []

structure ConnectionState where
  connection : TcpConnection
  handling : Handling
  socket : Socket
  /-- History: the calls of the user. -/
  calls : List UserCall
  /-- History: the views passed to `on_read`, joined. -/
  delivered : List Byte
  deriving DecidableEq

namespace Connection

inductive Action
  | send (buffer : Buffer) (answers : Answers)
  | sendView (view : List Byte) (answers : Answers)
  | closeAfterFlush (answers : Answers)
  | shutdownWrite (answers : Answers)
  | pauseRead (answers : Answers)
  | resumeRead (answers : Answers)
  /-- `close`, or the shard stops or removes the listener -/
  | close (reason : CloseReason)
  | event (events : NetEvents) (answers : Answers)
  | recv (answer : RecvAnswer)
  | returnRead
  | leaveRead
  | finishEvent (answers : Answers)
  | peerSends (bytes : List Byte)
  | peerCloses
  | arrive (count : Nat)
  | arriveEnd
  deriving DecidableEq

def withConnection (state : ConnectionState) (connection : TcpConnection) : ConnectionState :=
  { state with connection := connection }

def stepCall (options : TcpListenerOptions) (state : ConnectionState) :
    Action → Option ConnectionState
  | .send buffer answers =>
    (state.connection.sendBuffer options buffer answers answers.sends).map
      fun (connection, result) =>
        { state with
          connection := connection
          calls := state.calls ++ [.send buffer.view result] }
  | .sendView view answers =>
    (state.connection.sendView options view answers).map fun (connection, result) =>
      { state with
        connection := connection
        calls := state.calls ++ [.send view result] }
  | .closeAfterFlush answers =>
    some (withConnection state (state.connection.closeAfterFlush answers))
  | .shutdownWrite answers =>
    some { state with
      connection := state.connection.shutdownWrite answers
      calls := state.calls ++ [.shutdownWrite] }
  | .pauseRead answers =>
    some (withConnection state (state.connection.pauseRead answers))
  | .resumeRead answers =>
    some (withConnection state (state.connection.resumeRead answers))
  | .close reason => some (withConnection state (state.connection.closeNow reason))
  | _ => none

def beginEvent (options : TcpListenerOptions) (state : ConnectionState) (events : NetEvents)
    (answers : Answers) : ConnectionState :=
  if events.error then withConnection state (state.connection.closeNow .error)
  else if !state.connection.readPaused && events.readable then
    match state.connection.prepareRead options answers with
    | some connection =>
      { state with connection := connection, handling := .reading events 0 }
    | none =>
      { state with
        connection := state.connection.closeNow .error
        handling := .finishing events }
  else { state with handling := .finishing events }

/-- A round of the loop of `read_available`. -/
def readRound (state : ConnectionState) (events : NetEvents) (consumed : Nat) :
    RecvAnswer → ConnectionState
  | .received count =>
    { state with
      socket := { state.socket with unread := state.socket.unread.drop count }
      delivered := state.delivered ++ state.socket.unread.take count
      handling := .callback events (consumed + count) }
  | .ended =>
    { state with
      connection := state.connection.closeNow .peer
      handling := .finishing events }
  | .interrupted => state
  | .wouldBlock => { state with handling := .finishing events }
  | .failed =>
    { state with
      connection := state.connection.closeNow .error
      handling := .finishing events }

/-- The rest of `on_event` after `read_available`. -/
def endEvent (connection : TcpConnection) (events : NetEvents) (answers : Answers) :
    Option TcpConnection :=
  (if connection.alive && events.writable then
    connection.flushOutput answers answers.sends
  else some connection).map fun flushed =>
    if flushed.alive && events.hangup then flushed.closeNow .peer else flushed

def stepEvent (options : TcpListenerOptions) (state : ConnectionState) :
    Action → Option ConnectionState
  | .event events answers =>
    if state.handling = .idle ∧ (events.hangup → state.socket.endArrived) then
      some (beginEvent options state events answers)
    else none
  | .recv answer =>
    match state.handling with
    | .reading events consumed =>
      if state.connection.keepsReading options consumed ∧
          answer.lawful state.socket state.connection.readBuffer then
        some (readRound state events consumed answer)
      else none
    | _ => none
  | .returnRead =>
    match state.handling with
    | .callback events consumed => some { state with handling := .reading events consumed }
    | _ => none
  | .leaveRead =>
    match state.handling with
    | .reading events consumed =>
      if state.connection.keepsReading options consumed then none
      else some { state with handling := .finishing events }
    | _ => none
  | .finishEvent answers =>
    match state.handling with
    | .finishing events =>
      (endEvent state.connection events answers).map fun connection =>
        { state with connection := connection, handling := .idle }
    | _ => none
  | _ => none

def stepPeer (socket : Socket) : Action → Option Socket
  | .peerSends bytes =>
    if socket.peerClosed then none
    else some { socket with
      sent := socket.sent ++ bytes
      inFlight := socket.inFlight ++ bytes }
  | .peerCloses => some { socket with peerClosed := true }
  | .arrive count =>
    some { socket with
      unread := socket.unread ++ socket.inFlight.take count
      inFlight := socket.inFlight.drop count }
  | .arriveEnd =>
    if socket.peerClosed ∧ socket.inFlight = [] then
      some { socket with endArrived := true }
    else none
  | _ => none

/-- A step of the user, of the event handler or of the peer, in which the kernel
keeps to its side of `send`. -/
def step (options : TcpListenerOptions) (state : ConnectionState) (action : Action) :
    Option ConnectionState :=
  let steps :=
    match action with
    | .event _ _ | .recv _ | .returnRead | .leaveRead | .finishEvent _ =>
      stepEvent options state action
    | .peerSends _ | .peerCloses | .arrive _ | .arriveEnd =>
      (stepPeer state.socket action).map fun socket => { state with socket := socket }
    | _ => if state.handling.runsUserCode then stepCall options state action else none
  steps.filter fun after => after.connection.kernelCalls.all KernelCall.lawful

def start (fd : Nat) : ConnectionState where
  connection := TcpConnection.new fd
  handling := .idle
  socket := Socket.new
  calls := []
  delivered := []

def system (options : TcpListenerOptions) : TransitionSystem ConnectionState Action where
  initial := fun state => ∃ fd, state = start fd
  step := step options

end Connection

end AsyncFlow
