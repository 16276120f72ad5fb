import AsyncFlow.FlushOutput

/-!
# The steps of a connection

An inversion of the step function of a connection, with one case for each
action.
-/

namespace AsyncFlow

open Option

namespace Connection

variable {options : TcpListenerOptions} {state after : ConnectionState} {action : Action}

inductive Steps (options : TcpListenerOptions) (state : ConnectionState) :
    Action → ConnectionState → Prop
  | send {buffer : Buffer} {answers : Answers} {connection : TcpConnection}
      {result : SendResult}
      (returns : state.connection.sendBuffer options buffer answers answers.sends =
        some (connection, result)) :
      Steps options state (.send buffer answers)
        { state with
          connection := connection
          calls := state.calls ++ [.send buffer.view result] }
  | sendView {view : List Byte} {answers : Answers} {connection : TcpConnection}
      {result : SendResult}
      (returns : state.connection.sendView options view answers = some (connection, result)) :
      Steps options state (.sendView view answers)
        { state with
          connection := connection
          calls := state.calls ++ [.send view result] }
  | closeAfterFlush (answers : Answers) : Steps options state (.closeAfterFlush answers)
        (withConnection state (state.connection.closeAfterFlush answers))
  | shutdownWrite (answers : Answers) : Steps options state (.shutdownWrite answers)
        { state with
          connection := state.connection.shutdownWrite answers
          calls := state.calls ++ [.shutdownWrite] }
  | pauseRead (answers : Answers) : Steps options state (.pauseRead answers)
        (withConnection state (state.connection.pauseRead answers))
  | resumeRead (answers : Answers) : Steps options state (.resumeRead answers)
        (withConnection state (state.connection.resumeRead answers))
  | close (reason : CloseReason) :
      Steps options state (.close reason) (withConnection state (state.connection.closeNow reason))
  | event {events : NetEvents} (answers : Answers) (idle : state.handling = .idle)
      (hangs : events.hangup → state.socket.endArrived) :
      Steps options state (.event events answers) (beginEvent options state events answers)
  | recv {events : NetEvents} {consumed : Nat} {answer : RecvAnswer}
      (reading : state.handling = .reading events consumed)
      (goesOn : state.connection.keepsReading options consumed)
      (lawful : answer.lawful state.socket state.connection.readBuffer) :
      Steps options state (.recv answer) (readRound state events consumed answer)
  | returnRead {events : NetEvents} {consumed : Nat}
      (called : state.handling = .callback events consumed) :
      Steps options state .returnRead { state with handling := .reading events consumed }
  | leaveRead {events : NetEvents} {consumed : Nat}
      (reading : state.handling = .reading events consumed)
      (stops : state.connection.keepsReading options consumed = false) :
      Steps options state .leaveRead { state with handling := .finishing events }
  | finishEvent {events : NetEvents} {answers : Answers} {connection : TcpConnection}
      (finishing : state.handling = .finishing events)
      (ends : endEvent state.connection events answers = some connection) :
      Steps options state (.finishEvent answers)
        { state with connection := connection, handling := .idle }
  | peer {action : Action} {socket : Socket} (moves : stepPeer state.socket action = some socket) :
      Steps options state action { state with socket := socket }

theorem steps_of_stepEvent (steps : stepEvent options state action = some after) :
    Steps options state action after := by
  cases action <;> simp only [stepEvent, reduceCtorEq] at steps <;> split at steps <;>
    try contradiction
  case event.isTrue events answers enabled =>
    cases steps
    exact .event answers enabled.1 enabled.2
  case h_1 answer handling events consumed reading =>
    obtain ⟨enabled, ⟨⟩⟩ := ite_none_right_eq_some.mp steps
    exact .recv reading enabled.1 enabled.2
  case h_1 handling events consumed called =>
    cases steps
    exact .returnRead called
  case h_1 handling events consumed reading =>
    obtain ⟨stops, ⟨⟩⟩ := ite_none_left_eq_some.mp steps
    exact .leaveRead reading (by simpa using stops)
  case h_1 answers handling events finishing =>
    obtain ⟨connection, ends, rfl⟩ := map_eq_some_iff.mp steps
    exact .finishEvent finishing ends

theorem steps_of_stepCall (steps : stepCall options state action = some after) :
    Steps options state action after := by
  cases action with
  | send buffer answers =>
    obtain ⟨⟨connection, result⟩, returns, rfl⟩ := map_eq_some_iff.mp steps
    exact .send returns
  | sendView view answers =>
    obtain ⟨⟨connection, result⟩, returns, rfl⟩ := map_eq_some_iff.mp steps
    exact .sendView returns
  | closeAfterFlush answers => cases steps; exact .closeAfterFlush answers
  | shutdownWrite answers => cases steps; exact .shutdownWrite answers
  | pauseRead answers => cases steps; exact .pauseRead answers
  | resumeRead answers => cases steps; exact .resumeRead answers
  | close reason => cases steps; exact .close reason
  | _ => simp [stepCall] at steps

theorem steps_of_step (steps : step options state action = some after) :
    Steps options state action after ∧ after.connection.lawful := by
  obtain ⟨steps, lawful⟩ := filter_eq_some_iff.mp steps
  refine ⟨?_, lawful⟩
  split at steps
  all_goals first
    | exact steps_of_stepEvent steps
    | (obtain ⟨socket, moves, rfl⟩ := map_eq_some_iff.mp steps
       exact .peer moves)
    | skip
  split at steps
  · exact steps_of_stepCall steps
  · contradiction

end Connection

end AsyncFlow
