import AsyncFlow.OutputStream

/-!
# Closing after the output is flushed

`close_after_flush` closes a connection when its output has been taken by the
kernel.  The handler of an event, however, closes it whenever the peer hung up,
and a peer that only closed its sending side hangs up too: what is queued is then
dropped.  The same happens when the user resumes reading and the end of the peer's
stream is read.
-/

namespace AsyncFlow

namespace TcpConnection

variable {options : TcpListenerOptions} {connection : TcpConnection} {answers : Answers}

/-! ### A closed connection stays as it is -/

section Dead

variable (dead : connection.alive = false)
include dead

theorem closeNow_of_dead (reason : CloseReason) : connection.closeNow reason = connection := by
  rcases closeNow_cases connection reason with ⟨same, _⟩ | ⟨lives, _⟩
  · exact same
  · simp [dead] at lives

theorem sendBuffer_of_dead (buffer : Buffer) (sends : List SendAnswer) :
    connection.sendBuffer options buffer answers sends = some (connection, .closed) := by
  simp [sendBuffer, refusesOutput, dead]

theorem sendView_of_dead (view : List Byte) :
    connection.sendView options view answers = some (connection, .closed) := by
  simp [sendView, refusesOutput, dead]

theorem closeAfterFlush_of_dead : connection.closeAfterFlush answers = connection := by
  simp [closeAfterFlush, dead]

theorem shutdownWrite_of_dead : connection.shutdownWrite answers = connection := by
  simp [shutdownWrite, dead]

theorem setReadPaused_of_dead (paused : Bool) :
    connection.setReadPaused paused answers = connection := by
  simp [setReadPaused, dead]

end Dead

theorem prepareRead_eq {prepared : TcpConnection}
    (prepares : connection.prepareRead options answers = some prepared) :
    ∃ size, prepared = { connection with readBuffer := size } := by
  unfold prepareRead at prepares
  split at prepares
  · split at prepares
    · cases prepares
      exact ⟨_, rfl⟩
    · contradiction
  · cases prepares
    exact ⟨_, rfl⟩

end TcpConnection

def Handling.hangsUp : Handling → Bool
  | finishing events => events.hangup
  | _ => false

namespace Connection

open TcpConnection

variable {options : TcpListenerOptions} {state after : ConnectionState} {action : Action}

theorem beginEvent_cases (options : TcpListenerOptions) (state : ConnectionState)
    (events : NetEvents) (answers : Answers) :
    (beginEvent options state events answers).connection = state.connection.closeNow .error ∧
        (events.error = true ∨ state.connection.readPaused = false) ∨
      ∃ size, (beginEvent options state events answers).connection =
        { state.connection with readBuffer := size } := by
  unfold beginEvent
  split
  · exact .inl ⟨rfl, .inl ‹_›⟩
  split
  · rename_i reads
    split
    · exact .inr (prepareRead_eq ‹_›)
    · exact .inl ⟨rfl, .inr (by simp at reads; exact reads.1)⟩
  · exact .inr ⟨_, rfl⟩

theorem frozen_of_step (dead : state.connection.alive = false)
    (steps : step options state action = some after) :
    after.connection.alive = false ∧ after.connection.output = state.connection.output ∧
      after.connection.closesAfterFlush = state.connection.closesAfterFlush := by
  obtain ⟨steps, -⟩ := steps_of_step steps
  cases steps with
  | send returns =>
    rw [sendBuffer_of_dead dead] at returns
    cases returns
    exact ⟨dead, rfl, rfl⟩
  | sendView returns =>
    rw [sendView_of_dead dead] at returns
    cases returns
    exact ⟨dead, rfl, rfl⟩
  | event answers idle hangs =>
    rcases beginEvent_cases options state _ answers with ⟨closed, -⟩ | ⟨size, prepared⟩
    · rw [closed, closeNow_of_dead dead]
      exact ⟨dead, rfl, rfl⟩
    · rw [prepared]
      exact ⟨dead, rfl, rfl⟩
  | recv reading goesOn lawful => simp [keepsReading, dead] at goesOn
  | finishEvent finishing ends =>
    simp only [endEvent, dead, Bool.false_and, Bool.false_eq_true, if_false,
      Option.map_some, Option.some.injEq] at ends
    exact ends ▸ ⟨dead, rfl, rfl⟩
  | _ =>
    simp [TcpConnection.pauseRead, TcpConnection.resumeRead, closeAfterFlush_of_dead dead,
      shutdownWrite_of_dead dead, setReadPaused_of_dead dead, closeNow_of_dead dead,
      withConnection, dead]

/-! ### Waiting for the flush -/

def waitsForFlush (state : ConnectionState) : Bool :=
  state.connection.alive && state.connection.closesAfterFlush

/-- A call of `close`, an error event, or a send that fails for good. -/
def Action.closesAnyway : Action → Bool
  | .close _ => true
  | .event events _ => events.error
  | action => action.answers.any (·.sends.contains .failed)

/-- Nothing else closes the connection while it waits for the flush. -/
def leftAlone (state : ConnectionState) (action : Action) : Prop :=
  waitsForFlush state → action.closesAnyway = false

/-- The hang-up flag of an event is looked at, or reading is resumed. -/
def Action.looksForEnd (handling : Handling) : Action → Bool
  | .resumeRead _ => true
  | .finishEvent _ => handling.hangsUp
  | _ => false

/-- While the connection waits for the flush, the end of the peer's stream is
not seen. -/
def endUnseen (state : ConnectionState) (action : Action) : Prop :=
  waitsForFlush state → action.looksForEnd state.handling = false

instance (state : ConnectionState) (action : Action) : Decidable (leftAlone state action) :=
  inferInstanceAs (Decidable (_ → _))

instance (state : ConnectionState) (action : Action) : Decidable (endUnseen state action) :=
  inferInstanceAs (Decidable (_ → _))

theorem closesAfterFlush_closeNow (connection : TcpConnection) (reason : CloseReason) :
    (connection.closeNow reason).closesAfterFlush = connection.closesAfterFlush := by
  unfold closeNow
  split <;> rfl

structure SameWait (paused : Bool) (before after : TcpConnection) : Prop where
  alive : after.alive = before.alive
  paused : after.readPaused = paused
  closesAfterFlush : after.closesAfterFlush = before.closesAfterFlush
  told : .peer ∈ after.onClose → .peer ∈ before.onClose

theorem sameWait_shutdownWrite (connection : TcpConnection) (answers : Answers) :
    SameWait connection.readPaused connection (connection.shutdownWrite answers) := by
  unfold TcpConnection.shutdownWrite
  split
  · exact ⟨rfl, rfl, rfl, id⟩
  dsimp only
  split
  · have keeps := Keeps.updateInterest { connection with writeShutdownRequested := true } answers
    exact ⟨(stream_updateInterest _ _).2.2, keeps.paused, keeps.closesAfterFlush, keeps.told⟩
  · have keeps := Keeps.shutdownWriteNow { connection with writeShutdownRequested := true } answers
    exact ⟨(stream_shutdownWriteNow _ _).2.2, keeps.paused, keeps.closesAfterFlush, keeps.told⟩

theorem sameWait_setReadPaused {connection : TcpConnection} (lives : connection.alive)
    (paused : Bool) (answers : Answers) :
    SameWait paused connection (connection.setReadPaused paused answers) := by
  rw [setReadPaused, if_neg (by simp [lives])]
  have keeps := Keeps.updateInterest { connection with readPaused := paused } answers
  exact ⟨(stream_updateInterest _ _).2.2, keeps.paused, keeps.closesAfterFlush, keeps.told⟩

/-- What a step leaves of the wait for the flush. -/
structure FlushStep (after : TcpConnection) : Prop where
  paused : after.alive → after.closesAfterFlush → after.readPaused
  flushed : after.alive = false → after.closesAfterFlush → after.output.contents = []

theorem flushStep_closeAfterFlush {connection : TcpConnection}
    (sound : Sound options connection) (lives : connection.alive) (answers : Answers) :
    FlushStep (connection.closeAfterFlush answers) := by
  rw [TcpConnection.closeAfterFlush, if_neg (by simp [lives])]
  dsimp only
  split
  · rename_i empty
    refine ⟨fun lives => by simp at lives, fun _ _ => ?_⟩
    rw [(stream_closeNow _ _).2]
    exact sound.valid.isEmpty_iff.mp empty
  · have keeps := Keeps.updateInterest
      { connection with readPaused := true, closesAfterFlush := true } answers
    refine ⟨fun _ _ => keeps.paused, fun dead => ?_⟩
    rw [(stream_updateInterest _ _).2.2] at dead
    exact absurd lives (by rw [show connection.alive = false from dead]; decide)

theorem flushStep_of_keeps {before after : TcpConnection} (keeps : Keeps before after)
    (paused : before.readPaused)
    (closes : after.alive = false → after.output.contents = []) : FlushStep after :=
  ⟨fun _ _ => keeps.paused ▸ paused, fun dead _ => closes dead⟩

theorem closesAfterFlush_of_step (inv : OutputInv options state) (lives : state.connection.alive)
    (steps : step options state action = some after) :
    (∃ answers, action = .closeAfterFlush answers) ∨
      after.connection.closesAfterFlush = state.connection.closesAfterFlush := by
  obtain ⟨steps, lawful⟩ := steps_of_step steps
  cases steps with
  | send returns =>
    exact .inr (inv.sound.sendBuffer inv.pending (List.Subset.refl _) returns
      lawful).keeps.closesAfterFlush
  | sendView returns =>
    exact .inr (inv.sound.sendView inv.pending returns lawful).keeps.closesAfterFlush
  | closeAfterFlush answers => exact .inl ⟨answers, rfl⟩
  | shutdownWrite answers => exact .inr (sameWait_shutdownWrite _ answers).closesAfterFlush
  | pauseRead answers => exact .inr (sameWait_setReadPaused lives true answers).closesAfterFlush
  | resumeRead answers => exact .inr (sameWait_setReadPaused lives false answers).closesAfterFlush
  | close reason => exact .inr (closesAfterFlush_closeNow _ reason)
  | event answers idle hangs =>
    rcases beginEvent_cases options state _ answers with ⟨closed, -⟩ | ⟨size, prepared⟩
    · exact .inr (closed ▸ closesAfterFlush_closeNow _ _)
    · exact .inr (by rw [prepared])
  | @recv events consumed answer reading goesOn isLawful =>
    right
    cases answer with
    | ended | failed => exact closesAfterFlush_closeNow _ _
    | received count | interrupted | wouldBlock => rfl
  | finishEvent finishing ends =>
    obtain ⟨flushed, flush, hangs⟩ := endEvent_cases inv.sound inv.pending ends lawful
    rcases hangs with ⟨rfl, -⟩ | ⟨-, -, rfl⟩
    · exact .inr flush.keeps.closesAfterFlush
    · exact .inr ((closesAfterFlush_closeNow _ _).trans flush.keeps.closesAfterFlush)
  | returnRead called | leaveRead reading stops | peer moves => exact .inr rfl

theorem flushStep_of_step (inv : OutputInv options state) (waits : waitsForFlush state)
    (paused : state.connection.readPaused)
    (alone : leftAlone state action) (unseen : endUnseen state action)
    (steps : step options state action = some after) : FlushStep after.connection := by
  obtain ⟨steps, lawful⟩ := steps_of_step steps
  have lives : state.connection.alive := by
    rw [waitsForFlush, Bool.and_eq_true] at waits
    exact waits.1
  have stays : state.connection.alive = false → state.connection.output.contents = [] := by
    simp [lives]
  have alone := alone waits
  have unseen := unseen waits
  cases steps with
  | @send buffer answers connection result returns =>
    have sent := inv.sound.sendBuffer inv.pending (List.Subset.refl _) returns lawful
    refine flushStep_of_keeps sent.keeps paused fun dead => ?_
    rcases sent.closes lives dead with ⟨empty, -⟩ | failed
    · exact empty
    · simp [Action.closesAnyway, Action.answers, failed] at alone
  | @sendView view answers connection result returns =>
    have sent := inv.sound.sendView inv.pending returns lawful
    refine flushStep_of_keeps sent.keeps paused fun dead => ?_
    rcases sent.closes lives dead with ⟨empty, -⟩ | failed
    · exact empty
    · simp [Action.closesAnyway, Action.answers, failed] at alone
  | closeAfterFlush answers => exact flushStep_closeAfterFlush inv.sound lives answers
  | shutdownWrite answers =>
    have same := sameWait_shutdownWrite state.connection answers
    exact ⟨fun _ _ => same.paused.trans paused, fun dead => by simp [same.alive, lives] at dead⟩
  | pauseRead answers =>
    have same := sameWait_setReadPaused lives true answers
    refine ⟨fun _ _ => same.paused, fun dead _ => ?_⟩
    exact absurd (same.alive.symm.trans dead) (by simp [lives])
  | resumeRead answers => simp [Action.looksForEnd] at unseen
  | close reason => simp [Action.closesAnyway] at alone
  | @event events answers idle hangs =>
    rcases beginEvent_cases options state events answers with
      ⟨-, failed | reads⟩ | ⟨size, prepared⟩
    · simp [show events.error = false from alone] at failed
    · simp [paused] at reads
    · rw [prepared]
      exact ⟨fun _ _ => paused, fun dead _ => stays dead⟩
  | @recv events consumed answer reading goesOn isLawful =>
    simp [keepsReading, paused] at goesOn
  | @finishEvent events answers connection finishing ends =>
    obtain ⟨flushed, flush, hangs⟩ := endEvent_cases inv.sound inv.pending ends lawful
    rcases hangs with ⟨rfl, -⟩ | ⟨-, hangs, -⟩
    · refine flushStep_of_keeps flush.keeps paused fun dead => ?_
      rcases flush.closes lives dead with ⟨empty, -⟩ | failed
      · exact empty
      · simp [Action.closesAnyway, Action.answers, failed] at alone
    · simp [Action.looksForEnd, finishing, Handling.hangsUp, hangs] at unseen
  | returnRead called | leaveRead reading stops | peer moves =>
    exact ⟨fun _ _ => paused, fun dead _ => stays dead⟩

/-- While nothing else closes the connection and the end of the peer's stream is
not seen, a connection that closes after its flush is closed only when the
kernel has taken every accepted byte. -/
theorem closed_after_flush (options : TcpListenerOptions) {state : ConnectionState}
    (reached : (system options).ReachableUnder
      (fun state action => leftAlone state action ∧ endUnseen state action) state)
    (closing : state.connection.closesAfterFlush) (closed : state.connection.alive = false) :
    state.connection.output.contents = [] ∧ (accepted state).Sublist state.connection.taken := by
  have covers := (outputInv_of_reachable reached).covers
  have flushed : FlushStep state.connection := by
    clear covers closing closed
    induction reached with
    | start starts =>
      obtain ⟨fd, rfl⟩ := starts
      exact ⟨fun _ closing => by simp [start, TcpConnection.new] at closing,
        fun _ closing => by simp [start, TcpConnection.new] at closing⟩
    | @next state after action reached permitted steps ih =>
      have inv := outputInv_of_reachable reached
      cases lives : state.connection.alive with
      | false =>
        obtain ⟨dead, output, closing⟩ := frozen_of_step lives steps
        refine ⟨fun lives => by simp [dead] at lives, fun _ closes => ?_⟩
        rw [output]
        exact ih.flushed lives (closing ▸ closes)
      | true =>
        cases closing : state.connection.closesAfterFlush with
        | true =>
          exact flushStep_of_step inv (by simp [waitsForFlush, lives, closing])
            (ih.paused lives closing) permitted.1 permitted.2 steps
        | false =>
          rcases closesAfterFlush_of_step inv lives steps with ⟨answers, rfl⟩ | same
          · obtain ⟨steps, -⟩ := steps_of_step
              (show step options state (.closeAfterFlush answers) = some after from steps)
            cases steps with
            | closeAfterFlush => exact flushStep_closeAfterFlush inv.sound lives answers
            | peer moves => simp [stepPeer] at moves
          · rw [closing] at same
            exact ⟨fun _ closes => by simp [same] at closes,
              fun _ closes => by simp [same] at closes⟩
  have empty := flushed.flushed closed closing
  refine ⟨empty, ?_⟩
  rw [TcpConnection.stream, empty, List.append_nil] at covers
  exact covers

theorem closed_after_flush_twoEvents : ∃ state, (system ⟨4, 4, 8⟩).ReachableUnder
        (fun state action => leftAlone state action ∧ endUnseen state action) state ∧
      state.connection.alive = false ∧ state.connection.closesAfterFlush ∧
        accepted state = [1, 2, 3] ∧ (accepted state).Sublist state.connection.taken := by
  obtain ⟨state, reached, observed⟩ :=
    (system ⟨4, 4, 8⟩).exists_reachableUnder (fun state action => leftAlone state action ∧ endUnseen state action)
    (show (system ⟨4, 4, 8⟩).initial (start 5) from ⟨5, rfl⟩)
    [.send (Buffer.copy [1, 2, 3]) ⟨[.took 1, .wouldBlock], .done, true, true⟩,
      .closeAfterFlush ⟨[], .done, true, true⟩,
      .event ⟨false, true, false, false⟩ ⟨[], .done, true, true⟩,
      .finishEvent ⟨[.took 1, .wouldBlock], .done, true, true⟩,
      .event ⟨false, true, false, false⟩ ⟨[], .done, true, true⟩,
      .finishEvent ⟨[.took 1], .done, true, true⟩]
    (fun state => state.connection.alive = false ∧ state.connection.closesAfterFlush ∧
      accepted state = [1, 2, 3])
    (by decide)
  exact ⟨state, reached, observed.1, observed.2.1, observed.2.2,
    (closed_after_flush _ reached observed.2.1 observed.1).2⟩

/-- The peer closes its sending side while output is queued: the event closes the
connection, and the queued bytes are dropped. -/
theorem hangup_drops_output : ∃ state, (system ⟨4, 4, 8⟩).ReachableUnder leftAlone state ∧
      state.connection.alive = false ∧ state.connection.closesAfterFlush ∧
        accepted state = [1, 2, 3] ∧ state.connection.taken = [1] :=
  (system ⟨4, 4, 8⟩).exists_reachableUnder leftAlone (show (system ⟨4, 4, 8⟩).initial (start 5) from ⟨5, rfl⟩)
    [.send (Buffer.copy [1, 2, 3]) ⟨[.took 1, .wouldBlock], .done, true, true⟩,
      .closeAfterFlush ⟨[], .done, true, true⟩, .peerCloses, .arriveEnd,
      .event ⟨false, false, false, true⟩ ⟨[], .done, true, true⟩,
      .finishEvent ⟨[], .done, true, true⟩]
    _ (by decide)

end Connection

end AsyncFlow
