import AsyncFlow.CloseAfterFlush

/-!
# What is read before the peer's close is reported

The handler of an event reads no more than a budget, and then closes the
connection when the peer hung up.  Bytes beyond the budget, and all bytes when the
event does not say that there is something to read, are dropped.  Where every
event with the hang-up flag can be read to the end, the user gets all that the
peer sent.
-/

namespace AsyncFlow

open List

namespace Connection

open TcpConnection

variable {options : TcpListenerOptions} {state after : ConnectionState} {action : Action}

/-- The handler does not pause reading and does not close the connection in the
name of the peer, and there is no error event. -/
def Action.letsRead : Action → Bool
  | .pauseRead _ | .closeAfterFlush _ => false
  | .close reason => reason ≠ .peer
  | .event events _ => !events.error
  | _ => true

/-- The event has the readable flag, and what is left to read is within the budget. -/
def readableToTheEnd (options : TcpListenerOptions) (state : ConnectionState) : Action → Prop
  | .event events _ => events.hangup →
      events.readable ∧ state.socket.unread.length ≤ options.readBudgetBytes
  | _ => True

instance (options : TcpListenerOptions) (state : ConnectionState) (action : Action) :
    Decidable (readableToTheEnd options state action) :=
  match action with
  | .event _ _ => inferInstanceAs (Decidable (_ → _))
  | .send _ _ | .sendView _ _ | .closeAfterFlush _ | .shutdownWrite _ | .pauseRead _
  | .resumeRead _ | .close _ | .recv _ | .returnRead | .leaveRead | .finishEvent _
  | .peerSends _ | .peerCloses | .arrive _ | .arriveEnd => inferInstanceAs (Decidable True)

def ReadsAll (options : TcpListenerOptions) (state : ConnectionState) : Prop :=
  match state.handling with
  | .idle => True
  | .reading events consumed | .callback events consumed =>
    events.hangup → state.socket.endArrived ∧
      consumed + state.socket.unread.length ≤ options.readBudgetBytes
  | .finishing events =>
    events.hangup → state.connection.alive → state.socket.endArrived ∧ state.socket.unread = []

structure InputInv (options : TcpListenerOptions) (state : ConnectionState) : Prop where
  whole : state.delivered ++ state.socket.unread ++ state.socket.inFlight = state.socket.sent
  ended : state.socket.endArrived → state.socket.peerClosed ∧ state.socket.inFlight = []
  reading : state.connection.readPaused = false
  handles : ReadsAll options state
  told : .peer ∈ state.connection.onClose →
    state.connection.alive = false ∧ state.socket.endArrived ∧ state.delivered = state.socket.sent

theorem stepPeer_cases {before socket : Socket} (moves : stepPeer before action = some socket) :
    (∃ bytes, before.peerClosed = false ∧ socket = { before with
        sent := before.sent ++ bytes
        inFlight := before.inFlight ++ bytes }) ∨
      socket = { before with peerClosed := true } ∨
      (∃ count, socket = { before with
        unread := before.unread ++ before.inFlight.take count
        inFlight := before.inFlight.drop count }) ∨
      before.peerClosed ∧ before.inFlight = [] ∧ socket = { before with endArrived := true } := by
  cases action <;> simp only [stepPeer, reduceCtorEq] at moves <;> grind

namespace InputInv

theorem delivered_eq (inv : InputInv options state) (ended : state.socket.endArrived)
    (empty : state.socket.unread = []) : state.delivered = state.socket.sent := by
  rw [← inv.whole, empty, (inv.ended ended).2, append_nil, append_nil]

variable {connection : TcpConnection}

theorem call (inv : InputInv options state) {calls : List UserCall}
    (paused : connection.readPaused = false) (revived : connection.alive → state.connection.alive)
    (told : .peer ∈ connection.onClose → .peer ∈ state.connection.onClose) :
    InputInv options { state with connection := connection, calls := calls } where
  whole := inv.whole
  ended := inv.ended
  reading := paused
  handles := by
    have handles := inv.handles
    unfold ReadsAll at handles ⊢
    split <;> simp_all
  told := fun tells => by
    obtain ⟨dead, ended, all⟩ := inv.told (told tells)
    exact ⟨Bool.eq_false_iff.mpr fun lives => by simp [revived lives] at dead, ended, all⟩

theorem keeps (inv : InputInv options state) {calls : List UserCall}
    (keeps : Keeps state.connection connection) :
    InputInv options { state with connection := connection, calls := calls } :=
  inv.call (keeps.paused.trans inv.reading) keeps.revived keeps.told

variable {events : NetEvents}

section

variable (inv : InputInv options state)

include inv

theorem finish (keeps : Keeps state.connection connection)
    (reads : events.hangup → connection.alive →
      state.socket.endArrived ∧ state.socket.unread = []) :
    InputInv options { state with connection := connection, handling := .finishing events } :=
  have called : InputInv options { state with connection := connection } := inv.keeps keeps
  { called with handles := reads }

theorem tell {handling : Handling}
    (ended : state.socket.endArrived) (empty : state.socket.unread = [])
    (handles : handling = .idle ∨ ∃ events, handling = .finishing events) : InputInv options
      { state with connection := state.connection.closeNow .peer, handling := handling } where
  whole := inv.whole
  ended := inv.ended
  reading := by
    rcases closeNow_cases state.connection .peer with ⟨same, _⟩ | ⟨_, closed⟩
    · rw [same]
      exact inv.reading
    · rw [closed]
      exact inv.reading
  handles := by
    rcases handles with rfl | ⟨events, rfl⟩
    · trivial
    · intro _ lives
      simp at lives
  told := fun _ => ⟨alive_closeNow _ _, ended, inv.delivered_eq ended empty⟩

theorem event {answers : Answers}
    (hangs : events.hangup → state.socket.endArrived) (noError : events.error = false)
    (readable : events.hangup →
      events.readable ∧ state.socket.unread.length ≤ options.readBudgetBytes) :
    InputInv options (beginEvent options state events answers) := by
  rw [beginEvent, if_neg (by simp [noError])]
  split
  · split
    · rename_i prepares
      obtain ⟨size, rfl⟩ := prepareRead_eq prepares
      exact { inv with handles := fun hangup =>
        ⟨hangs hangup, by simpa using (readable hangup).2⟩ }
    · exact inv.finish (.closeNow _ (by decide)) fun _ lives => by simp at lives
  · rename_i ignores
    refine inv.finish (.refl _) fun hangup => ?_
    simp [inv.reading, (readable hangup).1] at ignores

theorem read {consumed : Nat} {answer : RecvAnswer}
    (reading : state.handling = .reading events consumed) (lives : state.connection.alive)
    (lawful : answer.lawful state.socket state.connection.readBuffer) :
    InputInv options (readRound state events consumed answer) := by
  have handles := inv.handles
  rw [ReadsAll, reading] at handles
  cases answer with
  | received count =>
    simp only [RecvAnswer.lawful, decide_eq_true_eq] at lawful
    refine ⟨?_, inv.ended, inv.reading, fun hangup => ?_, fun tells => ?_⟩
    · simp only [readRound, append_assoc, take_append_drop]
      simpa using inv.whole
    · obtain ⟨ended, within⟩ := handles hangup
      refine ⟨ended, ?_⟩
      simp only [readRound, length_drop]
      omega
    · have dead := (inv.told tells).1
      simp [lives] at dead
  | ended =>
    simp only [RecvAnswer.lawful, decide_eq_true_eq] at lawful
    exact inv.tell lawful.2 lawful.1 (.inr ⟨events, rfl⟩)
  | interrupted => exact inv
  | wouldBlock =>
    simp only [RecvAnswer.lawful, decide_eq_true_eq] at lawful
    exact inv.finish (.refl _) fun hangup _ => ⟨(handles hangup).1, lawful.1⟩
  | failed => exact inv.finish (.closeNow _ (by decide)) fun _ lives => by simp at lives

theorem endsEvent (output : OutputInv options state)
    {answers : Answers} (finishing : state.handling = .finishing events)
    (ends : endEvent state.connection events answers = some connection)
    (lawful : connection.lawful) :
    InputInv options { state with connection := connection, handling := .idle } := by
  have handles := inv.handles
  rw [ReadsAll, finishing] at handles
  obtain ⟨flushed, flush, hangs⟩ := endEvent_cases output.sound output.pending ends lawful
  have called : InputInv options { state with connection := flushed } := inv.keeps flush.keeps
  rcases hangs with ⟨rfl, -⟩ | ⟨lives, hangup, rfl⟩
  · exact { called with handles := trivial }
  · obtain ⟨ended, empty⟩ := handles hangup (flush.keeps.revived lives)
    exact called.tell ended empty (.inl rfl)

theorem settle {socket : Socket}
    (whole : state.delivered ++ socket.unread ++ socket.inFlight = socket.sent)
    (ended : socket.endArrived → socket.peerClosed ∧ socket.inFlight = [])
    (settled : state.socket.endArrived → socket.endArrived ∧
      socket.unread = state.socket.unread ∧ socket.sent = state.socket.sent) :
    InputInv options { state with socket := socket } where
  whole := whole
  ended := ended
  reading := inv.reading
  handles := by
    have handles := inv.handles
    unfold ReadsAll at handles ⊢
    split <;> simp_all
  told := fun tells => by
    obtain ⟨dead, ended, all⟩ := inv.told tells
    obtain ⟨still, -, sent⟩ := settled ended
    exact ⟨dead, still, all.trans sent.symm⟩

theorem peer {socket : Socket} (moves : stepPeer state.socket action = some socket) :
    InputInv options { state with socket := socket } := by
  have whole := inv.whole
  have ended := inv.ended
  rcases stepPeer_cases moves with
    ⟨bytes, still, rfl⟩ | rfl | ⟨count, rfl⟩ | ⟨closed, none, rfl⟩
  · have notEnded : ¬ state.socket.endArrived = true := fun arrived => by
      simp [(ended arrived).1] at still
    refine inv.settle ?_ (absurd · notEnded) (absurd · notEnded)
    simp only [← whole, append_assoc]
  · exact inv.settle whole (fun arrived => ⟨rfl, (ended arrived).2⟩) (⟨·, rfl, rfl⟩)
  · refine inv.settle (by simpa using whole) (fun arrived => ?_) fun arrived => ?_
    · exact ⟨(ended arrived).1, by simp [(ended arrived).2]⟩
    · exact ⟨arrived, by simp [(ended arrived).2], rfl⟩
  · exact inv.settle whole (fun _ => ⟨closed, none⟩) fun _ => ⟨rfl, rfl, rfl⟩

end

end InputInv

theorem inputInv_of_step (inv : InputInv options state) (output : OutputInv options state)
    (reads : action.letsRead = true) (readable : readableToTheEnd options state action)
    (steps : step options state action = some after) : InputInv options after := by
  obtain ⟨steps, lawful⟩ := steps_of_step steps
  cases steps with
  | send returns =>
    exact inv.keeps (output.sound.sendBuffer output.pending (List.Subset.refl _) returns
      lawful).keeps
  | sendView returns =>
    exact inv.keeps (output.sound.sendView output.pending returns lawful).keeps
  | closeAfterFlush answers | pauseRead answers => simp [Action.letsRead] at reads
  | shutdownWrite answers =>
    have same := sameWait_shutdownWrite state.connection answers
    exact inv.call (same.paused.trans inv.reading) (fun lives => same.alive ▸ lives) same.told
  | resumeRead answers =>
    cases lives : state.connection.alive with
    | false =>
      rw [TcpConnection.resumeRead, setReadPaused_of_dead lives]
      exact inv
    | true =>
      have same := sameWait_setReadPaused lives false answers
      exact inv.call same.paused (fun _ => lives) same.told
  | close reason =>
    exact inv.keeps (.closeNow _ (by simpa [Action.letsRead] using reads))
  | event answers idle hangs =>
    exact inv.event hangs (by simpa [Action.letsRead] using reads) readable
  | recv reading goesOn isLawful =>
    simp only [keepsReading, Bool.and_eq_true] at goesOn
    exact inv.read reading goesOn.1.1 isLawful
  | returnRead called =>
    have handles := inv.handles
    rw [ReadsAll, called] at handles
    exact { inv with handles := handles }
  | @leaveRead events consumed reading stops =>
    have handles := inv.handles
    rw [ReadsAll, reading] at handles
    refine inv.finish (.refl _) fun hangup lives => ?_
    obtain ⟨ended, within⟩ := handles hangup
    have spent : options.readBudgetBytes ≤ consumed := by
      simpa [keepsReading, lives, inv.reading] using stops
    exact ⟨ended, eq_nil_of_length_eq_zero (by omega)⟩
  | finishEvent finishing ends => exact inv.endsEvent output finishing ends lawful
  | peer moves => exact inv.peer moves

/-- A handler that keeps reading gets all that the peer sent before it is told
that the peer closed, as long as every event with the hang-up flag can be read
to the end. -/
theorem delivered_before_peer_close (options : TcpListenerOptions) {state : ConnectionState}
    (reached : (system options).ReachableUnder
      (fun state action => action.letsRead = true ∧ readableToTheEnd options state action) state)
    (told : .peer ∈ state.connection.onClose) : state.delivered = state.socket.sent := by
  have inv : InputInv options state := by
    clear told
    induction reached with
    | start starts =>
      obtain ⟨fd, rfl⟩ := starts
      refine ⟨rfl, fun arrived => ?_, rfl, trivial, fun tells => ?_⟩
      · simp [start, Socket.new] at arrived
      · simp [start, TcpConnection.new] at tells
    | next reached permitted steps ih =>
      exact inputInv_of_step ih (outputInv_of_reachable reached) permitted.1 permitted.2 steps
  exact (inv.told told).2.2

theorem delivered_before_peer_close_twoRounds : ∃ state, (system ⟨2, 4, 8⟩).ReachableUnder
        (fun state action => action.letsRead = true ∧ readableToTheEnd ⟨2, 4, 8⟩ state action)
        state ∧ .peer ∈ state.connection.onClose ∧ state.socket.sent = [1, 2, 3] ∧
        state.delivered = state.socket.sent := by
  obtain ⟨state, reached, observed⟩ := (system ⟨2, 4, 8⟩).exists_reachableUnder
    (fun state action => action.letsRead = true ∧ readableToTheEnd ⟨2, 4, 8⟩ state action)
    (show (system ⟨2, 4, 8⟩).initial (start 5) from ⟨5, rfl⟩)
    [.peerSends [1, 2, 3], .peerCloses, .arrive 3, .arriveEnd,
      .event ⟨true, false, false, true⟩ ⟨[], .done, true, true⟩,
      .recv (.received 2), .returnRead, .recv (.received 1), .returnRead, .recv .ended]
    (fun state => .peer ∈ state.connection.onClose ∧ state.socket.sent = [1, 2, 3]) (by decide)
  exact ⟨state, reached, observed.1, observed.2, delivered_before_peer_close _ reached observed.1⟩

/-- The peer sends more than the budget and closes: the event that reports both closes
the connection with a byte unread. -/
theorem budget_drops_input :
    ∃ state, (system ⟨2, 2, 8⟩).ReachableUnder (fun _ action => action.letsRead = true) state ∧
      state.connection.onClose = [.peer] ∧ state.socket.sent = [1, 2, 3] ∧
        state.delivered = [1, 2] :=
  (system ⟨2, 2, 8⟩).exists_reachableUnder (fun _ action => action.letsRead = true)
    (show (system ⟨2, 2, 8⟩).initial (start 5) from ⟨5, rfl⟩)
    [.peerSends [1, 2, 3], .peerCloses, .arrive 3, .arriveEnd,
      .event ⟨true, false, false, true⟩ ⟨[], .done, true, true⟩,
      .recv (.received 2), .returnRead, .leaveRead, .finishEvent ⟨[], .done, true, true⟩]
    _ (by decide)

end Connection

end AsyncFlow
