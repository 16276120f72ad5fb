import AsyncFlow.ConnectionSteps
import AsyncFlow.SendOutput

/-!
# The output of a connection is a stream

Over every run of a connection, what the kernel took and what is queued are
together the payloads of the accepted sends, in the order of the calls.
-/

namespace AsyncFlow

open List

namespace TcpConnection

variable {options : TcpListenerOptions} {connection : TcpConnection} {answers : Answers}

/-- What the calls other than sends do to the output. -/
structure Moved (options : TcpListenerOptions) (before after : TcpConnection) : Prop where
  sound : Sound options after
  pending : Pending after
  stream : after.stream = before.stream
  requested : before.writeShutdownRequested → after.writeShutdownRequested
  revived : after.alive → before.alive

namespace Sound

section

variable (sound : Sound options connection)

include sound

theorem stays (pending : Pending connection) : Moved options connection connection :=
  ⟨sound, pending, rfl, id, id⟩

theorem moved_closeNow (reason : CloseReason) :
    Moved options connection (connection.closeNow reason) := by
  refine ⟨sound.closeNow reason, fun lives => by simp at lives,
    (stream_closeNow connection reason).1, fun requested => ?_, fun lives => by simp at lives⟩
  rcases closeNow_cases connection reason with ⟨same, _⟩ | ⟨_, closed⟩
  · rwa [same]
  · rwa [closed]

section

variable (pending : Pending connection)

include pending

theorem moved_updateInterest (answers : Answers)
    : Moved options connection (connection.updateInterest answers) := by
  obtain ⟨interests, same⟩ := updateInterest_eq connection answers
  rw [same]
  exact ⟨sound.withInterests interests, pending, rfl, id, id⟩

theorem moved_closeAfterFlush (answers : Answers)
    : Moved options connection (connection.closeAfterFlush answers) := by
  unfold TcpConnection.closeAfterFlush
  split
  · exact sound.stays pending
  have closing : Sound options
      { connection with readPaused := true, closesAfterFlush := true } :=
    { sound with }
  dsimp only
  split
  · have moved := closing.moved_closeNow .localSide
    exact { moved with }
  · rename_i holds
    have moved := closing.moved_updateInterest
      (fun _ _ none => holds (sound.valid.isEmpty_iff.mpr none)) answers
    exact { moved with }

theorem moved_setReadPaused (paused : Bool) (answers : Answers) :
    Moved options connection (connection.setReadPaused paused answers) := by
  unfold TcpConnection.setReadPaused
  split
  · exact sound.stays pending
  have set : Sound options { connection with readPaused := paused } :=
    { sound with }
  have moved := set.moved_updateInterest pending answers
  exact { moved with }

theorem moved_prepareRead {prepared : TcpConnection}
    (prepares : connection.prepareRead options answers = some prepared) :
    Moved options connection prepared := by
  unfold TcpConnection.prepareRead at prepares
  split at prepares
  · split at prepares
    · cases prepares
      exact ⟨{ sound with }, pending, rfl, id, id⟩
    · contradiction
  · cases prepares
    exact sound.stays pending

theorem moved_shutdownWrite (answers : Answers) :
    Moved options connection (connection.shutdownWrite answers) ∧
      ((connection.shutdownWrite answers).alive →
        (connection.shutdownWrite answers).writeShutdownRequested) := by
  unfold TcpConnection.shutdownWrite
  split
  · rename_i refuses
    refine ⟨sound.stays pending, fun lives => ?_⟩
    simp only [lives, Bool.not_true, Bool.false_or] at refuses
    exact sound.requested refuses
  have requested : Sound options { connection with writeShutdownRequested := true } :=
    { sound with settled := fun shut => ⟨(sound.settled shut).1, rfl⟩, requested := fun _ => rfl }
  dsimp only
  split
  · have keeps := Keeps.updateInterest { connection with writeShutdownRequested := true } answers
    have moved := requested.moved_updateInterest pending answers
    exact ⟨{ moved with requested := fun _ => keeps.requested }, fun _ => keeps.requested⟩
  · rename_i empty
    have keeps := Keeps.shutdownWriteNow { connection with writeShutdownRequested := true } answers
    have now := stream_shutdownWriteNow { connection with writeShutdownRequested := true } answers
    refine ⟨⟨requested.shutdownWriteNow answers ?_ rfl, ?_, now.1, fun _ => keeps.requested,
      keeps.revived⟩, fun _ => keeps.requested⟩
    · exact sound.valid.isEmpty_iff.mp (by simpa using empty)
    · intro lives closes
      rw [now.2.1]
      exact pending (keeps.revived lives) (keeps.closesAfterFlush ▸ closes)

end

end

end Sound

end TcpConnection

def UserCall.isAccepted : UserCall → Bool
  | send _ .accepted => true
  | _ => false

namespace Connection

open TcpConnection

variable {options : TcpListenerOptions} {state after : ConnectionState} {action : Action}

def accepted (state : ConnectionState) : List Byte :=
  (state.calls.map UserCall.accepted).flatten

def Action.answers : Action → Option Answers
  | .send _ answers | .sendView _ answers | .closeAfterFlush answers | .shutdownWrite answers
  | .pauseRead answers | .resumeRead answers | .event _ answers | .finishEvent answers =>
    some answers
  | .close _ | .recv _ | .returnRead | .leaveRead | .peerSends _ | .peerCloses | .arrive _
  | .arriveEnd => none

def Action.allocates (action : Action) : Bool :=
  action.answers.all (·.allocates)

section

variable {connection ended : TcpConnection} {events : NetEvents} {answers : Answers}
  (sound : Sound options connection) (pending : Pending connection)
  (ends : endEvent connection events answers = some ended)

include sound pending ends

theorem endEvent_cases (lawful : ended.lawful) :
    ∃ flushed, Flushed options answers.sends connection flushed ∧
      (ended = flushed ∧ (flushed.alive → events.hangup = false) ∨
        flushed.alive ∧ events.hangup ∧ ended = flushed.closeNow .peer) := by
  obtain ⟨flushed, flushes, rfl⟩ := Option.map_eq_some_iff.mp ends
  have flushedLawful : flushed.lawful := by
    split at lawful
    · rcases closeNow_cases flushed .peer with ⟨same, _⟩ | ⟨_, closed⟩
      · rwa [same] at lawful
      · rwa [closed] at lawful
    · exact lawful
  refine ⟨flushed, ?_, ?_⟩
  · split at flushes
    · rename_i writes
      rw [Bool.and_eq_true] at writes
      exact sound.flushOutput writes.1 flushes flushedLawful
    · cases flushes
      exact ⟨sound, .refl _, pending, rfl, fun lives dead => by simp [lives] at dead⟩
  · split
    · rename_i hangs
      rw [Bool.and_eq_true] at hangs
      exact .inr ⟨hangs.1, hangs.2, rfl⟩
    · rename_i stays
      exact .inl ⟨rfl, fun lives => by simpa [lives] using stays⟩

theorem moved_endEvent (lawful : ended.lawful) : Moved options connection ended := by
  obtain ⟨flushed, flush, hangs⟩ := endEvent_cases sound pending ends lawful
  have moved : Moved options connection flushed :=
    ⟨flush.sound, flush.pending, flush.stream,
      fun requested => flush.keeps.requested ▸ requested, flush.keeps.revived⟩
  rcases hangs with ⟨rfl, -⟩ | ⟨-, -, rfl⟩
  · exact moved
  · have closed := moved.sound.moved_closeNow .peer
    exact { closed with
      stream := closed.stream.trans moved.stream
      requested := fun requested => closed.requested (moved.requested requested)
      revived := fun lives => moved.revived (closed.revived lives) }

end

inductive OutputStep (options : TcpListenerOptions) (state : ConnectionState) (action : Action)
    (after : ConnectionState) : Prop
  | send (payload : List Byte) (result : SendResult) (answers : Answers)
      (given : action.answers = some answers)
      (sent : Sent options answers payload result state.connection after.connection)
      (logged : after.calls = state.calls ++ [.send payload result])
  | shutdownWrite (moved : Moved options state.connection after.connection)
      (refuses : after.connection.alive → after.connection.writeShutdownRequested)
      (logged : after.calls = state.calls ++ [.shutdownWrite])
  | other (moved : Moved options state.connection after.connection)
      (logged : after.calls = state.calls)

theorem outputStep_of_step (sound : Sound options state.connection)
    (pending : Pending state.connection) (steps : step options state action = some after) :
    OutputStep options state action after := by
  obtain ⟨steps, lawful⟩ := steps_of_step steps
  cases steps with
  | send returns =>
    exact .send _ _ _ rfl (sound.sendBuffer pending (List.Subset.refl _) returns lawful) rfl
  | sendView returns => exact .send _ _ _ rfl (sound.sendView pending returns lawful) rfl
  | closeAfterFlush answers => exact .other (sound.moved_closeAfterFlush pending answers) rfl
  | shutdownWrite answers =>
    have shuts := sound.moved_shutdownWrite pending answers
    exact .shutdownWrite shuts.1 shuts.2 rfl
  | pauseRead answers => exact .other (sound.moved_setReadPaused pending true answers) rfl
  | resumeRead answers => exact .other (sound.moved_setReadPaused pending false answers) rfl
  | close reason => exact .other (sound.moved_closeNow reason) rfl
  | event answers idle hangs =>
    unfold beginEvent
    split
    · exact .other (sound.moved_closeNow .error) rfl
    split
    · split
      · rename_i prepares
        exact .other (sound.moved_prepareRead pending prepares) rfl
      · exact .other (sound.moved_closeNow .error) rfl
    · exact .other (sound.stays pending) rfl
  | @recv events consumed answer reading goesOn isLawful =>
    cases answer with
    | received count | interrupted | wouldBlock => exact .other (sound.stays pending) rfl
    | ended => exact .other (sound.moved_closeNow .peer) rfl
    | failed => exact .other (sound.moved_closeNow .error) rfl
  | returnRead called | leaveRead reading stops | peer moves =>
    exact .other (sound.stays pending) rfl
  | finishEvent finishing ends => exact .other (moved_endEvent sound pending ends lawful) rfl

/-- What holds of the output in every run, with or without memory. -/
structure OutputInv (options : TcpListenerOptions) (state : ConnectionState) : Prop where
  sound : Sound options state.connection
  pending : Pending state.connection
  /-- Accepted bytes are taken or queued. -/
  covers : (accepted state).Sublist state.connection.stream
  refuses : .shutdownWrite ∈ state.calls → state.connection.alive →
    state.connection.writeShutdownRequested
  orderly : state.calls.Pairwise fun earlier later =>
    earlier = .shutdownWrite → later.isAccepted = false

theorem accepted_append {calls : List UserCall} {call : UserCall}
    (logged : after.calls = calls ++ [call]) :
    accepted after = (calls.map UserCall.accepted).flatten ++ call.accepted := by
  simp [accepted, logged]

theorem outputInv_start (options : TcpListenerOptions) (fd : Nat) :
    OutputInv options (start fd) where
  sound := ⟨BufferChain.valid_new, rfl, Nat.zero_le _, List.Pairwise.nil,
    fun ⟨_, inside, _⟩ => by simp [start, TcpConnection.new] at inside, by simp [start, TcpConnection.new]⟩
  pending := fun _ closes => by simp [start, TcpConnection.new] at closes
  covers := nil_sublist _
  refuses := fun called => by simp [start] at called
  orderly := List.Pairwise.nil

theorem pairwise_append_call {calls : List UserCall} {call : UserCall}
    (orderly : calls.Pairwise fun earlier later =>
      earlier = .shutdownWrite → later.isAccepted = false)
    (last : .shutdownWrite ∈ calls → call.isAccepted = false) :
    (calls ++ [call]).Pairwise fun earlier later =>
      earlier = .shutdownWrite → later.isAccepted = false := by
  refine pairwise_append.mpr ⟨orderly, pairwise_singleton _ _, ?_⟩
  rintro earlier inside later isLast rfl
  rw [mem_singleton.mp isLast]
  exact last inside

theorem OutputInv.step (inv : OutputInv options state)
    (steps : Connection.step options state action = some after) : OutputInv options after := by
  cases outputStep_of_step inv.sound inv.pending steps with
  | send payload result answers given sent logged =>
    obtain ⟨entered, isPart, stream, accepts, -, -⟩ := sent.enters
    refine ⟨sent.sound, sent.pending, ?_, ?_, ?_⟩
    · rw [accepted_append logged, stream]
      refine inv.covers.append ?_
      cases result with
      | accepted => rw [accepts rfl]; exact List.Sublist.refl _
      | backpressure | closed => exact nil_sublist _
    · intro called lives
      rw [logged, mem_append] at called
      rcases called with called | last
      · rw [sent.keeps.requested]
        exact inv.refuses called (sent.keeps.revived lives)
      · simp at last
    · rw [logged]
      refine pairwise_append_call inv.orderly fun called => ?_
      cases result with
      | accepted =>
        obtain ⟨lives, opened⟩ := sent.takes rfl
        simp [inv.refuses called lives] at opened
      | backpressure => rfl
      | closed => rfl
  | shutdownWrite moved refuses logged =>
    refine ⟨moved.sound, moved.pending, ?_, fun _ => refuses, ?_⟩
    · rw [accepted_append logged, moved.stream]
      exact (append_nil _).symm ▸ inv.covers
    · rw [logged]
      exact pairwise_append_call inv.orderly fun _ => rfl
  | other moved logged =>
    refine ⟨moved.sound, moved.pending, ?_, ?_, ?_⟩
    · rw [accepted, logged, moved.stream]
      exact inv.covers
    · intro called lives
      exact moved.requested (inv.refuses (logged ▸ called) (moved.revived lives))
    · rw [logged]
      exact inv.orderly

theorem outputInv_of_reachable {allowed : ConnectionState → Action → Prop}
    (reached : (system options).ReachableUnder allowed state) : OutputInv options state :=
  reached.invariant (fun _ starts => by
      obtain ⟨fd, rfl⟩ := starts
      exact outputInv_start options fd)
    fun _ _ _ _ inv _ steps => inv.step steps

theorem stream_eq_accepted_of_step (inv : OutputInv options state)
    (equal : state.connection.alive → state.connection.stream = accepted state)
    (allocates : action.allocates = true) (steps : step options state action = some after)
    (lives : after.connection.alive) : after.connection.stream = accepted after := by
  cases outputStep_of_step inv.sound inv.pending steps with
  | send payload result answers given sent logged =>
    obtain ⟨entered, -, stream, accepts, refuses, closed⟩ := sent.enters
    have hasMemory : answers.allocates = true := by
      simpa [Action.allocates, given] using allocates
    rw [stream, accepted_append logged, equal (sent.keeps.revived lives)]
    refine congrArg _ ?_
    cases result with
    | accepted => exact accepts rfl
    | backpressure => exact refuses rfl hasMemory
    | closed => exact closed rfl lives
  | shutdownWrite moved refuses logged =>
    rw [moved.stream, accepted_append logged, equal (moved.revived lives)]
    exact (append_nil _).symm
  | other moved logged =>
    rw [moved.stream, equal (moved.revived lives), accepted, accepted, logged]

/-- The output of a connection in one state. -/
structure IsStream (options : TcpListenerOptions) (state : ConnectionState) : Prop where
  stream : state.connection.alive →
    state.connection.taken ++ state.connection.output.contents = accepted state
  counted : state.connection.queuedBytes = state.connection.output.size
  bounded : state.connection.queuedBytes ≤ options.outputHighWatermark
  closesInput : state.calls.Pairwise fun earlier later =>
    earlier = .shutdownWrite → later.isAccepted = false
  /-- No send follows a `shutdown(SHUT_WR)`. -/
  closesOutput : state.connection.kernelCalls.Pairwise fun earlier later =>
    earlier.isShutdown → later.isShutdown

/-- A send that returns `Backpressure`, or `Closed` on a connection that is still
alive, contributes no byte. -/
def RefusesCleanly (state after : ConnectionState) : Prop :=
  ∀ payload result, after.calls = state.calls ++ [.send payload result] →
    (result = .backpressure ∨ result = .closed ∧ after.connection.alive) →
      after.connection.taken ++ after.connection.output.contents =
        state.connection.taken ++ state.connection.output.contents

/-- While memory is available, the output of a connection is the stream of the
accepted payloads, whatever the user does and whatever the kernel answers. -/
theorem output_isStream (options : TcpListenerOptions) {state : ConnectionState}
    (reached : (system options).ReachableUnder (fun _ action => action.allocates = true) state) :
    IsStream options state ∧
      ∀ action after, action.allocates = true → step options state action = some after →
        RefusesCleanly state after := by
  have inv := outputInv_of_reachable reached
  have stream : state.connection.alive → state.connection.stream = accepted state := by
    induction reached with
    | start starts =>
      obtain ⟨fd, rfl⟩ := starts
      exact fun _ => rfl
    | next before allocates steps ih =>
      exact stream_eq_accepted_of_step (outputInv_of_reachable before)
        (ih (outputInv_of_reachable before)) allocates steps
  refine ⟨⟨stream, ?_, inv.sound.bounded, inv.orderly, inv.sound.orderly⟩, ?_⟩
  · rw [inv.sound.valid.isCounted.size_eq, inv.sound.counted]
  intro action after allocates steps payload result logged refused
  cases outputStep_of_step inv.sound inv.pending steps with
  | send _ _ answers given sent logs =>
    obtain ⟨-, same⟩ := append_inj (logged.symm.trans logs) rfl
    cases same
    obtain ⟨entered, -, stream, -, refuses, closed⟩ := sent.enters
    have hasMemory : answers.allocates = true := by
      simpa [Action.allocates, given] using allocates
    have none : entered = [] := refused.elim (refuses · hasMemory) fun both =>
      closed both.1 both.2
    rw [none, append_nil] at stream
    exact stream
  | shutdownWrite moved => exact moved.stream
  | other moved => exact moved.stream

theorem output_isStream_twoSends :
    ∃ state, (system ⟨4, 4, 8⟩).ReachableUnder (fun _ action => action.allocates = true) state ∧
      IsStream ⟨4, 4, 8⟩ state ∧ state.connection.taken = [1, 2, 3] ∧
        state.connection.output.contents = [4] := by
  obtain ⟨state, reached, observed⟩ :=
    (system ⟨4, 4, 8⟩).exists_reachableUnder (fun _ action => action.allocates = true)
    (show (system ⟨4, 4, 8⟩).initial (start 5) from ⟨5, rfl⟩)
    [.send (Buffer.copy [1]) ⟨[.took 1], .done, true, true⟩,
      .sendView [2, 3, 4] ⟨[.took 2, .wouldBlock], .done, true, true⟩,
      .shutdownWrite ⟨[], .done, true, true⟩]
    (fun state => state.connection.taken = [1, 2, 3] ∧ state.connection.output.contents = [4])
    (by decide)
  exact ⟨state, reached, (output_isStream _ reached).1, observed⟩

end Connection

end AsyncFlow
