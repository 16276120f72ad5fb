import AsyncFlow.TcpConnection

/-!
# Flushing the output of a connection

The output of a connection is one stream: the bytes that the kernel took,
followed by the bytes that are queued.  Flushing moves the border between the
two parts.
-/

namespace AsyncFlow

open List

namespace KernelCall

def isShutdown : KernelCall → Bool
  | send _ _ => false
  | shutdownWrite _ => true

@[simp]
theorem taken_shutdownWrite (answer : ShutdownAnswer) : (shutdownWrite answer).taken = [] := rfl

@[simp]
theorem taken_took (offered : List Byte) (count : Nat) :
    (send offered (.took count)).taken = offered.take count := rfl

end KernelCall

namespace TcpConnection

def taken (connection : TcpConnection) : List Byte :=
  (connection.kernelCalls.map KernelCall.taken).flatten

def stream (connection : TcpConnection) : List Byte :=
  connection.taken ++ connection.output.contents

def lawful (connection : TcpConnection) : Prop :=
  connection.kernelCalls.all KernelCall.lawful = true

/-- The queue is counted and bounded, and the write side is shut down only after
the last send. -/
structure Sound (options : TcpListenerOptions) (connection : TcpConnection) : Prop where
  valid : connection.output.Valid
  counted : connection.queuedBytes = connection.output.contents.length
  bounded : connection.queuedBytes ≤ options.outputHighWatermark
  orderly : connection.kernelCalls.Pairwise fun earlier later =>
    earlier.isShutdown → later.isShutdown
  settled : (∃ call ∈ connection.kernelCalls, call.isShutdown) →
    connection.output.contents = [] ∧ connection.writeShutdownRequested
  requested : connection.writeShutdownDone → connection.writeShutdownRequested

/-- A connection that closes after its flush still has something to flush. -/
def Pending (connection : TcpConnection) : Prop :=
  connection.alive → connection.closesAfterFlush → connection.output.contents ≠ []

variable {options : TcpListenerOptions} {connection : TcpConnection} {answers : Answers}

/-! ### Small operations -/

@[simp]
theorem taken_log (connection : TcpConnection) (call : KernelCall) :
    (connection.log call).taken = connection.taken ++ call.taken := by
  simp [taken, log]

theorem closeNow_cases (connection : TcpConnection) (reason : CloseReason) :
    connection.closeNow reason = connection ∧ connection.alive = false ∨
      connection.alive = true ∧ connection.closeNow reason = { connection with
          fd := -1
          interests := ⟨false, false⟩
          onClose := connection.onClose ++ [reason] } := by
  unfold closeNow alive
  by_cases dead : connection.fd < 0
  · exact .inl ⟨if_pos dead, by simpa using dead⟩
  · exact .inr ⟨by simpa using dead, if_neg dead⟩

@[simp]
theorem alive_closeNow (connection : TcpConnection) (reason : CloseReason) :
    (connection.closeNow reason).alive = false := by
  rcases closeNow_cases connection reason with ⟨same, dead⟩ | ⟨_, closed⟩
  · rw [same, dead]
  · rw [closed]
    rfl

theorem updateInterest_eq (connection : TcpConnection) (answers : Answers) :
    ∃ interests, connection.updateInterest answers =
      { connection with interests := interests } := by
  unfold updateInterest
  split
  · exact ⟨_, rfl⟩
  · dsimp only
    split <;> exact ⟨_, rfl⟩

namespace Sound

section

variable (sound : Sound options connection)

include sound

theorem withInterests (interests : NetInterests) :
    Sound options { connection with interests := interests } :=
  { sound with }

theorem updateInterest (answers : Answers) : Sound options (connection.updateInterest answers) := by
  obtain ⟨interests, same⟩ := updateInterest_eq connection answers
  exact same ▸ sound.withInterests interests

theorem closeNow (reason : CloseReason) : Sound options (connection.closeNow reason) := by
  rcases closeNow_cases connection reason with ⟨same, _⟩ | ⟨_, closed⟩
  · rw [same]
    exact sound
  · rw [closed]
    exact { sound with }

theorem not_shutdown
    (sends : connection.output.contents ≠ [] ∨ connection.writeShutdownRequested = false) :
    ∀ call ∈ connection.kernelCalls, call.isShutdown = false := by
  intro call inside
  by_contra shut
  obtain ⟨empty, requested⟩ := sound.settled ⟨call, inside, by simpa using shut⟩
  rcases sends with holds | notRequested
  · exact holds empty
  · simp [notRequested] at requested

theorem logSend {offered : List Byte} {answer : SendAnswer}
    (sends : connection.output.contents ≠ [] ∨ connection.writeShutdownRequested = false) :
    Sound options (connection.log (.send offered answer)) := by
  have unshut := sound.not_shutdown sends
  refine { sound with orderly := ?_, settled := ?_ }
  · refine pairwise_append.mpr ⟨sound.orderly, pairwise_singleton _ _, ?_⟩
    intro earlier inside _ _ shut
    simp [unshut earlier inside] at shut
  · rintro ⟨call, inside, shut⟩
    rcases mem_append.mp inside with inside | last
    · simp [unshut call inside] at shut
    · rw [mem_singleton.mp last] at shut
      simp [KernelCall.isShutdown] at shut

theorem logShutdown (answer : ShutdownAnswer) (empty : connection.output.contents = [])
    (requested : connection.writeShutdownRequested = true) :
    Sound options (connection.log (.shutdownWrite answer)) := by
  refine { sound with orderly := ?_, settled := fun _ => ⟨empty, requested⟩ }
  refine pairwise_append.mpr ⟨sound.orderly, pairwise_singleton _ _, ?_⟩
  intro _ _ later last _
  rw [mem_singleton.mp last]
  rfl

theorem consumeOutput (written : Nat) : Sound options (connection.consumeOutput written) where
  valid := sound.valid.removePrefix _
  counted := by
    change connection.queuedBytes - _ = (connection.output.removePrefix _).contents.length
    rw [sound.valid.contents_removePrefix, length_drop, ← sound.counted]
  bounded := Nat.le_trans (Nat.sub_le _ _) sound.bounded
  orderly := sound.orderly
  settled := by
    intro shut
    obtain ⟨empty, requested⟩ := sound.settled shut
    refine ⟨?_, requested⟩
    change (connection.output.removePrefix _).contents = []
    rw [sound.valid.contents_removePrefix, empty, drop_nil]
  requested := sound.requested

theorem contents_consumeOutput {written : Nat}
    (most : written ≤ connection.output.contents.length) :
    (connection.consumeOutput written).output.contents =
      connection.output.contents.drop written := by
  change (connection.output.removePrefix (min written connection.queuedBytes)).contents = _
  rw [sound.valid.contents_removePrefix, sound.counted, Nat.min_eq_left most]

end

end Sound

theorem shutdownWriteNow_cases (connection : TcpConnection) (answers : Answers) :
    (connection.shutdownWriteNow answers).1 = connection ∨
      ∃ done interests, (connection.shutdownWriteNow answers).1 =
        { connection.log (.shutdownWrite answers.shutdown) with
          writeShutdownDone := connection.writeShutdownDone || done
          interests := interests } := by
  unfold shutdownWriteNow
  split
  · exact .inl rfl
  · right
    dsimp only
    split
    · exact ⟨false, connection.interests, by simp [log]⟩
    · obtain ⟨interests, same⟩ := updateInterest_eq
        { connection.log (.shutdownWrite answers.shutdown) with writeShutdownDone := true } answers
      exact ⟨true, interests, by rw [same, Bool.or_true]⟩

theorem Sound.shutdownWriteNow (sound : Sound options connection) (answers : Answers)
    (empty : connection.output.contents = [])
    (requested : connection.writeShutdownRequested = true) :
    Sound options (connection.shutdownWriteNow answers).1 := by
  rcases shutdownWriteNow_cases connection answers with same | ⟨done, interests, same⟩
  · rw [same]
    exact sound
  · rw [same]
    have called := sound.logShutdown answers.shutdown empty requested
    exact { called with requested := fun _ => requested }

/-! ### What output leaves alone -/

/-- The requests of the user stand, system calls are only added, and the user is
not told that the peer closed. -/
structure Keeps (before after : TcpConnection) : Prop where
  grows : before.kernelCalls <+: after.kernelCalls
  closesAfterFlush : after.closesAfterFlush = before.closesAfterFlush
  requested : after.writeShutdownRequested = before.writeShutdownRequested
  paused : after.readPaused = before.readPaused
  readBuffer : after.readBuffer = before.readBuffer
  revived : after.alive → before.alive
  told : .peer ∈ after.onClose → .peer ∈ before.onClose

namespace Keeps

variable {before middle after : TcpConnection}

theorem refl (connection : TcpConnection) : Keeps connection connection :=
  ⟨prefix_refl _, rfl, rfl, rfl, rfl, id, id⟩

theorem trans (first : Keeps before middle) (second : Keeps middle after) : Keeps before after where
  grows := first.grows.trans second.grows
  closesAfterFlush := second.closesAfterFlush.trans first.closesAfterFlush
  requested := second.requested.trans first.requested
  paused := second.paused.trans first.paused
  readBuffer := second.readBuffer.trans first.readBuffer
  revived := fun lives => first.revived (second.revived lives)
  told := fun told => first.told (second.told told)

section

variable (connection : TcpConnection)

theorem log (call : KernelCall) : Keeps connection (connection.log call) :=
  ⟨prefix_append _ _, rfl, rfl, rfl, rfl, id, id⟩

theorem consumeOutput (written : Nat) : Keeps connection (connection.consumeOutput written) :=
  ⟨prefix_refl _, rfl, rfl, rfl, rfl, id, id⟩

theorem updateInterest (answers : Answers) :
    Keeps connection (connection.updateInterest answers) := by
  obtain ⟨interests, same⟩ := updateInterest_eq connection answers
  rw [same]
  exact ⟨prefix_refl _, rfl, rfl, rfl, rfl, id, id⟩

theorem closeNow {reason : CloseReason} (ours : reason ≠ .peer) :
    Keeps connection (connection.closeNow reason) := by
  rcases closeNow_cases connection reason with ⟨same, _⟩ | ⟨lives, closed⟩
  · rw [same]
    exact refl connection
  · rw [closed]
    refine ⟨prefix_refl _, rfl, rfl, rfl, rfl, fun _ => lives, fun told => ?_⟩
    rcases mem_append.mp told with told | last
    · exact told
    · exact absurd (mem_singleton.mp last).symm ours

theorem shutdownWriteNow (answers : Answers) :
    Keeps connection (connection.shutdownWriteNow answers).1 := by
  rcases shutdownWriteNow_cases connection answers with same | ⟨done, interests, same⟩
  · rw [same]
    exact refl connection
  · rw [same]
    exact ⟨prefix_append _ _, rfl, rfl, rfl, rfl, id, id⟩

theorem enqueue (output : BufferChain) (queued : Nat) :
    Keeps connection { connection with output := output, queuedBytes := queued } :=
  ⟨prefix_refl _, rfl, rfl, rfl, rfl, id, id⟩

theorem afterFlush (answers : Answers) : Keeps connection (connection.afterFlush answers) := by
  unfold TcpConnection.afterFlush
  split
  · exact closeNow connection (by decide)
  · split
    · exact shutdownWriteNow connection answers
    · exact updateInterest connection answers

end

theorem lawful (keeps : Keeps before after) (lawful : after.lawful) : before.lawful := by
  obtain ⟨calls, appended⟩ := keeps.grows
  rw [TcpConnection.lawful, ← appended, all_append, Bool.and_eq_true] at lawful
  exact lawful.1

end Keeps

structure Flushed (options : TcpListenerOptions) (sends : List SendAnswer)
    (before after : TcpConnection) : Prop where
  sound : Sound options after
  keeps : Keeps before after
  pending : Pending after
  stream : after.stream = before.stream
  closes : before.alive → after.alive = false →
    after.output.contents = [] ∧ after.closesAfterFlush ∨ .failed ∈ sends

theorem stream_log (connection : TcpConnection) {call : KernelCall} (none : call.taken = []) :
    (connection.log call).stream = connection.stream := by
  change (connection.log call).taken ++ connection.output.contents = _
  rw [taken_log, none, append_nil]
  rfl

theorem stream_closeNow (connection : TcpConnection) (reason : CloseReason) :
    (connection.closeNow reason).stream = connection.stream ∧
      (connection.closeNow reason).output = connection.output := by
  rcases closeNow_cases connection reason with ⟨same, _⟩ | ⟨_, closed⟩
  · rw [same]
    exact ⟨rfl, rfl⟩
  · rw [closed]
    exact ⟨rfl, rfl⟩

theorem stream_updateInterest (connection : TcpConnection) (answers : Answers) :
    (connection.updateInterest answers).stream = connection.stream ∧
      (connection.updateInterest answers).output = connection.output ∧
        (connection.updateInterest answers).alive = connection.alive := by
  obtain ⟨interests, same⟩ := updateInterest_eq connection answers
  rw [same]
  exact ⟨rfl, rfl, rfl⟩

theorem stream_shutdownWriteNow (connection : TcpConnection) (answers : Answers) :
    (connection.shutdownWriteNow answers).1.stream = connection.stream ∧
      (connection.shutdownWriteNow answers).1.output = connection.output ∧
        (connection.shutdownWriteNow answers).1.alive = connection.alive := by
  rcases shutdownWriteNow_cases connection answers with same | ⟨done, interests, same⟩
  · rw [same]
    exact ⟨rfl, rfl, rfl⟩
  · rw [same]
    exact ⟨stream_log connection rfl, rfl, rfl⟩

theorem Sound.afterFlush (sound : Sound options connection)
    (empty : connection.output.contents = []) (sends : List SendAnswer) :
    Flushed options sends connection (connection.afterFlush answers) := by
  have keeps := Keeps.afterFlush connection answers
  unfold TcpConnection.afterFlush at keeps ⊢
  split at keeps
  · rename_i closes
    rw [if_pos closes]
    obtain ⟨stream, output⟩ := stream_closeNow connection .localSide
    exact ⟨sound.closeNow _, keeps, fun lives => by simp at lives, stream,
      fun _ _ => .inl ⟨output ▸ empty, keeps.closesAfterFlush ▸ closes⟩⟩
  · rename_i stays
    rw [if_neg stays]
    split at keeps
    · rename_i requested
      rw [if_pos requested]
      rw [Bool.and_eq_true] at requested
      obtain ⟨stream, output, lives⟩ := stream_shutdownWriteNow connection answers
      exact ⟨sound.shutdownWriteNow answers empty requested.1, keeps,
        fun _ closes => absurd (keeps.closesAfterFlush ▸ closes) stays, stream,
        fun before after => by simp [lives, before] at after⟩
    · rename_i settled
      rw [if_neg settled]
      obtain ⟨stream, output, lives⟩ := stream_updateInterest connection answers
      exact ⟨sound.updateInterest answers, keeps,
        fun _ closes => absurd (keeps.closesAfterFlush ▸ closes) stays, stream,
        fun before after => by simp [lives, before] at after⟩

theorem Sound.stream_consumeOutput (sound : Sound options connection)
    {offered : List Byte} {count : Nat} (offers : offered <+: connection.output.contents)
    (most : count ≤ offered.length) :
    ((connection.log (.send offered (.took count))).consumeOutput count).stream =
      connection.stream := by
  have fits := Nat.le_trans most offers.length_le
  obtain ⟨rest, split⟩ := offers
  change (connection.log _).taken ++ (connection.consumeOutput count).output.contents =
    connection.taken ++ connection.output.contents
  rw [taken_log, sound.contents_consumeOutput fits, append_assoc, KernelCall.taken_took, ← split,
    drop_append_of_le_length most, ← append_assoc (offered.take count), take_append_drop]

theorem lawful_log (connection : TcpConnection) (call : KernelCall)
    (lawful : (connection.log call).lawful) : call.lawful = true := by
  rw [TcpConnection.lawful, log, all_append, Bool.and_eq_true] at lawful
  simpa using lawful.2

namespace Flushed

variable {before middle after : TcpConnection} {sends : List SendAnswer} {answer : SendAnswer}

theorem next (keeps : Keeps before middle) (lives : before.alive → middle.alive)
    (stream : middle.stream = before.stream) (flushed : Flushed options sends middle after) :
    Flushed options (answer :: sends) before after where
  sound := flushed.sound
  keeps := keeps.trans flushed.keeps
  pending := flushed.pending
  stream := flushed.stream.trans stream
  closes := fun before after =>
    (flushed.closes (lives before) after).imp_right (mem_cons_of_mem _)

end Flushed

theorem flushOutput_of_empty (answers : Answers) (sends : List SendAnswer)
    (empty : connection.output.isEmpty = true) :
    connection.flushOutput answers sends = some (connection.afterFlush answers) := by
  cases sends <;> simp [flushOutput, empty]

def offered (connection : TcpConnection) : List Byte :=
  (connection.output.fillViews flushViews).flatten

section

variable (sound : Sound options connection)

include sound

theorem Sound.offered_isPrefix : connection.offered <+: connection.output.contents :=
  sound.valid.fillViews_isPrefix _

theorem Sound.flushOutput_cons (lives : connection.alive)
    (holds : connection.output.isEmpty = false) (answer : SendAnswer) (sends : List SendAnswer) :
    connection.flushOutput answers (answer :: sends) =
      let called := connection.log (.send connection.offered answer)
      match answer with
      | .took 0 => some (called.afterFlush answers)
      | .took (count + 1) => flushOutput answers sends (called.consumeOutput (count + 1))
      | .interrupted => flushOutput answers sends called
      | .wouldBlock => some (called.updateInterest answers)
      | .failed => some (called.closeNow .error) := by
  have views := sound.valid.fillViews_ne_nil holds (show flushViews ≠ 0 by decide)
  rw [flushOutput]
  simp only [lives, holds, views, Bool.not_true, Bool.or_self, Bool.false_eq_true, if_false]
  rfl

theorem Sound.flushOutput_nil (lives : connection.alive)
    (holds : connection.output.isEmpty = false) : connection.flushOutput answers [] = none := by
  have views := sound.valid.fillViews_ne_nil holds (show flushViews ≠ 0 by decide)
  simp [flushOutput, lives, holds, views]

theorem Sound.flushOutput_done
    (empty : connection.output.isEmpty = true) {sends : List SendAnswer} {after : TcpConnection}
    (flushes : connection.flushOutput answers sends = some after) :
    Flushed options sends connection after := by
  rw [flushOutput_of_empty _ _ empty, Option.some.injEq] at flushes
  exact flushes ▸ sound.afterFlush (sound.valid.isEmpty_iff.mp empty) _

theorem Sound.flushOutput (lives : connection.alive)
    {sends : List SendAnswer} {after : TcpConnection}
    (flushes : connection.flushOutput answers sends = some after)
    (lawful : after.lawful) : Flushed options sends connection after := by
  induction sends generalizing connection with
  | nil =>
    cases empty : connection.output.isEmpty with
    | true => exact sound.flushOutput_done empty flushes
    | false =>
      rw [sound.flushOutput_nil lives empty] at flushes
      contradiction
  | cons answer sends ih =>
    cases empty : connection.output.isEmpty with
    | true => exact sound.flushOutput_done empty flushes
    | false =>
      have holds : connection.output.contents ≠ [] := fun none => by
        simp [sound.valid.isEmpty_iff.mpr none] at empty
      have called : Sound options (connection.log (.send connection.offered answer)) :=
        sound.logSend (.inl holds)
      have keeps := Keeps.log connection (.send connection.offered answer)
      rw [sound.flushOutput_cons lives empty] at flushes
      cases answer with
      | took count =>
        cases count with
        | zero =>
          -- The kernel takes at least one byte.
          simp only [Option.some.injEq] at flushes
          subst flushes
          have logged := lawful_log _ _ ((Keeps.afterFlush _ answers).lawful lawful)
          simp [KernelCall.lawful] at logged
        | succ count =>
          have rest := ih (called.consumeOutput (count + 1)) lives flushes
          have logged := lawful_log _ _
            ((Keeps.consumeOutput _ (count + 1)).trans rest.keeps |>.lawful lawful)
          have most : count + 1 ≤ connection.offered.length := by
            simpa [KernelCall.lawful] using logged
          exact .next (keeps.trans (.consumeOutput _ _)) id
            (sound.stream_consumeOutput sound.offered_isPrefix most) rest
      | interrupted =>
        exact .next keeps id (stream_log connection rfl) (ih called lives flushes)
      | wouldBlock =>
        simp only [Option.some.injEq] at flushes
        subst flushes
        have update := stream_updateInterest
          (connection.log (.send connection.offered .wouldBlock)) answers
        refine ⟨called.updateInterest answers, keeps.trans (.updateInterest _ _), ?_,
          update.1.trans (stream_log connection rfl), ?_⟩
        · intro _ _
          rw [update.2.1]
          exact holds
        · intro before after
          have dead : connection.alive = false := update.2.2 ▸ after
          simp [dead] at before
      | failed =>
        simp only [Option.some.injEq] at flushes
        subst flushes
        have closed := stream_closeNow (connection.log (.send connection.offered .failed))
          .error
        refine ⟨called.closeNow .error, keeps.trans (.closeNow _ (by decide)), ?_,
          closed.1.trans (stream_log connection rfl), fun _ _ => .inr mem_cons_self⟩
        intro lives
        simp at lives

end

end TcpConnection

end AsyncFlow
