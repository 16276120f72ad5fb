import AsyncFlow.FlushOutput

/-!
# Sending on a connection

A send appends a part of its payload to the output stream of the connection:
all of it when the send is accepted, and nothing when it is refused by a
connection that stays alive.
-/

namespace AsyncFlow

open List Option

namespace TcpConnection

variable {options : TcpListenerOptions} {connection : TcpConnection} {answers : Answers}

/-- What a send does: it appends a part of its payload to the stream, which is
all of it when the send is accepted. -/
structure Sent (options : TcpListenerOptions) (answers : Answers) (payload : List Byte)
    (result : SendResult) (before after : TcpConnection) : Prop where
  sound : Sound options after
  keeps : Keeps before after
  pending : Pending after
  enters : ∃ entered, entered <+: payload ∧ after.stream = before.stream ++ entered ∧
    (result = .accepted → entered = payload) ∧
    (result = .backpressure → answers.allocates → entered = []) ∧
    (result = .closed → after.alive → entered = [])
  takes : result = .accepted → before.alive ∧ before.writeShutdownRequested = false
  closes : before.alive → after.alive = false →
    after.output.contents = [] ∧ after.closesAfterFlush ∨ .failed ∈ answers.sends

variable {result : SendResult}

theorem Sound.refuse (sound : Sound options connection) (pending : Pending connection)
    (payload : List Byte) (refuses : result ≠ .accepted) :
    Sent options answers payload result connection connection where
  sound := sound
  keeps := .refl connection
  pending := pending
  enters := ⟨[], nil_prefix, by simp, fun accepts => absurd accepts refuses, by simp, by simp⟩
  takes := fun accepts => absurd accepts refuses
  closes := fun before after => by simp [before] at after

theorem Sound.sendNothing (sound : Sound options connection) (pending : Pending connection)
    (lives : connection.alive) (opened : connection.writeShutdownRequested = false) :
    Sent options answers [] .accepted connection connection where
  sound := sound
  keeps := .refl connection
  pending := pending
  enters := ⟨[], nil_prefix, by simp, by simp, by simp, by simp⟩
  takes := fun _ => ⟨lives, opened⟩
  closes := fun before after => by simp [before] at after

theorem not_refusesOutput_iff : connection.refusesOutput = false ↔ connection.alive = true ∧
      connection.writeShutdownRequested = false ∧ connection.writeShutdownDone = false := by
  simp [refusesOutput, and_assoc]

theorem not_lacksRoom_iff {size : Nat} (filled : 0 < size) :
    connection.lacksRoom options size = false ↔
      connection.queuedBytes + size ≤ options.outputHighWatermark := by
  simp only [lacksRoom, decide_eq_false_iff_not, not_or]
  omega

variable {buffer : Buffer}

theorem Sound.pushBack (sound : Sound options connection) (filled : 0 < buffer.size)
    (opened : connection.writeShutdownRequested = false)
    (room : connection.lacksRoom options buffer.size = false) : Sound options { connection with
        output := connection.output.pushBack buffer
        queuedBytes := connection.queuedBytes + buffer.size } where
  valid := sound.valid.pushBack buffer
  counted := by
    rw [sound.valid.contents_pushBack, length_append, Buffer.length_view, sound.counted]
  bounded := (not_lacksRoom_iff filled).mp room
  orderly := sound.orderly
  settled := by
    rintro ⟨call, inside, shut⟩
    simp [sound.not_shutdown (.inr opened) call inside] at shut
  requested := sound.requested

variable {sends : List SendAnswer} {after : TcpConnection}

theorem Sound.sendBuffer (sound : Sound options connection) (pending : Pending connection)
    (subset : sends ⊆ answers.sends)
    (returns : connection.sendBuffer options buffer answers sends = some (after, result))
    (lawful : after.lawful) : Sent options answers buffer.view result connection after := by
  unfold TcpConnection.sendBuffer at returns
  split at returns
  · cases returns
    exact sound.refuse pending _ (by decide)
  rename_i takes
  obtain ⟨lives, opened, -⟩ := not_refusesOutput_iff.mp (by simpa using takes)
  split at returns
  · rename_i empty
    cases returns
    have none : buffer.view = [] := eq_nil_of_length_eq_zero (by
      simpa [Buffer.isEmpty] using empty)
    exact none ▸ sound.sendNothing pending lives opened
  rename_i filled
  split at returns
  · cases returns
    exact sound.refuse pending _ (by decide)
  rename_i room
  split at returns
  · cases returns
    exact sound.refuse pending _ (by decide)
  obtain ⟨flushed, flushes, same⟩ := map_eq_some_iff.mp returns
  cases same
  have queued := sound.pushBack (by simpa [Buffer.isEmpty, Nat.pos_iff_ne_zero] using filled)
    opened (by simpa using room)
  have flush := queued.flushOutput lives flushes lawful
  refine ⟨flush.sound, ?_, flush.pending, ⟨buffer.view, prefix_refl _, ?_, fun _ => rfl,
    ?_, ?_⟩, fun _ => ⟨lives, opened⟩, ?_⟩
  · exact (Keeps.enqueue connection _ _).trans flush.keeps
  · rw [flush.stream]
    change connection.taken ++ (connection.output.pushBack buffer).contents = _
    rw [sound.valid.contents_pushBack, ← append_assoc]
    rfl
  · intro backpressure
    split at backpressure <;> contradiction
  · intro closed lives
    simp [lives] at closed
  · intro before after
    exact (flush.closes before after).imp_right (subset ·)

theorem result_sendBuffer
    (returns : connection.sendBuffer options buffer answers sends = some (after, result))
    (takes : connection.refusesOutput = false) (allocates : answers.allocates = true)
    (room : 0 < buffer.size → connection.lacksRoom options buffer.size = false) :
    result ≠ .backpressure ∧ (result = .closed → after.alive = false) := by
  unfold TcpConnection.sendBuffer at returns
  rw [if_neg (by simp [takes])] at returns
  split at returns
  · cases returns
    exact ⟨by decide, by simp⟩
  rename_i filled
  have filled : 0 < buffer.size := by
    simpa [Buffer.isEmpty, Nat.pos_iff_ne_zero] using filled
  rw [if_neg (by simp [room filled]), if_neg (by simp [allocates])] at returns
  obtain ⟨flushed, _, same⟩ := map_eq_some_iff.mp returns
  cases same
  cases lives : after.alive <;> simp

structure SentDirectly (options : TcpListenerOptions) (view : List Byte)
    (sends : List SendAnswer) (result : DirectSend) (rest : List SendAnswer)
    (before after : TcpConnection) : Prop where
  sound : Sound options after
  keeps : Keeps before after
  output : after.output = before.output
  queued : after.queuedBytes = before.queuedBytes
  refuses : after.refusesOutput = before.refusesOutput
  subset : rest ⊆ sends
  taken : match result with
    | .sentAll => after.taken = before.taken ++ view
    | .left remains => ∃ entered, view = entered ++ remains ∧ after.taken = before.taken ++ entered
    | .failed => .failed ∈ sends ∧ after.taken = before.taken

theorem Sound.directSend (sound : Sound options connection) {view : List Byte}
    (opened : connection.writeShutdownRequested = false) {rest : List SendAnswer}
    {called : TcpConnection} {result : DirectSend}
    (returns : connection.directSend view sends = some (called, result, rest)) :
    SentDirectly options view sends result rest connection called := by
  induction sends generalizing connection with
  | nil => simp [TcpConnection.directSend] at returns
  | cons answer sends ih =>
    have sent : Sound options (connection.log (.send view answer)) :=
      sound.logSend (.inr opened)
    have keeps := Keeps.log connection (.send view answer)
    cases answer with
    | took count =>
      rw [TcpConnection.directSend] at returns
      split at returns
      · rename_i all
        cases returns
        refine ⟨sent, keeps, rfl, rfl, rfl, subset_cons_self _ _, ?_⟩
        simp [all]
      split at returns
      · rename_i some
        cases returns
        refine ⟨sent, keeps, rfl, rfl, rfl, subset_cons_self _ _, ?_⟩
        exact ⟨view.take count, (take_append_drop count view).symm, by simp⟩
      · rename_i none
        cases returns
        refine ⟨sent, keeps, rfl, rfl, rfl, subset_cons_self _ _, ?_⟩
        exact ⟨[], rfl, by simp [Nat.eq_zero_of_not_pos none]⟩
    | interrupted =>
      have next := ih sent opened returns
      refine { next with
        keeps := keeps.trans next.keeps
        subset := fun _ inside => mem_cons_of_mem _ (next.subset inside)
        taken := ?_ }
      have same : (connection.log (.send view .interrupted)).taken = connection.taken := by
        rw [taken_log]
        exact append_nil _
      have taken := next.taken
      rw [same] at taken
      cases result with
      | sentAll => exact taken
      | left remains => exact taken
      | failed => exact ⟨mem_cons_of_mem _ taken.1, taken.2⟩
    | wouldBlock =>
      cases returns
      refine ⟨sent, keeps, rfl, rfl, rfl, subset_cons_self _ _, ?_⟩
      exact ⟨[], rfl, by rw [taken_log]; rfl⟩
    | failed =>
      cases returns
      refine ⟨sent, keeps, rfl, rfl, rfl, subset_cons_self _ _, ?_⟩
      exact ⟨mem_cons_self, by rw [taken_log]; exact append_nil _⟩

namespace Sent

variable {payload remains : List Byte} {result : SendResult} {before middle after : TcpConnection}

theorem direct {sends rest : List SendAnswer}
    (sent : SentDirectly options payload sends (.left remains) rest before middle)
    (empty : before.output.contents = []) (opened : before.writeShutdownRequested = false)
    (copied : Sent options answers remains result middle after)
    (fits : answers.allocates → result ≠ .backpressure)
    (dies : result = .closed → after.alive = false)
    (lives : before.alive) (stillLives : middle.alive) :
    Sent options answers payload result before after where
  sound := copied.sound
  keeps := sent.keeps.trans copied.keeps
  pending := copied.pending
  enters := by
    obtain ⟨entered, whole, taken⟩ := sent.taken
    obtain ⟨more, isPart, stream, accepts, -, -⟩ := copied.enters
    refine ⟨entered ++ more, ?_, ?_, ?_, ?_, ?_⟩
    · rw [whole]
      exact (prefix_append_right_inj entered).mpr isPart
    · rw [stream, TcpConnection.stream, TcpConnection.stream, sent.output, taken, empty]
      simp
    · intro accepted
      rw [accepts accepted, whole]
    · intro backpressure allocates
      exact absurd backpressure (fits allocates)
    · intro closed lives
      simp [dies closed] at lives
  takes := fun _ => ⟨lives, opened⟩
  closes := fun _ => copied.closes stillLives

end Sent

theorem Sound.sendView (sound : Sound options connection) (pending : Pending connection)
    {view : List Byte} (returns : connection.sendView options view answers = some (after, result))
    (lawful : after.lawful) : Sent options answers view result connection after := by
  unfold TcpConnection.sendView at returns
  split at returns
  · cases returns
    exact sound.refuse pending _ (by decide)
  rename_i takes
  obtain ⟨lives, opened, -⟩ := not_refusesOutput_iff.mp (by simpa using takes)
  split at returns
  · rename_i none
    cases returns
    exact isEmpty_iff.mp none ▸ sound.sendNothing pending lives opened
  rename_i filled
  split at returns
  · cases returns
    exact sound.refuse pending _ (by decide)
  rename_i room
  split at returns
  · rename_i empty
    have empty := sound.valid.isEmpty_iff.mp empty
    obtain ⟨⟨called, ends, rest⟩, sends, returns⟩ := bind_eq_some_iff.mp returns
    have direct := sound.directSend opened sends
    have stillTakes : called.refusesOutput = false := by
      rw [direct.refuses]
      simpa using takes
    have stillLives := (not_refusesOutput_iff.mp stillTakes).1
    -- With nothing queued, the connection is not closing.
    have calm : Pending called := fun _ closes => absurd empty
      (pending lives (direct.keeps.closesAfterFlush ▸ closes))
    have stream : called.stream = called.taken := by
      rw [TcpConnection.stream, direct.output, empty, append_nil]
    have before : connection.stream = connection.taken := by
      rw [TcpConnection.stream, empty, append_nil]
    cases ends with
    | sentAll =>
      cases returns
      exact ⟨direct.sound, direct.keeps, calm, ⟨view, prefix_refl _,
        by rw [stream, before, direct.taken], fun _ => rfl, by simp, by simp⟩, fun _ => ⟨lives, opened⟩,
        fun _ dead => by simp [stillLives] at dead⟩
    | left remains =>
      obtain ⟨entered, whole, -⟩ := direct.taken
      have returns : called.sendCopy options remains answers rest = some (after, result) :=
        returns
      unfold sendCopy at returns
      split at returns
      · rename_i allocates
        have copied := direct.sound.sendBuffer calm direct.subset returns lawful
        have shorter : remains.length ≤ view.length := by simp [whole]
        have fits := result_sendBuffer returns stillTakes allocates fun more => by
          rw [Buffer.size_copy] at more ⊢
          rw [not_lacksRoom_iff more, direct.queued]
          have := (not_lacksRoom_iff (Nat.lt_of_lt_of_le more shorter)).mp (by simpa using room)
          omega
        rw [Buffer.view_copy] at copied
        exact .direct direct empty opened copied (fun _ => fits.1) fits.2 lives stillLives
      · rename_i starved
        cases returns
        exact .direct direct empty opened (direct.sound.refuse calm remains (by decide))
          (fun allocates => absurd allocates starved) (by simp) lives stillLives
    | failed =>
      cases returns
      have closed := stream_closeNow called .error
      refine ⟨direct.sound.closeNow .error, direct.keeps.trans (.closeNow called (by decide)),
        fun lives => by simp at lives, ⟨[], nil_prefix, ?_, by simp, by simp, by simp⟩,
        by simp, fun _ _ => .inr direct.taken.1⟩
      rw [closed.1, stream, before, direct.taken.2, append_nil]
  · unfold sendCopy at returns
    split at returns
    · have sent := sound.sendBuffer pending (List.Subset.refl _) returns lawful
      rwa [Buffer.view_copy] at sent
    · cases returns
      exact sound.refuse pending _ (by decide)

end TcpConnection

end AsyncFlow
