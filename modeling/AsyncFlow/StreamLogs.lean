import AsyncFlow.TransitionSystem

/-!
# Synchronous log backends over a stream

`TcpLogBackend` and `FileLogBackend` pass the messages of a batch to `sendmsg` or
`writev` in chunks of 64.  A call of the kernel may take a part of the bytes, and
what follows when it takes none depends on the backend and the error.
-/

namespace AsyncFlow

open List Option

variable {Byte : Type*}

/-- The bytes are messages of the list in its order, some left out, and then possibly a part
of one of the later messages. -/
def Framed : List (List Byte) → List Byte → Prop
  | [], written => written = []
  | message :: messages, written =>
    Framed messages written ∨ (∃ rest, written = message ++ rest ∧ Framed messages rest) ∨
      written <+: message

theorem framed_nil : ∀ messages : List (List Byte), Framed messages []
  | [] => rfl
  | _ :: _ => .inr (.inr nil_prefix)

theorem framed_append {kept handled messages : List (List Byte)} {written : List Byte}
    (sublist : kept.Sublist handled) (framed : Framed messages written) :
    Framed (handled ++ messages) (kept.flatten ++ written) := by
  induction sublist with
  | slnil => exact framed
  | cons message _ ih => exact .inl ih
  | cons_cons message _ ih =>
    exact .inr (.inl ⟨_, by rw [flatten_cons, append_assoc], ih⟩)

inductive StreamKind
  | tcp
  | file
  deriving DecidableEq

inductive StreamAnswer
  | took (count : Nat)
  | zero
  | interrupted
  | wouldBlock
  | failed
  deriving DecidableEq

/-- The answers after which the backend gives up the chunk and keeps the stream. -/
def StreamAnswer.refuses : StreamAnswer → StreamKind → Bool
  | .wouldBlock, _ | .zero, .file | .failed, .file => true
  | _, _ => false

structure StreamLog (Byte : Type*) where
  isOpen : Bool
  /-- The rest of the batch, and what is left of the chunk. -/
  records : List (List Byte)
  iovecs : List (List Byte)
  /-- History: what was sent of the first message of the chunk. -/
  part : List Byte
  /-- History: the messages passed and the bytes taken since the stream was opened. -/
  passed : List (List Byte)
  written : List Byte

namespace StreamLog

variable (kind : StreamKind) (state : StreamLog Byte)

def maxIovCount : Nat := 64

/-- The next chunk and the records after it; the TCP backend skips empty messages. -/
def fillIovecs : Nat → List (List Byte) → List (List Byte) × List (List Byte)
  | _, [] => ([], [])
  | 0, records => ([], records)
  | room + 1, message :: records =>
    if kind = .tcp ∧ message = [] then fillIovecs (room + 1) records
    else (message :: (fillIovecs room records).1, (fillIovecs room records).2)

/-- Drop the bytes that were sent, and keep what belongs to the first message. -/
def trimIovecs (part : List Byte) : List (List Byte) → Nat → List Byte × List (List Byte)
  | [], _ => ([], [])
  | message :: iovecs, sent =>
    if message.length ≤ sent then trimIovecs [] iovecs (sent - message.length)
    else (part ++ message.take sent, message.drop sent :: iovecs)

/-- A call of `write_batch`, the next chunk, or the next answer of the kernel.  If there is
no stream, one is opened if it `connects`. -/
inductive Action (Byte : Type*)
  | writeBatch (records : List (List Byte)) (connects : Bool)
  | fill
  | send (answer : StreamAnswer)

def writeBatch (records : List (List Byte)) (connects : Bool) : StreamLog Byte :=
  let passed := records.filter (!·.isEmpty)
  if state.isOpen then { state with records, passed := state.passed ++ passed }
  else if connects ∧ records ≠ [] then ⟨true, records, [], [], passed, []⟩
  else state

def send : StreamAnswer → Option (StreamLog Byte)
  | .took count =>
    if 0 < count ∧ count ≤ state.iovecs.flatten.length then
      let trimmed := trimIovecs state.part state.iovecs count
      some { state with
        part := trimmed.1
        iovecs := trimmed.2
        written := state.written ++ state.iovecs.flatten.take count }
    else
      none
  | .interrupted => some state
  | answer =>
    if answer.refuses kind then some { state with iovecs := [], part := [] }
    else some { state with isOpen := false, records := [], iovecs := [], part := [] }

def step : Action Byte → Option (StreamLog Byte)
  | .writeBatch records connects =>
    if state.records = [] ∧ state.iovecs = [] then some (state.writeBatch records connects)
    else none
  | .fill =>
    if state.iovecs = [] then
      let filled := fillIovecs kind maxIovCount state.records
      some { state with iovecs := filled.1, records := filled.2 }
    else
      none
  | .send answer => if state.iovecs = [] then none else state.send kind answer

def system (Byte : Type*) (kind : StreamKind) :
    TransitionSystem (StreamLog Byte) (Action Byte) where
  initial := fun state => state = ⟨false, [], [], [], [], []⟩
  step := step kind

def whole (part : List Byte) : List (List Byte) → List (List Byte)
  | [] => []
  | message :: iovecs => (part ++ message) :: iovecs

/-- No message is cut when the backend gives up a chunk and keeps the stream. -/
def refusesWhole (state : StreamLog Byte) : Action Byte → Bool
  | .send answer => !answer.refuses kind || state.part.isEmpty
  | _ => true

structure Inv (state : StreamLog Byte) : Prop where
  closed : state.isOpen = false → state.records = [] ∧ state.iovecs = [] ∧
    Framed state.passed state.written
  split : state.isOpen = true → ∃ kept handled : List (List Byte),
    kept.Sublist handled ∧ state.written = kept.flatten ++ state.part ∧ state.passed = handled ++
      (whole state.part state.iovecs ++ state.records).filter (!·.isEmpty)
  ended : state.iovecs = [] → state.part = []

variable {kind} {state after : StreamLog Byte}

theorem whole_nil (iovecs : List (List Byte)) : whole [] iovecs = iovecs := by
  cases iovecs <;> rfl

theorem fillIovecs_append (room : Nat) (records : List (List Byte)) :
    ((fillIovecs kind room records).1 ++ (fillIovecs kind room records).2).filter (!·.isEmpty) =
      records.filter (!·.isEmpty) := by
  fun_induction fillIovecs kind room records with
  | case1 | case2 => rfl
  | case3 room message records skipped ih => simp [ih, skipped.2]
  | case4 room message records kept ih => simp only [cons_append, filter_cons, ih]

theorem trimIovecs_spec (part : List Byte) (iovecs : List (List Byte)) (sent : Nat)
    (ended : iovecs = [] → part = []) :
    (∃ done, whole part iovecs = done ++ whole (trimIovecs part iovecs sent).1
        (trimIovecs part iovecs sent).2 ∧
      part ++ iovecs.flatten.take sent = done.flatten ++ (trimIovecs part iovecs sent).1) ∧
      ((trimIovecs part iovecs sent).2 = [] → (trimIovecs part iovecs sent).1 = []) := by
  fun_induction trimIovecs part iovecs sent with
  | case1 => exact ⟨⟨[], by simp [whole], by simp [ended]⟩, fun _ => rfl⟩
  | case2 part message iovecs sent passes ih =>
    obtain ⟨⟨done, isWhole, isSent⟩, trimmed⟩ := ih fun _ => rfl
    refine ⟨⟨(part ++ message) :: done, ?_, ?_⟩, trimmed⟩
    · rw [cons_append, ← isWhole, whole_nil]
      rfl
    · rw [flatten_cons, take_append, take_of_length_le passes, flatten_cons, append_assoc, ← isSent]
      simp
  | case3 part message iovecs sent stops =>
    have within := Nat.le_of_not_le stops
    refine ⟨⟨[], ?_, ?_⟩, by simp⟩
    · simp [whole]
    · simp [take_append_of_le_length within]

theorem Inv.framed (inv : Inv state) : Framed state.passed state.written := by
  cases isOpen : state.isOpen with
  | false => exact (inv.closed isOpen).2.2
  | true =>
    obtain ⟨kept, handled, sublist, written, passed⟩ := inv.split isOpen
    rw [passed, written]
    refine framed_append sublist ?_
    cases isPart : state.part with
    | nil => exact framed_nil _
    | cons byte part =>
      cases isFirst : state.iovecs with
      | nil => simp [inv.ended isFirst] at isPart
      | cons message iovecs => exact .inr (.inr (by simp))

theorem Inv.send {answer : StreamAnswer} (inv : Inv state) (busy : state.iovecs ≠ [])
    (keeps : refusesWhole kind state (.send answer) = true)
    (sends : state.send kind answer = some after) : Inv after := by
  have isOpen : state.isOpen = true := by
    by_contra isClosed
    exact busy (inv.closed (by simpa using isClosed)).2.1
  obtain ⟨kept, handled, sublist, written, passed⟩ := inv.split isOpen
  have gives : ∀ after : StreamLog Byte, (if answer.refuses kind then
      some { state with iovecs := [], part := [] } else
      some { state with isOpen := false, records := [], iovecs := [], part := [] }) = some after →
      Inv after := by
    intro after gives
    split at gives <;> cases gives
    · rename_i refuses
      have noPart : state.part = [] := by simpa [refusesWhole, refuses] using keeps
      rw [noPart] at written
      refine ⟨by simp [isOpen], fun _ => ⟨kept, handled ++
        (whole state.part state.iovecs).filter (!·.isEmpty), ?_, written, ?_⟩, fun _ => rfl⟩
      · exact sublist.trans (sublist_append_left _ _)
      · simp [passed, whole]
    · exact ⟨fun _ => ⟨rfl, rfl, inv.framed⟩, by simp, fun _ => rfl⟩
  cases answer with
  | took count =>
    obtain ⟨-, ⟨⟩⟩ := ite_none_right_eq_some.mp sends
    obtain ⟨⟨done, isWhole, isSent⟩, ended⟩ :=
      trimIovecs_spec state.part state.iovecs count inv.ended
    refine ⟨by simp [isOpen], fun _ => ⟨kept ++ done.filter (!·.isEmpty),
      handled ++ done.filter (!·.isEmpty), sublist.append (.refl _), ?_, ?_⟩, ended⟩
    · simp only [written, append_assoc, isSent, flatten_append, flatten_filter_not_isEmpty]
    · simp only [passed, isWhole, filter_append, append_assoc]
  | interrupted => exact Option.some.inj sends ▸ inv
  | zero | wouldBlock | failed => exact gives after sends

theorem Inv.step {action : Action Byte} (inv : Inv state)
    (permitted : refusesWhole kind state action = true)
    (steps : step kind state action = some after) : Inv after := by
  cases action with
  | writeBatch records connects =>
    obtain ⟨⟨noRecords, noIovecs⟩, ⟨⟩⟩ := ite_none_right_eq_some.mp steps
    simp only [writeBatch]
    split
    · rename_i isOpen
      obtain ⟨kept, handled, sublist, written, passed⟩ := inv.split isOpen
      refine ⟨by simp [isOpen], fun _ => ⟨kept, handled, sublist, written, ?_⟩, inv.ended⟩
      simp [passed, noRecords, noIovecs, whole]
    · split
      · exact ⟨by simp, fun _ => ⟨[], [], .slnil, rfl, by simp [whole]⟩, fun _ => rfl⟩
      · exact inv
  | fill =>
    obtain ⟨noIovecs, ⟨⟩⟩ := ite_none_right_eq_some.mp steps
    have noPart := inv.ended noIovecs
    refine ⟨fun isClosed => ?_, fun isOpen => ?_, fun _ => noPart⟩
    · obtain ⟨noRecords, -, framed⟩ := inv.closed isClosed
      simp [noRecords, fillIovecs, framed]
    · obtain ⟨kept, handled, sublist, written, passed⟩ := inv.split isOpen
      refine ⟨kept, handled, sublist, written, ?_⟩
      simp only [passed, noIovecs, noPart, whole_nil, fillIovecs_append, nil_append]
  | send answer =>
    obtain ⟨busy, sends⟩ := ite_none_left_eq_some.mp steps
    exact inv.send busy permitted sends

/-- As long as no chunk is given up in the middle of a message on a stream that stays, the
stream holds whole messages in the order in which they were passed, and at most the last
one is cut. -/
theorem stream_keeps_messages_whole
    (reached : (system Byte kind).ReachableUnder (refusesWhole kind · ·) state) :
    Framed state.passed state.written := by
  have inv : Inv state := by
    induction reached with
    | start starts =>
      obtain rfl := starts
      exact ⟨fun _ => ⟨rfl, rfl, rfl⟩, by simp, fun _ => rfl⟩
    | next _ permitted steps ih => exact ih.step permitted steps
  exact inv.framed

/-- The kernel takes one of the two bytes of a message, and then gives another answer. -/
def halfSent (answer : StreamAnswer) : List (Action Bool) :=
  [.writeBatch [[true, false]] true, .fill, .send (.took 1), .send answer]

theorem stream_keeps_messages_whole_closed :
    ∃ state : StreamLog Bool, state.written = [true] ∧ Framed state.passed state.written := by
  obtain ⟨state, reached, written⟩ := (system Bool .tcp).exists_reachableUnder
    (refusesWhole .tcp · ·) rfl (halfSent .failed) (·.written = [true]) (by decide)
  exact ⟨state, written, stream_keeps_messages_whole reached⟩

/-- The socket is full in the middle of a message, and the next message follows its half. -/
theorem full_socket_cuts_message :
    ∃ state, (system Bool .tcp).Reachable state ∧ ¬ Framed state.passed state.written := by
  obtain ⟨state, reached, passed, written⟩ := (system Bool .tcp).exists_reachableUnder
    (fun _ _ => True) rfl
    (.append (halfSent .wouldBlock) [.writeBatch [[true]] true, .fill, .send (.took 1)])
    (fun state => state.passed = [[true, false], [true]] ∧ state.written = [true, true]) (by decide)
  exact ⟨state, reached, by simp [passed, written, Framed]⟩

/-! ### One chunk -/

/-- `writev_all` or `sendmsg_all` with an array of messages, call by call. -/
def sending (kind : StreamKind) (iovecs : List (List Byte)) :
    TransitionSystem (StreamLog Byte) StreamAnswer where
  initial := fun state => state = ⟨true, [], iovecs, [], [], []⟩
  step := fun state answer => step kind state (.send answer)

/-- The call does not fail, and takes a byte if there is one. -/
def progresses (state : StreamLog Byte) : StreamAnswer → Prop
  | .took _ | .interrupted => True
  | .zero => state.iovecs.flatten = []
  | .wouldBlock | .failed => False

theorem flatten_trimIovecs (part : List Byte) (iovecs : List (List Byte)) (sent : Nat) :
    (trimIovecs part iovecs sent).2.flatten = iovecs.flatten.drop sent := by
  fun_induction trimIovecs part iovecs sent with
  | case1 => simp
  | case2 part message iovecs sent passes ih => simp [ih, drop_append, passes]
  | case3 part message iovecs sent stops =>
    simp [drop_append, Nat.sub_eq_zero_of_le (Nat.le_of_not_le stops)]

theorem send_cases {answer : StreamAnswer} (steps : step kind state (.send answer) = some after) :
    state.iovecs ≠ [] ∧ (answer = .interrupted ∧ after = state ∨
      after.written ++ after.iovecs.flatten = state.written ++ state.iovecs.flatten ∧
        after.iovecs.flatten.length < state.iovecs.flatten.length ∨
      after.written = state.written ∧ after.iovecs = [] ∧
        (progresses state answer → state.iovecs.flatten = [])) := by
  obtain ⟨busy, sends⟩ := ite_none_left_eq_some.mp steps
  refine ⟨busy, ?_⟩
  cases answer with
  | took count =>
    obtain ⟨⟨positive, most⟩, ⟨⟩⟩ := ite_none_right_eq_some.mp sends
    refine .inr (.inl ⟨?_, ?_⟩)
    · simp only [flatten_trimIovecs, append_assoc, take_append_drop]
    · simp only [flatten_trimIovecs, length_drop]
      omega
  | interrupted => exact .inl ⟨rfl, (Option.some.inj sends).symm⟩
  | zero | wouldBlock | failed =>
    refine .inr (.inr ?_)
    simp only [send] at sends
    split at sends <;> cases sends <;> exact ⟨rfl, rfl, by simp [progresses]⟩

theorem calls_le {iovecs : List (List Byte)} {answers : List StreamAnswer}
    (sends : (sending kind iovecs).replay (fun _ _ => True) state answers = some after) :
    answers.countP (· ≠ .interrupted) ≤
      if state.iovecs = [] then 0 else state.iovecs.flatten.length + 1 := by
  induction answers generalizing state with
  | nil => simp
  | cons answer answers ih =>
    rw [TransitionSystem.replay, if_pos trivial] at sends
    obtain ⟨middle, steps, rest⟩ := bind_eq_some_iff.mp sends
    have later := ih rest
    rw [countP_cons]
    obtain ⟨busy, ⟨rfl, rfl⟩ | ⟨-, fewer⟩ | ⟨-, ended, -⟩⟩ := send_cases steps
    · simpa using later
    · grind
    · simp only [ended, busy, if_true, if_false] at later ⊢
      grind

/-- What is written is a prefix, the array is the rest of it while the loop goes on, nothing
is left if the calls make progress, and only interrupted calls are not bounded. -/
theorem vectored_writes_exact (kind : StreamKind) (iovecs : List (List Byte)) :
    (∀ state, (sending kind iovecs).Reachable state → state.written <+: iovecs.flatten ∧
      (state.iovecs ≠ [] → state.written ++ state.iovecs.flatten = iovecs.flatten)) ∧
    (∀ state, (sending kind iovecs).ReachableUnder progresses state → state.iovecs = [] →
      state.written = iovecs.flatten) ∧
    ∀ start answers state, (sending kind iovecs).initial start →
      (sending kind iovecs).replay (fun _ _ => True) start answers = some state →
      answers.countP (· ≠ .interrupted) ≤ iovecs.flatten.length + 1 := by
  refine ⟨fun state reached => ?_, fun state reached ended => ?_, ?_⟩
  · suffices split : state.written ++ state.iovecs.flatten = iovecs.flatten ∨
        state.iovecs = [] ∧ state.written <+: iovecs.flatten by
      rcases split with split | ⟨ended, isPrefix⟩
      · exact ⟨⟨_, split⟩, fun _ => split⟩
      · exact ⟨isPrefix, fun busy => absurd ended busy⟩
    induction reached with
    | start starts => exact .inl (by rw [starts]; rfl)
    | next _ _ steps ih =>
      obtain ⟨busy, ⟨-, rfl⟩ | ⟨same, -⟩ | ⟨same, ended, -⟩⟩ := send_cases steps
      · exact ih
      · exact .inl (same.trans (ih.resolve_right fun ended => busy ended.1))
      · exact .inr ⟨ended, same ▸ ⟨_, ih.resolve_right fun ended => busy ended.1⟩⟩
  · suffices split : state.written ++ state.iovecs.flatten = iovecs.flatten by
      simpa [ended] using split
    clear ended
    induction reached with
    | start starts => rw [starts]; rfl
    | next _ permitted steps ih =>
      obtain ⟨-, ⟨-, rfl⟩ | ⟨same, -⟩ | ⟨same, ended, nothing⟩⟩ := send_cases steps
      · exact ih
      · exact same.trans ih
      · rw [same, ended, ← ih, nothing permitted, flatten_nil]
  · rintro start answers state rfl sends
    have bound := calls_le sends
    split at bound <;> omega

end StreamLog

end AsyncFlow
