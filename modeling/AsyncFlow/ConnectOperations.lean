import AsyncFlow.ConnectCalls

/-!
# Operations of a connecting task

A connecting task has up to two waits in the table, for its socket and for the
timer of its deadline.  Operations of `run` that succeed or fail leave none of
them, and those that are pending leave the ones that the task knows about.
-/

namespace AsyncFlow

namespace TcpConnect

open IoWaits TcpConnectState

variable {waits : IoWaitsState} {state : TcpConnectState} {available : Bool}
  {result : ResultId} {id : Nat} {answers : ConnectAnswers} {memory : WaitMemory}

/-! ### The waits of the task -/

def ConnectWait (available : Bool) (state : TcpConnectState) (id : Nat) : Prop :=
  state.task.connectWaiting = true ∧ ∃ fd, state.task.fd = some fd ∧
    WaitsFor available state.waits fd ⟨false, true, false, false⟩ connectState id

def DeadlineWait (available : Bool) (state : TcpConnectState) (id : Nat) : Prop :=
  (state.task.deadline.waiting = true ∧ state.task.deadline.armed = true) ∧
    ∃ timer, state.task.deadline.timer = some timer ∧
      WaitsFor available state.waits timer ⟨true, false, false, false⟩ deadlineWait id

/-- The registrations that refer to the task are its two waits, and nothing is
being enqueued by `poll_native_io`. -/
structure Waiting (available : Bool) (state : TcpConnectState) : Prop where
  inv : Inv state.waits
  rest : state.waits.polling = none
  known : ∀ id, Referred state.waits id →
    ConnectWait available state id ∨ DeadlineWait available state id
  uncancelled : state.task.deadline.waiting = true → (state.waits.results deadlineWait).error = none

structure Clear (waits : IoWaitsState) : Prop where
  inv : Inv waits
  rest : waits.polling = none
  unreferred : ∀ id, ¬ Referred waits id

theorem ConnectWait.notReady (connects : ConnectWait available state id) :
    (state.waits.registrations id).result = connectState ∧
      state.waits.resultReady state.task.connectWaiting connectState = false := by
  obtain ⟨-, fd, -, waitsFor⟩ := connects
  simp [waitsFor.registration, IoWaitsState.resultReady, waitsFor.result]

theorem DeadlineWait.notReady (waits : DeadlineWait available state id) :
    (state.waits.registrations id).result = deadlineWait ∧
      state.waits.resultReady state.task.deadline.waiting deadlineWait = false := by
  obtain ⟨-, timer, -, waitsFor⟩ := waits
  simp [waitsFor.registration, IoWaitsState.resultReady, waitsFor.result]

variable {next : TcpConnectState}

theorem ConnectWait.frame (connects : ConnectWait available state id)
    (waiting : next.task.connectWaiting = state.task.connectWaiting)
    (fd : next.task.fd = state.task.fd)
    (registration : next.waits.registrations id = state.waits.registrations id)
    (result : next.waits.results connectState = state.waits.results connectState) :
    ConnectWait available next id := by
  obtain ⟨isWaiting, own, isFd, waitsFor⟩ := connects
  exact ⟨waiting.trans isWaiting, own, fd.trans isFd, waitsFor.available,
    registration.trans waitsFor.registration, result.trans waitsFor.result⟩

theorem DeadlineWait.frame (waits : DeadlineWait available state id)
    (deadline : next.task.deadline = state.task.deadline)
    (registration : next.waits.registrations id = state.waits.registrations id)
    (result : next.waits.results deadlineWait = state.waits.results deadlineWait) :
    DeadlineWait available next id := by
  obtain ⟨isWaiting, timer, isTimer, waitsFor⟩ := waits
  exact ⟨deadline ▸ isWaiting, timer, deadline ▸ isTimer, waitsFor.available,
    registration.trans waitsFor.registration, result.trans waitsFor.result⟩

theorem connectWait_of_result
    (known : ConnectWait available state id ∨ DeadlineWait available state id)
    (isConnect : (state.waits.registrations id).result = connectState) :
    ConnectWait available state id := by
  rcases known with connects | waits
  · exact connects
  · exact absurd (isConnect.symm.trans waits.notReady.1) (by decide)

theorem deadlineWait_of_result
    (known : ConnectWait available state id ∨ DeadlineWait available state id)
    (isDeadline : (state.waits.registrations id).result ≠ connectState) :
    DeadlineWait available state id := by
  rcases known with connects | waits
  · exact absurd connects.notReady.1 isDeadline
  · exact waits

theorem inv_setResult (inv : Inv waits) (value : IoResult) : Inv (waits.setResult result value) :=
  ⟨⟨inv.sound.entries, inv.sound.balanced⟩, inv.frames⟩

/-! ### Finishing -/

namespace Clear

theorem setResult (clear : Clear waits) (value : IoResult) : Clear (waits.setResult result value) :=
  ⟨inv_setResult clear.inv value, clear.rest, clear.unreferred⟩

theorem close (clear : Clear waits) (fd : Int) :
    Clear { waits with epoll := waits.epoll.close fd } :=
  ⟨⟨⟨clear.inv.sound.entries, clear.inv.sound.balanced⟩, clear.inv.frames⟩, clear.rest,
    clear.unreferred⟩

theorem closeFd (clear : Clear state.waits) : Clear state.closeFd.waits := by
  unfold TcpConnectState.closeFd
  split
  · exact clear
  · exact clear.close _

theorem resetDeadline (clear : Clear state.waits) : Clear state.resetDeadline.waits := by
  unfold TcpConnectState.resetDeadline
  split
  · exact clear.setResult _
  · exact (clear.close _).setResult _

theorem finishFailed (clear : Clear state.waits) (error : Errno) :
    Clear (state.finishFailed error).waits := by
  have reset : Clear (state.closeFd.withWaits
      (state.closeFd.waits.setResult connectState .new)).waits := clear.closeFd.setResult _
  exact reset.resetDeadline

end Clear

/-! ### The deadline -/

theorem Waiting.clear_of_ready (waiting : Waiting available state)
    (connects : state.waits.resultReady state.task.connectWaiting connectState = true)
    (expires : state.waits.resultReady state.task.deadline.waiting deadlineWait = true) :
    Clear state.waits := by
  refine ⟨waiting.inv, waiting.rest, fun id referred => ?_⟩
  rcases waiting.known id referred with isConnect | isDeadline
  · simp [isConnect.notReady.2] at connects
  · simp [isDeadline.notReady.2] at expires

theorem Waiting.cancel (waiting : Waiting available state) (runningTask : Option TaskId) :
    CancelsOwn state.waits (state.waits.cancelIo available state.task.connectWaiting connectState
          runningTask).1 connectState ∧ CancelsOwn state.waits
        (state.waits.cancelIo available state.task.deadline.waiting deadlineWait
          runningTask).1 deadlineWait := by
  constructor
  · refine cancelsOwn_cancelIo waiting.inv waiting.rest _ (.inl rfl) ⟨false, true, false, false⟩
      fun id referred same => ?_
    obtain ⟨isWaiting, fd, -, waitsFor⟩ :=
      connectWait_of_result (waiting.known id referred) same
    exact ⟨isWaiting, fd, waitsFor⟩
  · refine cancelsOwn_cancelIo waiting.inv waiting.rest _ (.inr rfl) ⟨true, false, false, false⟩
      fun id referred same => ?_
    obtain ⟨⟨isWaiting, -⟩, timer, -, waitsFor⟩ :=
      deadlineWait_of_result (waiting.known id referred) (same.trans_ne (by decide))
    exact ⟨isWaiting, timer, waitsFor⟩

theorem waitTimerfd_expired (state : TcpConnectState) (memory : WaitMemory)
    (uncancelled : state.task.deadline.waiting = true →
      (state.waits.results deadlineWait).error = none) :
    state.waitTimerfd available .expired memory =
      (state.withDeadline { state.task.deadline with waiting := false }, .ready) := by
  unfold waitTimerfd
  rw [if_neg]
  intro cancelled
  simp only [Bool.and_eq_true, decide_eq_true_eq] at cancelled
  simp [uncancelled cancelled.1] at cancelled

inductive ChecksTimeout (state : TcpConnectState) : TcpConnectState × IoStatus → Prop
  | pending : ChecksTimeout state (state, .pending)
  | ready {after : TcpConnectState} (clear : Clear after.waits)
      (disarmed : after.task.deadline.armed = false)
      (idle : after.task.deadline.waiting = false) : ChecksTimeout state (after, .ready)
  | failed {after : TcpConnectState} {error : Errno} (clear : Clear after.waits) :
      ChecksTimeout state (after, .failed error)

theorem checksTimeout_checkTimeout (waiting : Waiting available state)
    (reads : state.waits.resultReady state.task.deadline.waiting deadlineWait = true →
      answers.expiredRead = .expired) :
    ChecksTimeout state (state.checkTimeout available answers) := by
  obtain ⟨cancelsConnect, cancelsDeadline⟩ := waiting.cancel (some connectTask)
  unfold checkTimeout
  dsimp only
  split
  next connects =>
    refine .ready (Clear.setResult ?_ _) rfl rfl
    split
    next expires =>
      rw [reads expires, waitTimerfd_expired state _ waiting.uncancelled]
      exact waiting.clear_of_ready connects expires
    · split
      next isWaiting =>
        rw [isWaiting] at cancelsDeadline
        refine ⟨cancelsDeadline.inv, cancelsDeadline.rest, fun id referred => ?_⟩
        obtain ⟨before, different⟩ := cancelsDeadline.referred id referred
        rcases waiting.known id before with isConnect | isDeadline
        · simp [isConnect.notReady.2] at connects
        · exact different isDeadline.notReady.1
      next idle =>
        refine ⟨waiting.inv, waiting.rest, fun id referred => ?_⟩
        rcases waiting.known id referred with isConnect | isDeadline
        · simp [isConnect.notReady.2] at connects
        · exact idle isDeadline.1.1
  · split
    next expires =>
      rw [reads expires, waitTimerfd_expired state _ waiting.uncancelled]
      dsimp only [withDeadline]
      have clear : Clear (state.waits.cancelIo available state.task.connectWaiting connectState
          (some connectTask)).1 := by
        refine ⟨cancelsConnect.inv, cancelsConnect.rest, fun id referred => ?_⟩
        obtain ⟨before, different⟩ := cancelsConnect.referred id referred
        rcases waiting.known id before with isConnect | isDeadline
        · exact different isConnect.notReady.1
        · simp [isDeadline.notReady.2] at expires
      generalize state.waits.cancelIo available state.task.connectWaiting connectState
        (some connectTask) = outcome at clear
      obtain ⟨after, succeeded⟩ := outcome
      cases succeeded with
      | false | true => exact .failed (clear.setResult _)
    · exact .pending

/-! ### Connecting -/

inductive Connects (available : Bool) (state : TcpConnectState) : TcpConnectState × IoStatus → Prop
  | pending {after : TcpConnectState} (waiting : Waiting available after)
      (only : ∀ id, Referred after.waits id → ConnectWait available after id)
      (deadline : after.task.deadline = state.task.deadline) :
      Connects available state (after, .pending)
  | ready {after : TcpConnectState} (clear : Clear after.waits) :
      Connects available state (after, .ready)
  | failed {after : TcpConnectState} {error : Errno} (clear : Clear after.waits) :
      Connects available state (after, .failed error)

theorem connects_ioConnect (clear : Clear state.waits)
    (uncancelled : state.task.deadline.waiting = true →
      (state.waits.results deadlineWait).error = none) :
    Connects available state (state.ioConnect available answers) := by
  have arms := arms_armIoWait available clear.inv clear.rest state.task.fd
    ⟨false, true, false, false⟩ connectState answers.connectMemory
  unfold ioConnect
  split
  · exact .failed clear
  · split
    · exact .ready clear
    · exact .failed clear
    · generalize state.waits.armIoWait available state.task.fd ⟨false, true, false, false⟩
        connectState answers.connectMemory = outcome at arms
      obtain ⟨after, error⟩ := outcome
      cases error with
      | some error =>
        refine .failed ⟨arms.inv, arms.rest, fun id referred => ?_⟩
        have inside : InTable state.waits.ioWaits id := arms.failed rfl ▸ referred.1
        exact clear.unreferred id ⟨inside, arms.registrations id inside ▸ referred.2⟩
      | none =>
        obtain ⟨own, new, isFd, waitsFor, table⟩ := arms.armed rfl
        have only : ∀ id, Referred after id → id = new := by
          intro id referred
          rcases (table id).mp referred.1 with inside | isNew
          · exact absurd ⟨inside, arms.registrations id inside ▸ referred.2⟩ (clear.unreferred id)
          · exact isNew
        have known : ∀ id, Referred after id → ConnectWait available
            { waits := after, task := { state.task with connectWaiting := true } } id := by
          rintro id referred
          obtain rfl := only id referred
          exact ⟨rfl, own, isFd, waitsFor⟩
        refine .pending ⟨arms.inv, arms.rest, fun id referred => .inl (known id referred),
          fun isWaiting => ?_⟩ known rfl
        exact (congrArg IoResult.error (arms.results deadlineWait (by decide))).trans
          (uncancelled isWaiting)

/-! ### Starting the deadline -/

theorem waiting_of_waitTimerfd {read : TimerRead} {status : IoStatus}
    (waiting : Waiting available state)
    (only : ∀ id, Referred state.waits id → ConnectWait available state id)
    (idle : state.task.deadline.waiting = false)
    (waits : state.waitTimerfd available read memory = (next, status)) :
    match status with
    | .pending => Waiting available (next.withDeadline { next.task.deadline with armed := true })
    | .ready => Waiting available next
    | .failed _ => True := by
  unfold waitTimerfd at waits
  simp only [idle, Bool.false_and, Bool.false_eq_true, if_false] at waits
  split at waits
  · cases waits
    exact ⟨waiting.inv, waiting.rest, fun id referred => .inl (only id referred),
      fun isWaiting => by cases isWaiting⟩
  · cases waits
    trivial
  · have arms := arms_armIoWait available waiting.inv waiting.rest state.task.deadline.timer
      ⟨true, false, false, false⟩ deadlineWait memory
    split at waits
    next after registered =>
      cases waits
      rw [registered] at arms
      obtain ⟨own, new, isTimer, waitsFor, table⟩ := arms.armed rfl
      refine ⟨arms.inv, arms.rest, fun id referred => ?_, fun _ => ?_⟩
      · rcases (table id).mp referred.1 with inside | rfl
        · have registration := arms.registrations id inside
          have connects := only id ⟨inside, registration ▸ referred.2⟩
          exact .inl (connects.frame rfl rfl registration (arms.results connectState (by decide)))
        · exact .inr ⟨⟨rfl, rfl⟩, own, isTimer, waitsFor⟩
      · exact congrArg IoResult.error waitsFor.result
    · cases waits
      trivial

def withTimer (state : TcpConnectState) (timer : Nat) : TcpConnectState :=
  (state.withWaits (state.waits.setResult deadlineWait .new)).withDeadline
    { state.task.deadline with waiting := false, timer := some timer }

section

variable (waiting : Waiting available state)
  (only : ∀ id, Referred state.waits id → ConnectWait available state id)

include waiting only

theorem Waiting.withTimer (timer : Nat) :
    Waiting available (withTimer state timer) ∧ ∀ id, Referred (withTimer state timer).waits id →
        ConnectWait available (withTimer state timer) id := by
  have results : (state.waits.setResult deadlineWait .new).results connectState =
      state.waits.results connectState :=
    Function.update_of_ne (show connectState ≠ deadlineWait by decide) IoResult.new _
  have same : ∀ id, Referred state.waits id →
      ConnectWait available (TcpConnect.withTimer state timer) id :=
    fun id referred => (only id referred).frame rfl rfl rfl results
  exact ⟨⟨inv_setResult waiting.inv _, waiting.rest, fun id referred => .inl (same id referred),
    fun isWaiting => by cases isWaiting⟩, same⟩

theorem waiting_of_startTimeout {status : IoStatus}
    (starts : state.startTimeout available answers = (next, status))
    (succeeds : ∀ error, status ≠ .failed error) : Waiting available next := by
  unfold startTimeout at starts
  dsimp only at starts
  split at starts
  · cases starts
    exact absurd rfl (succeeds _)
  · split at starts
    · cases starts
      exact absurd rfl (succeeds _)
    next timer created =>
      split at starts
      · cases starts
        exact absurd rfl (succeeds _)
      · obtain ⟨set, onlySet⟩ := waiting.withTimer only timer
        split at starts
        next waits =>
          cases starts
          exact waiting_of_waitTimerfd set onlySet rfl waits
        next waits =>
          cases starts
          have waited := waiting_of_waitTimerfd set onlySet rfl waits
          cases status with
          | pending => simp_all
          | ready => exact waited
          | failed error => exact absurd rfl (succeeds error)

end

end TcpConnect

end AsyncFlow
