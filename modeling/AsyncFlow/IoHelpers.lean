import AsyncFlow.TransitionSystem

/-!
# Operations that wait for readiness

`io_connect`, `io_recv_some` and the like keep an `IoOpState` while they wait, and
`arm_io_timeout` one more for its timerfd.  Of the table of the executor the model
has the registrations that point to these states.
-/

namespace AsyncFlow

inductive WaitAnswer
  | none
  | events
  | canceled
  | error
  deriving DecidableEq

inductive OpError
  | canceled
  | timedOut
  | already
  | other
  deriving DecidableEq

inductive OpStatus
  | pending
  | ready (size : Nat)
  | closed
  | failed (error : OpError)
  deriving DecidableEq

/-- An `IoOpState`; `registered` while the table of the executor points to it. -/
structure OpWait where
  waiting : Bool
  answer : WaitAnswer
  registered : Bool
  deriving DecidableEq

namespace OpWait

def start : OpWait := ⟨false, .none, false⟩

def armed : OpWait := ⟨true, .none, true⟩

variable (wait : OpWait)

def clearWaiting : OpWait := { wait with waiting := false }

def reset : OpWait := { start with registered := wait.registered }

def cancelledWaitReady : Bool := wait.waiting && wait.answer = .canceled

def ioWaitResultReady : Bool := wait.waiting && wait.answer ≠ .none

def complete : OpWait := { wait with answer := .events, registered := false }

/-- `arm_io_wait`, whose registration may be refused. -/
def armIoWait (refusal : Option OpError) : OpWait × OpStatus :=
  if wait.registered then (⟨false, .error, true⟩, .failed .already)
  else match refusal with
    | some error => (⟨false, .error, false⟩, .failed error)
    | none => (armed, .pending)

def cancelIo : OpWait × Bool :=
  if wait.cancelledWaitReady then (wait, true)
  else if wait.waiting && wait.registered then
    ({ wait with answer := .canceled, registered := false }, true)
  else ({ wait with answer := .error }, false)

end OpWait

/-! ### Helpers that are called again -/

inductive ConnectAttempt
  | idle
  | inProgress
  | connected
  | refused
  deriving DecidableEq

/-- What the first system call of a helper returns that does not return `EINTR`. -/
inductive HelperReply
  | done (size : Nat)
  | closed
  | blocks
  | fails
  deriving DecidableEq

structure IoHelper where
  wait : OpWait
  attempt : ConnectAttempt
  resumed : Bool
  status : Option OpStatus
  /-- History: the helper has met its own registration. -/
  clashed : Bool
  deriving DecidableEq

namespace IoHelper

variable (state : IoHelper) (refusal : Option OpError)

def cleared : IoHelper := { state with wait := state.wait.clearWaiting }

def returns (status : OpStatus) : IoHelper := { state with status := some status }

def arm : IoHelper :=
  { state with
    wait := (state.wait.armIoWait refusal).1
    status := some (state.wait.armIoWait refusal).2
    clashed := state.clashed || state.wait.registered }

/-- `io_connect`.  After a wait the reply is that of `SO_ERROR`, which reads 0 while the
attempt is in progress. -/
def ioConnect (reply : HelperReply) : IoHelper :=
  if state.wait.cancelledWaitReady then state.cleared.returns (.failed .canceled)
  else if state.wait.waiting then
    match reply with
    | .blocks => state.cleared.arm refusal
    | .fails => state.cleared.returns (.failed .other)
    | .done _ | .closed =>
      state.cleared.returns (if state.attempt = .refused then .failed .other else .ready 0)
  else
    match reply with
    | .blocks => { state.cleared with attempt := .inProgress }.arm refusal
    | .fails | .closed => state.cleared.returns (.failed .other)
    | .done _ => { state.cleared with attempt := .connected }.returns (.ready 0)

/-- `io_recv_some`, `io_send_some`, `io_wait_timerfd` and the like. -/
def ioTransfer (reply : HelperReply) : IoHelper :=
  if state.wait.cancelledWaitReady then state.cleared.returns (.failed .canceled)
  else match reply with
    | .done size => state.cleared.returns (.ready size)
    | .closed => state.cleared.returns .closed
    | .blocks => state.cleared.arm refusal
    | .fails => state.cleared.returns (.failed .other)

inductive Action
  | call (reply : HelperReply) (refusal : Option OpError)
  | post
  | complete
  | cancel
  | settle (succeeds : Bool)
  deriving DecidableEq

/-- A task that has not returned pending goes on without being resumed. -/
def step (connects : Bool) : Action → Option IoHelper
  | .call reply refusal =>
    if state.resumed || state.status ≠ some .pending then
      let called :=
        if connects then state.ioConnect refusal reply else state.ioTransfer refusal reply
      some { called with resumed := false }
    else none
  | .post => some { state with resumed := true }
  | .complete =>
    if state.wait.registered && !(connects && state.attempt = .inProgress) then
      some { state with wait := state.wait.complete, resumed := true }
    else none
  | .cancel => some { state with wait := state.wait.cancelIo.1, resumed := true }
  | .settle succeeds =>
    if state.attempt = .inProgress then
      some { state with attempt := if succeeds then .connected else .refused }
    else none

def start : IoHelper := ⟨.start, .idle, true, none, false⟩

def system (connects : Bool) : TransitionSystem IoHelper Action where
  initial := fun state => state = start
  step := fun state action => state.step connects action

/-- No other task posts this one while its wait is registered. -/
def resumedByWait : Action → Bool
  | .post => !state.wait.registered
  | _ => true

structure Inv (connects : Bool) (state : IoHelper) : Prop where
  waits : state.wait.registered = true → state.wait.waiting = true ∧ state.wait.answer = .none ∧
    state.resumed = false ∧ state.status = some .pending
  answered : state.wait.waiting = true → state.wait.registered = true ∨ state.wait.answer ≠ .none
  attempts : connects = true → state.wait.waiting = true → state.attempt ≠ .idle
  settled : connects = true → state.wait.waiting = true → state.wait.registered = false →
    state.wait.answer ≠ .canceled → state.attempt ≠ .inProgress
  connected : connects = true → ∀ size, state.status = some (.ready size) →
    state.attempt = .connected
  apart : state.clashed = false

variable {connects : Bool} {state : IoHelper} {after : IoHelper} {action : Action}

attribute [local grind] OpWait.cancelledWaitReady OpWait.complete OpWait.cancelIo

theorem Inv.call (inv : Inv connects state) (idle : state.wait.registered = false)
    (reply : HelperReply) (refusal : Option OpError) :
    Inv connects { (if connects then state.ioConnect refusal reply
      else state.ioTransfer refusal reply) with resumed := false } := by
  obtain ⟨-, answered, attempts, settled, connected, apart⟩ := inv
  have attempted : state.attempt = .idle ∨ state.attempt = .inProgress ∨
      state.attempt = .connected ∨ state.attempt = .refused := by
    cases state.attempt <;> simp
  cases connects <;> cases reply <;> cases refusal <;>
    simp only [ioConnect, ioTransfer, arm, returns, cleared, OpWait.armIoWait, OpWait.clearWaiting,
      OpWait.armed, OpWait.cancelledWaitReady, idle, apart, if_true, Bool.false_eq_true,
      if_false] <;>
    (try split) <;> (try split) <;> constructor <;> grind -linarith

theorem Inv.step (inv : Inv connects state) (permitted : state.resumedByWait action = true)
    (steps : state.step connects action = some after) : Inv connects after := by
  cases action with
  | call reply refusal =>
    obtain ⟨called, ⟨⟩⟩ := Option.ite_none_right_eq_some.mp steps
    have waits := inv.waits
    exact inv.call (by grind -linarith) reply refusal
  | _ =>
    obtain ⟨waits, answered, attempts, settled, connected, apart⟩ := inv
    simp only [IoHelper.step, resumedByWait] at steps permitted
    constructor <;> grind -linarith

/-- A helper that is resumed only by its wait returns a result only when the executor has
no registration for it, and never finds one of its own. -/
theorem helper_results_final
    (reached : (system connects).ReachableUnder (resumedByWait · ·) state) :
    (∀ status, state.status = some status → status ≠ .pending → state.wait.registered = false) ∧
      state.clashed = false ∧ (connects = true → ∀ size, state.status = some (.ready size) →
        state.attempt = .connected) := by
  have inv : Inv connects state := by
    induction reached with
    | start starts =>
      cases starts
      constructor <;> simp [start, OpWait.start]
    | next reached permitted steps ih => exact ih.step permitted steps
  refine ⟨fun status isStatus returned => ?_, inv.apart, inv.connected⟩
  by_contra registered
  have waits := (inv.waits (by simpa using registered)).2.2.2
  exact returned (Option.some.inj (isStatus.symm.trans waits))

theorem helper_results_final_received :
    ∃ state, (system false).ReachableUnder (resumedByWait · ·) state ∧
      state.status = some (.ready 5) ∧ state.wait.registered = false := by
  obtain ⟨state, reached, isReady⟩ := (system false).exists_reachableUnder (resumedByWait · ·)
    (show (system false).initial start from rfl)
    [.call .blocks none, .complete, .call (.done 5) none]
    (fun state => state.status = some (.ready 5)) (by decide)
  exact ⟨state, reached, isReady, (helper_results_final reached).1 _ isReady (by decide)⟩

/-- Another task posts the one whose helper waits: the helper finds its own
registration, leaves it behind, or takes the 0 of an attempt in progress for success. -/
theorem posted_helper_misled :
    (∃ state, (system false).Reachable state ∧ state.status = some (.failed .already) ∧
      state.clashed = true) ∧
    (∃ state, (system false).Reachable state ∧ state.status = some (.ready 5) ∧
      state.wait.registered = true) ∧
    ∃ state, (system true).Reachable state ∧ state.status = some (.ready 0) ∧
      state.attempt = .inProgress :=
  ⟨(system false).exists_reachableUnder (fun _ _ => True)
      (show (system false).initial start from rfl)
      [.call .blocks none, .post, .call .blocks none] _ (by decide),
    (system false).exists_reachableUnder (fun _ _ => True)
      (show (system false).initial start from rfl)
      [.call .blocks none, .post, .call (.done 5) none] _ (by decide),
    (system true).exists_reachableUnder (fun _ _ => True)
      (show (system true).initial start from rfl)
      [.call .blocks none, .post, .call (.done 0) none] _ (by decide)⟩

end IoHelper

/-! ### Deadlines -/

/-- An operation that waits for a socket under an `IoDeadline`; on Linux no wait is a
timer wait. -/
structure DeadlineOp where
  io : OpWait
  timer : OpWait
  armed : Bool
  ticking : Bool
  expired : Bool
  status : Option OpStatus
  deriving DecidableEq

inductive Arming
  | waits
  /-- the timer expires before it is read first -/
  | expires
  | fails (error : OpError)
  deriving DecidableEq

namespace DeadlineOp

variable (state : DeadlineOp)

/-- `io_wait_timerfd` on the timer of the deadline. -/
def consumeDeadlineWait : OpWait × OpStatus :=
  if state.timer.cancelledWaitReady then (state.timer.clearWaiting, .failed .canceled)
  else if state.expired then (state.timer.clearWaiting, .ready 8)
  else state.timer.clearWaiting.armIoWait none

def finish (io timer : OpWait) (status : OpStatus) : DeadlineOp :=
  ⟨io, timer.reset, false, false, false, some status⟩

def armIoTimeout (arming : Arming) : DeadlineOp :=
  if state.armed && state.io.ioWaitResultReady then
    let timer :=
      if state.timer.ioWaitResultReady then state.consumeDeadlineWait.1
      else if state.timer.waiting then state.timer.cancelIo.1
      else state.timer
    finish state.io timer (.ready 0)
  else if state.armed && state.timer.ioWaitResultReady then
    match state.consumeDeadlineWait with
    | (timer, .ready _) =>
      match state.io.cancelIo with
      | (io, true) => finish io.clearWaiting timer (.failed .timedOut)
      | (io, false) => finish io timer (.failed .other)
    | (timer, .failed error) => finish state.io timer (.failed error)
    | (timer, _) => finish state.io timer (.failed .other)
  else if state.armed then { state with status := some .pending }
  else if !state.io.waiting then { state with status := some (.failed .other) }
  else
    match arming with
    | .waits =>
      { state with
        timer := (state.timer.reset.armIoWait none).1
        armed := true
        ticking := true
        expired := false
        status := some .pending }
    | .expires => { state with timer := state.timer.reset, status := some (.ready 8) }
    | .fails error => { state with timer := state.timer.reset, status := some (.failed error) }

inductive Action
  | call (arming : Arming)
  | ioReady
  | expire
  | timerReady
  | begin
  deriving DecidableEq

def returned : Bool := state.status ≠ none && state.status ≠ some .pending

def step : Action → Option DeadlineOp
  | .call arming => if state.returned then none else some (state.armIoTimeout arming)
  | .ioReady =>
    if state.io.registered then some { state with io := state.io.complete } else none
  | .expire => if state.ticking then some { state with expired := true } else none
  | .timerReady =>
    if state.timer.registered && state.expired then
      some { state with timer := state.timer.complete }
    else none
  | .begin =>
    if state.returned && !state.io.registered then
      some { state with io := .armed, status := none }
    else none

def start : DeadlineOp := ⟨.armed, .start, false, false, false, none⟩

def system : TransitionSystem DeadlineOp Action where
  initial := fun state => state = start
  step := step

def armsInTime : Action → Bool
  | .call arming => state.armed || arming = .waits
  | _ => true

structure Inv (state : DeadlineOp) : Prop where
  armed : state.armed = true ↔ state.status = some .pending
  io : state.returned = false → state.io = .armed ∨ state.io = OpWait.armed.complete
  timer : state.armed = true → state.timer = .armed ∨
    state.timer = OpWait.armed.complete ∧ state.expired = true
  done : state.returned = true → state.io.registered = false ∧
    (state.status = some (.ready 0) ∨ state.status = some (.failed .timedOut))
  disarmed : state.armed = false → state.timer.registered = false

variable {state : DeadlineOp} {after : DeadlineOp} {action : Action}

attribute [local simp] OpWait.armed OpWait.complete OpWait.reset OpWait.start OpWait.clearWaiting
  OpWait.armIoWait OpWait.cancelIo OpWait.cancelledWaitReady OpWait.ioWaitResultReady
  consumeDeadlineWait finish armIoTimeout

theorem Inv.call (inv : Inv state) (going : state.returned = false) {arming : Arming}
    (inTime : state.armed = true ∨ arming = .waits) : Inv (state.armIoTimeout arming) := by
  obtain ⟨armed, io, timer, -, disarmed⟩ := inv
  by_cases isArmed : state.armed = true
  · obtain isIo | isIo := io going <;> obtain isTimer | ⟨isTimer, isExpired⟩ := timer isArmed <;>
      constructor <;> simp_all [returned]
  · obtain rfl := inTime.resolve_left isArmed
    obtain isIo | isIo := io going <;> constructor <;> simp_all [returned]

theorem Inv.step (inv : Inv state) (permitted : state.armsInTime action = true)
    (steps : state.step action = some after) : Inv after := by
  cases action with
  | call arming =>
    obtain ⟨going, ⟨⟩⟩ := Option.ite_none_left_eq_some.mp steps
    exact inv.call (by simpa using going) (by simpa [armsInTime] using permitted)
  | _ =>
    obtain ⟨armed, io, timer, done, disarmed⟩ := inv
    simp only [DeadlineOp.step, Option.ite_none_right_eq_some, Option.some.injEq] at steps
    constructor <;> grind -linarith [returned, OpWait.armed, OpWait.complete]

/-- A call decides for the socket if its wait is complete, and otherwise for the timer, and
then nothing of the operation stays registered. -/
theorem deadline_decides (reached : system.ReachableUnder (armsInTime · ·) state) :
    (state.returned = true → state.io.registered = false ∧ state.timer.registered = false ∧
      state.armed = false ∧
      (state.status = some (.ready 0) ∨ state.status = some (.failed .timedOut))) ∧
    (state.status = none → (state.armIoTimeout .waits).status = some .pending) ∧
    ∀ arming, state.status = some .pending → (state.armIoTimeout arming).status =
      if state.io.answer = .events then some (.ready 0)
      else if state.timer.answer = .events then some (.failed .timedOut)
      else some .pending := by
  have inv : Inv state := by
    induction reached with
    | start starts =>
      cases starts
      constructor <;> simp [start, returned]
    | next reached permitted steps ih => exact ih.step permitted steps
  obtain ⟨armed, io, timer, done, disarmed⟩ := inv
  refine ⟨fun isReturned => ?_, fun isNew => ?_, fun arming isPending => ?_⟩
  · have notArmed : state.armed = false := by grind [returned]
    exact ⟨(done isReturned).1, disarmed notArmed, notArmed, (done isReturned).2⟩
  · obtain isIo | isIo := io (by simp [returned, isNew]) <;> simp_all
  · obtain isIo | isIo := io (by simp [returned, isPending]) <;>
      obtain isTimer | ⟨isTimer, isExpired⟩ := timer (armed.2 isPending) <;> simp_all

theorem deadline_decides_timed_out : ∃ state, system.ReachableUnder (armsInTime · ·) state ∧
      state.status = some (.failed .timedOut) ∧ state.timer.registered = false := by
  obtain ⟨state, reached, isStatus⟩ := system.exists_reachableUnder (armsInTime · ·)
    (show system.initial start from rfl)
    [.call .waits, .call .waits, .expire, .timerReady, .call .waits]
    (fun state => state.status = some (.failed .timedOut)) (by decide)
  have isReturned : state.returned = true := by simp [returned, isStatus]
  exact ⟨state, reached, isStatus, ((deadline_decides reached).1 isReturned).2.1⟩

/-- The timer expires before it is read first: the call returns the size of what it
read, and the wait for the socket stays registered. -/
theorem early_expiry_reported_ready :
    ∃ state, system.Reachable state ∧ state.status = some (.ready 8) ∧ state.io.registered = true :=
  system.exists_reachableUnder (fun _ _ => True) (show system.initial start from rfl)
    [.call .expires] _ (by decide)

end DeadlineOp

end AsyncFlow
