import AsyncFlow.ConnectOwnership
import AsyncFlow.ConnectSocket

/-!
# A finished connect leaves nothing behind

When `run` finds that the client stops, or that the timer of its deadline cannot
be started or read, it finishes without a look at its waits.  Where it meets none
of this while it has waits, no entry refers to the task once it is done.
-/

namespace AsyncFlow

open Option

namespace TcpConnect

open IoWaits

variable {state : TcpConnectState} {available timeout : Bool} {answers : ConnectAnswers}

def noWaits (state : TcpConnectState) : Bool :=
  state.task.fd.all (fun fd => !state.waits.hasWait (fd : Nat) connectState) &&
    state.task.deadline.timer.all (fun timer => !state.waits.hasWait (timer : Nat) deadlineWait)

theorem Waiting.clear_of_noWaits (waiting : Waiting available state)
    (none : noWaits state = true) : Clear state.waits := by
  refine ⟨waiting.inv, waiting.rest, fun id referred => ?_⟩
  simp only [noWaits, Bool.and_eq_true, all_eq_true, Bool.not_eq_true'] at none
  rcases waiting.known id referred with ⟨-, fd, isFd, waitsFor⟩ | ⟨-, timer, isTimer, waitsFor⟩
  · exact absurd (waitsFor.hasWait waiting.inv referred.1) (Bool.eq_false_iff.mp (none.1 fd isFd))
  · exact absurd (waitsFor.hasWait waiting.inv referred.1)
      (Bool.eq_false_iff.mp (none.2 timer isTimer))

inductive Attempts (available : Bool) : TcpConnectState × IoStatus → Prop
  | pending {after : TcpConnectState} (waiting : Waiting available after)
      (only : after.task.deadline.armed = false →
        ∀ id, Referred after.waits id → ConnectWait available after id) :
      Attempts available (after, .pending)
  | ready {after : TcpConnectState} (clear : Clear after.waits) : Attempts available (after, .ready)
  | failed {after : TcpConnectState} {error : Errno} (clear : Clear after.waits) :
      Attempts available (after, .failed error)

theorem Connects.attempts {outcome : TcpConnectState × IoStatus}
    (connects : Connects available state outcome) : Attempts available outcome := by
  cases connects with
  | pending waiting only => exact .pending waiting fun _ => only
  | ready clear => exact .ready clear
  | failed clear => exact .failed clear

inductive Prepares (state : TcpConnectState) : TcpConnectState × Option Errno → Prop
  | before : Prepares state (state, none)
  | failed {after : TcpConnectState} {error : Errno} (clear : Clear after.waits) :
      Prepares state (after, some error)
  | prepared {after : TcpConnectState} (clear : Clear after.waits)
      (unarmed : after.task.deadline.armed = false) (idle : after.task.deadline.waiting = false) :
      Prepares state (after, none)

theorem prepares_prepare (timeout : Bool) (answers : ConnectAnswers)
    (fresh : state.task.prepared = false → Clear state.waits ∧
      state.task.deadline.armed = false ∧ state.task.deadline.waiting = false) :
    Prepares state (state.prepare timeout answers) := by
  unfold TcpConnectState.prepare
  split
  · exact .before
  next unprepared =>
    obtain ⟨clear, unarmed, idle⟩ := fresh (Bool.eq_false_iff.mpr unprepared)
    split
    · exact .failed clear
    · split
      · refine .failed (Clear.closeFd ?_)
        exact clear
      · split
        · exact .prepared (clear.setResult _) rfl rfl
        · exact .prepared clear unarmed idle

theorem attempts_attempt (waiting : Waiting available state) (timeout : Bool)
    (woken : ∀ id, Referred state.waits id → state.task.deadline.armed = true)
    (unprepared : state.task.prepared = false →
      state.task.deadline.armed = false ∧ state.task.deadline.waiting = false)
    (reads : state.waits.resultReady state.task.deadline.waiting deadlineWait = true →
      answers.expiredRead = .expired) :
    Attempts available (state.attempt available timeout answers) := by
  have unarmed : state.task.deadline.armed = false → Clear state.waits := fun unarmed =>
    ⟨waiting.inv, waiting.rest, fun id referred => by
      cases unarmed.symm.trans (woken id referred)⟩
  have prepares := prepares_prepare timeout answers fun notPrepared =>
    ⟨unarmed (unprepared notPrepared).1, unprepared notPrepared⟩
  unfold TcpConnectState.attempt
  generalize state.prepare timeout answers = outcome at prepares
  cases prepares with
  | failed clear => exact .failed clear
  | prepared clear isUnarmed idle =>
    dsimp only
    rw [if_neg (by simp [isUnarmed])]
    exact (connects_ioConnect clear fun isWaiting => by cases idle.symm.trans isWaiting).attempts
  | before =>
    dsimp only
    split
    next armed =>
      have checks := checksTimeout_checkTimeout waiting reads
      generalize state.checkTimeout available answers = outcome at checks
      cases checks with
      | pending => exact .pending waiting fun isUnarmed => by cases isUnarmed.symm.trans armed
      | ready clear disarmed idle =>
        exact (connects_ioConnect clear fun isWaiting => by
          cases idle.symm.trans isWaiting).attempts
      | failed clear => exact .failed clear
    next notArmed =>
      exact (connects_ioConnect (unarmed (Bool.eq_false_iff.mpr notArmed))
        waiting.uncancelled).attempts

def timerStarts (available timeout : Bool) (state : TcpConnectState) (answers : ConnectAnswers) :
    Bool :=
  match (state.withWaits (withFails state.waits answers.fails)).attempt available timeout
    answers with
  | (after, .pending) =>
    match (after.startTimeout available answers).2 with
    | .failed _ => !after.task.deadline.configured || after.task.deadline.armed
    | .pending | .ready => true
  | (_, .ready) | (_, .failed _) => true

/-- The client does not stop while the run waits, the timer is started, and a timer
that expired is read. -/
def cleanRun (available timeout : Bool) (state : TcpConnectState) (answers : ConnectAnswers) :
    Prop :=
  atRest state.waits ∧ (state.stops answers = true → noWaits state = true) ∧
    (state.waits.resultReady state.task.deadline.waiting deadlineWait = true →
      answers.expiredRead = .expired) ∧ timerStarts available timeout state answers = true

instance (available timeout : Bool) (state : TcpConnectState) (answers : ConnectAnswers) :
    Decidable (cleanRun available timeout state answers) :=
  inferInstanceAs (Decidable (_ ∧ _))

theorem Clear.owned_finishFailed (clear : Clear state.waits) (error : Errno) :
    Owned available (state.finishFailed error) :=
  have after := clear.finishFailed error
  ⟨after.inv, framesReady_of_rest after.rest, (fun live => by cases live),
    fun _ => ⟨rfl, after.unreferred⟩⟩

theorem Clear.owned_finishConnected (clear : Clear state.waits) (answers : ConnectAnswers) :
    Owned available (state.finishConnected answers) := by
  unfold TcpConnectState.finishConnected
  split
  · refine Clear.owned_finishFailed ?_ _
    exact clear
  · exact ⟨clear.inv, framesReady_of_rest clear.rest, (fun live => by cases live),
      fun _ => ⟨rfl, clear.unreferred⟩⟩

theorem Waiting.owned_returnPending (waiting : Waiting available state)
    (connecting : Connecting state.task) : Owned available state.returnPending where
  inv := waiting.inv
  frames := framesReady_of_rest waiting.rest
  live := fun _ =>
    { known := fun id referred => (waiting.known id referred).imp (·.frame rfl rfl rfl rfl)
        (·.frame rfl rfl rfl)
      uncancelled := waiting.uncancelled
      woken := fun queued => by cases queued
      unprepared := fun unprepared => by cases connecting.isPrepared.symm.trans unprepared }
  finished := fun done => by cases connecting.live.symm.trans done

theorem Owned.run (owned : Owned available state) (accounted : Accounted state.task)
    (queued : state.task.queued = true) (isLive : state.task.done = false)
    (clean : cleanRun available timeout state answers) :
    Owned available (state.run available timeout answers) := by
  obtain ⟨rest, stops, reads, starts⟩ := clean
  have live := owned.live isLive
  have waiting := live.waiting owned.inv rest.1
  unfold TcpConnectState.run
  split
  · next stopping => exact (waiting.clear_of_noWaits (stops stopping)).owned_finishFailed _
  next goes =>
    have uncancelled : state.task.cancelRequested = false := by
      simp only [TcpConnectState.stops, Bool.or_eq_true, not_or, Bool.not_eq_true] at goes
      exact goes.2
    have waiting : Waiting available (state.withWaits (withFails state.waits answers.fails)) :=
      ⟨⟨⟨owned.inv.sound.entries, owned.inv.sound.balanced⟩, owned.inv.frames⟩, rest.1,
        fun id referred => (waiting.known id referred).imp (·.frame rfl rfl rfl rfl)
          (·.frame rfl rfl rfl), waiting.uncancelled⟩
    have attempts := attempts_attempt waiting timeout (live.woken queued) live.unprepared reads
    have account : Accounted (state.withWaits (withFails state.waits answers.fails)).task :=
      accounted
    have socket := attempt_socket available timeout answers account isLive uncancelled
    unfold timerStarts at starts
    generalize (state.withWaits (withFails state.waits answers.fails)).attempt available timeout
      answers = outcome at attempts socket starts
    cases attempts with
    | failed clear => exact clear.owned_finishFailed _
    | ready clear =>
      dsimp only
      split
      · exact clear.owned_finishFailed _
      · exact clear.owned_finishConnected _
    | @pending after waiting only =>
      have connecting : Connecting after.task := by
        rcases socket with ⟨_, _, ⟨⟩, -⟩ | connecting
        exact connecting
      dsimp only at starts ⊢
      have same := sameSocket_startTimeout available after answers
      split
      next begins =>
        simp only [Bool.and_eq_true, Bool.not_eq_true'] at begins
        cases started : after.startTimeout available answers with
        | mk next status =>
        rw [started] at starts same
        have waits := waiting_of_startTimeout waiting (only begins.2) started
        cases status with
        | failed error => simp [begins] at starts
        | pending | ready =>
          exact (waits fun _ => by simp).owned_returnPending (connecting.sameSocket same)
      · exact waiting.owned_returnPending connecting

/-- The steps that leave no wait of the task behind. -/
def clean (available timeout : Bool) (state : TcpConnectState) (action : Action) : Prop :=
  match action with
  | .other action => undisturbed state.waits action
  | .run answers => cleanRun available timeout state answers
  | .cancel _ => atRest state.waits

instance (available timeout : Bool) (state : TcpConnectState) (action : Action) :
    Decidable (clean available timeout state action) :=
  match action with
  | .other action => inferInstanceAs (Decidable (undisturbed state.waits action))
  | .run answers => inferInstanceAs (Decidable (cleanRun available timeout state answers))
  | .cancel _ => inferInstanceAs (Decidable (atRest state.waits))

theorem owned_of_reachable
    (reached : (system available timeout).ReachableUnder (clean available timeout) state) :
    Owned available state := by
  induction reached with
  | start starts =>
    obtain ⟨fds, rfl⟩ := starts
    have nothing : ∀ id, ¬ Referred (start fds).waits id := fun id referred =>
      not_inTable_new referred.1
    refine ⟨inv_start fds, framesReady_of_rest rfl, fun _ => ⟨fun id referred => ?_,
      (fun impossible => by cases impossible), fun _ id referred => ?_, fun _ => ⟨rfl, rfl⟩⟩,
      fun done => by cases done⟩
    all_goals exact absurd referred (nothing id)
  | @next state after action reached permitted steps ih =>
    cases action with
    | other action =>
      obtain ⟨isOther, steps⟩ := ite_none_right_eq_some.mp steps
      obtain ⟨waits, called, rfl⟩ := map_eq_some_iff.mp steps
      exact ih.others permitted isOther called
    | run answers =>
      obtain ⟨enabled, runs⟩ := ite_none_right_eq_some.mp steps
      cases runs
      simp only [Bool.and_eq_true, Bool.not_eq_true'] at enabled
      exact ih.run (accounted_of_reachable reached) enabled.1 enabled.2 permitted
    | cancel fails =>
      cases steps
      exact ih.cancel permitted.1 fails

def CleanedUp (state : TcpConnectState) : Prop :=
  (∀ fd, ∀ entry ∈ state.waits.ioWaits fd, ∀ id, entry.contains id = true →
    (state.waits.registrations id).task ≠ connectTask ∧
      (state.waits.registrations id).result ≠ connectState ∧
      (state.waits.registrations id).result ≠ deadlineWait) ∧
    state.task.fd = none ∧ state.task.opened = state.task.closes + state.task.handovers ∧
      state.task.opened ≤ 1

/-- Where no step leaves a wait behind, a task that is done has none in the
table, and its socket was closed once or given to `create_connection`. -/
theorem finished_connect_cleanedUp
    (reached : (system available timeout).ReachableUnder (clean available timeout) state)
    (done : state.task.done = true) : CleanedUp state := by
  have accounted := accounted_of_reachable reached
  have closed := accounted.finished done
  refine ⟨fun fd entry present id contains => ?_, closed, ?_, accounted.once⟩
  · have unreferred := (owned_of_reachable reached).finished done |>.2 id
    simpa [Referred, Mine, inTable_of_contains present contains] using unreferred
  · simpa [closed] using accounted.balance

/-- The connect is in progress on one descriptor, and the timer runs on another. -/
def inProgress : ConnectAnswers where
  runtimeStopping := false
  clientRunning := true
  clientStillRunning := true
  socket := .ok 5
  prepareError := none
  connect := .inProgress
  connectMemory := ⟨false, false, false⟩
  expiredRead := .expired
  expiredMemory := ⟨false, false, false⟩
  timer := .ok 6
  timerSet := .ok ()
  timerRead := .wouldBlock
  timerMemory := ⟨false, false, false⟩
  commandChannelError := none
  fails := []

theorem finished_connect_cleanedUp_connected :
    ∃ state, (system true true).ReachableUnder (clean true true) state ∧
      (state.task.done = true ∧ state.task.handovers = 1) ∧ CleanedUp state := by
  obtain ⟨state, reached, observed⟩ := (system true true).exists_reachableUnder
    (clean true true) (show (system true true).initial (start fun _ => 0) from ⟨_, rfl⟩)
    [.run inProgress, .other (.epollWait [⟨.wait 5, ⟨false, true, false, false, false⟩⟩]),
      .other (.handleEvent []), .other (.enqueued []),
      .run { inProgress with connect := .connected }]
    (fun state => state.task.done = true ∧ state.task.handovers = 1) (by decide)
  exact ⟨state, reached, observed, finished_connect_cleanedUp reached observed.1⟩

/-- The client stops while the connect is in progress.  The wait for the socket is
cancelled; the wait for the timer stays in the table although the task is done and the
timer is closed. -/
theorem stopped_connect_leaves_deadlineWait :
    ∃ state, (system true true).Reachable state ∧ state.task.done = true ∧
      state.task.reported = some .canceled ∧ state.task.deadline.timer = none ∧
      (state.waits.ioWaits 6).any (fun entry => entry.read = some 1) = true ∧
      state.waits.registrations 1 = ⟨6, ⟨true, false, false, false⟩, connectTask, deadlineWait⟩ :=
  (system true true).exists_reachableUnder
    (fun _ _ => True) (show (system true true).initial (start fun _ => 0) from ⟨_, rfl⟩)
    [.run inProgress, .cancel [], .other (.enqueued []), .run inProgress]
    _ (by decide)

/-- The socket itself is never left behind or closed twice, whatever fails and
whenever the client stops: it is open, closed once, or given away once. -/
theorem socket_accounted (reached : (system available timeout).Reachable state) :
    state.task.opened ≤ 1 ∧
      state.task.opened =
        state.task.closes + state.task.handovers + (if state.task.fd.isSome then 1 else 0) ∧
      (state.task.done = true → state.task.fd = none) := by
  have accounted := accounted_of_reachable reached
  exact ⟨accounted.once, accounted.balance, accounted.finished⟩

theorem socket_accounted_stopped : ∃ state, (system true true).Reachable state ∧
    state.task.done = true ∧ state.task.closes = 1 ∧ state.task.handovers = 0 := by
  obtain ⟨state, reached, isDone, isOpened, notGiven⟩ := (system true true).exists_reachableUnder
    (fun _ _ => True) (show (system true true).initial (start fun _ => 0) from ⟨_, rfl⟩)
    [.run inProgress, .cancel [], .other (.enqueued []), .run inProgress]
    (fun state => state.task.done = true ∧ state.task.opened = 1 ∧ state.task.handovers = 0)
    (by decide)
  obtain ⟨_, balance, finished⟩ := socket_accounted reached
  refine ⟨state, reached, isDone, ?_, notGiven⟩
  simpa [isOpened, notGiven, finished isDone] using balance.symm

end TcpConnect

end AsyncFlow
