import AsyncFlow.TcpConnectTask

/-!
# The socket of a connecting task

A connecting task opens at most one socket, which is open, closed once or given to
`create_connection`; when the task is done it is not open any more.
-/

namespace AsyncFlow

open Option TcpConnectState

namespace TcpConnect

variable {state : TcpConnectState} {task before after : TcpConnectTask}
  {available timeout : Bool} {answers : ConnectAnswers}

/-! ### Calls that leave the socket alone -/

/-- Only what the task knows about its waits changes. -/
def SameSocket (before after : TcpConnectTask) : Prop :=
  ∃ connectWaiting deadline,
    after = { before with connectWaiting := connectWaiting, deadline := deadline }

theorem SameSocket.trans (first : SameSocket before task) (second : SameSocket task after) :
    SameSocket before after := by
  obtain ⟨_, _, rfl⟩ := first
  obtain ⟨_, _, rfl⟩ := second
  exact ⟨_, _, rfl⟩

theorem sameSocket_of_waitTimerfd {next : TcpConnectState} {read : TimerRead}
    {memory : WaitMemory} {status : IoStatus}
    (waits : state.waitTimerfd available read memory = (next, status)) :
    SameSocket state.task next.task := by
  rw [show next = (state.waitTimerfd available read memory).1 by rw [waits]]
  unfold waitTimerfd
  dsimp only
  split
  · exact ⟨_, _, rfl⟩
  · split
    · exact ⟨_, _, rfl⟩
    · exact ⟨_, _, rfl⟩
    · split <;> exact ⟨_, _, rfl⟩

section

variable (available : Bool) (state : TcpConnectState) (answers : ConnectAnswers)

theorem sameSocket_checkTimeout :
    SameSocket state.task (state.checkTimeout available answers).1.task := by
  unfold checkTimeout
  dsimp only
  cases waits : state.waitTimerfd available answers.expiredRead answers.expiredMemory with
  | mk next status =>
  have waited := sameSocket_of_waitTimerfd waits
  split
  · split
    · exact waited.trans ⟨_, _, rfl⟩
    · split <;> exact ⟨_, _, rfl⟩
  · split
    · cases status with
      | ready =>
        dsimp only
        split <;> exact waited.trans ⟨_, _, rfl⟩
      | pending | failed => exact waited.trans ⟨_, _, rfl⟩
    · exact ⟨_, _, rfl⟩

theorem sameSocket_startTimeout :
    SameSocket state.task (state.startTimeout available answers).1.task := by
  unfold startTimeout
  dsimp only
  split
  · exact ⟨_, _, rfl⟩
  · split
    · exact ⟨_, _, rfl⟩
    · split
      · exact ⟨_, _, rfl⟩
      · split
        next waits =>
          exact .trans ⟨_, _, rfl⟩ ((sameSocket_of_waitTimerfd waits).trans ⟨_, _, rfl⟩)
        next waits =>
          have waited := sameSocket_of_waitTimerfd waits
          exact .trans ⟨_, _, rfl⟩ waited

theorem sameSocket_ioConnect :
    SameSocket state.task (state.ioConnect available answers).1.task := by
  unfold ioConnect
  split
  · exact ⟨_, _, rfl⟩
  · split
    · exact ⟨_, _, rfl⟩
    · exact ⟨_, _, rfl⟩
    · split <;> exact ⟨_, _, rfl⟩

end

/-- A socket that was opened is open, closed or given away. -/
structure SocketBalance (task : TcpConnectTask) : Prop where
  balance : task.opened = task.closes + task.handovers + if task.fd.isSome then 1 else 0
  once : task.opened ≤ 1

structure Accounted (task : TcpConnectTask) : Prop extends SocketBalance task where
  unprepared : task.prepared = false → task.done = false → task.opened = 0
  connecting : task.prepared = true → task.done = false → task.cancelRequested = false →
    task.fd.isSome = true
  finished : task.done = true → task.fd = none

structure Connecting (task : TcpConnectTask) : Prop extends Accounted task where
  live : task.done = false
  isPrepared : task.prepared = true
  isOpen : task.fd.isSome = true

theorem Accounted.sameSocket (accounted : Accounted before) (same : SameSocket before after) :
    Accounted after := by
  obtain ⟨_, _, rfl⟩ := same
  exact { accounted with }

theorem Connecting.sameSocket (connecting : Connecting before) (same : SameSocket before after) :
    Connecting after := by
  have accounted := connecting.toAccounted.sameSocket same
  obtain ⟨_, _, rfl⟩ := same
  exact { connecting, accounted with }

theorem SocketBalance.done (balanced : SocketBalance task) (closed : task.fd = none)
    (done : task.done = true) : Accounted task :=
  ⟨balanced, fun _ live => by simp [done] at live, fun _ live => by simp [done] at live,
    fun _ => closed⟩

theorem SocketBalance.closeFd (balanced : SocketBalance state.task) :
    SocketBalance state.closeFd.task ∧ state.closeFd.task.fd = none := by
  have balance := balanced.balance
  unfold TcpConnectState.closeFd
  split
  · next closed => exact ⟨balanced, closed⟩
  next opened =>
    simp only [opened, isSome_some, if_true] at balance
    refine ⟨⟨?_, balanced.once⟩, rfl⟩
    simp
    omega

theorem SocketBalance.finishFailed (balanced : SocketBalance state.task) (error : Errno) :
    Accounted (state.finishFailed error).task := by
  obtain ⟨closed, isClosed⟩ := balanced.closeFd
  have finished : SocketBalance (state.finishFailed error).task := ⟨closed.balance, closed.once⟩
  exact finished.done isClosed rfl

theorem Connecting.finishConnected (connecting : Connecting state.task)
    (answers : ConnectAnswers) : Accounted (state.finishConnected answers).task := by
  have balance := connecting.balance
  rw [if_pos connecting.isOpen] at balance
  unfold TcpConnectState.finishConnected
  split
  · refine SocketBalance.finishFailed ?_ _
    exact ⟨connecting.balance, connecting.once⟩
  · refine SocketBalance.done ⟨?_, connecting.once⟩ rfl rfl
    simp
    omega

theorem Accounted.returnPending (accounted : Accounted state.task) :
    Accounted state.returnPending.task :=
  { accounted with }

inductive PreparesSocket : TcpConnectState × Option Errno → Prop
  | failed {after : TcpConnectState} {error : Errno} (balanced : SocketBalance after.task) :
      PreparesSocket (after, some error)
  | prepared {after : TcpConnectState} (connecting : Connecting after.task) :
      PreparesSocket (after, none)

theorem preparesSocket_prepare (timeout : Bool) (answers : ConnectAnswers)
    (accounted : Accounted state.task) (live : state.task.done = false)
    (uncancelled : state.task.cancelRequested = false) :
    PreparesSocket (state.prepare timeout answers) := by
  unfold prepare
  split
  next prepared =>
    exact .prepared ⟨accounted, live, prepared, accounted.connecting prepared live uncancelled⟩
  next unprepared =>
    have fresh := accounted.unprepared (Bool.eq_false_iff.mpr unprepared) live
    have balance := accounted.balance
    split
    · exact .failed accounted.toSocketBalance
    next fd created =>
      have balanced : SocketBalance
          { state.task with fd := some fd, opened := state.task.opened + 1 } := by
        refine ⟨?_, ?_⟩
        · simp
          omega
        · simp [fresh]
      split
      · exact .failed (SocketBalance.closeFd balanced).1
      · have connecting : Connecting { state.task with
            fd := some fd, opened := state.task.opened + 1
            prepared := true, active := true } :=
          ⟨⟨⟨balanced.balance, balanced.once⟩, (fun impossible => by cases impossible),
            fun _ _ _ => rfl, (fun done => by simp [live] at done)⟩, live, rfl, rfl⟩
        split
        · exact .prepared (connecting.sameSocket ⟨_, _, rfl⟩)
        · exact .prepared connecting

theorem attempt_socket (available timeout : Bool) (answers : ConnectAnswers)
    (accounted : Accounted state.task) (live : state.task.done = false)
    (uncancelled : state.task.cancelRequested = false) :
    (∃ error after, state.attempt available timeout answers = (after, .failed error) ∧
        SocketBalance after.task) ∨
      Connecting (state.attempt available timeout answers).1.task := by
  have prepares := preparesSocket_prepare timeout answers accounted live uncancelled
  unfold attempt
  generalize state.prepare timeout answers = prepared at prepares
  cases prepares with
  | failed balanced => exact .inl ⟨_, _, rfl, balanced⟩
  | @prepared next connecting =>
    refine .inr ?_
    dsimp only
    have checked := sameSocket_checkTimeout available next answers
    generalize next.checkTimeout available answers = outcome at checked
    obtain ⟨checkedState, status⟩ := outcome
    split
    · cases status with
      | ready =>
        exact (connecting.sameSocket checked).sameSocket (sameSocket_ioConnect _ _ _)
      | pending | failed => exact connecting.sameSocket checked
    · exact connecting.sameSocket (sameSocket_ioConnect _ _ _)

theorem Accounted.run (accounted : Accounted state.task) (live : state.task.done = false) :
    Accounted (state.run available timeout answers).task := by
  unfold TcpConnectState.run
  split
  · exact accounted.finishFailed _
  next goes =>
    have uncancelled : state.task.cancelRequested = false := by
      simp only [stops, Bool.or_eq_true, not_or, Bool.not_eq_true] at goes
      exact goes.2
    have starts : Accounted (state.withWaits
      (IoWaits.withFails state.waits answers.fails)).task := accounted
    have attempts := attempt_socket available timeout answers starts live uncancelled
    generalize (state.withWaits (IoWaits.withFails state.waits answers.fails)).attempt available
      timeout answers = outcome at attempts
    obtain ⟨after, status⟩ := outcome
    rcases attempts with ⟨error, _, ⟨⟩, balanced⟩ | connecting
    · exact balanced.finishFailed _
    · cases status with
      | failed => exact connecting.finishFailed _
      | ready =>
        dsimp only
        split
        · exact connecting.finishFailed _
        · exact connecting.finishConnected _
      | pending =>
        dsimp only
        have started := connecting.sameSocket (sameSocket_startTimeout available after answers)
        generalize after.startTimeout available answers = outcome at started
        obtain ⟨started, status⟩ := outcome
        split
        · cases status with
          | failed => exact started.finishFailed _
          | pending | ready => exact started.returnPending
        · exact connecting.returnPending

theorem Accounted.cancel (accounted : Accounted state.task) :
    Accounted (state.requestCancelOnOwner available).task := by
  have closes : ∀ state : TcpConnectState, Accounted state.task →
      state.task.cancelRequested = true → Accounted state.closeFd.task := by
    intro state accounted requested
    obtain ⟨balanced, closed⟩ := accounted.closeFd
    refine ⟨balanced, ?_, ?_, fun _ => closed⟩
    · unfold TcpConnectState.closeFd
      split <;> exact accounted.unprepared
    · unfold TcpConnectState.closeFd
      split <;> simp [requested]
  have requested : Accounted { state.task with cancelRequested := true } :=
    { accounted with connecting := by simp }
  unfold requestCancelOnOwner
  dsimp only
  split
  · exact requested
  · split <;> exact closes _ requested rfl

theorem Accounted.wake {next : TcpConnectState} (accounted : Accounted next.task) :
    Accounted (state.wake next).task :=
  { accounted with }

theorem accounted_of_reachable {allowed : TcpConnectState → Action → Prop}
    (reached : (system available timeout).ReachableUnder allowed state) : Accounted state.task := by
  induction reached with
  | start starts =>
    obtain ⟨fds, rfl⟩ := starts
    exact ⟨⟨rfl, Nat.zero_le _⟩, fun _ _ => rfl, (fun impossible => by cases impossible),
      fun _ => rfl⟩
  | @next state after action reached permitted steps ih =>
    cases action with
    | other action =>
      obtain ⟨-, steps⟩ := ite_none_right_eq_some.mp steps
      obtain ⟨waits, -, rfl⟩ := map_eq_some_iff.mp steps
      have same : Accounted (state.withWaits waits).task := ih
      exact same.wake
    | run answers =>
      obtain ⟨enabled, runs⟩ := ite_none_right_eq_some.mp steps
      cases runs
      simp only [Bool.and_eq_true, Bool.not_eq_true'] at enabled
      exact ih.run enabled.2
    | cancel fails =>
      cases steps
      have starts : Accounted (state.withWaits (IoWaits.withFails state.waits fails)).task := ih
      exact starts.cancel.wake

end TcpConnect

end AsyncFlow
