import AsyncFlow.AcceptRouting
import AsyncFlow.CallbackLog
import AsyncFlow.CallbackNesting
import AsyncFlow.ConnectOutcome

/-!
# The callback protocol

A shard with its connections, and one connect of a client.  `create_connection`
calls `on_close` without `on_accept` when it cannot register the channel; a client
then hears of its connect neither by `on_accept` nor by `on_listener_error`.  The
same silence follows when the runtime cancels the task.  In all other runs the
callbacks of every connection come in order, and a connect that is done called the
client exactly once.
-/

namespace AsyncFlow

open Option

open Accept (CreateOutcome)
open Callback (Accepting WellOrdered)

structure CallbackState where
  shard : ShardState
  connect : TcpConnectState
  /-- the callbacks of the connections, by their serial numbers -/
  log : Nat → List Callback
  connection : Option Nat
  /-- how often `on_listener_error` was called for the connect -/
  errors : Nat
  destroyed : Bool

namespace CallbackProtocol

variable {available timeout : Bool} {state after : CallbackState}

inductive Action
  | shard (action : Shard.Action)
  | connect (action : TcpConnect.Action)
  /-- the task of the connect runs; `outcome` is that of `create_connection` if it
  is called -/
  | run (answers : ConnectAnswers) (outcome : CreateOutcome)
  | runtimeCancel
  | destroy

def createConnection (state : CallbackState) : CreateOutcome → Option CallbackState
  | .noSlot =>
    if state.shard.slots.table.free = [] then some { state with errors := state.errors + 1 }
    else none
  | .noMemory =>
    (Shard.step state.shard .createFails).map fun shard =>
      { state with shard := shard, errors := state.errors + 1 }
  | .noChannel =>
    (Shard.step state.shard (.create false)).map fun shard =>
      { state with shard := shard, connection := some state.shard.slots.nextSerial }
  | .created =>
    (Shard.step state.shard (.create true)).map fun shard =>
      { state with
        shard := shard
        log := Shard.record state.log (Shard.called state.shard (.create true))
        connection := some state.shard.slots.nextSerial }

def afterRun (state : CallbackState) (connect : TcpConnectState) (outcome : CreateOutcome) :
    Option CallbackState :=
  let ran := { state with connect := connect }
  if state.connect.task.handovers < connect.task.handovers then createConnection ran outcome
  else if connect.task.reported.isSome then some { ran with errors := state.errors + 1 }
  else some ran

/-- The destructors of the connections call `close_now`. -/
def destroyedLog (slots : TableState) (log : Nat → List Callback) (serial : Nat) : List Callback :=
  if Shard.openings slots serial = 0 then log serial else log serial ++ [.onClose]

def stepAlive (available timeout : Bool) (state : CallbackState) : Action → Option CallbackState
  | .shard action =>
    (Shard.step state.shard action).map fun shard =>
      { state with
        shard := shard
        log := Shard.record state.log (Shard.called state.shard action) }
  | .connect (.run _) => none
  | .connect action =>
    (TcpConnect.step available timeout state.connect action).map fun connect =>
      { state with connect := connect }
  | .run answers outcome =>
    if state.shard.runsUserCode then
      (TcpConnect.step available timeout state.connect (.run answers)).bind fun connect =>
        afterRun state connect outcome
    else none
  | .runtimeCancel =>
    if state.connect.task.done then none
    else some { state with connect := state.connect.onRuntimeCancel }
  | .destroy =>
    if state.shard.stack = [] then
      some { state with
        log := destroyedLog state.shard.slots state.log
        destroyed := true }
    else none

def step (available timeout : Bool) (state : CallbackState) (action : Action) :
    Option CallbackState :=
  if state.destroyed then none else stepAlive available timeout state action

def start (fds : Nat → Int) : CallbackState where
  shard := Shard.start
  connect := TcpConnect.start fds
  log := fun _ => []
  connection := none
  errors := 0
  destroyed := false

def system (available timeout : Bool) : TransitionSystem CallbackState Action where
  initial := fun state => ∃ fds, state = start fds
  step := step available timeout

/-- New connections can be registered, the runtime does not cancel the task, and
what reaps connections runs outside of callbacks. -/
def orderly (state : CallbackState) : Action → Prop
  | .shard action => action ≠ .create false ∧ Shard.reapsOutside state.shard action
  | .run _ outcome => outcome ≠ .noChannel ∧ state.shard.userCallbackDepth = 0
  | .runtimeCancel => False
  | .connect _ | .destroy => True

instance (state : CallbackState) : ∀ action, Decidable (orderly state action)
  | .shard action =>
    inferInstanceAs (Decidable (action ≠ .create false ∧ Shard.reapsOutside state.shard action))
  | .run _ outcome =>
    inferInstanceAs (Decidable (outcome ≠ .noChannel ∧ state.shard.userCallbackDepth = 0))
  | .runtimeCancel => isFalse id
  | .connect _ | .destroy => isTrue trivial

/-! ### What the client has heard -/

structure Inv (state : CallbackState) : Prop where
  ordered : ∀ serial, WellOrdered (state.log serial)
  logged : state.destroyed = false → Shard.Logged state.shard.slots state.shard.stack state.log
  pending : state.connect.task.done = false →
    state.connect.task.reported = none ∧ state.connection = none ∧ state.errors = 0
  finished : state.connect.task.done = true → state.connection = none ∧ state.errors = 1 ∨
      state.errors = 0 ∧ ∃ serial, state.connection = some serial ∧
        Callback.onAccept ∈ state.log serial

theorem mem_record {log : Nat → List Callback} {serial : Nat} {callback : Callback}
    (inside : callback ∈ log serial) (call : Option (Nat × Callback)) :
    callback ∈ Shard.record log call serial := by
  cases call with
  | none => exact inside
  | some call =>
    obtain ⟨own, made⟩ := call
    by_cases same : serial = own
    · subst same
      rw [Shard.record, Function.update_self]
      exact List.mem_append_left _ inside
    · rwa [Shard.record, Function.update_of_ne same]

theorem Inv.shard (inv : Inv state) (alive : state.destroyed = false) {action : Shard.Action}
    (registers : action ≠ .create false) {shard : ShardState}
    (steps : Shard.step state.shard action = some shard) : Inv { state with
      shard := shard
      log := Shard.record state.log (Shard.called state.shard action) } := by
  have logged := (inv.logged alive).step (Shard.steps_of_step steps) registers
  refine ⟨logged.ordered, fun _ => logged, inv.pending, fun done => ?_⟩
  rcases inv.finished done with heard | ⟨none, serial, isConnection, accepted⟩
  · exact .inl heard
  · exact .inr ⟨none, serial, isConnection, mem_record accepted _⟩

theorem inv_createConnection {outcome : CreateOutcome}
    (creates : createConnection state outcome = some after)
    (logged : Shard.Logged state.shard.slots state.shard.stack state.log)
    (done : state.connect.task.done = true) (fresh : state.connection = none)
    (silent : state.errors = 0) (registers : outcome ≠ .noChannel) : Inv after := by
  cases outcome with
  | noSlot =>
    obtain ⟨-, creates⟩ := ite_none_right_eq_some.mp creates
    cases creates
    exact ⟨logged.ordered, fun _ => logged, fun live => by simp [done] at live,
      fun _ => .inl ⟨fresh, congrArg (· + 1) silent⟩⟩
  | noMemory =>
    obtain ⟨shard, steps, rfl⟩ := map_eq_some_iff.mp creates
    have logged := logged.step (Shard.steps_of_step steps) (by simp)
    exact ⟨logged.ordered, fun _ => logged, fun live => by simp [done] at live,
      fun _ => .inl ⟨fresh, congrArg (· + 1) silent⟩⟩
  | noChannel => exact absurd rfl registers
  | created =>
    obtain ⟨shard, steps, rfl⟩ := map_eq_some_iff.mp creates
    have logged := logged.step (Shard.steps_of_step steps) (by simp)
    refine ⟨logged.ordered, fun _ => logged, fun live => by simp [done] at live,
      fun _ => .inr ⟨silent, _, rfl, ?_⟩⟩
    simp [Shard.called, Shard.record]

theorem inv_afterRun {connect : TcpConnectState} {outcome : CreateOutcome} (inv : Inv state)
    (alive : state.destroyed = false) (live : state.connect.task.done = false)
    (runs : TcpConnect.RunsTo state.connect.task connect.task)
    (registers : outcome ≠ .noChannel) (hears : afterRun state connect outcome = some after) :
    Inv after := by
  have logged := inv.logged alive
  obtain ⟨unreported, fresh, silent⟩ := inv.pending live
  unfold afterRun at hears
  cases runs with
  | pending same =>
    rw [same.handovers, if_neg (Nat.lt_irrefl _), same.reported, unreported] at hears
    cases hears
    exact ⟨inv.ordered, inv.logged, fun _ => ⟨same.reported.trans unreported, fresh, silent⟩,
      fun done => by simp [same.done, live] at done⟩
  | failed done reported handovers =>
    rw [handovers, if_neg (Nat.lt_irrefl _), if_pos reported] at hears
    cases hears
    exact ⟨inv.ordered, inv.logged, fun live => by simp [done] at live,
      fun _ => .inl ⟨fresh, congrArg (· + 1) silent⟩⟩
  | connected done _ handovers =>
    rw [handovers, if_pos (Nat.lt_succ_self _)] at hears
    exact inv_createConnection hears logged done fresh silent registers

theorem inv_destroy (inv : Inv state) (alive : state.destroyed = false) :
    Inv { state with log := destroyedLog state.shard.slots state.log, destroyed := true } where
  ordered := fun serial => by
    simp only [destroyedLog]
    split
    · exact inv.ordered serial
    · next opened => exact ((inv.logged alive).accepting serial opened).close
  logged := fun impossible => by cases impossible
  pending := inv.pending
  finished := fun done => by
    rcases inv.finished done with heard | ⟨none, serial, isConnection, accepted⟩
    · exact .inl heard
    · refine .inr ⟨none, serial, isConnection, ?_⟩
      simp only [destroyedLog]
      split
      · exact accepted
      · exact List.mem_append_left _ accepted

theorem inv_step {action : Action} (inv : Inv state) (allowed : orderly state action)
    (steps : step available timeout state action = some after) : Inv after := by
  simp only [step] at steps
  split at steps
  · cases steps
  next alive =>
    have alive : state.destroyed = false := Bool.eq_false_iff.mpr alive
    cases action with
    | shard action =>
      obtain ⟨shard, moves, rfl⟩ := map_eq_some_iff.mp steps
      exact inv.shard alive allowed.1 moves
    | connect action =>
      cases action with
      | run answers => cases steps
      | other action | cancel fails =>
        simp only [stepAlive] at steps
        obtain ⟨connect, moves, rfl⟩ := map_eq_some_iff.mp steps
        have same := TcpConnect.sameOutcome_of_step moves (by simp)
        exact ⟨inv.ordered, inv.logged, fun live => by
            rw [same.done] at live
            obtain ⟨unreported, rest⟩ := inv.pending live
            exact ⟨same.reported.trans unreported, rest⟩,
          fun done => inv.finished (same.done ▸ done)⟩
    | run answers outcome =>
      obtain ⟨-, steps⟩ := ite_none_right_eq_some.mp steps
      obtain ⟨connect, runs, hears⟩ := bind_eq_some_iff.mp steps
      obtain ⟨enabled, runs⟩ := ite_none_right_eq_some.mp runs
      cases runs
      simp only [Bool.and_eq_true, Bool.not_eq_true'] at enabled
      exact inv_afterRun inv alive enabled.2 (TcpConnect.runsTo_run ..) allowed.1 hears
    | runtimeCancel => exact absurd allowed id
    | destroy =>
      obtain ⟨-, steps⟩ := ite_none_right_eq_some.mp steps
      cases steps
      exact inv_destroy inv alive

theorem inv_start (fds : Nat → Int) : Inv (start fds) where
  ordered := fun _ => Callback.wellOrdered_nil
  logged := fun _ => {
    tidy := Table.tidy_start
    ordered := fun _ => Callback.wellOrdered_nil
    fresh := fun _ _ => rfl
    single := fun _ => Nat.zero_le _
    accepting := fun _ opened => absurd rfl opened
    closing := fun _ onTop => by cases onTop
    told := fun _ => List.not_mem_nil }
  pending := fun _ => ⟨rfl, rfl, rfl⟩
  finished := fun impossible => by cases impossible

def accepts (state : CallbackState) : Nat :=
  state.connection.elim 0 fun serial => (state.log serial).count .onAccept

structure Holds (state : CallbackState) : Prop where
  ordered : ∀ serial, WellOrdered (state.log serial)
  silent : state.connect.task.done = false → accepts state + state.errors = 0
  delivered : state.connect.task.done = true → accepts state + state.errors = 1

/-- In every orderly run the callbacks of each connection come in order, and a connect
whose task is done has called `on_accept` or `on_listener_error`, once. -/
theorem callbacks_in_order
    (reached : (system available timeout).ReachableUnder orderly state) : Holds state := by
  have inv : Inv state := by
    induction reached with
    | start starts =>
      obtain ⟨fds, rfl⟩ := starts
      exact inv_start fds
    | next _ permitted steps ih => exact inv_step ih permitted steps
  refine ⟨inv.ordered, fun live => ?_, fun done => ?_⟩
  · obtain ⟨-, fresh, silent⟩ := inv.pending live
    simp [accepts, fresh, silent]
  · rcases inv.finished done with ⟨fresh, once⟩ | ⟨silent, serial, isConnection, accepted⟩
    · simp [accepts, fresh, once]
    · simp [accepts, isConnection, silent, (inv.ordered serial).count_onAccept accepted]

def connectsAtOnce : ConnectAnswers where
  runtimeStopping := false
  clientRunning := true
  clientStillRunning := true
  socket := .ok 5
  prepareError := none
  connect := .connected
  connectMemory := ⟨false, false, false⟩
  expiredRead := .wouldBlock
  expiredMemory := ⟨false, false, false⟩
  timer := .ok 6
  timerSet := .ok ()
  timerRead := .wouldBlock
  timerMemory := ⟨false, false, false⟩
  commandChannelError := none
  fails := []

theorem callbacks_in_order_closedInRead : ∃ state, (system true true).ReachableUnder orderly state ∧
      (state.connect.task.done = true ∧ state.log 0 = [.onAccept, .onRead, .onClose]) ∧
      Holds state := by
  obtain ⟨state, reached, observed⟩ := (system true true).exists_reachableUnder
    orderly (show (system true true).initial (start fun _ => 0) from ⟨_, rfl⟩)
    [.run connectsAtOnce .created, .shard .leave, .shard .leave,
      .shard (.fetch [⟨0, ⟨0, 1⟩⟩]), .shard (.deliver true), .shard .read,
      .shard (.enter ⟨0, ⟨0, 1⟩⟩), .shard .close, .shard .notify]
    (fun state => state.connect.task.done = true ∧
      state.log 0 = [.onAccept, .onRead, .onClose]) (by decide)
  exact ⟨state, reached, observed, callbacks_in_order reached⟩

/-- The channel cannot be registered: the handler gets `on_close` without `on_accept`,
and the connect is done without any other callback. -/
theorem refused_connection_closed_unaccepted :
    ∃ state, (system true true).Reachable state ∧ state.log 0 = [.onClose] ∧
      state.connect.task.done = true ∧ accepts state + state.errors = 0 :=
  (system true true).exists_reachableUnder
    (fun _ _ => True) (show (system true true).initial (start fun _ => 0) from ⟨_, rfl⟩)
    [.run connectsAtOnce .noChannel, .shard .close, .shard .notify]
    _ (by decide)

end CallbackProtocol

end AsyncFlow
