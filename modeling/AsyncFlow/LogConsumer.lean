import AsyncFlow.ThreadCount
import AsyncFlow.TransitionSystem

/-!
# Parking and waking the log consumer

`RuntimeAsyncLogConsumerController` and its task, the two counters of the logger,
and the threads that log or flush.  Every access to a shared counter or flag is a
step.  Which records `collect_batch` finds, and whether a queue takes a record, is
left open.
-/

namespace AsyncFlow

open Function Option

inductive ConsumerWakeState
  | idle
  | active
  | parking
  deriving DecidableEq

/-- Where a thread inside `try_log` or `flush` is; from `notifying` on it is inside
`notify_consumer`. -/
inductive ConsumerCaller
  | idle
  | counting
  | pushing
  | publishing
  | abandoning
  | notifying
  | exchanging
  | starting
  | scheduling (starts : Bool)
  | restoreStarted
  | restoreState
  deriving DecidableEq

/-- Where `run` is; `left` counts the batches that `drain_some` may still write. -/
inductive ConsumerPc
  | markRunning
  | draining (left : Nat)
  | collecting (left readyRecords : Nat)
  | uncounting (left drained : Nat)
  | settling (left drained : Nat)
  | loadStopping
  | loadPending
  | finishState
  | finishFlag
  | loadReady
  | storeParking
  | parkReady
  | parkStopping
  | parkPending
  | parkExchange
  | unparking
  | parked
  deriving DecidableEq

inductive ConsumerTask
  | created
  | queued
  | running (pc : ConsumerPc)
  | pending
  | done
  deriving DecidableEq

structure LogConsumer where
  accepting : Bool
  stopping : Bool
  pending : Nat
  ready : Nat
  wakeState : ConsumerWakeState
  taskStarted : Bool
  finished : Bool
  task : ConsumerTask
  /-- The running task was asked to run again. -/
  requested : Bool
  callers : Nat → ConsumerCaller
  /-- History: the calls of `start` or `wake` since a run began. -/
  wakes : Nat

namespace LogConsumer

variable (maxBatchSize maxBatchesPerRun : Nat) (state : LogConsumer)

def withCaller (thread : Nat) (caller : ConsumerCaller) : LogConsumer :=
  { state with callers := update state.callers thread caller }

/-- The `schedule` of the task, which the runtime may refuse. -/
def schedule (accepts : Bool) : LogConsumer × Bool :=
  match state.task with
  | .created | .pending =>
    if accepts then ({ state with task := .queued }, true) else (state, false)
  | .running _ => ({ state with requested := true }, true)
  | .queued | .done => (state, false)

/-- A step of `try_log`, `flush` or `wake_async_log_consumer`.  If it `agrees`, the
thread begins to log, the queue takes the record, and the runtime the task. -/
def stepCaller (thread : Nat) (agrees : Bool) : ConsumerCaller → LogConsumer
  | .idle =>
    state.withCaller thread (if agrees then if state.accepting then .counting else .idle
       else if state.pending = 0 ∧ state.stopping = false then .idle else .notifying)
  | .counting => { state.withCaller thread .pushing with pending := state.pending + 1 }
  | .pushing => state.withCaller thread (if agrees then .publishing else .abandoning)
  | .publishing =>
    { state.withCaller thread (if state.ready = 0 then .notifying else .idle) with
      ready := state.ready + 1 }
  | .abandoning =>
    { state.withCaller thread (if state.pending = 1 then .notifying else .idle) with
      pending := state.pending - 1 }
  | .notifying => state.withCaller thread (if state.finished then .idle else .exchanging)
  | .exchanging =>
    { state.withCaller thread (if state.wakeState = .idle then .starting else .idle) with
      wakeState := .active }
  | .starting =>
    { state.withCaller thread (.scheduling (!state.taskStarted)) with taskStarted := true }
  | .scheduling starts =>
    match state.schedule agrees with
    | (after, true) => { after.withCaller thread .idle with wakes := state.wakes + 1 }
    | (after, false) =>
      { after.withCaller thread (if starts then .restoreStarted else .restoreState) with
        wakes := state.wakes + 1 }
  | .restoreStarted =>
    { state.withCaller thread .restoreState with taskStarted := false }
  | .restoreState => { state.withCaller thread .idle with wakeState := .idle }

def goTo (pc : ConsumerPc) : LogConsumer :=
  { state with task := .running pc }

def returnAgain : LogConsumer :=
  { state with task := .queued, requested := false }

def returnPending : LogConsumer :=
  { state with task := if state.requested then .queued else .pending, requested := false }

/-- A step of `run`, with `drain_some` and `mark_idle_or_continue`; `collect_batch` finds
`found` records or as many as it may take. -/
def stepConsumer (found : Nat) : ConsumerPc → LogConsumer
  | .markRunning =>
    { state.goTo (.draining (max 1 maxBatchesPerRun)) with wakeState := .active }
  | .draining left =>
    state.goTo (if left = 0 ∨ state.ready = 0 then .loadStopping else .collecting left state.ready)
  | .collecting left readyRecords =>
    let drained := min found (min (max 1 maxBatchSize) readyRecords)
    state.goTo (if drained = 0 then .loadStopping else .uncounting left drained)
  | .uncounting left drained =>
    { state.goTo (.settling left drained) with ready := state.ready - drained }
  | .settling left drained =>
    { state.goTo (.draining (left - 1)) with pending := state.pending - drained }
  | .loadStopping => state.goTo (if state.stopping then .loadPending else .loadReady)
  | .loadPending => state.goTo (if state.pending = 0 then .finishState else .loadReady)
  | .finishState => { state.goTo .finishFlag with wakeState := .active }
  | .finishFlag => { state with finished := true, task := .done }
  | .loadReady => if state.ready = 0 then state.goTo .storeParking else state.returnAgain
  | .storeParking => { state.goTo .parkReady with wakeState := .parking }
  | .parkReady => state.goTo (if state.ready = 0 then .parkStopping else .unparking)
  | .parkStopping => state.goTo (if state.stopping then .parkPending else .parkExchange)
  | .parkPending => state.goTo (if state.pending = 0 then .unparking else .parkExchange)
  | .parkExchange =>
    if state.wakeState = .parking then { state.goTo .parked with wakeState := .idle }
    else state.returnAgain
  | .unparking => { state.returnAgain with wakeState := .active }
  | .parked => state.returnPending

/-- `stopAdmission` and `stop` are the two stores of `stop_bound_consumer_admission`. -/
inductive Action
  | caller (thread : Nat) (agrees : Bool)
  | runTask
  | consumer (found : Nat)
  | stopAdmission
  | stop
  deriving DecidableEq

def step : Action → Option LogConsumer
  | .caller thread agrees => some (state.stepCaller thread agrees (state.callers thread))
  | .runTask =>
    if state.task = .queued then some { state.goTo .markRunning with wakes := 0 } else none
  | .consumer found =>
    match state.task with
    | .running pc => some (state.stepConsumer maxBatchSize maxBatchesPerRun found pc)
    | _ => none
  | .stopAdmission => some { state with accepting := false }
  | .stop => if state.accepting then none else some { state with stopping := true }

def start : LogConsumer where
  accepting := true
  stopping := false
  pending := 0
  ready := 0
  wakeState := .idle
  taskStarted := false
  finished := false
  task := .created
  requested := false
  callers := fun _ => .idle
  wakes := 0

def system : TransitionSystem LogConsumer Action where
  initial := fun state => state = start
  step := fun state action => state.step maxBatchSize maxBatchesPerRun action

end LogConsumer

/-- The thread found the consumer idle and has not scheduled it yet. -/
def ConsumerCaller.wins : ConsumerCaller → Bool
  | .starting | .scheduling _ => true
  | _ => false

def ConsumerCaller.schedules : ConsumerCaller → Bool
  | .scheduling _ => true
  | _ => false

/-- The `schedule` of the thread was refused. -/
def ConsumerCaller.restores : ConsumerCaller → Bool
  | .restoreStarted | .restoreState => true
  | _ => false

def ConsumerCaller.notifies : ConsumerCaller → Bool
  | .notifying | .exchanging | .starting | .scheduling _ => true
  | _ => false

/-- `run` has found no ready record after it stored `Parking`. -/
def ConsumerPc.commits : ConsumerPc → Bool
  | .parkStopping | .parkPending | .parkExchange => true
  | _ => false

/-- `run` has found that it is to stop. -/
def ConsumerPc.ends : ConsumerPc → Bool
  | .loadPending | .finishState | .finishFlag => true
  | _ => false

namespace LogConsumer

def rests (state : LogConsumer) : Bool :=
  match state.task with
  | .created | .pending => true
  | .running pc => pc == .parked && !state.requested
  | _ => false

/-- A run will look at the ready records again. -/
def attends (state : LogConsumer) : Bool :=
  match state.task with
  | .queued => true
  | .running pc =>
    state.requested || pc != .parked && (!pc.commits || state.wakeState == .active)
  | _ => false

def parks (state : LogConsumer) : Bool :=
  match state.task with
  | .running pc => pc == .parkReady || pc == .unparking || pc.commits
  | _ => false

def ends (state : LogConsumer) : Bool :=
  match state.task with
  | .running pc => pc.ends
  | .done => true
  | _ => false

/-- The runtime takes the task whenever it is scheduled. -/
def accepted (state : LogConsumer) : Action → Bool
  | .caller thread agrees => agrees || !(state.callers thread).schedules
  | _ => true

def Calls (callers : Nat → ConsumerCaller) : Prop :=
  ∃ thread, (callers thread).notifies = true

/-- Whoever finds the consumer idle is alone until it has scheduled the task. -/
structure Parks (state : LogConsumer) (winner : Option Nat) : Prop where
  wins : ∀ thread, (state.callers thread).wins = true ↔ winner = some thread
  kept : ∀ thread, (state.callers thread).restores = false
  idle : state.wakeState = .idle → state.rests = true ∧ winner = none
  won : winner ≠ none → state.rests = true ∧ state.wakeState = .active
  rested : state.rests = true → state.wakeState = .idle ∨ winner ≠ none
  parking : state.wakeState = .parking → state.parks = true
  requested : state.requested = true → state.task = .running .parked
  stopped : state.finished = true ∨ state.ends = true → state.stopping = true
  wakes : state.wakes ≤ 1
  unwoken : state.task ≠ .queued → state.requested = false → state.wakes = 0
  noticed : state.stopping = false → 0 < state.ready → state.attends = true ∨ Calls state.callers

attribute [local grind] withCaller schedule goTo returnAgain returnPending rests attends parks
  ends ConsumerCaller.wins ConsumerCaller.restores ConsumerCaller.notifies ConsumerPc.commits
  ConsumerPc.ends ConsumerCaller.schedules

variable {maxBatchSize maxBatchesPerRun : Nat} {state after : LogConsumer}

theorem Parks.consumer {winner : Option Nat} (inv : Parks state winner) (found : Nat)
    {pc : ConsumerPc} (runs : state.task = .running pc) :
    Parks (state.stepConsumer maxBatchSize maxBatchesPerRun found pc) winner := by
  obtain ⟨wins, kept, idle, won, rested, parking, requested, stopped, wakes, unwoken,
    noticed⟩ := inv
  cases pc <;> simp only [stepConsumer, goTo, returnAgain, returnPending] <;>
    (try split) <;> constructor <;> grind -linarith

theorem notifies_of_wins {caller : ConsumerCaller} (wins : caller.wins = true) :
    caller.notifies = true := by
  cases caller <;> simp_all [ConsumerCaller.wins, ConsumerCaller.notifies]

theorem attends_of_active (active : state.wakeState = .active) (goes : state.ends = false)
    (restless : state.rests = false) : state.attends = true := by
  cases isTask : state.task <;> simp_all [attends, rests, ends]
  grind

theorem Parks.caller {winner : Option Nat} (inv : Parks state winner) {thread : Nat}
    {agrees : Bool} {caller : ConsumerCaller} (isCaller : state.callers thread = caller)
    (agreed : agrees = true ∨ caller.schedules = false) :
    ∃ winner, Parks (state.stepCaller thread agrees caller) winner := by
  obtain ⟨wins, kept, idle, won, rested, parking, requested, stopped, wakes, unwoken,
    noticed⟩ := inv
  have here : ∀ caller : ConsumerCaller, caller.notifies = true →
      Calls (update state.callers thread caller) := fun caller notifies =>
    ⟨thread, by rwa [update_self]⟩
  have still : ∀ caller : ConsumerCaller, Calls state.callers →
      ((state.callers thread).notifies = true → caller.notifies = true) →
      Calls (update state.callers thread caller) := fun _ => exists_update
  cases caller with
  | exchanging =>
    simp only [stepCaller, withCaller]
    split
    · refine ⟨some thread, ?_⟩
      constructor <;> grind -linarith [update_apply]
    · refine ⟨winner, ?_⟩
      constructor
      case noticed =>
        intro running ready
        by_cases unclaimed : winner = none
        · exact .inl (attends_of_active rfl (by grind -linarith) (by grind -linarith))
        · obtain ⟨other, isWinner⟩ := ne_none_iff_exists'.mp unclaimed
          have winning := (wins other).2 isWinner
          have different : other ≠ thread := by grind -linarith
          refine .inr ⟨other, ?_⟩
          simpa [update_of_ne different] using notifies_of_wins winning
      all_goals grind -linarith [update_apply]
  | scheduling starts =>
    have agrees : agrees = true := by grind -linarith
    obtain ⟨resting, -⟩ := won (by grind -linarith)
    refine ⟨none, ?_⟩
    cases isTask : state.task <;> simp [rests, isTask] at resting <;>
      simp only [stepCaller, schedule, isTask, agrees, withCaller, if_true] <;>
      constructor <;> grind -linarith [update_apply]
  | _ =>
    simp only [stepCaller, withCaller]
    refine ⟨winner, ?_⟩
    constructor <;> grind -linarith [update_apply]

theorem Parks.step {winner : Option Nat} (inv : Parks state winner) {action : Action}
    (permitted : state.accepted action = true)
    (steps : state.step maxBatchSize maxBatchesPerRun action = some after) :
    ∃ winner, Parks after winner := by
  cases action with
  | caller thread agrees =>
    simp only [LogConsumer.step, Option.some.injEq] at steps
    exact steps ▸ inv.caller rfl (by simpa [accepted] using permitted)
  | consumer found =>
    simp only [LogConsumer.step] at steps
    split at steps
    · rename_i pc runs
      rw [← Option.some.inj steps]
      exact ⟨winner, inv.consumer found runs⟩
    · contradiction
  | _ =>
    obtain ⟨wins, kept, idle, won, rested, parking, requested, stopped, wakes, unwoken,
      noticed⟩ := inv
    simp only [LogConsumer.step, goTo, ite_none_left_eq_some, ite_none_right_eq_some,
      Option.some.injEq] at steps
    refine ⟨winner, ?_⟩
    obtain ⟨guard, rfl⟩ := steps
    all_goals constructor <;> grind -linarith

theorem parks_reachable
    (reached : (system maxBatchSize maxBatchesPerRun).ReachableUnder (accepted · ·) state) :
    ∃ winner, Parks state winner := by
  induction reached with
  | start starts =>
    obtain rfl := starts
    exact ⟨none, by constructor <;> simp [start, rests, attends, ends, ConsumerCaller.wins,
      ConsumerCaller.restores]⟩
  | next _ permitted steps ih =>
    obtain ⟨winner, inv⟩ := ih
    exact inv.step permitted steps

theorem runs_of_attends (attended : state.attends = true) :
    state.task = .queued ∨ ∃ pc, state.task = .running pc := by
  cases isTask : state.task <;> simp_all [attends]

def loggedOne (task : ConsumerTask) (taskStarted : Bool) (wakeState : ConsumerWakeState) :
    LogConsumer :=
  { start with pending := 1, ready := 1, wakes := 1, task, taskStarted, wakeState }

def published : LogConsumer :=
  { start with pending := 1, ready := 1, callers := update start.callers 0 .notifying }

attribute [local simp] TransitionSystem.replay system step stepCaller withCaller schedule start
  loggedOne published accepted List.replicate

theorem published_reachable : (system 1 1).ReachableUnder (accepted · ·) published := by
  have replays : (system 1 1).replay (accepted · ·) start (List.replicate 4 (.caller 0 true)) =
      some published := by
    simp
  exact (TransitionSystem.ReachableUnder.start rfl).replay replays

theorem loggedOne_reachable :
    (system 1 1).ReachableUnder (accepted · ·) (loggedOne .queued true .active) := by
  have replays : (system 1 1).replay (accepted · ·) published (List.replicate 4 (.caller 0 true)) =
      some (loggedOne .queued true .active) := by
    simp
  exact published_reachable.replay replays

/-- When the runtime takes every task, records that are ready while no thread logs are
drained by a run. -/
theorem ready_records_drained
    (reached : (system maxBatchSize maxBatchesPerRun).ReachableUnder (accepted · ·) state)
    (outside : ∀ thread, state.callers thread = .idle) (running : state.stopping = false)
    (ready : 0 < state.ready) : state.task = .queued ∨ ∃ pc, state.task = .running pc := by
  obtain ⟨winner, inv⟩ := parks_reachable reached
  rcases inv.noticed running ready with attended | ⟨thread, notifies⟩
  · exact runs_of_attends attended
  · simp [outside, ConsumerCaller.notifies] at notifies

theorem ready_records_drained_woken : (loggedOne .queued true .active).task = .queued ∨
      ∃ pc, (loggedOne .queued true .active).task = .running pc :=
  ready_records_drained loggedOne_reachable (fun _ => rfl) rfl (by decide)

/-- The first wake is refused, the next record is accepted, and the consumer is not scheduled
for it. -/
theorem refused_wake_strands_consumer : (system 1 1).Reachable (loggedOne .created false .idle) ∧
      (∀ thread, (loggedOne .created false .idle).callers thread = .idle) ∧
      (system 1 1).replay (fun _ _ => True) (loggedOne .created false .idle)
        (List.replicate 4 (.caller 0 true)) =
        some { loggedOne .created false .idle with pending := 2, ready := 2 } := by
  have replays : (system 1 1).replay (fun _ _ => True) published
      (.append (.replicate 3 (.caller 0 true)) (.replicate 3 (.caller 0 false))) =
      some (loggedOne .created false .idle) := by
    simp
  exact ⟨published_reachable.reachable.replay replays, fun _ => rfl, by simp⟩

end LogConsumer

end AsyncFlow
