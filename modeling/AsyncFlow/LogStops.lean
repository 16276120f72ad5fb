import AsyncFlow.LogBackend

/-!
# Stopping a log backend

`stop_and_wait` is followed by the destruction of the state that the sender task uses.
-/

namespace AsyncFlow

open Function

namespace LogCaller

def wins : LogCaller → Bool
  | .waking .loadFinished _ | .waking .exchangeQueued _ => false
  | .waking _ _ => true
  | _ => false

def starts : LogCaller → Bool
  | .waking (.schedule true) _ | .waking .restoreStarted _ => true
  | _ => false

def isStopping : LogCaller → Bool
  | .waking _ stops => stops
  | .stopping _ => true
  | _ => false

theorem wins_of_starts {caller : LogCaller} (starting : caller.starts = true) :
    caller.wins = true := by
  unfold starts at starting
  split at starting <;> first | rfl | cases starting

end LogCaller

def SenderTask.unused (task : SenderTask) : Prop :=
  task = .created ∨ task = .done

namespace LogBackend

variable {config : LogConfig} {state after : LogBackend} {thread : Nat} {caller : LogCaller}

/-- The wait ends with the task, the wake of a stop is taken, and nobody starts the
task after the stop has begun. -/
def stopsInTime (state : LogBackend) : Action → Prop
  | .caller thread answer =>
    match state.callers thread with
    | .stopping .waiting => state.task = .done
    | .waking (.schedule _) true => (state.schedule answer).2 = true
    | .waking (.schedule _) false => state.stopping = true → state.task ≠ .created
    | _ => True
  | _ => True

instance (state : LogBackend) (action : Action) : Decidable (stopsInTime state action) := by
  unfold stopsInTime
  cases action with
  | caller thread answer =>
    dsimp only
    split <;> infer_instance
  | _ => exact inferInstanceAs (Decidable True)

structure StopFact (state : LogBackend) (caller : LogCaller) : Prop where
  starting : caller.starts = true → state.task = .created
  started : ∀ starts stops, caller = .waking (.schedule starts) stops → state.taskStarted = true
  held : caller.wins = true → state.task = .created → state.wakeQueued = true
  begun : caller.isStopping = true → state.shutdownStarted = true
  stopping : caller.isStopping = true → caller ≠ .stopping .storeStopping → state.stopping = true
  taken : caller ≠ .waking .restoreStarted true ∧ caller ≠ .waking .restoreQueued true
  unstarted : caller = .stopping .loadPending → state.task = .created
  resetting : caller = .stopping .resetting → state.task.unused

structure Stops (state : LogBackend) : Prop where
  unstarted : state.taskStarted = false → state.task = .created
  facts : ∀ thread, StopFact state (state.callers thread)
  apart : state.task = .created → ∀ first second, (state.callers first).wins = true →
    (state.callers second).wins = true → first = second
  oneStopper : ∀ first second, (state.callers first).isStopping = true →
    (state.callers second).isStopping = true → first = second
  destroyed : state.destroyed = true → state.task.unused

attribute [local grind →] LogCaller.wins_of_starts

attribute [local grind] LogCaller.wins LogCaller.starts LogCaller.isStopping SenderTask.unused
  withCaller leaveWake schedule

section

variable (inv : Stops state)

include inv

theorem Stops.move (callers : after.callers = update state.callers thread caller)
    (unstarted : after.taskStarted = false → after.task = .created)
    (destroyed : after.destroyed = true → after.task.unused) (own : StopFact after caller)
    (others : ∀ other, other ≠ thread → StopFact after (state.callers other))
    (created : after.task = .created → state.task = .created)
    (wins : caller.wins = true → after.task = .created →
      (state.callers thread).wins = true ∨ state.wakeQueued = false)
    (stops : caller.isStopping = true →
      (state.callers thread).isStopping = true ∨ state.shutdownStarted = false) : Stops after := by
  refine ⟨unstarted, ?_, ?_, ?_, destroyed⟩
  · rw [callers]
    exact forall_update_iff _ (p := fun _ => StopFact after) |>.mpr ⟨own, others⟩
  · have held := fun other => (inv.facts other).held
    have apart := inv.apart
    rw [callers]
    grind [update_apply]
  · have begun := fun other => (inv.facts other).begun
    have oneStopper := inv.oneStopper
    rw [callers]
    grind [update_apply]

theorem Stops.raise (callers : after.callers = update state.callers thread caller)
    (task : after.task = state.task) (started : state.taskStarted = true → after.taskStarted = true)
    (queued : state.wakeQueued = true → after.wakeQueued = true)
    (begun : state.shutdownStarted = true → after.shutdownStarted = true)
    (stopping : state.stopping = true → after.stopping = true)
    (destroyed : after.destroyed = true → after.task.unused) (own : StopFact after caller)
    (wins : caller.wins = true → (state.callers thread).wins = true ∨ state.wakeQueued = false)
    (stops : caller.isStopping = true →
      (state.callers thread).isStopping = true ∨ state.shutdownStarted = false) : Stops after := by
  have unstarted := inv.unstarted
  refine inv.move callers (by grind -linarith) destroyed own (fun other _ => ?_) (by grind -linarith) (by grind -linarith) stops
  obtain ⟨_, _, _, _, _, _, _, _⟩ := inv.facts other
  constructor <;> grind -linarith

theorem Stops.stepWake {pc : LogWakePc} {stops answer : Bool}
    (alive : state.destroyed = false) (isPc : state.callers thread = .waking pc stops)
    (permitted : stopsInTime state (.caller thread answer)) :
    Stops (state.stepWake thread stops answer pc) := by
  obtain ⟨starting, started, held, begun, stopping, taken, -, -⟩ := inv.facts thread
  have unstarted := inv.unstarted
  have apart := inv.apart
  rw [isPc] at starting started held begun stopping taken
  simp only [stopsInTime, isPc] at permitted
  cases pc <;> dsimp only [LogBackend.stepWake]
  case loadFinished | exchangeQueued =>
    split <;> refine inv.raise rfl rfl id (by grind -linarith) id id inv.destroyed ?_ ?_ ?_
    case isTrue.refine_1 | isFalse.refine_1 => constructor <;> grind -linarith
    all_goals grind -linarith
  case exchangeStarted =>
    refine inv.raise rfl rfl (fun _ => rfl) id id id inv.destroyed ?_ ?_ ?_
    · cases isStarted : state.taskStarted <;> constructor <;> grind -linarith
    all_goals grind -linarith
  case schedule starts =>
    have oneStopper := inv.oneStopper thread
    cases isScheduled : state.schedule answer with
    | mk scheduled took =>
      rcases schedule_cases isScheduled with ⟨rfl, wasIdle, rfl⟩ | ⟨rfl, ⟨_, isRunning⟩, rfl⟩ |
        ⟨rfl, _, wasIdle, rfl⟩ | ⟨rfl, isOver, rfl⟩
      · refine inv.move rfl ?_ ?_ ?_ (fun other different => ?_) ?_ ?_ ?_
        case refine_3 => constructor <;> grind -linarith
        case refine_4 =>
          obtain ⟨_, _, _, _, _, _, _, _⟩ := inv.facts other
          constructor <;> grind -linarith
        all_goals grind -linarith
      all_goals
        refine inv.raise rfl rfl id id id id inv.destroyed ?_ ?_ ?_
        · cases starts <;> constructor <;> grind -linarith
        all_goals grind -linarith
  case restoreStarted | restoreQueued =>
    refine inv.move rfl (by grind -linarith) inv.destroyed ?_ (fun other different => ?_) id ?_ ?_
    · constructor <;> grind -linarith
    · obtain ⟨_, _, _, _, _, _, _, _⟩ := inv.facts other
      constructor <;> grind -linarith
    all_goals grind -linarith

theorem Stops.stepStop {pc : LogStopPc} {answer : Bool} (isPc : state.callers thread = .stopping pc)
    (permitted : stopsInTime state (.caller thread answer))
    (steps : state.stepStop thread answer pc = some after) : Stops after := by
  obtain ⟨-, -, -, begun, stopping, -, unstarted, resetting⟩ := inv.facts thread
  have created := inv.unstarted
  have destroyed := inv.destroyed
  rw [isPc] at begun stopping unstarted resetting
  simp only [stopsInTime, isPc] at permitted
  cases pc <;> dsimp only [LogBackend.stepStop] at steps <;> (try split at steps) <;>
    cases steps <;>
    refine inv.raise rfl rfl id id id (by grind -linarith) (by grind -linarith) ?_ ?_ ?_ <;>
    first
    | (constructor <;> grind -linarith)
    | grind -linarith

theorem Stops.goesOn (callers : after.callers = update state.callers thread caller)
    (outside : caller.isStopping = false ∧ caller.wins = false)
    (task : after.task = state.task) (started : after.taskStarted = state.taskStarted)
    (queued : after.wakeQueued = state.wakeQueued)
    (begun : after.shutdownStarted = state.shutdownStarted)
    (stopping : after.stopping = state.stopping)
    (destroyed : after.destroyed = state.destroyed) : Stops after := by
  have wasDestroyed := inv.destroyed
  refine inv.raise callers task ?_ ?_ ?_ ?_ ?_ ?_ ?_ ?_
  case refine_6 => constructor <;> grind -linarith
  all_goals grind -linarith

theorem Stops.runs (used : ¬ state.task.unused)
    (callers : after.callers = state.callers) (started : after.taskStarted = state.taskStarted)
    (begun : after.shutdownStarted = state.shutdownStarted)
    (stopping : after.stopping = state.stopping)
    (destroyed : after.destroyed = state.destroyed) (notCreated : after.task ≠ .created) :
    Stops after := by
  obtain ⟨unstarted, facts, -, oneStopper, wasDestroyed⟩ := inv
  refine ⟨by grind -linarith, fun thread => ?_, by grind -linarith, by rwa [callers], by grind -linarith⟩
  obtain ⟨_, _, _, _, _, _, _, _⟩ := facts thread
  rw [callers]
  constructor <;> grind -linarith

theorem Stops.step {action : Action} (permitted : stopsInTime state action)
    (steps : step config state action = some after) : Stops after := by
  cases action <;> simp only [LogBackend.step, call] at steps <;> split at steps <;>
    try contradiction
  case enqueue.isTrue | flush.isTrue =>
    cases steps
    exact inv.goesOn rfl ⟨rfl, rfl⟩ rfl rfl rfl rfl rfl rfl
  case stop.isFalse =>
    obtain ⟨_, ⟨⟩⟩ := Option.ite_none_right_eq_some.mp steps
    refine inv.raise rfl rfl id id (fun _ => rfl) id inv.destroyed ?_ ?_ ?_
    · constructor <;> grind
    all_goals grind
  case caller.isFalse thread answer alive =>
    split at steps
    · cases steps
    · rename_i pc isPc
      cases steps
      obtain ⟨caller, _, _, _, _, _, _, _, isAfter, leaves⟩ :=
        @stepEnqueue_eq config state thread pc
      rw [isAfter]
      exact inv.goesOn rfl (by grind) rfl rfl rfl rfl rfl rfl
    · cases steps
      unfold stepFlush
      repeat' split
      all_goals exact inv.goesOn rfl ⟨rfl, rfl⟩ rfl rfl rfl rfl rfl rfl
    · rename_i pc stops isPc
      cases steps
      exact inv.stepWake (by simpa using alive) isPc permitted
    · rename_i pc isPc
      exact inv.stepStop isPc permitted steps
  case h_1 isQueued =>
    cases steps
    exact inv.runs (by grind) rfl rfl rfl rfl rfl (by simp [goTo])
  case h_1 outcome task pc isPc =>
    obtain ⟨callers, started, begun, stopping, destroyed, -, notCreated⟩ :=
      stepSender_same isPc steps
    exact inv.runs (by grind) callers started begun stopping destroyed notCreated
  case ioReady.isTrue =>
    cases steps
    exact inv.runs (by grind) rfl rfl rfl rfl rfl (by simp)

end

theorem stops_initial : Stops (initial config) := by
  refine ⟨fun _ => rfl, fun _ => ?_, ?_, ?_, ?_⟩
  case refine_1 => constructor <;> grind [initial]
  all_goals grind [initial]

theorem stops_reachable (reached : (system config).ReachableUnder stopsInTime state) :
    Stops state := by
  induction reached with
  | start starts =>
    cases starts
    exact stops_initial
  | next reached permitted steps ih => exact ih.step permitted steps

/-- When `stop_and_wait` waits until the task is done, a destroyed backend has a task
that was not started or has ended, and nothing happens any more. -/
theorem destroyed_backend_unused (reached : (system config).ReachableUnder stopsInTime state)
    (destroyed : state.destroyed = true) :
    state.task.unused ∧ ∀ action, step config state action = none := by
  have unused := (stops_reachable reached).destroyed destroyed
  refine ⟨unused, fun action => ?_⟩
  unfold step call
  rcases unused with isTask | isTask <;> cases action <;> simp [destroyed, isTask]

def oneFileBatch : LogConfig where
  batches := 1
  queueCapacity := 1
  maxBatchRecords := 1
  maxBatchesPerRun := 1
  perMessage := false
  countsFlushes := true
  fsyncOnFlush := true
  batches_le := Nat.le_refl 1
  maxBatchRecords_pos := Nat.one_pos

def enqueueOne : List Action :=
  .enqueue [true] :: List.replicate 9 (.caller 0 true)

theorem destroyed_backend_unused_after_stop :
    ∃ state, (system oneFileBatch).ReachableUnder stopsInTime state ∧ state.destroyed = true ∧
      state.sentRecords = 1 ∧ state.task.unused ∧
      ∀ action, step oneFileBatch state action = none := by
  obtain ⟨state, reached, destroyed, sent⟩ :=
    (system oneFileBatch).exists_reachableUnder stopsInTime
      (show (system oneFileBatch).initial (initial oneFileBatch) from rfl)
      (.flatten [enqueueOne, [.run], .replicate 6 (.sender (.sent 1)), [.stop 1],
        .replicate 4 (.caller 1 true), [.run], .replicate 5 (.sender .blocked),
        .replicate 2 (.caller 1 false)])
      (fun state => state.destroyed = true ∧ state.sentRecords = 1) (by decide +kernel)
  exact ⟨state, reached, destroyed, sent, destroyed_backend_unused reached destroyed⟩

/-- The deadline of the stop expires, and the write completes after the backend is
destroyed: the task runs. -/
theorem destroyed_backend_used :
    ∃ state, (system oneFileBatch).Reachable state ∧ state.destroyed = true ∧
      state.task = .running .checkStopping ∧ ¬ state.task.unused := by
  obtain ⟨state, reached, destroyed, isTask⟩ :=
    (system oneFileBatch).exists_reachableUnder (fun _ _ => True)
      (show (system oneFileBatch).initial (initial oneFileBatch) from rfl)
      (.flatten [enqueueOne, [.run], .replicate 4 (.sender .blocked), [.stop 1],
        .replicate 6 (.caller 1 true), [.ioReady, .run]])
      (fun state => state.destroyed = true ∧ state.task = .running .checkStopping)
      (by decide +kernel)
  exact ⟨state, reached, destroyed, isTask, by simp [SenderTask.unused, isTask]⟩

end LogBackend

end AsyncFlow
