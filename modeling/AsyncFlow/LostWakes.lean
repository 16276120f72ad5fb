import AsyncFlow.WakeSupport

/-!
# Lost wake-ups

A task is stranded when it waits, no queue holds it, no wake is registered and no
thread is on its way to enqueue it; a post that returned true promised a run.  The
runtime can strand a task in three ways: two act on a state read too early, the
third needs a refused push.  Without them no promise is ever broken.
-/

namespace AsyncFlow

open Scheduler WakeRequest List Option

/-- The frame, left to run alone, reaches a push of its task. -/
inductive WillEnqueue (config : Config) : TaskCell → Frame → Prop
  | pushes {cell : TaskCell} {frame : Frame} (pushes : frame.pushes = true) :
      WillEnqueue config cell frame
  | started {cell : TaskCell} (call : PostCall) : WillEnqueue config cell (.post call .started)
  | access {cell cell' : TaskCell} {frame next : Frame}
      (accesses : frame.access config.threadCount cell false = some (cell', some next))
      (later : WillEnqueue config cell' next) : WillEnqueue config cell frame

/-- Nothing leads to another run of a task that waits for one. -/
structure Stranded (config : Config) (state : SchedulerState) (task : TaskId) : Prop where
  pending : (state.cells task).state = .pending
  notQueued : ∀ place, task ∉ state.queues place
  noRequest : (state.cells task).requestedThread = noRequestedThread
  nobody : ∀ thread, ∀ frame ∈ state.callStack thread, frame.task = task →
    ¬ WillEnqueue config (state.cells task) frame

section Enqueues

variable {config : Config} {cell : TaskCell} {frame : Frame} {call : PostCall}

theorem willEnqueue_resolveCas {epoch : BitVec 64} (isPending : cell.state = .pending) :
    WillEnqueue config cell (.post call (.resolveCas epoch)) :=
  .access (if_pos isPending) (.pushes rfl)

theorem willEnqueue_wakeCas {epoch : BitVec 64} (isPending : cell.state = .pending)
    (noRequest : cell.requestedThread = noRequestedThread) :
    WillEnqueue config cell (.post call (.wakeCas epoch)) := by
  have registers : Frame.access config.threadCount cell false (.post call (.wakeCas epoch)) =
      some ({ cell with requestedThread := call.desired epoch },
        some (.post call (.resolveLoad epoch))) := by
    simp only [Frame.access, PostCall.access, PostCall.requestWake, noRequest, if_true]
  have loads : Frame.access config.threadCount
      { cell with requestedThread := call.desired epoch } false (.post call (.resolveLoad epoch)) =
      some ({ cell with requestedThread := call.desired epoch },
        some (.post call (.resolveClear epoch .pending))) := by
    simp [Frame.access, PostCall.access, isPending]
  have clears : Frame.access config.threadCount
      { cell with requestedThread := call.desired epoch } false
      (.post call (.resolveClear epoch .pending)) =
      some ({ cell with requestedThread := noRequestedThread },
        some (.post call (.resolveCas epoch))) := by
    simp [Frame.access, PostCall.access, PostCall.resolveCleared]
  exact .access registers (.access loads (.access clears (willEnqueue_resolveCas isPending)))

theorem willEnqueue_wakeLoadEpoch (isPending : cell.state = .pending)
    (noRequest : cell.requestedThread = noRequestedThread) :
    WillEnqueue config cell (.post call .wakeLoadEpoch) :=
  .access rfl (willEnqueue_wakeCas isPending noRequest)

/-- On a waiting task without a request, a frame that carries a wake of the
current epoch enqueues the task. -/
theorem Frame.willEnqueue_of_carries (fact : FrameFact config cell frame)
    (isPending : cell.state = .pending) (noRequest : cell.requestedThread = noRequestedThread)
    (carries : frame.carries cell.runEpoch) : WillEnqueue config cell frame := by
  unfold Frame.carries at carries
  split at carries
  · exact willEnqueue_wakeLoadEpoch isPending noRequest
  · rename_i call expected
    refine .access rfl (willEnqueue_wakeLoadEpoch ?_ ?_)
    · split <;> exact isPending
    · split <;> first | rfl | exact noRequest
  · exact willEnqueue_wakeCas isPending noRequest
  · exact willEnqueue_resolveCas isPending
  · rename_i task request
    have current : requestedEpoch request = cell.runEpoch ∧
        requestedTarget request ≠ config.threadCount := ⟨carries, fact.1.target_ne⟩
    have checks : Frame.access config.threadCount cell false (.exec task (.pendingCheck request)) =
        some (cell, some (.exec task (.pendingCas request))) := by
      simp only [Frame.access, execAccess, if_pos current]
    exact .access checks (.access (if_pos isPending) (.pushes rfl))
  · exact .access (if_pos isPending) (.pushes rfl)
  · exact carries.elim

end Enqueues

theorem WakeInv.not_stranded {config : Config} {state : SchedulerState} {task : TaskId}
    (inv : WakeInv config (view state task))
    (promised : (state.cells task).runs ∈ (state.cells task).promises) :
    ¬ Stranded config state task := by
  intro stranded
  have supports := inv.supported (needs_none.mpr (.inl promised))
  rw [supports_none] at supports
  have isPending : (view state task).cell.state = .pending := stranded.pending
  rcases supports with isDone | ⟨occupied, _⟩ | ⟨frame, live, carries⟩ | ⟨isQueued, _⟩
  · rw [isPending] at isDone
    cases isDone
  · exact occupied stranded.noRequest
  · obtain ⟨sameTask, thread, onStack⟩ := live
    exact stranded.nobody thread frame onStack sameTask
      (Frame.willEnqueue_of_carries (inv.facts frame ⟨sameTask, thread, onStack⟩) isPending
        stranded.noRequest carries)
  · rw [isPending] at isQueued
    cases isQueued

namespace Scheduler

variable {config : Config} {state : SchedulerState} {task : TaskId}

def enqueueSucceeds (config : Config) (state : SchedulerState) : Action → Bool
  | .push thread => (state.callStack thread).head?.all fun frame =>
    (pushTarget config thread frame).all fun (place, blocking) =>
      blocking || (state.queues place).length < config.capacity place
  | _ => true

theorem not_rollsBack_of_reachable {allowed : SchedulerState → Action → Prop}
    (accepts : ∀ state action, allowed state action → enqueueSucceeds config state action = true)
    (reached : (system config).ReachableUnder allowed state) :
    ∀ thread, ∀ frame ∈ state.callStack thread, frame.rollsBack = false := by
  induction reached with
  | start starts =>
    obtain ⟨handled, rfl⟩ := starts
    simp [start]
  | @next state successor action reachedBefore permitted steps ih =>
    have accepted := accepts state action permitted
    cases step_move steps with
    | call thread call _ _ _ | release thread task _ _ =>
      exact (ReplacesTop.push state.callStack thread _).forall_after ih (by simp [Frame.rollsBack])
    | complete executor task _ | pop place task queue waiting _ =>
      exact (ReplacesTop.push state.callStack _ _).forall_after ih (by simp [Frame.rollsBack])
    | finish executor result task frames top =>
      refine (ReplacesTop.top top [_]).forall_after ih ?_
      cases result <;> simp [Frame.rollsBack, finishPc]
    | access thread spurious frame frames cell next top accesses =>
      refine (ReplacesTop.top top next.toList).forall_after ih fun following isNext => ?_
      rw [mem_toList] at isNext
      rw [isNext] at accesses
      exact (Frame.access_fresh accesses).1
    | count thread frame next frames top counts =>
      have notRolling := ih thread frame (top ▸ mem_cons_self)
      rw [withStack_callStack, countAfter_callStack]
      refine (ReplacesTop.top top [next]).forall_after ih ?_
      cases counts <;> simp_all [Frame.rollsBack]
    | push thread frame frames place blocking top targets _ =>
      exact (ReplacesTop.top top []).forall_after ih (by simp)
    | wait thread frame frames place top targets _ _ =>
      have notRolling := ih thread frame (top ▸ mem_cons_self)
      refine (ReplacesTop.top top [_]).forall_after ih ?_
      rw [forall_mem_singleton]
      unfold markWaited
      split <;> first | rfl | exact notRolling
    | refuse thread frame frames place top targets full =>
      simp only [enqueueSucceeds, top, head?_cons, all_some, targets,
        Bool.false_or, decide_eq_true_eq] at accepted
      exact absurd accepted (Nat.not_lt.mpr full)
    | spin thread => exact ih

/-- Runs in which every enqueue succeeds and run epochs stay in range. -/
def undisturbed (config : Config) (state : SchedulerState) (action : Action) : Prop :=
  enqueueSucceeds config state action = true ∧ accessAllowed epochsFit state action

instance (state : SchedulerState) (action : Action) : Decidable (undisturbed config state action) :=
  inferInstanceAs (Decidable (_ ∧ _))

/-- No access acts on a state read too early. -/
def actsOnFreshState : SchedulerState → Action → Prop :=
  accessAllowed fun cell frame => actsOnStaleState cell frame = false

instance (state : SchedulerState) (action : Action) : Decidable (actsOnFreshState state action) :=
  inferInstanceAs (Decidable (accessAllowed _ state action))

theorem live_of_accessing {action : Action} {frame : Frame}
    (accessed : frame ∈ accessing state action) : ∃ thread, frame ∈ state.callStack thread := by
  cases action <;> simp only [accessing, not_mem_none] at accessed
  exact ⟨_, mem_of_mem_head? accessed⟩

theorem reached_keepsWakes (reached : (system config).ReachableUnder
      (fun state action => undisturbed config state action ∧ actsOnFreshState state action) state) :
    (system config).ReachableUnder (accessAllowed wakePermits) state := by
  refine reached.replaceAllowed fun before action reachedBefore permitted frame accessed => ?_
  refine ⟨permitted.1.2 frame accessed, permitted.2 frame accessed, ?_⟩
  obtain ⟨thread, onStack⟩ := live_of_accessing accessed
  have notRolling := not_rollsBack_of_reachable (fun _ _ permitted => permitted.1.1)
    reachedBefore thread frame onStack
  unfold undoesHandOver
  split
  · cases notRolling
  · rfl

/-- When every enqueue succeeds and no access acts on a stale state, a post that
returned true is never stranded: while no run has begun since its first access,
something still leads to one. -/
theorem post_not_stranded (reached : (system config).ReachableUnder
      (fun state action => undisturbed config state action ∧ actsOnFreshState state action) state)
    {born : Nat} (promised : born ∈ (state.cells task).promises)
    (noRunSince : (state.cells task).runs = born) : ¬ Stranded config state task := by
  exact (wakeInv_of_reachable (reached_keepsWakes reached) task).not_stranded
    (noRunSince ▸ promised)

def wakeWhileRunning (thread : Thread) (call : PostCall) : List Action :=
  .call thread call :: accesses thread 5

/-- Task 0 runs, is woken during its run and becomes `Pending`; the executor has
just taken the request. -/
def wokenRun : List Action :=
  firstPost (.external 0) (postOf 0 0) ++ beginRun (.external 0) ++
    wakeWhileRunning (.external 0) (postOf 0 1) ++ [.finish 0 .pending] ++ accesses (.executor 0) 2

theorem wokenRun_not_stranded : ∃ state, (system (twoExecutors .reject)).ReachableUnder
        (fun state action => undisturbed (twoExecutors .reject) state action ∧
          actsOnFreshState state action) state ∧
      (1 ∈ (state.cells 0).promises ∧ (state.cells 0).runs = 1 ∧ (state.cells 0).state = .pending ∧
        (state.cells 0).requestedThread = noRequestedThread) ∧
      ¬ Stranded (twoExecutors .reject) state 0 := by
  obtain ⟨state, reached, observed⟩ := (system (twoExecutors .reject)).exists_reachableUnder
    (fun state action => undisturbed (twoExecutors .reject) state action ∧
      actsOnFreshState state action) ⟨fun _ => true, rfl⟩ wokenRun
    (fun state => 1 ∈ (state.cells 0).promises ∧ (state.cells 0).runs = 1 ∧
      (state.cells 0).state = .pending ∧
      (state.cells 0).requestedThread = noRequestedThread) (by decide)
  exact ⟨state, reached, observed, post_not_stranded reached observed.1 observed.2.1⟩

/-- The finish of the first run is delayed into the second, takes the request
made there and drops it. -/
def lateFinish : List Action :=
  firstPost (.external 0) (postOf 0 0) ++ beginRun (.external 0) ++
    [.finish 0 .pending] ++ accesses (.executor 0) 1 ++
    laterPost (.external 0) (postOf 0 1) ++ beginRun (.external 1) ++
    wakeWhileRunning (.external 0) (postOf 0 1) ++ accesses (.executor 0) 3 ++
    [.finish 1 .pending] ++ accesses (.executor 1) 2

/-- A waker of the first run registers while the second is starting, a second
waker shares its request, and the first one clears it. -/
def staleWaker : List Action :=
  firstPost (.external 0) (postOf 0 0) ++ beginRun (.external 0) ++
    .call (.external 1) (postOf 0 0) :: accesses (.external 1) 1 ++
    [.finish 0 .pending] ++ accesses (.executor 0) 2 ++ laterPost (.external 0) (postOf 0 0) ++
    .pop (.external 0) :: accesses (.executor 0) 3 ++ accesses (.external 1) 3 ++
    accesses (.executor 0) 1 ++ wakeWhileRunning (.external 0) (postOf 0 0) ++
    accesses (.external 1) 1 ++ [.finish 0 .pending] ++ accesses (.executor 0) 2

theorem stranded_of_quiet (reached : (system config).Reachable state)
    (quiet : ∀ thread, state.callStack thread = [])
    (isPending : (state.cells task).state = .pending)
    (noRequest : (state.cells task).requestedThread = noRequestedThread) :
    Stranded config state task where
  pending := isPending
  notQueued := fun place =>
    (occupancy_of_reachable reached).not_held (.inr isPending) (.inl place)
  noRequest := noRequest
  nobody := fun thread frame live => by simp [quiet thread] at live

theorem exists_stranded (allowed : SchedulerState → Action → Prop)
    [∀ state action, Decidable (allowed state action)] (config : Config)
    (task : TaskId) (actions : List Action)
    (ends : ((system config).replay allowed (start fun _ => true) actions).any (fun final =>
      ((final.cells task).runs ∈ (final.cells task).promises ∧ (final.cells task).state = .pending ∧
        (final.cells task).requestedThread = noRequestedThread) ∧
      ∀ action ∈ actions, final.callStack action.thread = []) = true) :
    ∃ state, (system config).replay allowed (start fun _ => true) actions = some state ∧
      (state.cells task).runs ∈ (state.cells task).promises ∧ Stranded config state task := by
  obtain ⟨state, replays, ⟨promised, isPending, noRequest⟩, quiet⟩ :=
    exists_quiet_replay allowed config (fun _ => true) actions _ ends
  have starts : (system config).initial (start fun _ => true) := ⟨_, rfl⟩
  have reached := (TransitionSystem.ReachableUnder.start starts).replay replays
  exact ⟨state, replays, promised, stranded_of_quiet reached.reachable quiet isPending noRequest⟩

/-- The run strands the task, although it was promised to run and every enqueue succeeds. -/
def LosesWake (run : List Action) : Prop :=
  ∃ state, (system (twoExecutors .reject)).replay (undisturbed (twoExecutors .reject))
      (start fun _ => true) run = some state ∧
    (state.cells 0).runs ∈ (state.cells 0).promises ∧ Stranded (twoExecutors .reject) state 0

theorem wake_lost_without_refusal : LosesWake lateFinish ∧ LosesWake staleWaker :=
  ⟨exists_stranded _ _ 0 lateFinish (by decide), exists_stranded _ _ 0 staleWaker (by decide)⟩

/-- With refused pushes, and no rollback that undoes a schedule on which another wake
was dropped, a post that returned true is never stranded. -/
theorem post_not_stranded_by_rollback (reached : (system config).ReachableUnder
      (fun state action => accessAllowed epochsFit state action ∧
        accessAllowed keepsWakes state action) state)
    {born : Nat} (promised : born ∈ (state.cells task).promises)
    (noRunSince : (state.cells task).runs = born) : ¬ Stranded config state task := by
  have kept := reached.mono fun state action permitted frame accessed =>
    show wakePermits _ _ from ⟨permitted.1 frame accessed, permitted.2 frame accessed⟩
  exact (wakeInv_of_reachable kept task).not_stranded (noRunSince ▸ promised)

/-- Thread 3 makes task 0 `Queued` for the full queue of executor 0 and is refused;
thread 2 has registered in its first run. -/
def refusedRun : List Action :=
  firstPost (.external 0) (postOf 0 0) ++ beginRun (.external 0) ++
    .call (.external 2) (postOf 0 1) :: accesses (.external 2) 2 ++
    [.finish 0 .pending] ++ accesses (.executor 0) 2 ++
    firstPost (.external 1) (postOf 1 0) ++ firstPost (.external 1) (postOf 2 0) ++
    claim (.external 3) (postOf 0 0)

theorem refusedRun_not_stranded : ∃ state, (system (twoExecutors .reject)).ReachableUnder
        (fun state action => accessAllowed epochsFit state action ∧
          accessAllowed keepsWakes state action) state ∧
      (1 ∈ (state.cells 0).promises ∧ (state.cells 0).runs = 1 ∧ state.queues (.external 1) = [0]) ∧
      ¬ Stranded (twoExecutors .reject) state 0 := by
  obtain ⟨state, reached, observed⟩ := (system (twoExecutors .reject)).exists_reachableUnder
    (fun state action => accessAllowed epochsFit state action ∧
      accessAllowed keepsWakes state action) ⟨fun _ => true, rfl⟩
    (.flatten [refusedRun, [.push (.external 3), .access (.external 3) false],
      accesses (.external 2) 4, [.push (.external 2)]])
    (fun state => 1 ∈ (state.cells 0).promises ∧ (state.cells 0).runs = 1 ∧
      state.queues (.external 1) = [0]) (by decide)
  exact ⟨state, reached, observed, post_not_stranded_by_rollback reached observed.1 observed.2.1⟩

/-- Thread 2 sees the task `Queued`, drops its request and returns true; the rollback
then strands the task. -/
theorem rollback_strands : ∃ state, (system (twoExecutors .reject)).replay (accessAllowed epochsFit)
        (start fun _ => true) (refusedRun ++ accesses (.external 2) 3 ++
          [.push (.external 3), .access (.external 3) false]) = some state ∧
      (state.cells 0).runs ∈ (state.cells 0).promises ∧ Stranded (twoExecutors .reject) state 0 :=
  exists_stranded _ _ 0 _ (by decide)

end Scheduler

end AsyncFlow
