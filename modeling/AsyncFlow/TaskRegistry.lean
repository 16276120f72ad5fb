import AsyncFlow.TaskAccounting
import AsyncFlow.TaskEnds
import AsyncFlow.LinkedNodes

/-!
# The registry of unfinished tasks

A task is in the registry from its `on_task_started` to its `on_task_finished`;
its place in the list is kept in fields of the task.  Under `StopImmediately`,
`shutdown` joins the executors and then walks along the list to cancel the tasks
that are left.
-/

namespace AsyncFlow

open Scheduler List Function Frame WakeRequest

/-- The list, and the flag `registered` of every task. -/
structure TaskRegistry where
  links : LinkedNodes TaskId
  registered : TaskId → Bool

/-- What `cancel_registered_task` does to a `Pending` or `Queued` task. -/
def TaskCell.cancelled (cell : TaskCell) : TaskCell :=
  { cell with
    state := .done
    requestedThread := noRequestedThread
    runtimeRef := false }.releaseLifetimeRef

/-- `cancel_registered_task`, and whether it calls `on_runtime_cancel`; without a
result where it asserts.  A weak exchange that fails is repeated. -/
def cancelRegisteredTask (cell : TaskCell) : Option (TaskCell × Bool) :=
  match cell.state with
  | .pending | .queued => some (cell.cancelled, true)
  | .created | .starting | .running => none
  | .done => some (cell, false)

structure CancelWalk where
  registry : TaskRegistry
  cells : TaskId → TaskCell
  /-- The tasks on which `on_runtime_cancel` was called. -/
  cancelled : List TaskId

namespace TaskRegistry

/-- Without a result where the source asserts. -/
def registerTask (registry : TaskRegistry) (task : TaskId) : Option TaskRegistry :=
  if registry.registered task then none else some ⟨registry.links.pushFront task,
    update registry.registered task true⟩

/-- Without a result where the source asserts. -/
def unregisterTask (registry : TaskRegistry) (task : TaskId) : Option TaskRegistry :=
  if registry.registered task then some ⟨registry.links.unlink task,
    update registry.registered task false⟩ else none

/-- A task off the detached list. -/
def clear (registry : TaskRegistry) (task : TaskId) : TaskRegistry where
  links := { registry.links with
    prev := update registry.links.prev task none
    next := update registry.links.next task none }
  registered := update registry.registered task false

/-- The loop of `cancel_registered_tasks`. -/
def cancelFrom : Nat → CancelWalk → Option TaskId → Option CancelWalk
  | _, walk, none => some walk
  | 0, _, some _ => none
  | fuel + 1, walk, some task =>
    (cancelRegisteredTask (walk.cells task)).bind fun result => cancelFrom fuel
      { registry := walk.registry.clear task
        cells := update walk.cells task result.1
        cancelled := walk.cancelled ++ if result.2 then [task] else [] }
      (walk.registry.links.next task)

def cancelRegisteredTasks (fuel : Nat) (registry : TaskRegistry) (cells : TaskId → TaskCell) :
    Option CancelWalk :=
  cancelFrom fuel ⟨{ registry with links := { registry.links with head := none } }, cells, []⟩
    registry.links.head

/-- The walk has cancelled these tasks and touched no other. -/
structure Cancels (before after : CancelWalk) (tasks : List TaskId) : Prop where
  cancelled : after.cancelled = before.cancelled ++ tasks
  head : after.registry.links.head = before.registry.links.head
  registered : ∀ task, after.registry.registered task =
    if task ∈ tasks then false else before.registry.registered task
  cells : ∀ task, after.cells task =
    if task ∈ tasks then (before.cells task).cancelled else before.cells task

theorem cancelFrom_cancels (tasks : List TaskId) (walk : CancelWalk) (fuel : Nat)
    (nodup : tasks.Nodup)
    (idle : ∀ task ∈ tasks, (walk.cells task).state = .pending ∨ (walk.cells task).state = .queued)
    (linked : ∀ before task after, tasks = before ++ task :: after →
      walk.registry.links.next task = after.head?) (enough : tasks.length ≤ fuel) :
    ∃ after, cancelFrom fuel walk tasks.head? = some after ∧ Cancels walk after tasks := by
  induction tasks generalizing walk fuel with
  | nil => exact ⟨walk, by simp [cancelFrom], by simp, rfl, by simp, by simp⟩
  | cons task tasks ih =>
    obtain ⟨fresh, nodup⟩ := nodup_cons.mp nodup
    have apart : ∀ other ∈ tasks, other ≠ task := fun other inside same => fresh (same ▸ inside)
    obtain ⟨fuel, rfl⟩ := Nat.exists_eq_add_of_lt enough
    have cancels : cancelRegisteredTask (walk.cells task) =
        some ((walk.cells task).cancelled, true) := by
      rcases idle task mem_cons_self with isState | isState <;>
        simp [cancelRegisteredTask, isState]
    obtain ⟨after, walks, done⟩ := ih ⟨walk.registry.clear task,
      update walk.cells task (walk.cells task).cancelled, walk.cancelled ++ [task]⟩
      (tasks.length + fuel) nodup
      (by
        intro other inside
        simp only [update_of_ne (apart other inside)]
        exact idle other (mem_cons_of_mem _ inside))
      (by
        intro before other after split
        have inside : other ∈ tasks := by simp [split]
        simp only [clear, update_of_ne (apart other inside)]
        exact linked (task :: before) other after (by simp [split]))
      (Nat.le_add_right _ _)
    refine ⟨after, ?_, ?_⟩
    · simpa [cancelFrom, cancels, linked [] task tasks rfl] using walks
    · obtain ⟨cancelled, head, registered, cells⟩ := done
      refine ⟨by simp [cancelled], head, fun other => ?_, fun other => ?_⟩
      · simp only [registered, clear, update_apply, mem_cons]
        grind
      · simp only [cells, update_apply, mem_cons]
        grind

end TaskRegistry

/-! ### The scheduler with the registry -/

structure RegistryState where
  scheduler : SchedulerState
  registry : TaskRegistry

namespace Registry

/-- The frame that performs `on_task_started` or `on_task_finished`. -/
def counting (state : SchedulerState) : Action → Option Frame
  | .count thread => (state.callStack thread).head?
  | _ => none

def registryAfter (registry : TaskRegistry) : Option Frame → Option TaskRegistry
  | some (.post call .started) => registry.registerTask call.task
  | some (.post call .finished) => registry.unregisterTask call.task
  | some (.exec task .doneFinished) => registry.unregisterTask task
  | _ => some registry

def step (config : Config) (state : RegistryState) (action : Action) : Option RegistryState :=
  (Scheduler.step config state.scheduler action).bind fun scheduler =>
    (registryAfter state.registry (counting state.scheduler action)).map (RegistryState.mk scheduler)

def start (handled : TaskId → Bool) : RegistryState where
  scheduler := Scheduler.start handled
  registry := ⟨⟨none, fun _ => none, fun _ => none⟩, fun _ => false⟩

def system (config : Config) : TransitionSystem RegistryState Action where
  initial := fun state => ∃ handled, state = start handled
  step := step config

/-- The registry is a list of the counted tasks. -/
structure Lists (registry : TaskRegistry) (scheduler : SchedulerState) (tasks : List TaskId) :
    Prop where
  shows_ : registry.links.Shows tasks
  registered : ∀ task, registry.registered task = true ↔ task ∈ tasks
  counted : ∀ task, task ∈ tasks ↔ IsCounted (view scheduler task)

variable {config : Config} {state : RegistryState} {tasks : List TaskId}

theorem scheduler_of_reachable (reached : (system config).Reachable state) :
    (Scheduler.system config).Reachable state.scheduler := by
  refine reached.simulates RegistryState.scheduler ?_ fun state action after _ _ steps => ?_
  · rintro state ⟨handled, rfl⟩
    exact ⟨handled, rfl⟩
  · obtain ⟨scheduler, schedulerSteps, registrySteps⟩ := Option.bind_eq_some_iff.mp steps
    obtain ⟨registry, _, rfl⟩ := Option.map_eq_some_iff.mp registrySteps
    exact .inr ⟨action, schedulerSteps⟩

section

variable {scheduler after : SchedulerState} {registry : TaskRegistry} {task : TaskId}
  (lists : Lists registry scheduler tasks)
  (others : ∀ other ≠ task, view after other = view scheduler other)

include lists others

theorem Lists.register (wasCounted : ¬ IsCounted (view scheduler task))
    (isCounted : IsCounted (view after task)) : ∃ registry' tasks',
      registry.registerTask task = some registry' ∧ Lists registry' after tasks' := by
  have fresh : task ∉ tasks := fun inside => wasCounted ((lists.counted task).mp inside)
  have unregistered : registry.registered task ≠ true := fun isRegistered =>
    fresh ((lists.registered task).mp isRegistered)
  refine ⟨_, task :: tasks, if_neg unregistered, lists.shows_.pushFront fresh, ?_, ?_⟩
  · intro other
    simp only [mem_cons, ← lists.registered, update_apply]
    split <;> simp [*]
  · intro other
    by_cases here : other = task
    · simp [here, isCounted]
    · rw [others other here, ← lists.counted, mem_cons, or_iff_right here]

theorem Lists.unregister (wasCounted : IsCounted (view scheduler task))
    (notCounted : ¬ IsCounted (view after task)) : ∃ registry' tasks',
      registry.unregisterTask task = some registry' ∧ Lists registry' after tasks' := by
  have inside : task ∈ tasks := (lists.counted task).mpr wasCounted
  have registered := (lists.registered task).mpr inside
  obtain ⟨shows_, isRegistered, counted⟩ := lists
  obtain ⟨front, back, rfl⟩ := append_of_mem inside
  have once := (nodup_cons.mp (nodup_middle.mp shows_.nodup)).1
  have members : ∀ other, other ∈ front ++ back ↔ other ≠ task ∧ other ∈ front ++ task :: back := by
    grind
  refine ⟨_, front ++ back, if_pos registered, shows_.unlink, ?_, ?_⟩
  · intro other
    simp only [members, ← isRegistered, update_apply]
    split <;> simp [*]
  · intro other
    by_cases here : other = task
    · simp [here, notCounted, once]
    · rw [others other here, ← counted, members, and_iff_right here]

end

/-- The registry follows a step of the scheduler without an assertion. -/
theorem Lists.move {scheduler after : SchedulerState} {registry : TaskRegistry} {action : Action}
    (lists : Lists registry scheduler tasks) (coherent : Coherent scheduler)
    (move : Move config scheduler action after) : ∃ registry' tasks',
      registryAfter registry (counting scheduler action) = some registry' ∧
        Lists registry' after tasks' := by
  by_cases counts : ∃ thread, action = .count thread
  · obtain ⟨thread, rfl⟩ := counts
    cases move with
    | pop _ _ _ _ occasion => simp at occasion
    | count _ frame next frames top counts =>
      obtain ⟨wasCounted, willCount, others⟩ := isCounted_count config coherent top counts rfl
      simp only [counting, top, head?_cons]
      cases counts with
      | started call =>
        exact lists.register others (wasCounted.not.mpr (by simp [uncounted])) (willCount.mpr rfl)
      | finished call | doneFinished task =>
        exact lists.unregister others (wasCounted.mpr rfl) (willCount.not.mpr (by simp [uncounted]))
  · refine ⟨registry, tasks, ?_, lists.shows_, lists.registered, fun task => ?_⟩
    · cases action <;> first | rfl | exact absurd ⟨_, rfl⟩ counts
    · rw [lists.counted]
      exact (isCounted_keep coherent move fun thread isCount => counts ⟨thread, isCount⟩).symm

theorem lists_of_reachable (reached : (system config).Reachable state) :
    ∃ tasks, Lists state.registry state.scheduler tasks := by
  induction reached with
  | start starts =>
    obtain ⟨handled, rfl⟩ := starts
    refine ⟨[], ⟨nodup_nil, rfl, by simp⟩, by simp [start], fun task => ?_⟩
    simp [start, Scheduler.start, view, IsCounted, CountedBy, TaskCell.allocated]
  | @next before after action reachedBefore _ steps ih =>
    obtain ⟨tasks, lists⟩ := ih
    obtain ⟨scheduler, schedulerSteps, registrySteps⟩ := Option.bind_eq_some_iff.mp steps
    obtain ⟨registry, isRegistry, rfl⟩ := Option.map_eq_some_iff.mp registrySteps
    obtain ⟨registry', tasks', isRegistry', lists'⟩ := lists.move
      (coherent_of_reachable (scheduler_of_reachable reachedBefore)) (step_move schedulerSteps)
    obtain rfl := Option.some_inj.mp (isRegistry.symm.trans isRegistry')
    exact ⟨tasks', lists'⟩

/-- The registry is a list without repetition of the tasks that have been started and
have not finished, and no assertion of it stops a step of the runtime. -/
structure Exact (config : Config) (state : RegistryState) : Prop where
  lists : ∃ tasks, Lists state.registry state.scheduler tasks
  follows : ∀ action after, Scheduler.step config state.scheduler action = some after →
    ∃ registry, step config state action = some ⟨after, registry⟩

theorem registry_exact (reached : (system config).Reachable state) : Exact config state := by
  obtain ⟨tasks, lists⟩ := lists_of_reachable reached
  refine ⟨⟨tasks, lists⟩, fun action after steps => ?_⟩
  obtain ⟨registry, _, follows, _⟩ := lists.move
    (coherent_of_reachable (scheduler_of_reachable reached)) (step_move steps)
  exact ⟨registry, by simp [step, steps, follows]⟩

/-- An external thread posts two tasks, and executor 0 runs the first to its end. -/
def finishedRun : List Action :=
  .flatten [firstPost (.external 0) (postOf 0 0), firstPost (.external 0) (postOf 1 0),
    beginRun (.external 0), [.finish 0 .done], accesses (.executor 0) 2, [.count (.executor 0),
    .access (.executor 0) false]]

theorem finishedRun_exact : ∃ state, (system (twoExecutors .reject)).Reachable state ∧
    (state.registry.registered 0 = false ∧ state.registry.registered 1 = true) ∧
    Exact (twoExecutors .reject) state := by
  obtain ⟨state, reached, observed⟩ := (system (twoExecutors .reject)).exists_reachableUnder
    (fun _ _ => True) (show (system _).initial (start fun _ => true) from ⟨_, rfl⟩) finishedRun
    (fun state => state.registry.registered 0 = false ∧ state.registry.registered 1 = true)
    (by decide)
  exact ⟨state, reached, observed, registry_exact reached⟩

/-- `cancel_registered_tasks` cancels every task that is not over, once, and empties
the registry. -/
def CancelsAll (state : RegistryState) : Prop :=
  ∃ tasks : List TaskId, tasks.Nodup ∧
    (∀ task, task ∈ tasks ↔ (state.scheduler.cells task).state ∉ [TaskState.created, .done]) ∧
    ∀ fuel, tasks.length ≤ fuel → ∃ after,
      state.registry.cancelRegisteredTasks fuel state.scheduler.cells = some after ∧
      after.cancelled = tasks ∧ after.registry.links.head = none ∧
      ∀ task, after.registry.registered task = false ∧ after.cells task = if task ∈ tasks then
        (state.scheduler.cells task).cancelled else state.scheduler.cells task

/-- The assertions hold once the executors have been joined. -/
theorem cancelRegisteredTasks_cancels_all (reached : (system config).Reachable state)
    (joined : ∀ thread, state.scheduler.callStack thread = []) : CancelsAll state := by
  obtain ⟨tasks, lists⟩ := lists_of_reachable reached
  have attended := attended_of_reachable (scheduler_of_reachable reached)
  have noFrames : ∀ task frame, frame ∉ (view state.scheduler task).live := by
    rintro task frame ⟨_, thread, live⟩
    simp [joined thread] at live
  have calm : ∀ task, (state.scheduler.cells task).state ≠ .starting ∧
      (state.scheduler.cells task).state ≠ .running := by
    intro task
    refine not_or.mp fun busy => ?_
    obtain ⟨frame, live, _⟩ := attended task (busy.imp_right .inl)
    exact noFrames task frame live
  have counted : ∀ task, task ∈ tasks ↔ (state.scheduler.cells task).state ∉
      [TaskState.created, .done] := by
    intro task
    simp only [lists.counted, IsCounted, CountedBy, noFrames, false_and, exists_false,
      not_false_eq_true, and_true, and_false, or_false, mem_cons, not_mem_nil, not_or]
    exact Iff.rfl
  have idle : ∀ task ∈ tasks, (state.scheduler.cells task).state = .pending ∨
      (state.scheduler.cells task).state = .queued := by
    intro task inside
    cases isState : (state.scheduler.cells task).state <;> simp_all
  refine ⟨tasks, lists.shows_.nodup, counted, fun fuel enough => ?_⟩
  obtain ⟨after, walks, cancels⟩ := TaskRegistry.cancelFrom_cancels tasks
    ⟨{ state.registry with links := { state.registry.links with head := none } },
      state.scheduler.cells, []⟩ fuel lists.shows_.nodup idle
    (fun before task after split => (lists.shows_.linked before task after split).2) enough
  refine ⟨after, ?_, by simpa using cancels.cancelled, cancels.head, fun task => ?_⟩
  · rw [TaskRegistry.cancelRegisteredTasks, lists.shows_.head]
    exact walks
  · refine ⟨?_, cancels.cells task⟩
    rw [cancels.registered]
    split
    · rfl
    · rename_i outside
      exact Bool.eq_false_iff.mpr fun isRegistered =>
        outside ((lists.registered task).mp isRegistered)

def stopImmediately : Config :=
  { twoExecutors .reject with shutdownPolicy := .stopImmediately }

theorem queued_task_cancelled : ∃ state, (system stopImmediately).Reachable state ∧
    state.scheduler.queues (.external 0) = [0] ∧ CancelsAll state := by
  have quiet : ∀ thread, ((system stopImmediately).replay (fun _ _ => True) (start fun _ => true)
      (firstPost (.external 0) (postOf 0 0))).map (fun state =>
        (state.scheduler.queues (.external 0), state.scheduler.callStack thread)) =
          some ([0], []) := by
    intro thread
    rcases thread with executor | (_ | index) <;> rfl
  obtain ⟨state, replays, isState⟩ := Option.map_eq_some_iff.mp (quiet (.external 0))
  have reached : (system stopImmediately).Reachable state := .replay (.start ⟨_, rfl⟩) replays
  refine ⟨state, reached, congrArg Prod.fst isState,
    cancelRegisteredTasks_cancels_all reached fun thread => ?_⟩
  simpa [replays] using congrArg (Option.map Prod.snd) (quiet thread)

end Registry

end AsyncFlow
