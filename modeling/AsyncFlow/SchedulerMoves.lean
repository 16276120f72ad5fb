import AsyncFlow.Scheduler
import AsyncFlow.ExclusiveHolding

/-!
# What a scheduler step can do

`Move` lists the effects of every action with their guards, and `step_move` shows
that each step is one of them, so that invariants never unfold the step function.
-/

namespace AsyncFlow

open Option Function

def Frame.rollsBack : Frame → Bool
  | .post _ .finished | .post _ (.cancel _) => true
  | _ => false

theorem Frame.access_fresh {frame next : Frame} {invalidThread : Nat}
    {cell cell' : TaskCell} {spurious : Bool}
    (accesses : frame.access invalidThread cell spurious = some (cell', some next)) :
    next.rollsBack = false ∧ Scheduler.hasWaited next = false := by
  cases frame with
  | post call pc =>
    cases pc with
    | requestCas seen =>
      cases seen <;> simp only [Frame.access, PostCall.access] at accesses <;>
        grind [Frame.rollsBack, Scheduler.hasWaited]
    | _ =>
      simp only [Frame.access, PostCall.access, PostCall.requestSchedule,
        PostCall.requestWake, PostCall.resolveCleared] at accesses
      (try split at accesses) <;> grind [Frame.rollsBack, Scheduler.hasWaited]
  | exec task pc | complete task pc | release task pc =>
    cases pc <;>
      simp only [Frame.access, execAccess, completeAccess, releaseAccess] at accesses <;>
      (try split at accesses) <;> grind [Frame.rollsBack, Scheduler.hasWaited]

namespace Scheduler

variable {config : Config} {state after : SchedulerState} {action : Action}

@[simp]
theorem withStack_cells (thread : Thread) (stack : List Frame) :
    (withStack state thread stack).cells = state.cells := rfl

@[simp]
theorem withStack_queues (thread : Thread) (stack : List Frame) :
    (withStack state thread stack).queues = state.queues := rfl

@[simp]
theorem withStack_callStack (thread : Thread) (stack : List Frame) :
    (withStack state thread stack).callStack = update state.callStack thread stack := rfl

@[simp]
theorem withCell_cells (task : TaskId) (cell : TaskCell) :
    (withCell state task cell).cells = update state.cells task cell := rfl

@[simp]
theorem withCell_queues (task : TaskId) (cell : TaskCell) :
    (withCell state task cell).queues = state.queues := rfl

@[simp]
theorem withCell_callStack (task : TaskId) (cell : TaskCell) :
    (withCell state task cell).callStack = state.callStack := rfl

@[simp]
theorem withQueue_cells (place : Place) (queue : List TaskId) :
    (withQueue state place queue).cells = state.cells := rfl

@[simp]
theorem withQueue_queues (place : Place) (queue : List TaskId) :
    (withQueue state place queue).queues = update state.queues place queue := rfl

@[simp]
theorem withQueue_callStack (place : Place) (queue : List TaskId) :
    (withQueue state place queue).callStack = state.callStack := rfl

/-- The calls of `on_task_started` and `on_task_finished`. -/
inductive Counts : Frame → Frame → Prop
  | started (call : PostCall) : Counts (.post call .started) (.post call (.push .created false))
  | finished (call : PostCall) : Counts (.post call .finished) (.post call (.cancel .created))
  | doneFinished (task : TaskId) : Counts (.exec task .doneFinished) (.exec task .doneRelease)

/-- The state after such a call, before the frame advances. -/
def countAfter (config : Config) (state : SchedulerState) : Frame → SchedulerState
  | .post call .started => countStarted config state call.task
  | .post call .finished => countFinished config state call.task
  | .exec task .doneFinished => countFinished config state task
  | _ => state

@[simp]
theorem countAfter_cells (frame : Frame) : (countAfter config state frame).cells = state.cells := by
  unfold countAfter countStarted countFinished
  repeat' split
  all_goals rfl

@[simp]
theorem countAfter_queues (frame : Frame) :
    (countAfter config state frame).queues = state.queues := by
  unfold countAfter countStarted countFinished
  repeat' split
  all_goals rfl

@[simp]
theorem countAfter_callStack (frame : Frame) :
    (countAfter config state frame).callStack = state.callStack := by
  unfold countAfter countStarted countFinished
  repeat' split
  all_goals rfl

inductive Move (config : Config) (state : SchedulerState) : Action → SchedulerState → Prop
  | call (thread : Thread) (call : PostCall) (callable : canCall config state thread = true)
      (valid : validCall config thread call = true)
      (reaches : reachesTask (state.cells call.task) call = true) :
      Move config state (.call thread call)
        (withStack state thread (.post call .begin :: state.callStack thread))
  | complete (executor : Nat) (task : TaskId)
      (callable : canCall config state (.executor executor) = true) :
      Move config state (.complete executor task) (withStack state (.executor executor)
          (.complete task .cas :: state.callStack (.executor executor)))
  | release (thread : Thread) (task : TaskId) (callable : canCall config state thread = true)
      (held : (state.cells task).handle = .held) : Move config state (.release thread task)
        (withStack (withCell state task { state.cells task with handle := .releasing })
          thread (.release task .load :: state.callStack thread))
  /-- from the loop of an idle executor, or inline to make room -/
  | pop {action : Action} (place : Place) (task : TaskId) (queue : List TaskId)
      (waiting : state.queues place = task :: queue)
      (occasion : action = .pop place ∧ state.callStack (.executor place.consumer) = [] ∨
        action = .push (.executor place.consumer) ∧ (∃ index, place = .localRing index) ∧
          config.capacity place ≤ (state.queues place).length ∧
          ∃ frame ∈ (state.callStack (.executor place.consumer)).head?,
            pushTarget config (.executor place.consumer) frame = some (place, true)) :
      Move config state action (withStack (withQueue state place queue) (.executor place.consumer)
          (.exec task .casStarting :: state.callStack (.executor place.consumer)))
  | finish (executor : Nat) (result : TaskResult) (task : TaskId) (frames : List Frame)
      (top : state.callStack (.executor executor) = .exec task .running :: frames) :
      Move config state (.finish executor result) (withStack state (.executor executor)
          (.exec task (finishPc result) :: frames))
  | access (thread : Thread) (spurious : Bool) (frame : Frame) (frames : List Frame)
      (cell : TaskCell) (next : Option Frame) (top : state.callStack thread = frame :: frames)
      (accesses : frame.access config.threadCount (state.cells frame.task) spurious =
        some (cell, next)) : Move config state (.access thread spurious)
        (withStack (withCell state frame.task cell) thread (next.toList ++ frames))
  | count (thread : Thread) (frame next : Frame) (frames : List Frame)
      (top : state.callStack thread = frame :: frames) (counts : Counts frame next) :
      Move config state (.count thread)
        (withStack (countAfter config state frame) thread (next :: frames))
  | push (thread : Thread) (frame : Frame) (frames : List Frame) (place : Place)
      (blocking : Bool) (top : state.callStack thread = frame :: frames)
      (targets : pushTarget config thread frame = some (place, blocking))
      (room : (state.queues place).length < config.capacity place) :
      Move config state (.push thread) (withStack
          (withCell (withQueue state place (state.queues place ++ [frame.task]))
            frame.task (afterPush (state.cells frame.task) frame)) thread frames)
  | wait (thread : Thread) (frame : Frame) (frames : List Frame) (place : Place)
      (top : state.callStack thread = frame :: frames)
      (targets : pushTarget config thread frame = some (place, true))
      (full : config.capacity place ≤ (state.queues place).length)
      (shared : ∀ index, place ≠ .localRing index) : Move config state (.push thread)
        (withStack state thread (markWaited frame :: frames))
  | refuse (thread : Thread) (frame : Frame) (frames : List Frame) (place : Place)
      (top : state.callStack thread = frame :: frames)
      (targets : pushTarget config thread frame = some (place, false))
      (full : config.capacity place ≤ (state.queues place).length) :
      Move config state (.push thread) (withStack state thread (afterRefusal frame :: frames))
  /-- a ring without room that is empty: only with capacity zero -/
  | spin (thread : Thread) : Move config state (.push thread) state

theorem pushTarget_localRing {thread : Thread} {frame : Frame} {index : Nat} {blocking : Bool}
    (targets : pushTarget config thread frame = some (.localRing index, blocking)) :
    thread = .executor index := by
  unfold pushTarget readyRoute at targets
  grind

theorem post_of_pushTarget {thread : Thread} {frame : Frame} {place : Place}
    (targets : pushTarget config thread frame = some (place, false)) :
    ∃ call previous waited, frame = .post call (.push previous waited) := by
  unfold pushTarget at targets
  split at targets
  · exact ⟨_, _, _, rfl⟩
  all_goals (try split at targets) <;> simp at targets

theorem stepPush_move {thread : Thread} (steps : stepPush config state thread = some after) :
    Move config state (.push thread) after := by
  unfold stepPush at steps
  split at steps
  · simp at steps
  rename_i frame frames top
  split at steps
  · simp at steps
  rename_i place blocking targets
  split at steps
  · rename_i room
    cases steps
    exact .push thread frame frames place blocking top targets room
  rename_i noRoom
  have full := Nat.le_of_not_lt noRoom
  cases blocking with
  | false =>
    rw [if_neg (by simp)] at steps
    cases steps
    exact .refuse thread frame frames place top targets full
  | true =>
    rw [if_pos rfl] at steps
    split at steps
    · rename_i index task queue waiting
      cases steps
      have here := pushTarget_localRing targets
      subst here
      rw [← top]
      exact .pop (.localRing index) task queue waiting
        (.inr ⟨rfl, ⟨index, rfl⟩, full, frame, by simp [Place.consumer, top], targets⟩)
    · cases steps
      exact .spin thread
    · rename_i notRing notEmpty
      cases steps
      refine .wait thread frame frames _ top targets full fun index isRing => ?_
      rcases waiting : state.queues _ with _ | ⟨task, queue⟩
      · exact notEmpty index isRing waiting
      · exact notRing index task queue isRing waiting

theorem step_move (steps : step config state action = some after) :
    Move config state action after := by
  cases action <;> simp only [step, stepCall, stepComplete, stepRelease, stepPop, stepFinish,
    stepAccess, stepCount] at steps <;> (try split at steps) <;> try contradiction
  case call.isTrue thread call guard =>
    cases steps
    exact .call thread call guard.1 guard.2.1 guard.2.2
  case complete.isTrue executor task callable =>
    cases steps
    exact .complete executor task callable
  case release.isTrue thread task guard =>
    cases steps
    exact .release thread task guard.1 guard.2
  case h_1 place _ _ task queue waiting empty =>
    obtain ⟨_, ⟨⟩⟩ := ite_none_right_eq_some.mp steps
    rw [← empty]
    exact .pop place task queue waiting (.inl ⟨rfl, empty⟩)
  case h_1 executor result _ task frames top =>
    cases steps
    exact .finish executor result task frames top
  case h_2 thread spurious _ frame frames top =>
    obtain ⟨⟨cell, next⟩, accesses, ⟨⟩⟩ := map_eq_some_iff.mp steps
    exact .access thread spurious frame frames cell next top accesses
  case h_1 thread _ call frames top =>
    cases steps
    exact .count thread _ _ frames top (.started call)
  case h_2 thread _ call frames top =>
    cases steps
    exact .count thread _ _ frames top (.finished call)
  case h_3 thread _ task frames top =>
    cases steps
    exact .count thread _ _ frames top (.doneFinished task)
  case push thread => exact stepPush_move steps

def Action.thread : Action → Thread
  | .call thread _ | .release thread _ | .access thread _ | .count thread | .push thread =>
    thread
  | .complete executor _ | .finish executor _ => .executor executor
  | .pop place => .executor place.consumer

theorem Move.callStack_of_ne (move : Move config state action after)
    {thread : Thread} (different : thread ≠ action.thread) :
    after.callStack thread = state.callStack thread := by
  cases move with
  | pop place task queue waiting occasion =>
    have sameThread : action.thread = .executor place.consumer := by
      rcases occasion with ⟨rfl, _⟩ | ⟨rfl, _⟩ <;> rfl
    rw [sameThread] at different
    simp [update_of_ne different]
  | count acting frame next frames top counts =>
    rw [withStack_callStack, countAfter_callStack]
    exact update_of_ne different ..
  | spin => rfl
  | _ => exact update_of_ne different ..

theorem callStack_of_reachable {allowed : SchedulerState → Action → Prop} {threads : List Thread}
    (actors : ∀ state action, allowed state action → action.thread ∈ threads)
    (reached : (system config).ReachableUnder allowed state) {thread : Thread}
    (absent : thread ∉ threads) : state.callStack thread = [] := by
  induction reached with
  | start starts =>
    obtain ⟨handled, rfl⟩ := starts
    rfl
  | @next before after action _ permitted steps ih =>
    have different : thread ≠ action.thread := fun same =>
      absent (same ▸ actors before action permitted)
    rw [(step_move steps).callStack_of_ne different, ih]

theorem callStack_of_replay {allowed : SchedulerState → Action → Prop}
    [∀ state action, Decidable (allowed state action)] {actions : List Action}
    (replays : (system config).replay allowed state actions = some after)
    {thread : Thread} (absent : ∀ action ∈ actions, thread ≠ action.thread) :
    after.callStack thread = state.callStack thread := by
  induction actions generalizing state with
  | nil =>
    cases replays
    rfl
  | cons action actions ih =>
    rw [TransitionSystem.replay] at replays
    split at replays
    · obtain ⟨middle, steps, rest⟩ := bind_eq_some_iff.mp replays
      rw [ih rest fun other inside => absent other (List.mem_cons_of_mem _ inside)]
      exact (step_move steps).callStack_of_ne (absent action List.mem_cons_self)
    · cases replays

theorem exists_quiet_replay (allowed : SchedulerState → Action → Prop)
    [∀ state action, Decidable (allowed state action)] (config : Config)
    (handled : TaskId → Bool) (actions : List Action)
    (observed : SchedulerState → Prop) [DecidablePred observed]
    (ends : ((system config).replay allowed (start handled) actions).any (fun final =>
      observed final ∧ ∀ action ∈ actions, final.callStack action.thread = []) = true) :
    ∃ final, (system config).replay allowed (start handled) actions = some final ∧
      observed final ∧ ∀ thread, final.callStack thread = [] := by
  cases replays : (system config).replay allowed (start handled) actions with
  | none => simp [replays] at ends
  | some final =>
    rw [replays, any_some, decide_eq_true_eq] at ends
    refine ⟨final, rfl, ends.1, fun thread => ?_⟩
    by_cases takesPart : ∃ action ∈ actions, thread = action.thread
    · obtain ⟨action, inside, rfl⟩ := takesPart
      exact ends.2 action inside
    · rw [callStack_of_replay replays fun action inside same =>
        takesPart ⟨action, inside, same⟩]
      rfl

end Scheduler
end AsyncFlow
