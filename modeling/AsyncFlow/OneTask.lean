import AsyncFlow.SingleOccupancy

/-!
# The scheduler seen from one task

Most properties concern a single task: its cell, whether a queue holds it, and the
frames that work on it.  `TaskView` is that projection of a scheduler state and
`TaskMove` what a step can do to it.  By `view_move` an invariant of `TaskMove`
holds of every task in every run.
-/

namespace AsyncFlow

open Function List Option ReplacesTop

open Scheduler

structure TaskView where
  cell : TaskCell
  inQueue : Prop
  live : Set Frame

/-- The states that the holders of the task know agree with its cell. -/
structure TaskView.Linked (view : TaskView) : Prop where
  queued : view.inQueue → view.cell.state = .queued
  owned : ∀ frame ∈ view.live, ∀ known, frame.ownedState = some known → view.cell.state = known

/-- Steps of a frame that touch neither the cell, a queue nor the task count. -/
inductive Proceeds : Frame → Frame → Prop
  | finish (task : TaskId) (result : TaskResult) :
      Proceeds (.exec task .running) (.exec task (finishPc result))
  | wait (frame : Frame) : Proceeds frame (markWaited frame)
  | refuse (call : PostCall) (previous : IdleState) (waited : Bool) :
      Proceeds (.post call (.push previous waited))
        (afterRefusal (.post call (.push previous waited)))

variable {frame : Frame}

theorem Proceeds.ownedState {next : Frame} (proceeds : Proceeds frame next) :
    next.ownedState = frame.ownedState := by
  cases proceeds with
  | finish task result => cases result <;> rfl
  | wait => exact (ownedState_markWaited frame).1
  | refuse => exact ownedState_afterRefusal.1

def Frame.pushes : Frame → Bool
  | .post _ (.push _ _) | .exec _ (.pendingPush _ _) | .exec _ .againPush
  | .complete _ .push => true
  | _ => false

theorem Frame.ownedState_of_pushes (pushes : frame.pushes = true) :
    frame.ownedState = some .queued := by
  unfold Frame.pushes at pushes
  split at pushes <;> first | rfl | cases pushes

def Frame.releases : Frame → Option TaskId
  | .release task _ => some task
  | _ => none

theorem Frame.access_releases {next : Option Frame} {invalidThread : Nat} {cell cell' : TaskCell}
    {spurious : Bool} (accesses : frame.access invalidThread cell spurious = some (cell', next)) :
    (cell'.handle = .held → cell.handle = .held) ∧ ∀ following ∈ next, following.releases = none ∨
        following.releases = frame.releases := by
  cases frame <;> rename_i pc <;> cases pc <;>
    simp only [Frame.access, PostCall.access, PostCall.requestSchedule, PostCall.requestWake,
      PostCall.resolveCleared, execAccess, completeAccess, releaseAccess, TaskCell.promise,
      TaskCell.handOver, TaskCell.releaseLifetimeRef] at accesses <;>
    grind [Frame.releases]

/-- What happens to a task from outside, by an access to its fields or by
`on_task_started` and `on_task_finished`. -/
inductive TaskEvent
  | call (call : PostCall)
  | complete
  | release
  | access (frame : Frame)
  | count (frame : Frame)

/-- The frame that steps and the `others` on the same task: an owner is alone,
and so is a frame that drops the handle. -/
structure Apart (frame : Frame) (inQueue : Prop) (others : Set Frame) : Prop where
  owner : frame.ownedState ≠ none → ¬ inQueue ∧ ∀ other ∈ others, other.ownedState = none
  releaser : frame.releases ≠ none → ∀ other ∈ others, other.releases = none

/-- What one step can do to a task.  `others` are the frames on the task that
the step does not move, and `permits` restricts the events. -/
inductive TaskMove (config : Config) (permits : TaskView → TaskEvent → Prop)
    (task : TaskId) : TaskView → TaskView → Prop
  | idle (view : TaskView) : TaskMove config permits task view view
  | call (view : TaskView) (call : PostCall) (same : call.task = task)
      (valid : call.target < config.threadCount) (reaches : reachesTask view.cell call = true)
      (permitted : permits view (.call call)) : TaskMove config permits task view
        { view with live := insert (.post call .begin) view.live }
  | complete (view : TaskView) (permitted : permits view .complete) :
      TaskMove config permits task view { view with live := insert (.complete task .cas) view.live }
  | release (view : TaskView) (held : view.cell.handle = .held)
      (permitted : permits view .release) : TaskMove config permits task view { view with
          cell := { view.cell with handle := .releasing }
          live := insert (.release task .load) view.live }
  | pop (view : TaskView) (waiting : view.inQueue)
      (alone : ∀ frame ∈ view.live, frame.ownedState = none) : TaskMove config permits task view
        { view with
          inQueue := False
          live := insert (.exec task .casStarting) view.live }
  | access (cell : TaskCell) (inQueue : Prop) (frame : Frame) (others : Set Frame)
      (spurious : Bool) (cell' : TaskCell) (next : Option Frame)
      (same : frame.task = task) (apart : Apart frame inQueue others)
      (permitted : permits ⟨cell, inQueue, insert frame others⟩ (.access frame))
      (accesses : frame.access config.threadCount cell spurious = some (cell', next)) :
      TaskMove config permits task ⟨cell, inQueue, insert frame others⟩
        ⟨cell', inQueue, { other | other ∈ next } ∪ others⟩
  | proceed (cell : TaskCell) (inQueue : Prop) (frame next : Frame) (others : Set Frame)
      (same : frame.task = task) (apart : Apart frame inQueue others)
      (proceeds : Proceeds frame next) :
      TaskMove config permits task ⟨cell, inQueue, insert frame others⟩
        ⟨cell, inQueue, insert next others⟩
  | count (cell : TaskCell) (inQueue : Prop) (frame next : Frame) (others : Set Frame)
      (same : frame.task = task) (apart : Apart frame inQueue others)
      (permitted : permits ⟨cell, inQueue, insert frame others⟩ (.count frame))
      (counts : Counts frame next) :
      TaskMove config permits task ⟨cell, inQueue, insert frame others⟩
        ⟨cell, inQueue, insert next others⟩
  | push (cell : TaskCell) (inQueue : Prop) (frame : Frame) (others : Set Frame)
      (same : frame.task = task) (apart : Apart frame inQueue others)
      (pushes : frame.pushes = true) :
      TaskMove config permits task ⟨cell, inQueue, insert frame others⟩
        ⟨afterPush cell frame, True, others⟩

namespace Scheduler

def view (state : SchedulerState) (task : TaskId) : TaskView where
  cell := state.cells task
  inQueue := ∃ place, task ∈ state.queues place
  live := { frame | frame.task = task ∧ ∃ thread, frame ∈ state.callStack thread }

def accessing (state : SchedulerState) : Action → Option Frame
  | .access thread _ => (state.callStack thread).head?
  | _ => none

def accessAllowed (permits : TaskCell → Frame → Prop) (state : SchedulerState)
    (action : Action) : Prop :=
  ∀ frame ∈ accessing state action, permits (state.cells frame.task) frame

instance (permits : TaskCell → Frame → Prop) [∀ cell frame, Decidable (permits cell frame)]
    (state : SchedulerState) (action : Action) : Decidable (accessAllowed permits state action) :=
  inferInstanceAs (Decidable (∀ frame ∈ accessing state action, _))

def event (state : SchedulerState) : Action → Option (TaskId × TaskEvent)
  | .call _ call => some (call.task, .call call)
  | .complete _ task => some (task, .complete)
  | .release _ task => some (task, .release)
  | .access thread _ =>
    (state.callStack thread).head?.map fun frame => (frame.task, .access frame)
  | .count thread =>
    (state.callStack thread).head?.map fun frame => (frame.task, .count frame)
  | _ => none

def eventAllowed (permits : TaskView → TaskEvent → Prop) (state : SchedulerState)
    (action : Action) : Prop :=
  ∀ happening ∈ event state action, permits (view state happening.1) happening.2

def accessPermits (permits : TaskCell → Frame → Prop) (view : TaskView) : TaskEvent → Prop
  | .access frame => permits view.cell frame
  | _ => True

theorem eventAllowed_of_accessAllowed {permits : TaskCell → Frame → Prop}
    {state : SchedulerState} {action : Action} (allowed : accessAllowed permits state action) :
    eventAllowed (accessPermits permits) state action := by
  intro happening happens
  cases action with
  | access thread spurious =>
    obtain ⟨frame, isTop, rfl⟩ := map_eq_some_iff.mp happens
    exact allowed frame isTop
  | call thread call | complete executor task | release thread task =>
    cases happens
    trivial
  | count thread =>
    obtain ⟨frame, isTop, rfl⟩ := map_eq_some_iff.mp happens
    trivial
  | pop | finish | push => cases happens

variable {config : Config} {state after : SchedulerState} {action : Action}
  {permits : TaskView → TaskEvent → Prop} {task : TaskId}

theorem Occupancy.linked (occupancy : Occupancy state) (task : TaskId) :
    (view state task).Linked where
  queued := fun ⟨place, inside⟩ => occupancy.queued place task inside
  owned := by
    rintro frame ⟨rfl, thread, live⟩ known knows
    exact occupancy.owned thread frame known live knows

variable {thread : Thread} {frame : Frame}

theorem pushes_of_pushTarget {target : Place × Bool}
    (targets : pushTarget config thread frame = some target) : frame.pushes = true := by
  unfold pushTarget at targets
  split at targets <;> first | rfl | simp at targets

/-- The frames of the task among those that a replacement leaves alone. -/
def untouched (state : SchedulerState) (thread : Thread) (rest : List Frame)
    (task : TaskId) : Set Frame :=
  { frame | frame.task = task ∧ frame ∈ ReplacesTop.Untouched state.callStack thread rest }

variable {old new rest : List Frame}

section

variable (replaces : ReplacesTop state.callStack after.callStack thread old new rest)

include replaces

theorem view_live_before : (view state task).live =
      { frame | frame.task = task ∧ frame ∈ old } ∪ untouched state thread rest task := by
  ext frame
  simp only [view, untouched, Set.mem_ofPred_eq, Set.mem_union, replaces.mem_before]
  tauto

theorem view_live_after : (view after task).live =
      { frame | frame.task = task ∧ frame ∈ new } ∪ untouched state thread rest task := by
  ext frame
  simp only [view, untouched, Set.mem_ofPred_eq, Set.mem_union, replaces.mem_after]
  tauto

theorem view_live_unrelated (unrelated : ∀ frame ∈ old ++ new, frame.task ≠ task) :
    (view after task).live = (view state task).live := by
  rw [view_live_before replaces, view_live_after replaces]
  congr 1
  ext frame
  simp only [Set.mem_ofPred_eq]
  constructor
  · rintro ⟨same, inside⟩
    exact absurd same (unrelated frame (mem_append_right _ inside))
  · rintro ⟨same, inside⟩
    exact absurd same (unrelated frame (mem_append_left _ inside))

end

theorem view_live_enter (callStack : after.callStack =
      update state.callStack thread (frame :: state.callStack thread)) :
    (view after frame.task).live = insert frame (view state frame.task).live := by
  have replaces := push state.callStack thread frame
  rw [← callStack] at replaces
  rw [view_live_before replaces, view_live_after replaces]
  ext other
  simp only [Set.mem_union, Set.mem_ofPred_eq, Set.mem_insert_iff, mem_singleton,
    not_mem_nil, and_false, false_or]
  constructor
  · rintro (⟨_, rfl⟩ | inside)
    · exact .inl rfl
    · exact .inr inside
  · rintro (rfl | inside)
    · exact .inl ⟨rfl, rfl⟩
    · exact .inr inside

variable {frames : List Frame}

def releasing (state : SchedulerState) (thread : Thread) : List TaskId :=
  (state.callStack thread).filterMap Frame.releases

structure SoleRelease (state : SchedulerState) : Prop where
  exclusive : Exclusive (releasing state)
  notHeld : ∀ thread task, task ∈ releasing state thread → (state.cells task).handle ≠ .held

theorem SoleRelease.replace (sole : SoleRelease state)
    (replaces : ReplacesTop state.callStack after.callStack thread old new rest)
    (fewer : List.Sublist (new.filterMap Frame.releases) (old.filterMap Frame.releases))
    (handles : ∀ task, (after.cells task).handle = .held →
      (state.cells task).handle = .held) : SoleRelease after := by
  have others : ∀ other, other ≠ thread → releasing after other = releasing state other :=
    fun other different => by simp only [releasing, replaces.others other different]
  have sublist : List.Sublist (releasing after thread) (releasing state thread) := by
    simp only [releasing, replaces.before_eq, replaces.after_eq, filterMap_append]
    exact fewer.append_right _
  refine ⟨sole.exclusive.replace thread others (nil_append _).symm sublist
    nodup_nil (by simp), fun other task inside held => ?_⟩
  refine sole.notHeld other task ?_ (handles task held)
  by_cases here : other = thread
  · subst here
    exact sublist.subset inside
  · exact others other here ▸ inside

theorem SoleRelease.release (sole : SoleRelease state) {released : TaskId}
    (held : (state.cells released).handle = .held)
    (cells : after.cells = update state.cells released
      { state.cells released with handle := .releasing })
    (callStack : after.callStack = update state.callStack thread
      (.release released .load :: state.callStack thread)) : SoleRelease after := by
  have replaces := push state.callStack thread (.release released .load)
  rw [← callStack] at replaces
  have replaced : releasing after thread = [released] ++ releasing state thread := by
    simp only [releasing, replaces.after_eq, filterMap_append]
    rfl
  have others : ∀ other, other ≠ thread → releasing after other = releasing state other :=
    fun other different => by simp only [releasing, replaces.others other different]
  have fresh : ∀ other, released ∉ releasing state other := fun other inside =>
    sole.notHeld other released inside held
  refine ⟨sole.exclusive.replace thread others replaced (List.Sublist.refl _)
    (nodup_singleton _) ?_, fun other task inside => ?_⟩
  · intro item isReleased
    rw [mem_singleton.mp isReleased]
    exact ⟨fresh thread, fun other _ => fresh other⟩
  · by_cases isReleased : task = released
    · subst isReleased
      simp [cells]
    · rw [cells, update_of_ne isReleased]
      refine sole.notHeld other task ?_
      by_cases here : other = thread
      · subst here
        rw [replaced] at inside
        simpa [isReleased] using inside
      · exact others other here ▸ inside

theorem SoleRelease.move (sole : SoleRelease state)
    (move : Move config state action after) : SoleRelease after := by
  cases move with
  | call thread call _ _ _ =>
    exact sole.replace (push state.callStack thread _) (.refl _) fun _ => id
  | complete executor task _ | pop place task queue waiting _ =>
    exact sole.replace (push state.callStack _ _) (.refl _) fun _ => id
  | release thread task _ held => exact sole.release held rfl rfl
  | finish executor result task frames top =>
    exact sole.replace (ReplacesTop.top top [_]) (.refl _) fun _ => id
  | access thread spurious frame frames cell next top accesses =>
    obtain ⟨handle, releases⟩ := Frame.access_releases accesses
    refine sole.replace (ReplacesTop.top top next.toList) ?_ fun task => ?_
    · cases next with
      | none => exact nil_sublist _
      | some following => rcases releases following rfl with same | same <;> simp [same, filterMap_cons]
    · by_cases here : task = frame.task
      · subst here
        simpa using handle
      · simp [update_of_ne here]
  | count thread frame next frames top counts =>
    have replaces : ReplacesTop state.callStack
        (withStack (countAfter config state frame) thread (next :: frames)).callStack
        thread [frame] [next] frames := by
      rw [withStack_callStack, countAfter_callStack]
      exact ReplacesTop.top top [next]
    exact sole.replace replaces (by cases counts <;> exact .refl _) fun _ => by simp
  | push thread frame frames place blocking top targets _ =>
    refine sole.replace (ReplacesTop.top top []) (nil_sublist _) fun task => ?_
    by_cases here : task = frame.task
    · subst here
      unfold afterPush TaskCell.promise
      simp only [withStack_cells, withCell_cells, update_self]
      split <;> exact id
    · simp [update_of_ne here]
  | wait thread frame frames place top _ _ _ =>
    refine sole.replace (ReplacesTop.top top [markWaited frame]) ?_ fun _ => id
    unfold markWaited
    split <;> exact .refl _
  | refuse thread frame frames place top _ _ =>
    refine sole.replace (ReplacesTop.top top [afterRefusal frame]) ?_ fun _ => id
    unfold afterRefusal
    split <;> exact .refl _
  | spin thread => exact sole

/-- What holds of every reachable state: tasks are owned once and handles are
dropped once. -/
structure Coherent (state : SchedulerState) : Prop where
  occupancy : Occupancy state
  soleRelease : SoleRelease state

theorem coherent_of_reachable (reached : (system config).Reachable state) : Coherent state := by
  refine ⟨occupancy_of_reachable reached, ?_⟩
  refine reached.invariant ?_ fun state action after _ sole _ steps =>
    sole.move (step_move steps)
  rintro state ⟨handled, rfl⟩
  exact ⟨⟨by simp [releasing, start], by simp [releasing, start]⟩, by simp [releasing, start]⟩

theorem Occupancy.untouched_free (occupancy : Occupancy state)
    (top : state.callStack thread = frame :: frames) (owns : frame.ownedState ≠ none) :
    ¬ (view state frame.task).inQueue ∧
      ∀ other ∈ untouched state thread frames frame.task, other.ownedState = none := by
  obtain ⟨notBelow, notElsewhere⟩ := occupancy.alone top (.inl owns)
  refine ⟨fun ⟨place, inside⟩ => notElsewhere (.inl place) Sum.inl_ne_inr inside, ?_⟩
  rintro other ⟨sameTask, inside⟩
  by_contra otherOwns
  obtain ⟨known, knows⟩ := ne_none_iff_exists'.mp otherOwns
  rcases inside with below | ⟨elsewhere, different, live⟩
  · exact notBelow (mem_filterMap.mpr
      ⟨other, below, by rw [Frame.owned, knows, map_some, sameTask]⟩)
  · exact notElsewhere (.inr elsewhere) (fun same => different (Sum.inr_injective same))
      (sameTask ▸ mem_held_of_owned live knows)

theorem Coherent.apart (coherent : Coherent state)
    (top : state.callStack thread = frame :: frames) : Apart frame (view state frame.task).inQueue
      (untouched state thread frames frame.task) := by
  refine ⟨coherent.occupancy.untouched_free top, fun releases other inside => ?_⟩
  obtain ⟨sameTask, inside⟩ := inside
  by_contra otherReleases
  have mine : frame.releases = some frame.task := by
    cases frame <;> first | rfl | exact absurd rfl releases
  have theirs : other.releases = some frame.task := by
    rw [← sameTask]
    cases other <;> first | rfl | exact absurd rfl otherReleases
  have holds : releasing state thread = frame.task :: frames.filterMap Frame.releases := by
    simp only [releasing, top, filterMap_cons, mine]
  rcases inside with below | ⟨elsewhere, different, live⟩
  · have nodup := coherent.soleRelease.exclusive.nodup thread
    rw [holds] at nodup
    exact (nodup_cons.mp nodup).1 (mem_filterMap.mpr ⟨other, below, theirs⟩)
  · refine different (coherent.soleRelease.exclusive.eq_of_mem
      (mem_filterMap.mpr ⟨other, live, theirs⟩) ?_)
    rw [holds]
    exact mem_cons_self

theorem view_ext {before after : TaskView} (cell : after.cell = before.cell)
    (inQueue : after.inQueue ↔ before.inQueue) (live : after.live = before.live) :
    after = before := by
  obtain ⟨cellBefore, queueBefore, liveBefore⟩ := before
  obtain ⟨cellAfter, queueAfter, liveAfter⟩ := after
  obtain rfl : cellAfter = cellBefore := cell
  obtain rfl : queueAfter = queueBefore := propext inQueue
  obtain rfl : liveAfter = liveBefore := live
  rfl

theorem view_inQueue (queues : after.queues = state.queues) (task : TaskId) :
    (view after task).inQueue ↔ (view state task).inQueue := by
  simp [view, queues]

theorem view_unrelated (cell : after.cells task = state.cells task)
    (inQueue : ∀ place, task ∈ after.queues place ↔ task ∈ state.queues place)
    (replaces : ReplacesTop state.callStack after.callStack thread old new rest)
    (unrelated : ∀ frame ∈ old ++ new, frame.task ≠ task) :
    TaskMove config permits task (view state task) (view after task) := by
  rw [view_ext cell (exists_congr inQueue) (view_live_unrelated replaces unrelated)]
  exact .idle _

theorem view_top (top : state.callStack thread = frame :: frames) :
    view state frame.task = ⟨state.cells frame.task, (view state frame.task).inQueue,
      insert frame (untouched state thread frames frame.task)⟩ := by
  have replaces := ReplacesTop.top top []
  refine view_ext rfl Iff.rfl ((@view_live_before state (withStack state thread frames) _ _ _ _ _
    replaces).trans ?_)
  ext other
  simp only [Set.mem_union, Set.mem_ofPred_eq, Set.mem_insert_iff, mem_singleton]
  refine or_congr_left ⟨fun inside => inside.2, ?_⟩
  rintro rfl
  exact ⟨rfl, rfl⟩

theorem view_next (next : Option Frame) {cell : TaskCell} {queued : Prop}
    (top : state.callStack thread = frame :: frames)
    (sameTask : ∀ following ∈ next, following.task = frame.task)
    (cells : after.cells = update state.cells frame.task cell)
    (inQueue : (view after frame.task).inQueue ↔ queued)
    (elsewhere : ∀ task ≠ frame.task, (view after task).inQueue ↔ (view state task).inQueue)
    (callStack : after.callStack = update state.callStack thread (next.toList ++ frames)) :
    view after frame.task = ⟨cell, queued,
        { other | other ∈ next } ∪ untouched state thread frames frame.task⟩ ∧
      ∀ task ≠ frame.task, view after task = view state task := by
  have replaces := ReplacesTop.top top next.toList
  rw [← callStack] at replaces
  refine ⟨view_ext (by simp [view, cells]) inQueue ((view_live_after replaces).trans ?_),
    fun task different => view_ext (by simp [view, cells, different]) (elsewhere task different)
      (view_live_unrelated replaces ?_)⟩
  · ext other
    simp only [Set.mem_union, Set.mem_ofPred_eq, mem_toList]
    exact or_congr_left ⟨fun inside => inside.2, fun inside => ⟨sameTask other inside, inside⟩⟩
  · grind

theorem view_replace {next : Frame} (top : state.callStack thread = frame :: frames)
    (sameTask : next.task = frame.task) (cells : after.cells = state.cells)
    (queues : after.queues = state.queues) (callStack : after.callStack =
      update state.callStack thread (next :: frames)) :
    view state frame.task = ⟨state.cells frame.task, (view state frame.task).inQueue,
        insert frame (untouched state thread frames frame.task)⟩ ∧
      view after frame.task = ⟨state.cells frame.task, (view state frame.task).inQueue,
        insert next (untouched state thread frames frame.task)⟩ ∧
      ∀ task ≠ frame.task, view after task = view state task := by
  obtain ⟨after, unrelated⟩ := view_next (some next) top (by simpa using sameTask)
    (by rw [cells, update_eq_self]) (view_inQueue queues _)
    (fun task _ => view_inQueue queues task) callStack
  refine ⟨view_top top, after.trans ?_, unrelated⟩
  congr 1
  ext other
  simp [eq_comm]

section

variable (coherent : Coherent state) (top : state.callStack thread = frame :: frames)

include coherent top

theorem Coherent.view_proceed {next : Frame} (proceeds : Proceeds frame next ∨
      Counts frame next ∧ permits (view state frame.task) (.count frame))
    (sameTask : next.task = frame.task) (cells : after.cells = state.cells)
    (queues : after.queues = state.queues) (callStack : after.callStack =
      update state.callStack thread (next :: frames)) :
    TaskMove config permits task (view state task) (view after task) := by
  obtain ⟨before, after, unrelated⟩ := view_replace top sameTask cells queues callStack
  by_cases here : frame.task = task
  · subst here
    rcases proceeds with proceeds | ⟨counts, permitted⟩
    · rw [after, before]
      exact .proceed _ _ _ _ _ rfl (coherent.apart top) proceeds
    · rw [after, before]
      rw [before] at permitted
      exact .count _ _ _ _ _ rfl (coherent.apart top) permitted counts
  · rw [unrelated task (Ne.symm here)]
    exact .idle _

theorem Coherent.view_access {spurious : Bool} {cell : TaskCell} {next : Option Frame}
    (accesses : frame.access config.threadCount (state.cells frame.task) spurious =
      some (cell, next)) (permitted : permits (view state frame.task) (.access frame))
    (cells : after.cells = update state.cells frame.task cell)
    (queues : after.queues = state.queues) (callStack : after.callStack =
      update state.callStack thread (next.toList ++ frames)) :
    TaskMove config permits task (view state task) (view after task) := by
  obtain ⟨after, unrelated⟩ := view_next next top (Frame.access_keeps accesses).1 cells
    (view_inQueue queues _) (fun task _ => view_inQueue queues task) callStack
  by_cases here : frame.task = task
  · subst here
    rw [after, view_top top]
    rw [view_top top] at permitted
    exact .access _ _ _ _ spurious _ _ rfl (coherent.apart top) permitted accesses
  · rw [unrelated task (Ne.symm here)]
    exact .idle _

theorem Coherent.view_push {place : Place} {blocking : Bool}
    (targets : pushTarget config thread frame = some (place, blocking))
    (cells : after.cells = update state.cells frame.task
      (afterPush (state.cells frame.task) frame)) (queues : after.queues =
      update state.queues place (state.queues place ++ [frame.task]))
    (callStack : after.callStack = update state.callStack thread frames) :
    TaskMove config permits task (view state task) (view after task) := by
  have elsewhere : ∀ task ≠ frame.task, (view after task).inQueue ↔ (view state task).inQueue := by
    intro task different
    refine exists_congr fun other => ?_
    rw [queues]
    by_cases samePlace : other = place
    · subst samePlace
      simp [different]
    · rw [update_of_ne samePlace]
  obtain ⟨after, unrelated⟩ := view_next none top (by simp) cells
    (iff_true_intro ⟨place, by simp [queues]⟩) elsewhere callStack
  have returned : { other | other ∈ (none : Option Frame) } ∪
      untouched state thread frames frame.task = untouched state thread frames frame.task := by
    simp
  by_cases here : frame.task = task
  · subst here
    rw [after, view_top top, returned]
    exact .push _ _ _ _ rfl (coherent.apart top) (pushes_of_pushTarget targets)
  · rw [unrelated task (Ne.symm here)]
    exact .idle _

end

theorem Coherent.view_pop (coherent : Coherent state) {place : Place} {popped : TaskId}
    {queue : List TaskId} (waiting : state.queues place = popped :: queue)
    (cells : after.cells = state.cells)
    (queues : after.queues = update state.queues place queue)
    (callStack : after.callStack = update state.callStack thread
      (.exec popped .casStarting :: state.callStack thread)) :
    TaskMove config permits task (view state task) (view after task) := by
  have inPlace : popped ∈ held state (.inl place) := by simp [held, waiting]
  by_cases here : popped = task
  · subst here
    have gone : ¬ (view after popped).inQueue := by
      rintro ⟨other, inside⟩
      rw [queues] at inside
      by_cases samePlace : other = place
      · subst samePlace
        have nodup := coherent.occupancy.exclusive.nodup (.inl other)
        rw [update_self] at inside
        simp only [held, waiting] at nodup
        exact (nodup_cons.mp nodup).1 inside
      · rw [update_of_ne samePlace] at inside
        have inOther : popped ∈ held state (.inl other) := inside
        exact samePlace (Sum.inl_injective (coherent.occupancy.exclusive.eq_of_mem inOther inPlace))
    have after : view after popped = { view state popped with
        inQueue := False
        live := insert (.exec popped .casStarting) (view state popped).live } :=
      view_ext (by simp [view, cells]) (iff_false_intro gone) (view_live_enter callStack)
    rw [after]
    refine .pop _ ⟨place, by simp [waiting]⟩ ?_
    rintro frame ⟨sameTask, other, live⟩
    by_contra owns
    obtain ⟨known, knows⟩ := ne_none_iff_exists'.mp owns
    exact Sum.inl_ne_inr (coherent.occupancy.exclusive.eq_of_mem inPlace
      (sameTask ▸ mem_held_of_owned live knows))
  · refine view_unrelated (by rw [cells]) (fun other => ?_)
      (callStack ▸ push state.callStack thread _) (by simpa [Frame.task] using here)
    rw [queues]
    by_cases samePlace : other = place
    · subst samePlace
      simp [waiting, Ne.symm here]
    · rw [update_of_ne samePlace]

theorem view_enter (frame : Frame) (cell : task ≠ frame.task → after.cells task = state.cells task)
    (queues : after.queues = state.queues) (callStack : after.callStack =
      update state.callStack thread (frame :: state.callStack thread))
    (enters : TaskMove config permits frame.task (view state frame.task)
      ⟨after.cells frame.task, (view state frame.task).inQueue,
        insert frame (view state frame.task).live⟩) :
    TaskMove config permits task (view state task) (view after task) := by
  by_cases here : frame.task = task
  · subst here
    have after : view after frame.task = ⟨after.cells frame.task,
        (view state frame.task).inQueue, insert frame (view state frame.task).live⟩ :=
      view_ext rfl (by simp [view, queues]) (view_live_enter callStack)
    rw [after]
    exact enters
  · exact view_unrelated (cell (Ne.symm here)) (fun place => by rw [queues])
      (callStack ▸ push state.callStack thread frame) (by simpa using here)

/-- Every step of the scheduler projects to a move of each task. -/
theorem Coherent.view_move (coherent : Coherent state) (move : Move config state action after)
    (permitted : eventAllowed permits state action) :
    TaskMove config permits task (view state task) (view after task) := by
  cases move with
  | call thread call callable valid reaches =>
    refine view_enter (.post call .begin) (fun _ => rfl) rfl rfl
      (.call _ call rfl ?_ reaches (permitted _ rfl))
    simp only [validCall, Bool.and_eq_true, decide_eq_true_eq] at valid
    exact valid.1
  | complete executor completed callable =>
    exact view_enter (.complete completed .cas) (fun _ => rfl) rfl rfl
      (.complete _ (permitted _ rfl))
  | release thread released callable held =>
    refine view_enter (.release released .load) (fun different => ?_) rfl rfl ?_
    · exact update_of_ne different ..
    · simp only [withStack_cells, withCell_cells, Frame.task, update_self]
      exact .release _ held (permitted _ rfl)
  | pop place popped queue waiting _ => exact coherent.view_pop waiting rfl rfl rfl
  | finish executor result finished frames top =>
    exact coherent.view_proceed top (.inl (.finish finished result)) rfl rfl rfl rfl
  | access thread spurious frame frames cell next top accesses =>
    have happens : (frame.task, TaskEvent.access frame) ∈
        event state (.access thread spurious) := by simp [event, top]
    exact coherent.view_access top accesses (permitted _ happens) rfl rfl rfl
  | count thread frame next frames top counts =>
    have happens : (frame.task, TaskEvent.count frame) ∈
        event state (.count thread) := by simp [event, top]
    exact coherent.view_proceed top (.inr ⟨counts, permitted _ happens⟩) (ownedState_of_counts counts).2
      (by simp) (by simp) (by simp)
  | push thread frame frames place blocking top targets _ =>
    exact coherent.view_push top targets rfl rfl rfl
  | wait thread frame frames place top _ _ _ =>
    exact coherent.view_proceed top (.inl (.wait frame)) (ownedState_markWaited frame).2 rfl rfl rfl
  | refuse thread frame frames place top targets _ =>
    obtain ⟨call, previous, waited, rfl⟩ := post_of_pushTarget targets
    exact coherent.view_proceed top (.inl (.refuse call previous waited))
      ownedState_afterRefusal.2 rfl rfl rfl
  | spin thread => exact .idle _

/-! ### Runs with few threads -/

def listedView (threads : List Thread) (state : SchedulerState) (task : TaskId) : TaskView where
  cell := state.cells task
  inQueue := ∃ place, task ∈ state.queues place
  live := { frame | frame.task = task ∧ frame ∈ threads.flatMap state.callStack }

instance (threads : List Thread) (condition : Frame → Prop) [DecidablePred condition] :
    Decidable (∀ frame ∈ (listedView threads state task).live, condition frame) :=
  decidable_of_iff (∀ frame ∈ threads.flatMap state.callStack, frame.task = task → condition frame)
    ⟨fun all frame inside => all frame inside.2 inside.1,
      fun all frame inside same => all frame ⟨same, inside⟩⟩

/-- One of the given threads steps, and the event is permitted. -/
def eventChecked (permits : TaskView → TaskEvent → Prop) (threads : List Thread)
    (state : SchedulerState) (action : Action) : Prop :=
  action.thread ∈ threads ∧ ∀ happening ∈ event state action,
      permits (listedView threads state happening.1) happening.2

instance (permits : TaskView → TaskEvent → Prop) (threads : List Thread)
    [∀ state task event, Decidable (permits (listedView threads state task) event)]
    (state : SchedulerState) (action : Action) :
    Decidable (eventChecked permits threads state action) :=
  inferInstanceAs (Decidable (_ ∧ ∀ happening ∈ event state action, _))

theorem reachable_of_eventChecked {threads : List Thread}
    (reached : (system config).ReachableUnder (eventChecked permits threads) state) :
    (system config).ReachableUnder (eventAllowed permits) state := by
  refine reached.replaceAllowed fun before action reachedBefore permitted happening happens => ?_
  have sameView : view before happening.1 = listedView threads before happening.1 := by
    refine view_ext rfl Iff.rfl ?_
    ext frame
    simp only [view, listedView, Set.mem_ofPred_eq, mem_flatMap]
    refine and_congr_right fun _ => ⟨fun ⟨thread, live⟩ => ⟨thread, ?_, live⟩,
      fun ⟨thread, _, live⟩ => ⟨thread, live⟩⟩
    by_contra absent
    rw [callStack_of_reachable (fun _ _ checked => checked.1) reachedBefore absent] at live
    cases live
  rw [sameView]
  exact permitted.2 happening happens

end Scheduler

end AsyncFlow
