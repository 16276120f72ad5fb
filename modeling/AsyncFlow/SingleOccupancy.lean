import AsyncFlow.SchedulerMoves

/-!
# Single occupancy

The thread that won the last compare-exchange on a task's state owns the task
until it hands it to a queue or gives it back, and knows the state the task is in.
Only `Created` and `Pending` tasks have no owner and can be acquired, so a task is
never owned twice.
-/

namespace AsyncFlow

open Function List Option Frame

open Scheduler

/-- The state of the task while the frame owns it. -/
def Frame.ownedState : Frame → Option TaskState
  | .post _ .started | .post _ (.push _ _) | .post _ .finished | .post _ (.cancel _) =>
    some .queued
  | .post _ _ => none
  | .exec _ .casStarting => some .queued
  | .exec _ .loadEpoch | .exec _ (.storeEpoch _) | .exec _ .storeRunning => some .starting
  | .exec _ .running | .exec _ .storeDone | .exec _ .storePending | .exec _ .storeQueued =>
    some .running
  | .exec _ .doneTake | .exec _ .doneCheck | .exec _ .doneFinished | .exec _ .doneRelease =>
    some .done
  | .exec _ .againTake | .exec _ .againCheck | .exec _ .againPush
  | .exec _ (.pendingPush _ _) => some .queued
  | .exec _ .pendingTake | .exec _ (.pendingCheck _) | .exec _ (.pendingCas _) => none
  | .complete _ .push => some .queued
  | .complete _ .cas => none
  | .release _ _ => none

def Frame.owned (frame : Frame) : Option TaskId :=
  frame.ownedState.map fun _ => frame.task

theorem Frame.ownedState_not_idle (frame : Frame) :
    frame.ownedState ≠ some .created ∧ frame.ownedState ≠ some .pending := by
  unfold ownedState
  split <;> simp

variable {frame : Frame} {invalidThread : Nat} {cell cell' : TaskCell} {spurious : Bool}

section

variable {next : Option Frame}
  (accesses : frame.access invalidThread cell spurious = some (cell', next))

include accesses

theorem Frame.access_keeps :
    (∀ following ∈ next, following.task = frame.task) ∧ cell.runs ≤ cell'.runs ∧
      (frame.ownedState = none → cell'.runs = cell.runs ∧ cell'.runEpoch = cell.runEpoch) := by
  cases frame <;> rename_i pc <;> cases pc <;>
    simp only [access, PostCall.access, PostCall.requestSchedule, PostCall.requestWake,
      PostCall.resolveCleared, execAccess, completeAccess, releaseAccess, TaskCell.promise,
      TaskCell.handOver, TaskCell.releaseLifetimeRef] at accesses <;>
    grind [Frame.task, ownedState]

/-- An access by a frame that does not own the task leaves its state alone,
unless it acquires a task that nobody owns. -/
theorem Frame.access_ownership
    (linked : ∀ known, frame.ownedState = some known → cell.state = known) :
    (frame.ownedState = none ∧ cell'.state = cell.state ∧ ∀ after ∈ next, after.ownedState = none) ∨
    ((frame.ownedState ≠ none ∨ cell.state = .created ∨ cell.state = .pending) ∧
      ∀ after ∈ next, ∀ known, after.ownedState = some known → cell'.state = known) := by
  cases frame <;> rename_i pc <;> cases pc <;>
    simp only [access, PostCall.access, PostCall.requestSchedule, PostCall.requestWake,
      PostCall.resolveCleared, execAccess, completeAccess, releaseAccess, TaskCell.promise,
      TaskCell.handOver, TaskCell.releaseLifetimeRef] at accesses <;>
    grind [ownedState, IdleState.toTaskState_idle]

end

namespace Scheduler

def held (state : SchedulerState) : Place ⊕ Thread → List TaskId
  | .inl place => state.queues place
  | .inr thread => (state.callStack thread).filterMap Frame.owned

/-- Every task is held at most once, and its state is the one its holder
knows. -/
structure Occupancy (state : SchedulerState) : Prop where
  exclusive : Exclusive (held state)
  queued : ∀ place task, task ∈ state.queues place → (state.cells task).state = .queued
  owned : ∀ thread frame known, frame ∈ state.callStack thread →
    frame.ownedState = some known → (state.cells frame.task).state = known

variable {config : Config} {state after : SchedulerState} {thread : Thread} {frame : Frame}

theorem mem_held_of_owned {known : TaskState} (live : frame ∈ state.callStack thread)
    (owns : frame.ownedState = some known) : frame.task ∈ held state (.inr thread) :=
  mem_filterMap.mpr ⟨frame, live, by simp [Frame.owned, owns]⟩

theorem Occupancy.not_held (occupancy : Occupancy state) {task : TaskId}
    (idle : (state.cells task).state = .created ∨ (state.cells task).state = .pending)
    (holder : Place ⊕ Thread) : task ∉ held state holder := by
  intro holds
  cases holder with
  | inl place =>
    have queued := occupancy.queued place task holds
    rw [queued] at idle
    simp at idle
  | inr thread =>
    obtain ⟨frame, live, owns⟩ := mem_filterMap.mp holds
    obtain ⟨known, knows, rfl⟩ := map_eq_some_iff.mp owns
    have stateKnown := occupancy.owned thread frame known live knows
    rw [stateKnown] at idle
    rcases idle with rfl | rfl
    · exact frame.ownedState_not_idle.1 knows
    · exact frame.ownedState_not_idle.2 knows

variable {rest : List Frame}

theorem Occupancy.quiet (occupancy : Occupancy state) {old new : List Frame}
    (states : ∀ task, (after.cells task).state = (state.cells task).state)
    (queues : after.queues = state.queues)
    (replaces : ReplacesTop state.callStack after.callStack thread old new rest)
    (sameOwned : new.filterMap Frame.owned = old.filterMap Frame.owned)
    (known : ∀ frame ∈ new, ∀ known, frame.ownedState = some known →
      (state.cells frame.task).state = known) : Occupancy after := by
  have sameHeld : held after = held state := by
    funext holder
    cases holder with
    | inl place => simp only [held, queues]
    | inr other =>
      by_cases here : other = thread
      · subst here
        simp only [held, replaces.before_eq, replaces.after_eq, filterMap_append, sameOwned]
      · simp only [held, replaces.others other here]
  refine ⟨sameHeld ▸ occupancy.exclusive, fun place task inside => ?_,
    fun other frame state' live knows => ?_⟩
  · rw [states]
    exact occupancy.queued place task (queues ▸ inside)
  · rw [states]
    rcases replaces.mem_after.mp ⟨other, live⟩ with isNew | isOld
    · exact known frame isNew state' knows
    · obtain ⟨origin, wasLive⟩ := replaces.mem_before.mpr (.inr isOld)
      exact occupancy.owned origin frame state' wasLive knows

theorem Occupancy.transfer (occupancy : Occupancy state) (place : Place) {old new : List Frame}
    (states : ∀ task, (after.cells task).state = (state.cells task).state)
    (queues : ∀ other, other ≠ place → after.queues other = state.queues other)
    (replaces : ReplacesTop state.callStack after.callStack thread old new rest)
    (items : List.Subperm (after.queues place ++ new.filterMap Frame.owned)
      (state.queues place ++ old.filterMap Frame.owned))
    (queued : ∀ frame ∈ old ++ new, frame.ownedState = some .queued) : Occupancy after := by
  have subperm : List.Subperm (held after (.inl place) ++ held after (.inr thread))
      (held state (.inl place) ++ held state (.inr thread)) := by
    simp only [held, replaces.before_eq, replaces.after_eq, filterMap_append, ← append_assoc]
    exact (subperm_append_right _).mpr items
  -- A queued task or an owner that the step brings about was there before.
  have wasHeld : ∀ task, task ∈ after.queues place ∨
      task ∈ new.filterMap Frame.owned → (state.cells task).state = .queued := by
    intro task inside
    rcases mem_append.mp (items.subset (mem_append.mpr inside)) with
      inQueue | inOld
    · exact occupancy.queued place task inQueue
    · obtain ⟨frame, isOld, owns⟩ := mem_filterMap.mp inOld
      obtain ⟨known, knows, rfl⟩ := map_eq_some_iff.mp owns
      refine occupancy.owned thread frame _ ?_ (queued frame (mem_append_left _ isOld))
      exact replaces.before_eq ▸ mem_append_left _ isOld
  refine ⟨occupancy.exclusive.rearrange Sum.inl_ne_inr ?_ subperm, fun other task inside => ?_, fun other frame known live knows => ?_⟩
  · intro holder notPlace notThread
    cases holder with
    | inl other => exact queues other (fun same => notPlace (same ▸ rfl))
    | inr other =>
      simp only [held, replaces.others other (fun same => notThread (same ▸ rfl))]
  · rw [states]
    by_cases here : other = place
    · exact wasHeld task (.inl (here ▸ inside))
    · exact occupancy.queued other task (queues other here ▸ inside)
  · rw [states]
    rcases replaces.mem_after.mp ⟨other, live⟩ with isNew | isOld
    · rw [queued frame (mem_append_right _ isNew)] at knows
      cases knows
      refine wasHeld frame.task (.inr (mem_filterMap.mpr ⟨frame, isNew, ?_⟩))
      simp [Frame.owned, queued frame (mem_append_right _ isNew)]
    · obtain ⟨origin, wasLive⟩ := replaces.mem_before.mpr (.inr isOld)
      exact occupancy.owned origin frame known wasLive knows

theorem Occupancy.ownerStep (occupancy : Occupancy state) {new : Option Frame}
    (cells : ∀ task, task ≠ frame.task → after.cells task = state.cells task)
    (queues : after.queues = state.queues)
    (replaces : ReplacesTop state.callStack after.callStack thread [frame] new.toList rest)
    (sameTask : ∀ next ∈ new, next.task = frame.task)
    (alone : frame.task ∉ rest.filterMap Frame.owned ∧
      ∀ holder, holder ≠ .inr thread → frame.task ∉ held state holder)
    (known : ∀ next ∈ new, ∀ known, next.ownedState = some known →
      (after.cells frame.task).state = known) : Occupancy after := by
  have newOwned : ∀ task ∈ new.toList.filterMap Frame.owned, task = frame.task := by
    intro task inside
    obtain ⟨next, isNew, owns⟩ := mem_filterMap.mp inside
    obtain ⟨_, _, rfl⟩ := map_eq_some_iff.mp owns
    exact sameTask next (by simpa using isNew)
  have replaced : held after (.inr thread) =
      new.toList.filterMap Frame.owned ++ rest.filterMap Frame.owned := by
    simp only [held, replaces.after_eq, filterMap_append]
  refine ⟨occupancy.exclusive.replace (.inr thread) ?_ replaced ?_ ?_ ?_, fun place task inside => ?_, fun other live state' isLive knows => ?_⟩
  · intro holder different
    cases holder with
    | inl place => simp only [held, queues]
    | inr other => simp only [held, replaces.others other (fun same => different (same ▸ rfl))]
  · simp only [held, replaces.before_eq, filterMap_append]
    exact sublist_append_right _ _
  · cases new with
    | none => simp
    | some next => cases owns : next.owned <;> simp [owns]
  · intro task inside
    rw [newOwned task inside]
    exact alone
  · have different : task ≠ frame.task := by
      rintro rfl
      rw [queues] at inside
      exact alone.2 (.inl place) (by simp) inside
    rw [cells task different]
    exact occupancy.queued place task (queues ▸ inside)
  · rcases replaces.mem_after.mp ⟨other, isLive⟩ with isNew | isOld
    · have isNext : live ∈ new := by simpa using isNew
      rw [sameTask live isNext]
      exact known live isNext state' knows
    · have ownsTask : live.owned = some live.task := by simp [Frame.owned, knows]
      have different : live.task ≠ frame.task := by
        intro same
        rcases isOld with inRest | ⟨place, elsewhere, inside⟩
        · exact alone.1 (mem_filterMap.mpr ⟨live, inRest, same ▸ ownsTask⟩)
        · exact alone.2 (.inr place) (by simpa using elsewhere)
            (same ▸ mem_held_of_owned inside knows)
      rw [cells live.task different]
      obtain ⟨origin, wasLive⟩ := replaces.mem_before.mpr (.inr isOld)
      exact occupancy.owned origin live state' wasLive knows

variable {frames : List Frame}

theorem Occupancy.alone (occupancy : Occupancy state)
    (top : state.callStack thread = frame :: frames)
    (reason : frame.ownedState ≠ none ∨ (state.cells frame.task).state = .created ∨
      (state.cells frame.task).state = .pending) : frame.task ∉ frames.filterMap Frame.owned ∧
      ∀ holder, holder ≠ .inr thread → frame.task ∉ held state holder := by
  rcases reason with owns | idle
  · obtain ⟨known, knows⟩ := ne_none_iff_exists'.mp owns
    have ownsTask : frame.owned = some frame.task := by simp [Frame.owned, knows]
    have holds : held state (.inr thread) = frame.task :: frames.filterMap Frame.owned := by
      simp only [held, top, filterMap_cons, ownsTask]
    refine ⟨fun inside => ?_, fun holder different inside => ?_⟩
    · have nodup := occupancy.exclusive.nodup (.inr thread)
      rw [holds] at nodup
      exact (nodup_cons.mp nodup).1 inside
    · exact different (occupancy.exclusive.eq_of_mem inside (holds ▸ mem_cons_self))
  · refine ⟨fun inside => ?_, fun holder _ => occupancy.not_held idle holder⟩
    refine occupancy.not_held idle (.inr thread) ?_
    simp only [held, top, filterMap_cons]
    split
    · exact inside
    · exact mem_cons_of_mem _ inside

theorem ownedState_of_pushTarget {target : Place × Bool}
    (targets : pushTarget config thread frame = some target) : frame.ownedState = some .queued := by
  unfold pushTarget at targets
  split at targets <;> first | rfl | simp at targets

theorem ownedState_of_counts {next : Frame} (counts : Counts frame next) :
    next.ownedState = frame.ownedState ∧ next.task = frame.task := by
  cases counts <;> exact ⟨rfl, rfl⟩

@[simp]
theorem ownedState_markWaited (frame : Frame) : (markWaited frame).ownedState = frame.ownedState ∧
      (markWaited frame).task = frame.task := by
  unfold markWaited
  split <;> exact ⟨rfl, rfl⟩

theorem ownedState_afterRefusal : (afterRefusal frame).ownedState = frame.ownedState ∧
      (afterRefusal frame).task = frame.task := by
  unfold afterRefusal
  split
  · split <;> exact ⟨rfl, rfl⟩
  · exact ⟨rfl, rfl⟩

theorem Occupancy.relabel (occupancy : Occupancy state) {next : Frame}
    (top : state.callStack thread = frame :: frames)
    (same : next.ownedState = frame.ownedState ∧ next.task = frame.task)
    (cells : after.cells = state.cells) (queues : after.queues = state.queues)
    (callStack : after.callStack = update state.callStack thread (next :: frames)) :
    Occupancy after := by
  have replaces : ReplacesTop state.callStack after.callStack thread
      [frame] [next] frames := callStack ▸ ReplacesTop.top top [next]
  refine occupancy.quiet (fun task => by rw [cells]) queues replaces ?_ ?_
  · have sameOwned : next.owned = frame.owned := by
      rw [Frame.owned, Frame.owned, same.1, same.2]
    simp only [filterMap_cons, sameOwned]
  · intro live isNext known knows
    rw [mem_singleton.mp isNext] at knows ⊢
    rw [same.1] at knows
    rw [same.2]
    exact occupancy.owned thread frame known (top ▸ mem_cons_self) knows

theorem Occupancy.enter (occupancy : Occupancy state) (thread : Thread) (frame : Frame)
    (ownsNothing : frame.ownedState = none)
    (states : ∀ task, (after.cells task).state = (state.cells task).state)
    (queues : after.queues = state.queues) (callStack : after.callStack =
      update state.callStack thread (frame :: state.callStack thread)) : Occupancy after := by
  refine occupancy.quiet states queues
    (callStack ▸ ReplacesTop.push state.callStack thread frame) ?_ ?_
  · simp [Frame.owned, ownsNothing]
  · intro live isNew known knows
    rw [mem_singleton.mp isNew, ownsNothing] at knows
    simp at knows

theorem Occupancy.move (occupancy : Occupancy state) {action : Action}
    (move : Move config state action after) : Occupancy after := by
  cases move with
  | call thread call _ _ _ =>
    exact occupancy.enter thread (.post call .begin) rfl (fun _ => rfl) rfl rfl
  | complete executor task _ =>
    exact occupancy.enter (.executor executor) (.complete task .cas) rfl (fun _ => rfl) rfl rfl
  | release thread task _ _ =>
    refine occupancy.enter thread (.release task .load) rfl (fun other => ?_) rfl rfl
    by_cases here : other = task
    · subst here
      simp
    · simp [update_of_ne here]
  | pop place task queue waiting _ =>
    refine occupancy.transfer place (fun _ => rfl) ?_ (ReplacesTop.push state.callStack _ _) ?_ ?_
    · intro other different
      simp [update_of_ne different]
    · simp only [withStack_queues, withQueue_queues, update_self, waiting,
        filterMap_cons, filterMap_nil, append_nil, Frame.owned,
        ownedState, Frame.task, map_some]
      exact (perm_append_singleton task queue).subperm
    · simp [ownedState]
  | finish executor result task frames top =>
    refine occupancy.relabel top ?_ rfl rfl rfl
    cases result <;> exact ⟨rfl, rfl⟩
  | access thread spurious frame frames cell next top accesses =>
    have linked : ∀ known, frame.ownedState = some known →
        (state.cells frame.task).state = known := fun known =>
      occupancy.owned thread frame known (top ▸ mem_cons_self)
    have replaces := ReplacesTop.top top next.toList
    rcases access_ownership accesses linked with
      ⟨ownsNothing, sameState, nextNothing⟩ | ⟨reason, known⟩
    · refine occupancy.quiet (fun task => ?_) rfl replaces ?_ ?_
      · by_cases here : task = frame.task
        · subst here
          simpa using sameState
        · simp [update_of_ne here]
      · cases next with
        | none => simp [Frame.owned, ownsNothing]
        | some next => simp [Frame.owned, ownsNothing, nextNothing next rfl]
      · intro live isNext known knows
        rw [nextNothing live (by simpa using isNext)] at knows
        simp at knows
    · refine occupancy.ownerStep (fun task different => ?_) rfl replaces
        (access_keeps accesses).1 (occupancy.alone top reason) (by simpa using known)
      simp [update_of_ne different]
  | count thread frame next frames top counts =>
    exact occupancy.relabel top (ownedState_of_counts counts) (by simp) (by simp) (by simp)
  | push thread frame frames place blocking top targets _ =>
    have owns := ownedState_of_pushTarget targets
    refine occupancy.transfer place (fun task => ?_) ?_ (ReplacesTop.top top []) ?_ ?_
    · by_cases here : task = frame.task
      · subst here
        unfold afterPush TaskCell.promise
        simp only [withStack_cells, withCell_cells, update_self]
        split <;> rfl
      · simp [update_of_ne here]
    · intro other different
      simp [update_of_ne different]
    · simp [Frame.owned, owns, List.Subperm.refl]
    · simp [owns]
  | wait thread frame frames place top _ _ _ =>
    exact occupancy.relabel top (ownedState_markWaited frame) rfl rfl rfl
  | refuse thread frame frames place top _ _ =>
    exact occupancy.relabel top ownedState_afterRefusal rfl rfl rfl
  | spin thread => exact occupancy

theorem occupancy_of_reachable (reached : (system config).Reachable state) : Occupancy state := by
  refine reached.invariant ?_ fun state action after _ occupancy _ steps =>
    occupancy.move (step_move steps)
  rintro state ⟨handled, rfl⟩
  refine ⟨⟨fun holder => ?_, fun first second _ item inFirst => ?_⟩, ?_, ?_⟩
  · cases holder <;> simp [held, start]
  · cases first <;> simp [held, start] at inFirst
  all_goals simp [start]

/-- A task is queued at most once, is inside `run` at most once and never both,
and the two compare-exchanges that assert success find it `Queued`. -/
structure OccursOnce (state : SchedulerState) (task : TaskId) : Prop where
  oncePerQueue : ∀ place, (state.queues place).count task ≤ 1
  oneQueue : ∀ first second, task ∈ state.queues first → task ∈ state.queues second → first = second
  oneRunPerStack : ∀ thread, (state.callStack thread).count (.exec task .running) ≤ 1
  oneStack : ∀ first second, .exec task .running ∈ state.callStack first →
    .exec task .running ∈ state.callStack second → first = second
  notBoth : ∀ place thread, task ∈ state.queues place → .exec task .running ∉ state.callStack thread
  queuedInQueue : ∀ place, task ∈ state.queues place → (state.cells task).state = .queued
  executeSucceeds : ∀ thread frames, state.callStack thread = .exec task .casStarting :: frames →
      (state.cells task).state = .queued
  cancelSucceeds : ∀ thread frames call previous, call.task = task →
    state.callStack thread = .post call (.cancel previous) :: frames →
      (state.cells task).state = .queued

theorem count_running_le {task : TaskId} (nodup : (frames.filterMap Frame.owned).Nodup) :
    frames.count (.exec task .running) ≤ 1 := by
  have counts : frames.count (.exec task .running) ≤ (frames.filterMap Frame.owned).count task := by
    rw [count, count, countP_filterMap]
    apply countP_mono_left
    intro frame _ runs
    rw [beq_iff_eq.mp runs]
    simp [Frame.owned, ownedState, Frame.task]
  exact counts.trans (nodup_iff_count_le_one.mp nodup task)

/-- In every reachable state, for every configuration, each task occurs once at
most. -/
theorem reachable_occursOnce (reached : (system config).Reachable state) (task : TaskId) :
    OccursOnce state task := by
  have occupancy := occupancy_of_reachable reached
  have runs : ∀ thread, .exec task .running ∈ state.callStack thread →
      task ∈ held state (.inr thread) := fun thread live =>
    mem_held_of_owned live rfl
  refine ⟨fun place => ?_, fun first second inFirst inSecond => ?_, fun thread => ?_,
    fun first second onFirst onSecond => ?_, fun place thread inside live => ?_,
    fun place inside => occupancy.queued place task inside,
    fun thread frames top => ?_, fun thread frames call previous same top => ?_⟩
  · exact nodup_iff_count_le_one.mp (occupancy.exclusive.nodup (.inl place)) task
  · exact Sum.inl_injective (occupancy.exclusive.eq_of_mem inFirst inSecond)
  · exact count_running_le (occupancy.exclusive.nodup (.inr thread))
  · exact Sum.inr_injective
      (occupancy.exclusive.eq_of_mem (runs first onFirst) (runs second onSecond))
  · exact Sum.inl_ne_inr (occupancy.exclusive.eq_of_mem inside (runs thread live))
  · exact occupancy.owned thread _ .queued (top ▸ mem_cons_self) rfl
  · subst same
    exact occupancy.owned thread _ .queued (top ▸ mem_cons_self) rfl

/-- Task 0 posts tasks 1 to 3 to its own executor, whose ring holds two: the
third post executes task 1 inside the run of task 0. -/
def inlineRun : List Action :=
  firstPost (.external 0) (postOf 0 0) ++ beginRun (.external 0) ++
    firstPost (.executor 0) (postOf 1 0) ++ firstPost (.executor 0) (postOf 2 0) ++
    firstPost (.executor 0) (postOf 3 0) ++ accesses (.executor 0) 4

theorem inlineRun_occursOnce : ∃ state, (system (twoExecutors .yield)).Reachable state ∧
      (state.callStack (.executor 0) = [.exec 1 .running,
        .post (postOf 3 0) (.push .created false), .exec 0 .running] ∧
      state.queues (.localRing 0) = [2]) ∧ ∀ task, OccursOnce state task := by
  obtain ⟨state, reached, observed⟩ :=
    (system (twoExecutors .yield)).exists_reachableUnder (fun _ _ => True) ⟨fun _ => true, rfl⟩ inlineRun
    (fun state => state.callStack (.executor 0) = [.exec 1 .running,
        .post (postOf 3 0) (.push .created false), .exec 0 .running] ∧
      state.queues (.localRing 0) = [2]) (by decide)
  exact ⟨state, reached, observed, reachable_occursOnce reached⟩

end Scheduler

end AsyncFlow
