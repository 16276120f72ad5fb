import AsyncFlow.FirstSchedule

/-!
# The count of unfinished tasks

A task is counted from its `on_task_started` to its `on_task_finished`.  Its state
and the frames on it tell whether it is, and a task that somebody was promised a
run of is counted until it is `Done`.
-/

namespace AsyncFlow

open Scheduler List BitVec Frame

/-- The frame has made the task `Queued` for the first time and does not count
it, not yet or no longer. -/
def Frame.uncounted : Frame → Bool
  | .post _ .started | .post _ (.cancel .created) => true
  | _ => false

/-- `finish_done` before its `on_task_finished`. -/
def Frame.ending : Frame → Bool
  | .exec _ .doneTake | .exec _ .doneCheck | .exec _ .doneFinished => true
  | _ => false

/-- The task is counted, given whether frames with these marks work on it. -/
def CountedBy (cell : TaskCell) (uncounted ending : Prop) : Prop :=
  cell.state ≠ .created ∧ cell.state ≠ .done ∧ ¬ uncounted ∨ cell.state = .done ∧ ending

def IsCounted (view : TaskView) : Prop :=
  CountedBy view.cell (∃ frame ∈ view.live, frame.uncounted = true)
    (∃ frame ∈ view.live, frame.ending = true)

theorem Frame.ownedState_of_uncounted {frame : Frame} (uncounted : frame.uncounted = true) :
    frame.ownedState = some .queued := by
  unfold Frame.uncounted at uncounted
  split at uncounted <;> first | rfl | cases uncounted

theorem Frame.ownedState_of_ending {frame : Frame} (ending : frame.ending = true) :
    frame.ownedState = some .done := by
  unfold Frame.ending at ending
  split at ending <;> first | rfl | cases ending

theorem Frame.access_countedBy {cell cell' : TaskCell} {frame : Frame} {next : Option Frame}
    {invalidThread : Nat} {spurious : Bool} {uncounted ending : Prop}
    (linked : ∀ known, frame.ownedState = some known → cell.state = known)
    (whenUncounted : uncounted → cell.state = .queued) (whenEnding : ending → cell.state = .done)
    (alone : frame.ownedState ≠ none → ¬ uncounted ∧ ¬ ending)
    (accesses : frame.access invalidThread cell spurious = some (cell', next)) :
    CountedBy cell' (next.any Frame.uncounted = true ∨ uncounted)
        (next.any Frame.ending = true ∨ ending) ↔
      CountedBy cell (frame.uncounted = true ∨ uncounted) (frame.ending = true ∨ ending) := by
  simp only [CountedBy]
  cases frame with
  | post call pc =>
    cases pc with
    | requestCas seen | cancel seen =>
      cases seen <;> simp [ownedState] at linked alone <;>
        simp only [access, PostCall.access] at accesses <;>
        grind -linarith [IdleState.toTaskState, Frame.uncounted, Frame.ending]
    | _ =>
      simp only [access, PostCall.access, PostCall.requestSchedule,
        PostCall.requestWake, PostCall.resolveCleared, TaskCell.promise,
        TaskCell.handOver] at accesses
      (try split at accesses) <;> grind -linarith [Frame.uncounted, Frame.ending]
  | exec task pc | complete task pc | release task pc =>
    cases pc <;> simp [ownedState] at linked alone <;>
      simp only [access, execAccess, completeAccess, releaseAccess, TaskCell.handOver,
        TaskCell.releaseLifetimeRef] at accesses <;>
      (try split at accesses) <;> grind -linarith [Frame.uncounted, Frame.ending]

section Moves

variable {config : Config} {task : TaskId} {before after : TaskView}
  {cell : TaskCell} {inQueue : Prop} {frame : Frame} {others : Set Frame}

theorem isCounted_insert : IsCounted ⟨cell, inQueue, insert frame others⟩ ↔
    CountedBy cell (frame.uncounted = true ∨ ∃ other ∈ others, other.uncounted = true)
      (frame.ending = true ∨ ∃ other ∈ others, other.ending = true) := by
  simp [IsCounted]

theorem isCounted_next {next : Option Frame} :
    IsCounted ⟨cell, inQueue, { other | other ∈ next } ∪ others⟩ ↔
    CountedBy cell (next.any Frame.uncounted = true ∨ ∃ other ∈ others, other.uncounted = true)
      (next.any Frame.ending = true ∨ ∃ other ∈ others, other.ending = true) := by
  cases next <;> simp [IsCounted, or_and_right, exists_or]

theorem isCounted_insert_unmarked (notUncounted : frame.uncounted = false)
    (notEnding : frame.ending = false) :
    IsCounted ⟨cell, inQueue, insert frame others⟩ ↔ IsCounted ⟨cell, inQueue, others⟩ := by
  rw [isCounted_insert, notUncounted, notEnding]
  simp [IsCounted]

def countsNothing (_ : TaskView) : TaskEvent → Prop
  | .count _ => False
  | _ => True

theorem Proceeds.unmarked {next : Frame} (proceeds : Proceeds frame next) :
    (next.uncounted = frame.uncounted) ∧ next.ending = frame.ending := by
  cases proceeds with
  | finish task result => cases result <;> exact ⟨rfl, rfl⟩
  | wait =>
    unfold markWaited
    split <;> exact ⟨rfl, rfl⟩
  | refuse call previous waited => cases previous <;> exact ⟨rfl, rfl⟩

theorem isCounted_of_move (linked : before.Linked)
    (move : TaskMove config countsNothing task before after) :
    IsCounted after ↔ IsCounted before := by
  cases move with
  | idle => exact Iff.rfl
  | call | complete | release | pop => exact isCounted_insert_unmarked rfl rfl
  | access cell inQueue frame others spurious cell' next _ apart _ accesses =>
    rw [isCounted_insert, isCounted_next]
    refine access_countedBy (linked.owned frame (Set.mem_insert _ _)) ?_ ?_ ?_ accesses
    · rintro ⟨other, isOther, uncounted⟩
      exact linked.owned other (Set.mem_insert_of_mem _ isOther) _
        (ownedState_of_uncounted uncounted)
    · rintro ⟨other, isOther, ending⟩
      exact linked.owned other (Set.mem_insert_of_mem _ isOther) _ (ownedState_of_ending ending)
    · intro owns
      have free := (apart.owner owns).2
      refine ⟨?_, ?_⟩
      · rintro ⟨other, isOther, uncounted⟩
        simpa [ownedState_of_uncounted uncounted] using free other isOther
      · rintro ⟨other, isOther, ending⟩
        simpa [ownedState_of_ending ending] using free other isOther
  | proceed cell inQueue frame next others _ _ proceeds =>
    rw [isCounted_insert, isCounted_insert, proceeds.unmarked.1, proceeds.unmarked.2]
  | count _ _ _ _ _ _ _ permitted _ => exact permitted.elim
  | push cell inQueue frame others _ _ pushes =>
    have unmarked : frame.uncounted = false ∧ frame.ending = false := by
      unfold Frame.pushes at pushes
      split at pushes <;> first | exact ⟨rfl, rfl⟩ | cases pushes
    rw [isCounted_insert_unmarked unmarked.1 unmarked.2]
    unfold IsCounted CountedBy afterPush
    split <;> exact Iff.rfl

theorem isCounted_owner (apart : Apart frame inQueue others) (owns : frame.ownedState ≠ none) :
    IsCounted ⟨cell, inQueue, insert frame others⟩ ↔
      CountedBy cell (frame.uncounted = true) (frame.ending = true) := by
  have free := (apart.owner owns).2
  have noneUncounted : ¬ ∃ other ∈ others, other.uncounted = true := by
    rintro ⟨other, isOther, uncounted⟩
    simpa [ownedState_of_uncounted uncounted] using free other isOther
  have noneEnding : ¬ ∃ other ∈ others, other.ending = true := by
    rintro ⟨other, isOther, ending⟩
    simpa [ownedState_of_ending ending] using free other isOther
  simp [isCounted_insert, noneUncounted, noneEnding]

end Moves

namespace Scheduler

variable {config : Config} {state after : SchedulerState} {action : Action} {task : TaskId}

structure Accounted (state : SchedulerState) : Prop where
  nodup : state.counted.Nodup
  counted : ∀ task, task ∈ state.counted ↔ IsCounted (view state task)
  number : state.unfinished = BitVec.ofNat 32 state.counted.length

theorem isCounted_keep (coherent : Coherent state) (move : Move config state action after)
    (notCount : ∀ thread, action ≠ .count thread) :
    IsCounted (view after task) ↔ IsCounted (view state task) := by
  have permitted : eventAllowed countsNothing state action := by
    intro happening happens
    cases action with
    | count thread => exact absurd rfl (notCount thread)
    | access thread spurious =>
      obtain ⟨frame, _, rfl⟩ := Option.map_eq_some_iff.mp happens
      trivial
    | call | complete | release =>
      cases happens
      trivial
    | pop | finish | push => cases happens
  exact isCounted_of_move (coherent.occupancy.linked task) (coherent.view_move move permitted)

theorem Accounted.keep (accounted : Accounted state) (coherent : Coherent state)
    (move : Move config state action after) (notCount : ∀ thread, action ≠ .count thread)
    (counted : after.counted = state.counted)
    (unfinished : after.unfinished = state.unfinished) : Accounted after := by
  refine ⟨counted ▸ accounted.nodup, fun task => ?_, by rw [unfinished, counted, accounted.number]⟩
  rw [counted, accounted.counted, isCounted_keep coherent move notCount]

section

variable (accounted : Accounted state)
  (others : ∀ other ≠ task, other ∈ state.counted ↔ IsCounted (view after other))

include accounted others

theorem Accounted.started (fresh : task ∉ state.counted) (isCounted : IsCounted (view after task))
    (counted : after.counted = task :: state.counted)
    (unfinished : after.unfinished = state.unfinished + 1) : Accounted after := by
  refine ⟨?_, fun other => ?_, ?_⟩
  · rw [counted]
    exact nodup_cons.mpr ⟨fresh, accounted.nodup⟩
  · by_cases here : other = task
    · subst here
      simp [counted, isCounted]
    · rw [← others other here, counted]
      simp [here]
  · rw [unfinished, counted, accounted.number, length_cons, ofNat_add]
    rfl

theorem Accounted.finished (member : task ∈ state.counted)
    (notCounted : ¬ IsCounted (view after task))
    (counted : after.counted = state.counted.erase task)
    (unfinished : after.unfinished = state.unfinished - 1) : Accounted after := by
  refine ⟨?_, fun other => ?_, ?_⟩
  · rw [counted]
    exact accounted.nodup.erase task
  · by_cases here : other = task
    · subst here
      rw [counted]
      exact iff_of_false accounted.nodup.not_mem_erase notCounted
    · rw [← others other here, counted]
      exact mem_erase_of_ne here
  · rw [unfinished, counted, accounted.number, ← length_erase_add_one member, ofNat_add]
    exact add_sub_cancel _ _

end

/-- What `on_task_started` and `on_task_finished` do to the set of counted
tasks. -/
theorem isCounted_count (config : Config) (coherent : Coherent state) {thread : Thread} {frame next : Frame}
    {frames : List Frame} (top : state.callStack thread = frame :: frames)
    (counts : Counts frame next) {after : SchedulerState}
    (isAfter : after = withStack (countAfter config state frame) thread (next :: frames)) :
    (IsCounted (view state frame.task) ↔ frame.uncounted = false) ∧
      (IsCounted (view after frame.task) ↔ frame.uncounted = true) ∧
      ∀ task ≠ frame.task, view after task = view state task := by
  have sameTask := (ownedState_of_counts counts).2
  obtain ⟨viewBefore, viewAfter, unrelated⟩ := view_replace top sameTask
    (show after.cells = state.cells by simp [isAfter]) (by simp [isAfter]) (by simp [isAfter])
  have apart := coherent.apart top
  have owned := (coherent.occupancy.linked frame.task).owned
  rw [viewBefore] at owned
  have nextApart : Apart next (view state frame.task).inQueue
      (untouched state thread frames frame.task) := by
    refine ⟨fun owns => apart.owner ?_, fun releases => apart.releaser ?_⟩
    · rwa [(ownedState_of_counts counts).1] at owns
    · cases counts <;> exact releases
  have known : ∀ status, frame.ownedState = some status →
      (state.cells frame.task).state = status := owned frame (Set.mem_insert _ _)
  -- Before and after, the frame alone decides whether its task is counted.
  rw [viewBefore, viewAfter, isCounted_owner apart (by cases counts <;> simp [ownedState]),
    isCounted_owner nextApart (by cases counts <;> simp [ownedState])]
  refine ⟨?_, ?_, unrelated⟩ <;> cases counts <;> simp only [ownedState, Option.some.injEq,
    forall_eq'] at known <;> simp [CountedBy, Frame.uncounted, Frame.ending, known]

section

variable (policy : config.shutdownPolicy = .waitForTasks)

include policy

theorem Accounted.count (accounted : Accounted state) (coherent : Coherent state) {thread : Thread}
    {frame next : Frame} {frames : List Frame} (top : state.callStack thread = frame :: frames)
    (counts : Counts frame next) :
    Accounted (withStack (countAfter config state frame) thread (next :: frames)) := by
  obtain ⟨wasCounted, willCount, unrelated⟩ :=
    isCounted_count config coherent top counts rfl
  have others : ∀ task ≠ frame.task, task ∈ state.counted ↔ IsCounted (view
      (withStack (countAfter config state frame) thread (next :: frames)) task) := by
    intro task different
    rw [unrelated task different, accounted.counted]
  rw [← accounted.counted] at wasCounted
  cases counts with
  | started call =>
    refine accounted.started others (by simp [wasCounted, Frame.uncounted])
      (willCount.mpr rfl) ?_ ?_ <;> simp [countAfter, countStarted, policy, Frame.task, withStack]
  | finished call | doneFinished task =>
    refine accounted.finished others (wasCounted.mpr rfl)
      (by simp [willCount, Frame.uncounted]) ?_ ?_ <;>
      simp [countAfter, countFinished, policy, Frame.task, withStack]

theorem accounted_of_reachable (reached : (system config).Reachable state) : Accounted state := by
  refine reached.invariant ?_ fun before action after reachedBefore accounted _ steps => ?_
  · rintro state ⟨handled, rfl⟩
    refine ⟨by simp [start], fun task => ?_, rfl⟩
    simp [start, view, IsCounted, CountedBy, TaskCell.allocated]
  · have coherent := coherent_of_reachable reachedBefore
    have move := step_move steps
    cases action with
    | count thread =>
      cases move with
      | pop _ _ _ _ occasion => simp at occasion
      | count _ frame next frames top counts =>
        exact accounted.count policy coherent top counts
    | _ =>
      refine accounted.keep coherent move (by simp) ?_ ?_ <;> cases move <;> rfl

theorem promised_counted (reached : (system config).Reachable state)
    (promised : (state.cells task).promises ≠ []) :
    task ∈ state.counted ∨ (state.cells task).state = .done := by
  have inv := scheduleInv_of_reachable reached task
  by_cases isDone : (state.cells task).state = .done
  · exact .inr isDone
  · left
    rw [(accounted_of_reachable policy reached).counted]
    refine .inl ⟨fun isCreated => promised (inv.cell.created isCreated).2, isDone, ?_⟩
    rintro ⟨frame, live, uncounted⟩
    have fact := inv.facts frame live
    cases frame with
    | post call pc =>
      refine promised (fact.1 ?_).2
      unfold Frame.uncounted at uncounted
      split at uncounted <;> simp_all [PostPc.schedulesFirst]
    | exec task pc => cases uncounted
    | complete task pc => cases uncounted
    | release task pc => cases uncounted

theorem queued_counted (reached : (system config).Reachable state) {place : Place}
    (waiting : task ∈ state.queues place) : task ∈ state.counted := by
  have occupancy := occupancy_of_reachable reached
  have isQueued := occupancy.queued place task waiting
  rw [(accounted_of_reachable policy reached).counted]
  refine .inl ⟨?_, ?_, ?_⟩
  · simp [view, isQueued]
  · simp [view, isQueued]
  · rintro ⟨frame, ⟨sameTask, thread, live⟩, uncounted⟩
    have inQueue : task ∈ held state (.inl place) := waiting
    have owned : task ∈ held state (.inr thread) :=
      sameTask ▸ mem_held_of_owned live (ownedState_of_uncounted uncounted)
    exact Sum.inl_ne_inr (occupancy.exclusive.eq_of_mem inQueue owned)

end

/-- `unfinished_tasks_` is the number of tasks between `on_task_started` and
`on_task_finished`, and these include every task in a queue and every task that
still owes somebody a run. -/
theorem unfinished_exact (policy : config.shutdownPolicy = .waitForTasks)
    (reached : (system config).Reachable state) :
    ∃ tasks : List TaskId, tasks.Nodup ∧ (∀ task, task ∈ tasks ↔ IsCounted (view state task)) ∧
      state.unfinished = BitVec.ofNat 32 tasks.length ∧
      (∀ place, ∀ task ∈ state.queues place, task ∈ tasks) ∧
      ∀ task, (state.cells task).promises ≠ [] → (state.cells task).state ≠ .done →
        task ∈ tasks := by
  have accounted := accounted_of_reachable policy reached
  refine ⟨state.counted, accounted.nodup, accounted.counted, accounted.number,
    fun place task waiting => queued_counted policy reached waiting, ?_⟩
  intro task promised unfinished
  exact (promised_counted policy reached promised).resolve_right unfinished

theorem unfinished_exact_queued : ∃ state, (system (twoExecutors .reject)).Reachable state ∧
    state.queues (.external 0) = [0] ∧ IsCounted (view state 0) := by
  obtain ⟨state, reached, isQueued⟩ := (system (twoExecutors .reject)).exists_reachableUnder
    (fun _ _ => True) (show (system _).initial (start fun _ => true) from ⟨_, rfl⟩)
    (firstPost (.external 0) (postOf 0 0)) (fun state => state.queues (.external 0) = [0])
    (by decide)
  obtain ⟨tasks, _, counted, _, queued, _⟩ := unfinished_exact rfl reached
  exact ⟨state, reached, isQueued, (counted 0).mp (queued (.external 0) 0 (by simp [isQueued]))⟩

end Scheduler

end AsyncFlow
