import AsyncFlow.OneTask

/-!
# The first schedule of a task

A task leaves `Created` through one post, its first schedule, and returns there
only when that post is refused.  Until then it has not run and nobody was promised
a run.
-/

namespace AsyncFlow

open Scheduler

def PostPc.schedulesFirst : PostPc → Bool
  | .started | .finished | .push .created _ | .cancel .created => true
  | .begin | .requestLoad | .requestCas _ | .wakeLoadEpoch | .wakeCas _ | .wakeClear _
  | .resolveLoad _ | .resolveEpoch _ | .resolveClear _ _ | .resolveCas _
  | .push .pending _ | .cancel .pending => false

def PostPc.followsRun : PostPc → Bool
  | .wakeLoadEpoch | .wakeCas _ | .wakeClear _ | .resolveLoad _ | .resolveEpoch _
  | .resolveClear _ _ | .resolveCas _ | .push .pending _ | .cancel .pending
  | .requestCas .pending => true
  | .begin | .requestLoad | .requestCas .created | .started | .push .created _
  | .finished | .cancel .created => false

def Untouched (cell : TaskCell) : Prop :=
  cell.runs = 0 ∧ cell.promises = []

def ScheduleFact (cell : TaskCell) : Frame → Prop
  | .post _ pc => (pc.schedulesFirst = true → Untouched cell) ∧
      (pc.followsRun = true → 0 < cell.runs)
  | .exec _ _ | .complete _ _ | .release _ _ => True

/-- What the state of a task says about its runs. -/
structure ScheduleCell (cell : TaskCell) : Prop where
  created : cell.state = .created → Untouched cell
  ran : cell.state = .starting ∨ cell.state = .running ∨ cell.state = .pending ∨
    cell.state = .done → 0 < cell.runs

structure ScheduleInv (view : TaskView) : Prop where
  cell : ScheduleCell view.cell
  facts : ∀ frame ∈ view.live, ScheduleFact view.cell frame

theorem ownedState_of_schedulesFirst {call : PostCall} {pc : PostPc}
    (first : pc.schedulesFirst = true) : (Frame.post call pc).ownedState = some .queued := by
  unfold PostPc.schedulesFirst at first
  split at first <;> first | rfl | cases first

section Accesses

variable {cell cell' : TaskCell} {frame : Frame} {next : Option Frame} {invalidThread : Nat}
  {spurious : Bool}

theorem Frame.access_untouched (fact : ScheduleFact cell frame)
    (accesses : frame.access invalidThread cell spurious = some (cell', next))
    (ownsNothing : frame.ownedState = none) (untouched : Untouched cell) : Untouched cell' := by
  refine ⟨((Frame.access_keeps accesses).2.2 ownsNothing).1.trans untouched.1, ?_⟩
  obtain ⟨noRuns, noPromises⟩ := untouched
  cases frame <;> rename_i pc <;> cases pc <;>
    simp only [Frame.access, PostCall.access, PostCall.requestSchedule, PostCall.requestWake,
      PostCall.resolveCleared, execAccess, completeAccess, releaseAccess, TaskCell.promise,
      TaskCell.handOver, TaskCell.releaseLifetimeRef] at accesses <;>
    grind [ScheduleFact, PostPc.followsRun]

theorem ScheduleCell.access (scheduled : ScheduleCell cell) (fact : ScheduleFact cell frame)
    (linked : ∀ known, frame.ownedState = some known → cell.state = known)
    (accesses : frame.access invalidThread cell spurious = some (cell', next)) :
    ScheduleCell cell' ∧ ∀ following ∈ next, ScheduleFact cell' following := by
  have created := scheduled.created
  have ran := scheduled.ran
  cases frame with
  | post call pc =>
    cases pc with
    | cancel seen | requestCas seen =>
      cases seen <;> simp only [Frame.access, PostCall.access] at accesses <;>
        refine ⟨⟨?_, ?_⟩, ?_⟩ <;>
        grind -linarith [ScheduleFact, PostPc.schedulesFirst, PostPc.followsRun, IdleState.toTaskState,
          Untouched]
    | resolveLoad epoch =>
      simp only [Frame.access, PostCall.access] at accesses
      split at accesses <;> refine ⟨⟨?_, ?_⟩, ?_⟩ <;>
        grind -linarith [ScheduleFact, PostPc.schedulesFirst, PostPc.followsRun, Untouched]
    | _ =>
      simp only [Frame.access, PostCall.access, PostCall.requestSchedule, PostCall.requestWake,
        PostCall.resolveCleared, TaskCell.promise, TaskCell.handOver] at accesses
      refine ⟨⟨?_, ?_⟩, ?_⟩ <;>
        grind -linarith [ScheduleFact, PostPc.schedulesFirst, PostPc.followsRun, Untouched]
  | exec task pc =>
    cases pc <;> simp [Frame.ownedState] at linked <;>
      simp only [Frame.access, execAccess, TaskCell.releaseLifetimeRef,
        TaskCell.handOver] at accesses <;>
      refine ⟨⟨?_, ?_⟩, ?_⟩ <;> grind -linarith [Untouched, ScheduleFact]
  | complete task pc | release task pc =>
    cases pc <;>
      simp only [Frame.access, completeAccess, releaseAccess,
        TaskCell.releaseLifetimeRef] at accesses <;>
      refine ⟨⟨?_, ?_⟩, ?_⟩ <;> grind -linarith [Untouched, ScheduleFact]

end Accesses

section Moves

variable {cell cell' : TaskCell} {frame : Frame} {next : Option Frame} {others : Set Frame}
  {inQueue : Prop} {invalidThread : Nat} {spurious : Bool}

theorem ScheduleFact.of_others {live : Frame} (fact : ScheduleFact cell live)
    (runs : cell.runs ≤ cell'.runs)
    (untouched : live.ownedState ≠ none → Untouched cell → Untouched cell') :
    ScheduleFact cell' live := by
  cases live with
  | post call pc =>
    refine ⟨fun first => untouched ?_ (fact.1 first), fun follows =>
      (fact.2 follows).trans_le runs⟩
    simp [ownedState_of_schedulesFirst first]
  | exec task pc => trivial
  | complete task pc => trivial
  | release task pc => trivial

section

variable (inv : ScheduleInv ⟨cell, inQueue, insert frame others⟩)

include inv

theorem ScheduleInv.access (linked : TaskView.Linked ⟨cell, inQueue, insert frame others⟩)
    (apart : Apart frame inQueue others)
    (accesses : frame.access invalidThread cell spurious = some (cell', next)) :
    ScheduleInv ⟨cell', inQueue, { following | following ∈ next } ∪ others⟩ := by
  have fact := inv.facts frame (Set.mem_insert _ _)
  obtain ⟨scheduled, nextFacts⟩ :=
    inv.cell.access fact (linked.owned frame (Set.mem_insert _ _)) accesses
  refine ⟨scheduled, ?_⟩
  rintro live (isNext | isOther)
  · exact nextFacts live isNext
  · have liveFact := inv.facts live (Set.mem_insert_of_mem _ isOther)
    refine liveFact.of_others (Frame.access_keeps accesses).2.1 fun owns untouched => ?_
    refine Frame.access_untouched fact accesses ?_ untouched
    by_contra alsoOwns
    exact owns ((apart.owner alsoOwns).2 live isOther)

theorem ScheduleInv.proceed {following : Frame}
    (proceeds : Proceeds frame following ∨ Counts frame following) :
    ScheduleInv ⟨cell, inQueue, insert following others⟩ := by
  obtain ⟨fact, otherFacts⟩ := Set.forall_mem_insert.mp inv.facts
  have nextFact : ScheduleFact cell following := by
    rcases proceeds with proceeds | counts
    · cases proceeds with
      | finish task result => trivial
      | wait =>
        unfold markWaited
        split
        · rename_i call previous waited
          cases previous <;> exact fact
        all_goals exact fact
      | refuse call previous waited => cases previous <;> exact fact
    · cases counts <;> exact fact
  exact ⟨inv.cell, Set.forall_mem_insert.mpr ⟨nextFact, otherFacts⟩⟩

theorem ScheduleInv.push (linked : TaskView.Linked ⟨cell, inQueue, insert frame others⟩)
    (apart : Apart frame inQueue others) (pushes : frame.pushes = true) :
    ScheduleInv ⟨afterPush cell frame, True, others⟩ := by
  have owned := Frame.ownedState_of_pushes pushes
  have isQueued : cell.state = .queued := linked.owned frame (Set.mem_insert _ _) .queued owned
  have sameState : (afterPush cell frame).state = cell.state := by
    unfold afterPush
    split <;> rfl
  have sameRuns : (afterPush cell frame).runs = cell.runs := by
    unfold afterPush
    split <;> rfl
  refine ⟨⟨fun isCreated => ?_, fun ran => ?_⟩, fun live isOther => ?_⟩
  · simp [sameState, isQueued] at isCreated
  · rw [sameRuns]
    exact inv.cell.ran (sameState ▸ ran)
  · have liveFact := inv.facts live (Set.mem_insert_of_mem _ isOther)
    refine liveFact.of_others sameRuns.ge fun owns => ?_
    exact absurd ((apart.owner (by simp [owned])).2 live isOther) owns

end

theorem ScheduleInv.enter {view : TaskView} (inv : ScheduleInv view) (handle : HandleStatus)
    {inQueue : Prop} (fact : ScheduleFact view.cell frame) :
    ScheduleInv ⟨{ view.cell with handle := handle }, inQueue, insert frame view.live⟩ := by
  refine ⟨⟨inv.cell.created, inv.cell.ran⟩, ?_⟩
  rintro live (rfl | isOld)
  · exact fact.of_others le_rfl fun _ => id
  · exact (inv.facts live isOld).of_others le_rfl fun _ => id

end Moves

theorem ScheduleInv.move {config : Config} {permits : TaskView → TaskEvent → Prop}
    {task : TaskId} {before after : TaskView} (inv : ScheduleInv before)
    (linked : before.Linked) (move : TaskMove config permits task before after) :
    ScheduleInv after := by
  cases move with
  | idle => exact inv
  | call _ call _ _ _ _ =>
    refine inv.enter before.cell.handle ⟨fun first => ?_, fun follows => ?_⟩
    · cases first
    · cases follows
  | complete | pop => exact inv.enter before.cell.handle trivial
  | release => exact inv.enter .releasing trivial
  | access cell inQueue frame others spurious cell' next _ apart _ accesses =>
    exact inv.access linked apart accesses
  | proceed cell inQueue frame next others _ _ proceeds => exact inv.proceed (.inl proceeds)
  | count cell inQueue frame next others _ _ _ counts => exact inv.proceed (.inr counts)
  | push cell inQueue frame others _ apart pushes => exact inv.push linked apart pushes

theorem Scheduler.scheduleInv_of_reachable {config : Config} {state : SchedulerState}
    (reached : (system config).Reachable state) (task : TaskId) :
    ScheduleInv (view state task) := by
  induction reached with
  | start starts =>
    obtain ⟨handled, rfl⟩ := starts
    refine ⟨⟨?_, ?_⟩, ?_⟩ <;> simp [view, start, TaskCell.allocated, Untouched]
  | @next before after action reachedBefore _ steps inv =>
    have coherent := coherent_of_reachable reachedBefore
    have move : TaskMove config (fun _ _ => True) task (view before task) (view after task) :=
      coherent.view_move (step_move steps) fun _ _ => trivial
    exact inv.move (coherent.occupancy.linked task) move

end AsyncFlow
