import AsyncFlow.LogStops

/-!
# Flushes of a file backend

The writer acknowledges all flushes that are requested when it loads `flush_requests`.
It has found the queue empty before that, but a batch and a flush may have come since.
-/

namespace AsyncFlow

open Function List

/-- The run has found the queue empty and has not stored `completed_flushes`. -/
def SenderTask.flushes : SenderTask → Bool
  | .running .flushing | .running .syncing | .running (.acknowledging _)
  | .running (.completing _ _) => true
  | _ => false

/-- The run is about to load `flush_requests`. -/
def SenderTask.acknowledges : SenderTask → Bool
  | .running (.acknowledging _) => true
  | _ => false

namespace LogBackend

variable {config : LogConfig} {state after : LogBackend} {thread : Nat} {ack : FlushAck}

/-- The batches that are pushed and neither written nor counted as dropped. -/
def unsettled (state : LogBackend) : List Nat :=
  state.readyBatches.map (·.serial) ++ (state.current.map (·.1.serial)).toList

/-- What was pushed before an acknowledged request is written or dropped, and synced if
the `fsync` succeeded. -/
structure Covers (state : LogBackend) (ack : FlushAck) : Prop where
  known : ack.upTo ≤ state.goals.length
  settled : ∀ request < ack.upTo, ∀ goal, state.goals[request]? = some goal →
    ∀ serial ∈ state.unsettled, goal ≤ serial
  synced : ack.synced = true → ∀ request < ack.upTo, ∀ goal, state.goals[request]? = some goal →
    ∀ serial ∈ state.unsynced, goal ≤ serial

structure Progress (state after : LogBackend) : Prop where
  goals : after.flushRequests = state.flushRequests ∧ after.goals = state.goals ∨
    after.flushRequests = state.flushRequests + 1 ∧ after.goals = state.goals ++ [state.pushed]
  pushed : state.pushed ≤ after.pushed
  unsettled : ∀ serial ∈ after.unsettled, serial ∈ state.unsettled ∨ state.pushed ≤ serial
  unsynced : ∀ serial ∈ after.unsynced, serial ∈ state.unsynced ∨ serial ∈ state.unsettled

theorem progress_stepEnqueue (pc : LogEnqueuePc) :
    Progress state (state.stepEnqueue config thread pc) := by
  unfold stepEnqueue acquireProducerBatch leaveEnqueue withCaller
  cases pc with
  | acquiring records any =>
    cases spare : state.producerSpareBatch <;> cases free : state.freeBatches <;> dsimp only <;>
      split <;> constructor <;> simp +contextual [LogBackend.unsettled]
  | _ =>
    repeat' split
    all_goals constructor <;> grind [LogBackend.unsettled]

theorem progress_stepSender {pc : SenderPc} {outcome : SendOutcome}
    (steps : state.stepSender config outcome pc = some after) : Progress state after := by
  unfold stepSender sendCurrent advance settle goTo returnPending returnAgain at steps
  cases pc <;> dsimp only at steps <;> repeat' split at steps
  all_goals cases steps
  all_goals constructor <;> grind [LogBackend.unsettled]

theorem progress_of_step {action : Action} (steps : step config state action = some after) :
    Progress state after := by
  cases action with
  | caller thread answer =>
    rcases step_caller steps with ⟨pc, -, rfl⟩ | ⟨-, ⟨other⟩⟩
    · exact progress_stepEnqueue pc
    · obtain ⟨_, _, _, _, _, _, _, _, _, _, _, rfl, -, -, goals⟩ := other
      constructor <;> grind [LogBackend.unsettled]
  | sender outcome =>
    simp only [step] at steps
    split at steps
    · exact progress_stepSender steps
    · cases steps
  | _ =>
    simp only [step, call, goTo, withCaller] at steps
    repeat' split at steps
    all_goals cases steps
    all_goals constructor <;> simp +contextual [LogBackend.unsettled]

structure Flushed (state : LogBackend) : Prop where
  between : state.task.flushes = true → state.current = none
  requests : state.goals.length = state.flushRequests
  goals_le : ∀ goal ∈ state.goals, goal ≤ state.pushed
  acks : ∀ ack ∈ state.acks, Covers state ack
  synced : state.task = .running (.acknowledging true) → state.unsynced = []
  loaded : ∀ requested synced, state.task = .running (.completing requested synced) →
    Covers state ⟨requested, synced⟩
  completed : ∀ request < state.completedFlushes, ∃ ack ∈ state.acks, request < ack.upTo

/-- The queue is still empty when the requests to acknowledge are loaded. -/
def acknowledgesEmpty (state : LogBackend) : Action → Prop
  | .sender _ => state.task.acknowledges = true → state.readyBatches = []
  | _ => True

instance (state : LogBackend) : (action : Action) → Decidable (acknowledgesEmpty state action)
  | .sender _ =>
    inferInstanceAs (Decidable (state.task.acknowledges = true → state.readyBatches = []))
  | .enqueue _ | .flush _ | .stop _ | .caller .. | .run | .ioReady => .isTrue trivial

theorem Covers.keep (covers : Covers state ack) (flushed : Flushed state)
    (progress : Progress state after) : Covers after ack := by
  obtain ⟨known, settled, synced⟩ := covers
  have goals_le := flushed.goals_le
  obtain ⟨grown, -, unsettled, unsynced⟩ := progress
  have goals : ∀ request < ack.upTo, after.goals[request]? = state.goals[request]? := by grind
  refine ⟨by grind, fun request below goal isGoal serial inside => ?_,
    fun isSynced request below goal isGoal serial inside => ?_⟩ <;>
    rw [goals request below] at isGoal
  · have := goals_le goal (mem_of_getElem? isGoal)
    rcases unsettled serial inside with before | fresh
    · exact settled request below goal isGoal serial before
    · omega
  · rcases unsynced serial inside with before | before
    · exact synced isSynced request below goal isGoal serial before
    · exact settled request below goal isGoal serial before

attribute [local grind] SenderTask.flushes SenderTask.acknowledges

theorem Flushed.keep (flushed : Flushed state) (progress : Progress state after) :
    after.goals.length = after.flushRequests ∧ (∀ goal ∈ after.goals, goal ≤ after.pushed) ∧
      ∀ ack, Covers state ack → Covers after ack := by
  have requests := flushed.requests
  have goals_le := flushed.goals_le
  refine ⟨?_, ?_, fun ack covered => covered.keep flushed progress⟩ <;>
    grind [progress.goals, progress.pushed]

theorem Flushed.sender (flushed : Flushed state) {pc : SenderPc} {outcome : SendOutcome}
    (isPc : state.task = .running pc)
    (permitted : state.task.acknowledges = true → state.readyBatches = [])
    (steps : state.stepSender config outcome pc = some after) : Flushed after := by
  obtain ⟨requests, goals_le, covers⟩ := flushed.keep (progress_stepSender steps)
  obtain ⟨between, wereRequests, -, acked, synced, loaded, completed⟩ := flushed
  have acks : ∀ ack ∈ state.acks, Covers after ack := fun ack inside => covers ack (acked ack inside)
  rw [isPc] at between synced loaded permitted
  cases pc with
  | acknowledging isSynced =>
    cases steps
    have noBatch : state.unsettled = [] := by
      simp [unsettled, permitted rfl, between rfl]
    refine ⟨fun _ => between rfl, requests, goals_le, acks, by simp [goTo], ?_, completed⟩
    rintro _ _ ⟨⟩
    refine covers _ ⟨wereRequests ▸ Nat.le_refl _, by simp [noBatch], ?_⟩
    rintro rfl
    simp [synced rfl]
  | completing requested isSynced =>
    cases steps
    have covered := covers _ (loaded requested isSynced rfl)
    refine ⟨by simp [goTo, SenderTask.flushes], requests, goals_le, ?_, by simp [goTo],
      by simp [goTo], fun request below => ⟨_, mem_append_right _ mem_cons_self, below⟩⟩
    intro ack inside
    rcases mem_append.mp inside with before | isNew
    · exact acks ack before
    · exact mem_singleton.mp isNew ▸ covered
  | _ =>
    unfold stepSender sendCurrent advance settle goTo returnPending returnAgain at steps
    dsimp only at steps
    repeat' split at steps
    all_goals cases steps
    all_goals refine ⟨?_, requests, goals_le, acks, ?_, ?_, completed⟩ <;> grind -linarith

theorem Flushed.other (flushed : Flushed state) (progress : Progress state after)
    (same : (after.acks, after.completedFlushes, after.current, after.unsynced) =
      (state.acks, state.completedFlushes, state.current, state.unsynced))
    (task : after.task = state.task ∨ after.task.flushes = false) : Flushed after := by
  obtain ⟨requests, goals_le, covers⟩ := flushed.keep progress
  obtain ⟨between, -, -, acked, synced, loaded, completed⟩ := flushed
  simp only [Prod.mk.injEq] at same
  obtain ⟨acks, completes, current, unsynced⟩ := same
  refine ⟨by grind, requests, goals_le, ?_, by grind, by grind, ?_⟩ <;> rw [acks]
  · exact fun ack inside => covers ack (acked ack inside)
  · rwa [completes]

theorem Flushed.step {action : Action} (flushed : Flushed state)
    (permitted : acknowledgesEmpty state action) (steps : step config state action = some after) :
    Flushed after := by
  have progress := progress_of_step steps
  cases action with
  | caller thread answer =>
    rcases step_caller steps with ⟨pc, -, rfl⟩ | ⟨-, ⟨other⟩⟩
    · obtain ⟨_, _, _, _, _, _, _, _, isAfter, -⟩ := @stepEnqueue_eq config state thread pc
      rw [isAfter] at progress ⊢
      exact flushed.other progress rfl (.inl rfl)
    · obtain ⟨_, _, _, _, _, _, _, _, _, _, _, rfl, -, task, -⟩ := other
      exact flushed.other progress rfl (by grind)
  | sender outcome =>
    simp only [LogBackend.step] at steps
    split at steps
    · rename_i pc isPc
      exact flushed.sender isPc permitted steps
    · cases steps
  | _ =>
    simp only [LogBackend.step, call, goTo, withCaller] at steps
    repeat' split at steps
    all_goals cases steps
    all_goals exact flushed.other progress rfl (by grind)

theorem flushed_reachable (reached : (system config).ReachableUnder acknowledgesEmpty state) :
    Flushed state := by
  induction reached with
  | start starts =>
    cases starts
    constructor <;> simp [initial]
  | next reached permitted steps ih => exact ih.step permitted steps

/-- When no batch comes between the last look at the queue and the load of
`flush_requests`, what was pushed before a completed request is written or dropped,
and an `fsync` that succeeded for it came after that. -/
theorem completed_flush_covers (reached : (system config).ReachableUnder acknowledgesEmpty state)
    {request goal : Nat} (completed : request < state.completedFlushes)
    (requested : state.goals[request]? = some goal) :
    (∀ serial ∈ state.unsettled, goal ≤ serial) ∧ ∃ ack ∈ state.acks, request < ack.upTo ∧
      (ack.synced = true → ∀ serial ∈ state.unsynced, goal ≤ serial) := by
  have flushed := flushed_reachable reached
  obtain ⟨ack, isAck, below⟩ := flushed.completed request completed
  have covers := flushed.acks ack isAck
  exact ⟨covers.settled request below goal requested, ack, isAck, below,
    fun synced => covers.synced synced request below goal requested⟩

theorem completed_flush_covers_synced :
    ∃ state, (system oneFileBatch).ReachableUnder acknowledgesEmpty state ∧
      state.goals = [1] ∧ state.sentRecords = 1 ∧ (∀ serial ∈ state.unsettled, 1 ≤ serial) ∧
      ∃ ack ∈ state.acks, 0 < ack.upTo ∧
        (ack.synced = true → ∀ serial ∈ state.unsynced, 1 ≤ serial) := by
  obtain ⟨state, reached, isGoal, sent, completed⟩ :=
    (system oneFileBatch).exists_reachableUnder acknowledgesEmpty
      (show (system oneFileBatch).initial (initial oneFileBatch) from rfl)
      (.flatten [enqueueOne, [.flush 1, .caller 1 true, .run], .replicate 6 (.sender (.sent 1)),
        [.run], .replicate 7 (.sender .synced)])
      (fun state => state.goals = [1] ∧ state.sentRecords = 1 ∧ state.completedFlushes = 1)
      (by decide +kernel)
  exact ⟨state, reached, isGoal, sent,
    completed_flush_covers reached (by omega) (by rw [isGoal]; rfl)⟩

/-- The writer finds the queue empty; a record is enqueued and a flush requested,
which is acknowledged with the batch still in the queue. -/
theorem completed_flush_misses_batch :
    ∃ state, (system oneFileBatch).Reachable state ∧ state.completedFlushes = 2 ∧
      state.goals = [0, 1] ∧ 0 ∈ state.unsettled :=
  (system oneFileBatch).exists_reachableUnder (fun _ _ => True)
    (show (system oneFileBatch).initial (initial oneFileBatch) from rfl)
    (.flatten [[.flush 1], .replicate 5 (.caller 1 true), [.run], .replicate 3 (.sender .blocked),
      enqueueOne.take 8, [.flush 1, .caller 1 true], .replicate 4 (.sender .synced)])
    _ (by decide +kernel)

end LogBackend

end AsyncFlow
