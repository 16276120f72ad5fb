import AsyncFlow.ListenerStarts

/-!
# Reports of shards about starts

A shard that runs the task of a start turns it into a result.  On the control
thread the result is handled at once, and otherwise it is one more message.
-/

namespace AsyncFlow

open Function List

namespace StartProtocol

open ServerState

variable {config : ServerConfig} {env : ControlEnv} {state after : ServerState}
  {id : ListenerId} {entry : ListenerEntry} {slot shard attempt : Nat} {result : StartResult}

structure Reported (state after : ServerState) (shard : Nat) (result : StartResult) : Prop where
  listeners : after.listeners = state.listeners
  freeSlots : after.freeListenerSlots = state.freeListenerSlots
  attempts : after.attempts = state.attempts
  running : after.running = state.running
  reports : after.reports = state.reports ++ [⟨shard, result⟩]
  others : ∀ id own, own ≠ shard ∨ id ≠ result.id → after.messages id own = state.messages id own
  message : ∃ rest, (state.messages result.id shard).Perm (⟨none, result.attempt⟩ :: rest) ∧
    (after.messages result.id shard).Perm (⟨some result.succeeded, result.attempt⟩ :: rest)

variable {tasks : List ShardTask}

theorem reported_of_task {results : List StartResult} {openListener : Bool} {targets : List Nat}
    (queue : state.tasks shard =
      .addListener result.id openListener targets result.attempt :: tasks)
    (added : results = result :: state.results shard ∨ results = state.results shard ++ [result])
    (shards : Nat → ServerShard) : Reported state { state with
      tasks := update state.tasks shard tasks
      results := update state.results shard results
      reports := state.reports ++ [⟨shard, result⟩]
      shards := shards } shard result := by
  have own : result.startMessage result.id = some ⟨some result.succeeded, result.attempt⟩ :=
    if_pos rfl
  refine ⟨rfl, rfl, rfl, rfl, rfl, fun id own other => ?_,
    tasks.filterMap (·.startMessage result.id) ++
      (state.results shard).filterMap (·.startMessage result.id), ?_, ?_⟩
  · unfold messages
    by_cases same : own = shard
    · subst same
      have unrelated : result.id ≠ id := Ne.symm (other.resolve_left (not_not_intro rfl))
      obtain rfl | rfl := added <;>
        simp [queue, StartResult.startMessage, ShardTask.startMessage, unrelated]
    · simp [same]
  · simp [messages, queue, ShardTask.startMessage]
  · unfold messages
    obtain rfl | rfl := added
    · simp only [update_self, filterMap_cons, own]
      exact perm_middle
    · simp only [update_self, filterMap_append, filterMap_cons, own, filterMap_nil, ← append_assoc]
      exact perm_append_singleton _ _

theorem Reported.more (reports : Reported state after shard result) :
    ∀ report ∈ state.reports, report ∈ after.reports := by
  intro report inside
  rw [reports.reports]
  exact mem_append_left _ inside

theorem Reported.only (reports : Reported state after shard result) (isEntry : entry.id = result.id)
    (starting : Starting state entry attempt) :
    shard ∈ entry.config.installShards ∧ shard ∉ entry.startedShards ∧
      result.attempt = attempt ∧ state.messages entry.id shard = [⟨none, attempt⟩] ∧
      after.messages entry.id shard = [⟨some result.succeeded, attempt⟩] := by
  obtain ⟨rest, before, now⟩ := reports.message
  rw [← isEntry] at before now
  obtain quiet | ⟨installed, notStarted, sent, only⟩ := starting.flight shard
  · rw [quiet] at before
    exact absurd before.length_eq nofun
  · rw [only] at before
    injection singleton_perm.mp before with isMessage isRest
    injection isMessage with isTask isAttempt
    subst isTask isAttempt isRest
    exact ⟨installed, notStarted, rfl, only, perm_singleton.mp now⟩

theorem Starting.afterReport (starting : Starting state entry attempt)
    (reports : Reported state after shard result) (isEntry : entry.id = result.id) :
    Starting after entry attempt := by
  obtain ⟨installed, notStarted, rfl, wasOnly, only⟩ := reports.only isEntry starting
  have others : ∀ own, own ≠ shard → after.messages entry.id own = state.messages entry.id own :=
    fun own different => reports.others entry.id own (.inl different)
  refine { starting with
    running := reports.running.trans starting.running
    flight := fun own => ?_
    reportedOk := fun own started => reports.more _ (starting.reportedOk own started)
    reported := fun own succeeded inside => ?_
    errors := fun own isReport => ?_ }
  · by_cases same : own = shard
    · subst same
      exact .inr ⟨installed, notStarted, _, only⟩
    · rw [others own same]
      exact starting.flight own
  · by_cases same : own = shard
    · subst same
      rw [only] at inside
      injection mem_singleton.mp inside with isSome _
      cases isSome
      rw [reports.reports, isEntry]
      exact mem_append_right _ (mem_singleton_self _)
    · rw [others own same] at inside
      exact reports.more _ (starting.reported own succeeded inside)
  · rw [reports.reports] at isReport
    obtain old | new := mem_append.mp isReport
    · have inside := starting.errors own old
      by_cases same : own = shard
      · subst same
        rw [wasOnly] at inside
        exact absurd (mem_singleton.mp inside) nofun
      · rw [others own same]
        exact inside
    · injection mem_singleton.mp new with same isResult
      subst same
      rw [only, ← isResult]
      exact mem_singleton_self _

theorem EntryInv.afterReport (inv : EntryInv config state entry)
    (reports : Reported state after shard result) : EntryInv config after entry := by
  by_cases isEntry : entry.id = result.id
  · obtain ⟨rest, before, now⟩ := reports.message
    rw [← isEntry] at before now
    have task : ⟨none, result.attempt⟩ ∈ state.messages entry.id shard :=
      before.symm.subset mem_cons_self
    refine ⟨⟨inv.nodup, inv.inside, fun attempt isAttempt => ?_⟩, fun isStarting => ?_,
      fun isActive => ?_, inv.stopped⟩
    · obtain ⟨below, all⟩ := inv.own attempt isAttempt
      refine ⟨reports.attempts ▸ below, fun own message inside => ?_⟩
      by_cases same : own = shard
      · subst same
        obtain rfl | inside := mem_cons.mp (now.subset inside)
        · have ofTask := all own _ task
          exact ofTask
        · exact all own message (before.symm.subset (mem_cons_of_mem _ inside))
      · exact all own message (reports.others entry.id own (.inl same) ▸ inside)
    · obtain ⟨attempt, isAttempt, starting⟩ := inv.starting isStarting
      exact ⟨attempt, isAttempt, starting.afterReport reports isEntry⟩
    · obtain ⟨attempt, _, active⟩ := inv.active isActive
      exact absurd task (active.quiet shard ▸ not_mem_nil)
  · refine inv.keep ⟨fun own => reports.others entry.id own (.inr isEntry), reports.more,
      fun report inside isOwn => ?_, Nat.le_of_eq reports.attempts.symm, reports.running⟩
    rw [reports.reports] at inside
    obtain old | new := mem_append.mp inside
    · exact old
    · rw [mem_singleton.mp new] at isOwn
      exact absurd isOwn.symm isEntry

theorem Inv.afterReport (inv : Inv config none state) (reports : Reported state after shard result) :
    Inv config none after := by
  obtain ⟨rest, before, now⟩ := reports.message
  have task : ⟨none, result.attempt⟩ ∈ state.messages result.id shard :=
    before.symm.subset mem_cons_self
  have bound : result.attempt < state.attempts := inv.bounded result.id shard _ task
  have entries : ∀ slot, after.entryAt slot = state.entryAt slot := fun slot =>
    entryAt_congr reports.listeners
  refine ⟨⟨reports.freeSlots ▸ inv.free.nodup, fun slot isFree => ?_⟩,
    fun slot entry present => inv.slots slot entry (entries slot ▸ present),
    fun slot entry _ present =>
      (inv.entries slot entry nofun (entries slot ▸ present)).afterReport reports,
    fun id own message inside => ?_, fun report inside => ?_, fun id own beyond => ?_⟩
  · rw [entries]
    exact inv.free.vacant slot (reports.freeSlots ▸ isFree)
  · rw [reports.attempts]
    by_cases isOwn : own = shard ∧ id = result.id
    · obtain ⟨rfl, rfl⟩ := isOwn
      obtain rfl | inside := mem_cons.mp (now.subset inside)
      · exact bound
      · exact inv.bounded _ own message (before.symm.subset (mem_cons_of_mem _ inside))
    · rw [reports.others id own (Decidable.not_and_iff_or_not.mp isOwn)] at inside
      exact inv.bounded id own message inside
  · rw [reports.attempts]
    rw [reports.reports] at inside
    obtain old | new := mem_append.mp inside
    · exact inv.reports report old
    · rw [mem_singleton.mp new]
      exact bound
  · have quiet := inv.outside id own beyond
    by_cases isOwn : own = shard ∧ id = result.id
    · obtain ⟨rfl, rfl⟩ := isOwn
      exact absurd task (quiet ▸ not_mem_nil)
    · rw [reports.others id own (Decidable.not_and_iff_or_not.mp isOwn), quiet]

theorem keepsStarts_take {task : ShardTask} (queue : state.tasks shard = task :: tasks)
    (unrelated : ∀ id, task.startMessage id = none) (shards : Nat → ServerShard)
    (adoptions : Nat → Nat → List ListenerId) : KeepsStarts state { state with
      tasks := update state.tasks shard tasks
      shards := shards
      adoptions := adoptions } := by
  refine ⟨fun id own => ?_, rfl, rfl, rfl⟩
  unfold messages
  by_cases same : own = shard
  · subst same
    simp [queue, unrelated]
  · simp [same]

theorem inv_runTask (inv : Inv config none state) {task : ShardTask}
    (queue : state.tasks shard = task :: tasks) (opens : Bool) : Inv config none ({ state with
      tasks := update state.tasks shard tasks }.runTask config env shard opens true task) := by
  cases task with
  | addListener id openListener targets attempt =>
    simp only [runTask]
    generalize added : addListenerOnOwner _ shard _ opens = pair
    obtain ⟨shards, isAdded⟩ : ∃ shards, pair.2 = { state with
        tasks := update state.tasks shard tasks, shards := shards } := by
      obtain ⟨shards, isAdded, -⟩ := addListenerOnOwner_spec { state with
        tasks := update state.tasks shard tasks } shard ⟨id, openListener, targets⟩ opens
      exact ⟨shards, added ▸ isAdded⟩
    rw [isAdded]
    have reports : ∀ results, results = _ ∨ results = _ → Reported state _ shard ⟨id, pair.1, attempt⟩ :=
      fun results isResults => reported_of_task queue isResults shards
    unfold completeListenerStart
    split
    · exact inv_handleListenerStartResult ⟨id, pair.1, attempt⟩
        (inv.afterReport (reports _ (.inl rfl)))
    · exact inv.afterReport (reports _ (.inr rfl))
  | removeListener id policy =>
    exact inv.keep (keepsStarts_take queue (fun _ => rfl) _ _) rfl rfl
  | stop => exact inv.keep (keepsStarts_take queue (fun _ => rfl) _ _) rfl rfl

end StartProtocol

end AsyncFlow
