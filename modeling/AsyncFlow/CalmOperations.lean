import AsyncFlow.ListenerTraces
import AsyncFlow.SettlingQueue

/-!
# Calm operations of a server

Most operations of the control thread leave what the shards have and send no task that
adds a listener; starts do that only while the server runs.
-/

namespace AsyncFlow

open List

namespace ServerStops

open ServerState Server SettlingQueue

variable {config : ServerConfig} {env : ControlEnv} {state middle after : ServerState}
  {id : ListenerId} {entry : ListenerEntry} {slot shard : Nat}

def Adds (task : ShardTask) : Prop := task matches .addListener ..

def InUse (state : ServerState) (shard : Nat) : Prop :=
  (∃ slot, (state.shards shard).listeners slot ≠ none) ∨ (state.shards shard).connections ≠ []

/-- All listeners and connections of the shard will be closed when its queue is empty. -/
def Settled (state : ServerState) (shard : Nat) : Prop :=
  Settles Adds (· = .stop) (InUse state shard) (state.tasks shard)

/-- Nothing that a shard has is touched, and no task is added that adds a listener. -/
structure Calm (state after : ServerState) : Prop where
  running : after.running = state.running
  shards : after.shards = state.shards
  tasks : ∀ shard, ∃ added, after.tasks shard = state.tasks shard ++ added ∧
    ∀ task ∈ added, ¬ Adds task

theorem Calm.of_tasks (running : after.running = state.running)
    (shards : after.shards = state.shards) (tasks : after.tasks = state.tasks) : Calm state after :=
  ⟨running, shards, fun shard =>
    ⟨[], by rw [tasks, append_nil], fun _ absent => absurd absent not_mem_nil⟩⟩

theorem Calm.refl (state : ServerState) : Calm state state := .of_tasks rfl rfl rfl

theorem Calm.trans (first : Calm state middle) (second : Calm middle after) : Calm state after := by
  refine ⟨second.running.trans first.running, second.shards.trans first.shards, fun shard => ?_⟩
  obtain ⟨before, isBefore, quietBefore⟩ := first.tasks shard
  obtain ⟨behind, isBehind, quietBehind⟩ := second.tasks shard
  refine ⟨before ++ behind, by rw [isBehind, isBefore, append_assoc], fun task added => ?_⟩
  exact (mem_append.mp added).elim (quietBefore task) (quietBehind task)

theorem Calm.settled (calm : Calm state after) (settled : Settled state shard) :
    Settled after shard := by
  obtain ⟨added, isAdded, quiet⟩ := calm.tasks shard
  rw [Settled, isAdded, InUse, calm.shards]
  exact Settles.append settled quiet

theorem calm_schedule {task : ShardTask} (harmless : ¬ Adds task) :
    Calm state (state.schedule shard task) := by
  refine ⟨rfl, rfl, fun own => ?_⟩
  by_cases same : own = shard
  · subst same
    exact ⟨[task], schedule_tasks_self state own task,
      fun other added => mem_singleton.mp added ▸ harmless⟩
  · exact ⟨[], by rw [schedule_tasks_of_ne same, append_nil],
      fun _ absent => absurd absent not_mem_nil⟩

theorem calm_scheduleRemove (policy : RemoveListenerPolicy) :
    Calm state (state.scheduleRemoveListenerFromShard config env id policy shard) := by
  unfold scheduleRemoveListenerFromShard
  split
  · exact calm_schedule nofun
  · exact .refl state

theorem calm_scheduleRemoves (shards : List Nat) (policy : RemoveListenerPolicy) :
    Calm state (state.scheduleRemoveListenerFromShards config env id shards policy) := by
  induction shards generalizing state with
  | nil => exact .refl state
  | cons shard shards ih => exact (calm_scheduleRemove policy).trans ih

theorem calm_setEntry : Calm state (state.setEntry slot entry) := .of_tasks rfl rfl rfl

theorem calm_failStart (started : List Nat) :
    Calm state (state.failStart config env entry started) :=
  calm_setEntry.trans (calm_scheduleRemoves _ _)

theorem calm_countStarted : Calm state (state.countStarted config env entry shard) := by
  unfold countStarted
  split
  · exact calm_failStart _
  dsimp only
  split
  · exact calm_setEntry
  split
  · exact calm_failStart _
  split
  · exact calm_setEntry
  · exact calm_setEntry.trans (calm_scheduleRemoves _ _)

theorem calm_handle (succeeded : Bool) :
    Calm state (state.handleListenerStartResult config env id shard succeeded) := by
  have unexpected : Calm state (if succeeded then
      state.scheduleRemoveListenerFromShard config env id .stopAcceptOnly shard else state) := by
    split
    · exact calm_scheduleRemove _
    · exact .refl state
  unfold handleListenerStartResult
  dsimp only
  split
  · exact .refl state
  split
  · exact unexpected
  · split
    · exact unexpected
    split
    · exact calm_countStarted
    · exact calm_failStart _

theorem calm_storeEntry (listener : ListenerConfig) : Calm state (state.storeEntry listener).2 := by
  obtain ⟨_, _, _, same⟩ := storeEntry_listeners state listener
  rw [same]
  exact .of_tasks rfl rfl rfl

theorem calm_release (freeFails : Bool) :
    Calm state (state.releaseListenerSlot slot freeFails) := by
  obtain ⟨_, _, same⟩ := releaseListenerSlot_listeners state slot freeFails
  rw [same]
  exact .of_tasks rfl rfl rfl

theorem calm_removeListener (policy : RemoveListenerPolicy) :
    Calm state (state.removeListener config env id policy).2 := by
  unfold ServerState.removeListener
  split
  · exact .refl state
  · split
    · exact .refl state
    · exact (calm_release _).trans (calm_scheduleRemoves _ _)

theorem calm_completeListenerStart (index : Nat) (result : StartResult) (accepted : Bool) :
    Calm state (state.completeListenerStart config env index result accepted) := by
  have reported : Calm state { state with reports := state.reports ++ [⟨index, result⟩] } :=
    .of_tasks rfl rfl rfl
  unfold completeListenerStart
  split
  · exact reported.trans (calm_handle _)
  split
  · exact .of_tasks rfl rfl rfl
  · exact reported

theorem running_scheduleAdds {attempt : Nat} {shards : List Nat} :
    (scheduleAdds config env entry attempt shards state).2.running = state.running := by
  induction shards generalizing state with
  | nil => rfl
  | cons shard shards ih =>
    unfold scheduleAdds
    split
    · exact ih
    · exact (calm_handle false).running

theorem running_startListenerSlot :
    (startListenerSlot config env state slot).2.running = state.running := by
  unfold startListenerSlot
  split
  · rfl
  split
  · rfl
  split
  · rfl
  split
  · rfl
  · exact running_scheduleAdds

theorem running_startSlots {slots : List Nat} :
    (startSlots config env slots state).2.running = state.running := by
  induction slots generalizing state with
  | nil => rfl
  | cons slot slots ih => exact ih.trans running_startListenerSlot

theorem calm_addListener (config : ServerConfig) (env : ControlEnv) (state : ServerState)
    (listener : ListenerConfig) :
    state.running = true ∧ (state.addListener config env listener).2.running = true ∨
      Calm state (state.addListener config env listener).2 := by
  have stored : Calm state (state.storeEntry listener).2 := calm_storeEntry listener
  unfold ServerState.addListener
  split
  · exact .inr (.refl state)
  dsimp only
  split
  · exact .inr stored
  next isRunning =>
    have runs : state.running = true := by simpa using isRunning
    have started : (startListenerSlot config env (state.storeEntry listener).2
        (state.storeEntry listener).1.slot).2.running = true :=
      running_startListenerSlot.trans (stored.running.trans runs)
    refine .inl ⟨runs, ?_⟩
    split
    · exact started
    split
    · exact (calm_release _).running.trans started
    · exact started

end ServerStops

end AsyncFlow
