import AsyncFlow.CalmOperations

/-!
# The shards of a server that was stopped

While a server is not running its control thread adds no listeners.  A stop whose
tasks are accepted therefore settles all shards until the server is started again.
-/

namespace AsyncFlow

open Function List Option

namespace ServerStops

open ServerState Server SettlingQueue

variable {config : ServerConfig} {env : ControlEnv} {state after : ServerState}
  {id : ListenerId} {slot shard : Nat}

theorem inUse_congr (same : after.shards shard = state.shards shard) :
    InUse after shard ↔ InUse state shard := by
  rw [InUse, InUse, same]

structure Keeps (state after : ServerState) : Prop where
  running : after.running = state.running
  settled : ∀ shard, Settled state shard → Settled after shard

theorem Keeps.refl (state : ServerState) : Keeps state state := ⟨rfl, fun _ => id⟩

theorem Calm.keeps (calm : Calm state after) : Keeps state after :=
  ⟨calm.running, fun _ => calm.settled⟩

theorem Keeps.calm {middle : ServerState} (keeps : Keeps state middle) (calm : Calm middle after) :
    Keeps state after :=
  ⟨calm.running.trans keeps.running, fun shard settled => calm.settled (keeps.settled shard settled)⟩

variable {index : Nat}

theorem keeps_pop {task : ShardTask} {rest : List ShardTask}
    (queue : state.tasks index = task :: rest) (running : after.running = state.running)
    (tasks : after.tasks = update state.tasks index rest)
    (others : ∀ other, other ≠ index → after.shards other = state.shards other)
    (closes : task = .stop → ¬ InUse after index)
    (keeps : ¬ Adds task → InUse after index → InUse state index) : Keeps state after := by
  refine ⟨running, fun shard settled => ?_⟩
  by_cases same : shard = index
  · subst same
    rw [Settled, tasks, update_self]
    rw [Settled, queue] at settled
    exact settled.pop closes fun harmless => keeps (harmless task mem_cons_self)
  · rw [Settled, tasks, update_of_ne same, inUse_congr (others shard same)]
    exact settled

theorem keeps_runTask {task : ShardTask} {rest : List ShardTask} {opens accepted : Bool}
    (queue : state.tasks index = task :: rest) :
    Keeps state ({ state with tasks := update state.tasks index rest }.runTask config env
      index opens accepted task) := by
  cases task with
  | addListener id openListener targets attempt =>
    obtain ⟨shards, isAdded, others, -, -⟩ := addListenerOnOwner_spec { state with
      tasks := update state.tasks index rest } index ⟨id, openListener, targets⟩ opens
    simp only [ServerState.runTask]
    rw [isAdded]
    refine Keeps.calm ?_ (calm_completeListenerStart index _ _)
    exact keeps_pop queue rfl rfl others (fun isStop => by cases isStop)
      fun adds => absurd rfl adds
  | removeListener id policy =>
    refine keeps_pop queue rfl rfl (fun other distinct => update_of_ne distinct _ _)
      (fun isStop => by cases isStop) (fun _ used => ?_)
    simp only [InUse, ServerState.runTask, removeListenerOnOwner, withShard, update_self] at used
    obtain ⟨slot, installed⟩ | connected := used
    · refine .inl ⟨slot, fun none => installed ?_⟩
      split
      · by_cases same : slot = id.slot
        · subst same
          exact update_self ..
        · rwa [update_of_ne same]
      · exact none
    · refine .inr fun none => connected ?_
      rw [none, filter_nil, ite_self]
  | stop =>
    refine keeps_pop queue rfl rfl (fun other distinct => update_of_ne distinct _ _)
      (fun _ used => ?_) (fun _ used => ?_) <;>
    simp [InUse, ServerState.runTask, stopOnOwner, withShard] at used

theorem keeps_mono (running : after.running = state.running) (tasks : after.tasks = state.tasks)
    (keeps : ∀ shard, InUse after shard → InUse state shard) : Keeps state after := by
  refine ⟨running, fun shard settled => ?_⟩
  rw [Settled, tasks]
  exact settled.mono fun _ => keeps shard

theorem keeps_addConnection (adoptions : Nat → Nat → List ListenerId) (used : InUse state index) :
    Keeps state ({ state with adoptions := adoptions }.addConnection index id) := by
  refine keeps_mono rfl rfl fun own usedNow => ?_
  by_cases same : own = index
  · exact same ▸ used
  · refine (inUse_congr ?_).mp usedNow
    exact update_of_ne same _ _

theorem keeps_connects (connects : Connects state after) : Keeps state after := by
  obtain ⟨adoptions, rfl | ⟨index, slot, listener, installed, rfl⟩⟩ := connects
  · exact keeps_mono rfl rfl fun _ => id
  · exact keeps_addConnection adoptions (.inl ⟨slot, by simp [installed]⟩)

theorem keeps_close (steps : step config state (.close index id) = some after) :
    Keeps state after := by
  obtain ⟨-, closes⟩ := ite_none_right_eq_some.mp steps
  cases closes
  refine keeps_mono rfl rfl fun own used => ?_
  by_cases same : own = index
  · subst same
    simp only [InUse, withShard, update_self] at used
    exact used.imp_right fun some none => some (by rw [none, erase_nil])
  · refine (inUse_congr ?_).mp used
    exact update_of_ne same _ _

theorem scheduleStops_tasks (env : ControlEnv) (shards : List Nat) (state : ServerState) :
    (scheduleStops env shards state).shards = state.shards ∧
    (scheduleStops env shards state).running = state.running ∧
    ∀ shard, (scheduleStops env shards state).tasks shard = state.tasks shard ++
      List.replicate (shards.countP fun own => own = shard && env.accepts 0 own) .stop := by
  induction shards generalizing state with
  | nil => exact ⟨rfl, rfl, fun _ => (append_nil _).symm⟩
  | cons index rest ih =>
    rw [scheduleStops, foldl_cons]
    obtain ⟨sameShards, sameRunning, tasks⟩ := ih (if env.accepts 0 index then
      state.schedule index .stop else state)
    refine ⟨sameShards.trans ?_, sameRunning.trans ?_, fun shard => (tasks shard).trans ?_⟩
    · split <;> rfl
    · split <;> rfl
    · rw [countP_cons]
      by_cases accepted : env.accepts 0 index
      · by_cases same : index = shard
        · subst same
          simp only [accepted, if_true, schedule_tasks_self, decide_true, Bool.and_self,
            append_assoc, singleton_append, replicate_succ]
        · simp only [accepted, if_true, schedule_tasks_of_ne (Ne.symm same), same, decide_false,
            Bool.false_and, Bool.false_eq_true, if_false, Nat.add_zero]
      · simp only [accepted, Bool.false_eq_true, if_false, Bool.and_false, Nat.add_zero]

theorem settled_scheduleStops {shards : List Nat}
    (reached : shard ∈ shards ∧ env.accepts 0 shard = true ∨ Settled state shard) :
    Settled (scheduleStops env shards state) shard := by
  obtain ⟨sameShards, -, tasks⟩ := scheduleStops_tasks env shards state
  rw [Settled, tasks, InUse, sameShards]
  have harmless : ∀ count, ∀ task ∈ List.replicate count ShardTask.stop, ¬ Adds task := by
    intro count task added
    simp [eq_of_mem_replicate added, Adds]
  obtain ⟨inside, accepted⟩ | settled := reached
  · have some : 0 < shards.countP fun own => own = shard && env.accepts 0 own :=
      countP_pos_iff.mpr ⟨shard, inside, by simp [accepted]⟩
    exact .inl (endsClosed_append _ (mem_replicate.mpr ⟨Nat.ne_of_gt some, rfl⟩) rfl (harmless _))
  · exact Settles.append settled (harmless _)

/-- A stop task is refused only on a shard that is not in use and is to add nothing, or
that will be closed anyway. -/
def stopsUsedShards (config : ServerConfig) (state : ServerState) : Action → Prop
  | .stop env => state.running = true → ∀ shard < config.threadCount,
      env.accepts 0 shard = true ∨ Settled state shard
  | _ => True

def Stopped (config : ServerConfig) (state : ServerState) : Prop :=
  state.running = false → ∀ shard < config.threadCount, Settled state shard

theorem Stopped.keeps (stopped : Stopped config state) (keeps : Keeps state after) :
    Stopped config after :=
  fun notRunning shard inside =>
    keeps.settled shard (stopped (keeps.running.symm.trans notRunning) shard inside)

theorem stopped_stop (stopped : Stopped config state)
    (used : state.running = true → ∀ shard < config.threadCount,
      env.accepts 0 shard = true ∨ Settled state shard) :
    Stopped config (state.stop config env).2 := by
  unfold ServerState.stop
  split
  · exact stopped
  split
  · exact stopped
  next isRunning _ =>
    intro _ shard inside
    refine settled_scheduleStops ((used (by simpa using isRunning) shard inside).imp_left ?_)
    exact fun accepted => ⟨mem_range.mpr inside, accepted⟩

theorem stopped_step {action : Action} (stopped : Stopped config state)
    (permitted : stopsUsedShards config state action)
    (steps : step config state action = some after) : Stopped config after := by
  cases action with
  | addListener listener env =>
    cases steps
    obtain ⟨-, runs⟩ | calm := calm_addListener config env state listener
    · exact fun notRunning => absurd (runs.symm.trans notRunning) (by decide)
    · exact stopped.keeps calm.keeps
  | removeListener id policy env =>
    cases steps
    exact stopped.keeps (calm_removeListener policy).keeps
  | start env =>
    cases steps
    unfold ServerState.start
    split
    · exact stopped
    split
    · exact stopped
    · intro notRunning
      rw [running_startSlots] at notRunning
      cases notRunning
  | stop env =>
    cases steps
    exact stopped_stop stopped permitted
  | handleResult index env =>
    simp only [step] at steps
    split at steps
    · cases steps
      refine stopped.keeps (Calm.trans ?_ (calm_handle _)).keeps
      exact .of_tasks rfl rfl rfl
    · cases steps
  | runTask index opens accepted env =>
    simp only [step] at steps
    split at steps
    next task tasks queue =>
      cases steps
      exact stopped.keeps (keeps_runTask queue)
    · cases steps
  | accept index slot target succeeds => exact stopped.keeps (keeps_connects (connects_accept steps))
  | adopt source target creates => exact stopped.keeps (keeps_connects (connects_adopt steps))
  | close index id => exact stopped.keeps (keeps_close steps)

theorem stopped_reachable (reached : (system config).ReachableUnder (stopsUsedShards config) state) :
    Stopped config state := by
  induction reached with
  | start starts =>
    cases (show _ = initial from starts)
    intro _ shard _
    refine .inr ⟨?_, fun _ absent => absurd absent not_mem_nil⟩
    rintro (⟨slot, some⟩ | some) <;> exact some rfl
  | next _ permitted steps ih => exact stopped_step ih permitted steps

theorem endsClosed_of_stopped (stopped : Stopped config state)
    (succeeds : (state.stop config env).1 = true) (inside : shard < config.threadCount)
    (used : InUse (state.stop config env).2 shard) :
    EndsClosed Adds (· = .stop) ((state.stop config env).2.tasks shard) := by
  have settled : Settled (state.stop config env).2 shard := by
    unfold ServerState.stop at succeeds ⊢
    split
    · next notRunning => exact stopped (by simpa using notRunning) shard inside
    next isRunning =>
      rw [if_neg isRunning] at succeeds
      split
      next fails =>
        rw [if_pos fails] at succeeds
        cases succeeds
      next memory =>
        rw [if_neg memory] at succeeds
        refine settled_scheduleStops (.inl ⟨mem_range.mpr inside, ?_⟩)
        exact all_eq_true.mp succeeds shard (mem_range.mpr inside)
  exact settled.resolve_right fun closed => closed.1 used

end ServerStops

end AsyncFlow
