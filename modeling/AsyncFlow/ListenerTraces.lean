import AsyncFlow.ControlMoves

/-!
# Traces of listeners on shards

A shard is touched by a listener when it has the listener or a connection of it,
or is about to add it.  A step of a shard touches it by no other listener; the
control thread sends a listener only to the shards on which its entry installs it.
-/

namespace AsyncFlow

open Function List Option

namespace ListenerTraces

open ServerState Server

variable {config : ServerConfig} {env : ControlEnv} {state middle after : ServerState}
  {id : ListenerId} {entry : ListenerEntry} {slot shard : Nat}

def Holds (state : ServerState) (shard : Nat) (id : ListenerId) : Prop :=
  (∃ slot listener, (state.shards shard).listeners slot = some listener ∧ listener.id = id) ∨
    id ∈ (state.shards shard).connections

def Touches (state : ServerState) (shard : Nat) (id : ListenerId) : Prop :=
  Holds state shard id ∨ ∃ task ∈ state.tasks shard, task.startMessage id ≠ none

def Keyed (state : ServerState) : Prop :=
  ∀ shard slot listener, (state.shards shard).listeners slot = some listener →
    listener.id.slot = slot

/-! ### Steps of shards -/

/-- What a step of a shard, and whatever else is not done by the control thread, can do. -/
structure ShardStep (state after : ServerState) : Prop where
  listeners : after.listeners = state.listeners
  freeSlots : after.freeListenerSlots = state.freeListenerSlots
  generations : after.listenerGenerations = state.listenerGenerations
  touches : ∀ shard id, Touches after shard id → Touches state shard id
  keyed : Keyed state → Keyed after
  tasks : ∀ shard, after.tasks shard = state.tasks shard ∨
    ∃ task, state.tasks shard = task :: after.tasks shard ∧
      ∀ id, Keyed state → task = .removeListener id .closeExistingConnections →
        ¬ Holds after shard id

theorem ShardStep.refl (state : ServerState) : ShardStep state state :=
  ⟨rfl, rfl, rfl, fun _ _ => id, id, fun _ => .inl rfl⟩

theorem holds_congr (same : after.shards shard = state.shards shard) :
    Holds after shard id ↔ Holds state shard id := by
  rw [Holds, Holds, same]

theorem ShardStep.of_shard (index : Nat) (listeners : after.listeners = state.listeners)
    (freeSlots : after.freeListenerSlots = state.freeListenerSlots)
    (generations : after.listenerGenerations = state.listenerGenerations)
    (otherTasks : ∀ shard, shard ≠ index → after.tasks shard = state.tasks shard)
    (others : ∀ shard, shard ≠ index → after.shards shard = state.shards shard)
    (ofListeners : ∀ slot listener, (after.shards index).listeners slot = some listener →
      (state.shards index).listeners slot = some listener ∨ listener.id.slot = slot ∧
        ∃ task ∈ state.tasks index, task.startMessage listener.id ≠ none)
    (ofConnections : ∀ id ∈ (after.shards index).connections, Holds state index id)
    (tasks : after.tasks index = state.tasks index ∨
      ∃ task, state.tasks index = task :: after.tasks index ∧
        ∀ id, Keyed state → task = .removeListener id .closeExistingConnections →
          ¬ Holds after index id) : ShardStep state after := by
  refine ⟨listeners, freeSlots, generations, fun shard id touches => ?_,
    fun keyed shard slot listener installed => ?_, fun shard => ?_⟩
  · by_cases same : shard = index
    · subst same
      obtain (⟨slot, listener, installed, isId⟩ | isConnection) | ⟨task, inside, adds⟩ := touches
      · obtain old | ⟨-, new⟩ := ofListeners slot listener installed
        · exact .inl (.inl ⟨slot, listener, old, isId⟩)
        · exact .inr (isId ▸ new)
      · exact .inl (ofConnections id isConnection)
      · refine .inr ⟨task, ?_, adds⟩
        obtain same | ⟨_, taken, _⟩ := tasks
        · exact same ▸ inside
        · exact taken ▸ mem_cons_of_mem _ inside
    · rw [Touches, holds_congr (others shard same), otherTasks shard same] at touches
      exact touches
  · by_cases same : shard = index
    · subst same
      obtain old | ⟨isSlot, -⟩ := ofListeners slot listener installed
      · exact keyed shard slot listener old
      · exact isSlot
    · exact keyed shard slot listener (others shard same ▸ installed)
  · by_cases same : shard = index
    · exact same ▸ tasks
    · exact .inl (otherTasks shard same)

theorem ShardStep.of_task {task : ShardTask} {rest : List ShardTask} {index : Nat}
    (queue : state.tasks index = task :: rest) (tasks : after.tasks = update state.tasks index rest)
    (listeners : after.listeners = state.listeners)
    (freeSlots : after.freeListenerSlots = state.freeListenerSlots)
    (generations : after.listenerGenerations = state.listenerGenerations)
    (others : ∀ shard, shard ≠ index → after.shards shard = state.shards shard)
    (ofListeners : ∀ slot listener, (after.shards index).listeners slot = some listener →
      (state.shards index).listeners slot = some listener ∨
        listener.id.slot = slot ∧ task.startMessage listener.id ≠ none)
    (ofConnections : ∀ id ∈ (after.shards index).connections, id ∈ (state.shards index).connections)
    (closes : ∀ id, Keyed state → task = .removeListener id .closeExistingConnections →
      ¬ Holds after index id) : ShardStep state after := by
  have own : after.tasks index = rest := by rw [tasks, update_self]
  refine .of_shard index listeners freeSlots generations (fun shard other => ?_) others
    (fun slot listener installed => ?_) (fun id isConnection => .inr (ofConnections id isConnection))
    (.inr ⟨task, own ▸ queue, closes⟩)
  · rw [tasks, update_of_ne other]
  · obtain old | ⟨isSlot, adds⟩ := ofListeners slot listener installed
    · exact .inl old
    · exact .inr ⟨isSlot, task, queue ▸ mem_cons_self, adds⟩

theorem shardStep_addConnection (adoptions : Nat → Nat → List ListenerId)
    (holds : Holds state shard id) :
    ShardStep state ({ state with adoptions := adoptions }.addConnection shard id) := by
  refine .of_shard shard rfl rfl rfl (fun _ _ => rfl) (fun own other => ?_)
    (fun slot own isOwn => .inl ?_) (fun own isConnection => ?_) (.inl rfl)
  · simp [addConnection, withShard, other]
  · simpa [addConnection, withShard] using isOwn
  · simp only [addConnection, withShard, update_self, mem_append, mem_singleton] at isConnection
    obtain old | rfl := isConnection
    · exact .inr old
    · exact holds

theorem shardStep_connects (connects : Connects state after) : ShardStep state after := by
  obtain ⟨adoptions, rfl | ⟨shard, slot, listener, installed, rfl⟩⟩ := connects
  · exact ⟨rfl, rfl, rfl, fun _ _ => id, id, fun _ => .inl rfl⟩
  · exact shardStep_addConnection adoptions (.inl ⟨slot, listener, installed, rfl⟩)

theorem shardStep_close
    (steps : step config state (.close shard id) = some after) : ShardStep state after := by
  obtain ⟨-, closes⟩ := ite_none_right_eq_some.mp steps
  cases closes
  refine .of_shard shard rfl rfl rfl (fun _ _ => rfl) (fun own other => ?_)
    (fun slot own isOwn => .inl ?_) (fun id isConnection => .inr ?_) (.inl rfl)
  · simp [withShard, other]
  · simpa [withShard] using isOwn
  · simp only [withShard, update_self] at isConnection
    exact mem_of_mem_erase isConnection

theorem shardStep_handleResult {results : List StartResult} :
    ShardStep state { state with results := update state.results shard results } :=
  ⟨rfl, rfl, rfl, fun _ _ => id, id, fun _ => .inl rfl⟩

variable {tasks : List ShardTask}

theorem shardStep_add (listener : ShardListener) {attempt : Nat} {shards : Nat → ServerShard}
    (queue : state.tasks shard = .addListener listener.id listener.openListener
      listener.targetShards attempt :: tasks)
    (others : ∀ own, own ≠ shard → shards own = state.shards own)
    (ofListeners : ∀ slot own, (shards shard).listeners slot = some own →
      (state.shards shard).listeners slot = some own ∨ slot = listener.id.slot ∧ own = listener)
    (ofConnections : (shards shard).connections = (state.shards shard).connections)
    (results : Nat → List StartResult) (reports : List StartReport) : ShardStep state { state with
      tasks := update state.tasks shard tasks
      shards := shards
      results := results
      reports := reports } := by
  refine .of_task queue rfl rfl rfl rfl others (fun slot own installed => ?_)
    (fun own isConnection => ofConnections ▸ isConnection) nofun
  obtain old | ⟨rfl, rfl⟩ := ofListeners slot own installed
  · exact .inl old
  · refine .inr ⟨rfl, ?_⟩
    simp [ShardTask.startMessage]

theorem shardStep_remove {policy : RemoveListenerPolicy}
    (queue : state.tasks shard = .removeListener id policy :: tasks) : ShardStep state ({ state with
      tasks := update state.tasks shard tasks }.removeListenerOnOwner shard id policy) := by
  refine .of_task queue rfl rfl rfl rfl (fun own other => update_of_ne other _ _)
    (fun slot own installed => .inl ?_) (fun own isConnection => ?_) (fun own keyed isRemove => ?_)
  · simp only [removeListenerOnOwner, withShard, update_self] at installed
    split at installed
    · by_cases same : slot = id.slot
      · subst same
        simp at installed
      · rwa [update_of_ne same] at installed
    · exact installed
  · simp only [removeListenerOnOwner, withShard, update_self] at isConnection
    split at isConnection
    · exact (mem_filter.mp isConnection).1
    · exact isConnection
  · cases isRemove
    rintro (⟨slot, listener, installed, isId⟩ | isConnection)
    · simp only [removeListenerOnOwner, withShard, update_self] at installed
      split at installed
      · by_cases same : slot = id.slot
        · subst same
          simp at installed
        · rw [update_of_ne same] at installed
          exact same ((keyed shard slot listener installed).symm.trans (congrArg (·.slot) isId))
      next notFound =>
        have isSlot := keyed shard slot listener installed
        rw [← isSlot, isId] at installed
        exact notFound (isSome_iff_exists.mpr
          ⟨listener, findListener_eq_some.mpr ⟨installed, isId⟩⟩)
    · simp [removeListenerOnOwner, withShard] at isConnection

theorem shardStep_stop (queue : state.tasks shard = .stop :: tasks) : ShardStep state ({ state with
      tasks := update state.tasks shard tasks }.stopOnOwner shard) := by
  refine .of_task queue rfl rfl rfl rfl (fun own other => update_of_ne other _ _)
    (fun slot own installed => ?_) (fun own isConnection => ?_) nofun
  · simp [stopOnOwner, withShard] at installed
  · simp [stopOnOwner, withShard] at isConnection

theorem shardStep_runTask {task : ShardTask} {opens accepted : Bool} (slotted : Slotted state)
    (queue : state.tasks shard = task :: tasks) :
    ∃ middle, ShardStep state middle ∧ Moves config middle ({ state with
      tasks := update state.tasks shard tasks }.runTask config env shard opens accepted task) := by
  cases task with
  | addListener id openListener targets attempt =>
    simp only [runTask]
    obtain ⟨shards, isAdded, others, ofListeners, ofConnections⟩ := addListenerOnOwner_spec { state with
      tasks := update state.tasks shard tasks } shard ⟨id, openListener, targets⟩ opens
    rw [isAdded]
    have added := shardStep_add ⟨id, openListener, targets⟩ queue others ofListeners ofConnections
    unfold completeListenerStart
    split
    · refine ⟨_, added _ _, Moves.handle ?_ _⟩
      exact slotted
    split <;> exact ⟨_, added _ _, .refl _⟩
  | removeListener id policy => exact ⟨_, shardStep_remove queue, .refl _⟩
  | stop => exact ⟨_, shardStep_stop queue, .refl _⟩

theorem slotted_storeEntry (slotted : Slotted state) (listener : ListenerConfig) :
    Slotted (state.storeEntry listener).2 := by
  intro own entry present
  rw [storeEntry_entryAt] at present
  split at present
  next same =>
    cases present
    exact same.symm
  · exact slotted own entry present

theorem step_cases {action : Action} (slotted : Slotted state)
    (steps : step config state action = some after) :
    (∃ middle, ShardStep state middle ∧ Moves config middle after) ∨
      ∃ listener env, action = .addListener listener env ∧ listener.validate config = true ∧
        Moves config (state.storeEntry listener).2 after := by
  have control : Moves config state after → ∃ middle, ShardStep state middle ∧ Moves config middle after :=
    fun moves => ⟨state, .refl state, moves⟩
  cases action with
  | addListener listener env =>
    cases steps
    obtain same | ⟨valid, moves⟩ : (addListener config env state listener).2 = state ∨ _ :=
      Moves.addListener (slotted_storeEntry slotted listener)
    · refine .inl (control ?_)
      rw [same]
      exact .refl state
    · exact .inr ⟨listener, env, rfl, valid, moves⟩
  | removeListener id policy env =>
    cases steps
    exact .inl (control (Moves.removeListener policy))
  | start env =>
    cases steps
    exact .inl (control (Moves.start slotted))
  | stop env =>
    cases steps
    exact .inl (control Moves.stop)
  | handleResult shard env =>
    simp only [step] at steps
    split at steps
    · cases steps
      refine .inl ⟨_, shardStep_handleResult, Moves.handle ?_ _⟩
      exact slotted
    · cases steps
  | runTask shard opens accepted env =>
    simp only [step] at steps
    split at steps
    next task tasks queue =>
      cases steps
      exact .inl (shardStep_runTask slotted queue)
    · cases steps
  | accept shard slot target succeeds => exact .inl ⟨after, shardStep_connects (connects_accept steps), .refl after⟩
  | adopt source target creates => exact .inl ⟨after, shardStep_connects (connects_adopt steps), .refl after⟩
  | close shard id => exact .inl ⟨after, shardStep_close steps, .refl after⟩

end ListenerTraces

end AsyncFlow
