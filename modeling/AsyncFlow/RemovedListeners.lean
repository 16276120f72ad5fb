import AsyncFlow.ListenerRemoval
import AsyncFlow.SettlingQueue

/-!
# Removed listeners are gone

After `remove_listener` with `CloseExistingConnections` every shard that is touched
by the listener has a task that removes it, behind all tasks that add it.  Once no
message about the listener is on its way no shard holds it.
-/

namespace AsyncFlow

open List

namespace ListenerRemoval

open ServerState Server ListenerTraces SettlingQueue

variable {config : ServerConfig} {env : ControlEnv} {state middle after : ServerState}
  {id : ListenerId} {entry : ListenerEntry} {slot shard : Nat}

/-! ### A listener that is being removed -/

/-- The tasks of the shard will remove the listener and its connections for good. -/
def Closing (state : ServerState) (shard : Nat) (id : ListenerId) : Prop :=
  Settles (fun task => task.startMessage id ≠ none)
    (fun task => task = ShardTask.removeListener id .closeExistingConnections)
    (Holds state shard id) (state.tasks shard)

theorem closing_of_not_touches (untouched : ¬ Touches state shard id) : Closing state shard id :=
  .inr ⟨fun holds => untouched (.inl holds),
    fun task inside adds => untouched (.inr ⟨task, inside, adds⟩)⟩

structure Closed (state : ServerState) (id : ListenerId) : Prop where
  used : id.generation ≤ generation state id.slot
  gone : ∀ slot entry, state.entryAt slot = some entry → entry.id ≠ id
  closing : ∀ shard, Closing state shard id

theorem Closing.schedule {task : ShardTask} {own : Nat} (closing : Closing state own id)
    (unrelated : task.startMessage id = none) : Closing (state.schedule shard task) own id := by
  unfold Closing
  by_cases same : own = shard
  · subst same
    rw [schedule_tasks_self]
    exact closing.concat (not_not_intro unrelated)
  · rw [schedule_tasks_of_ne same]
    exact closing

section

variable (closed : Closed state id)

include closed

theorem Closed.schedule {task : ShardTask}
    (unrelated : task.startMessage id = none) : Closed (state.schedule shard task) id :=
  ⟨closed.used, closed.gone, fun own => (closed.closing own).schedule unrelated⟩

theorem Closed.entries (shards : after.shards = state.shards)
    (tasks : after.tasks = state.tasks) (used : id.generation ≤ generation after id.slot)
    (gone : ∀ slot entry, after.entryAt slot = some entry → entry.id ≠ id) : Closed after id := by
  refine ⟨used, gone, fun shard => ?_⟩
  rw [Closing, tasks, holds_congr (congrFun shards shard)]
  exact closed.closing shard

theorem Closed.move (move : Move config state after) : Closed after id := by
  cases move with
  | setEntry changed present sameId sameConfig progress =>
    refine closed.entries rfl rfl closed.used fun own other isOther => ?_
    rw [entryAt_setEntry (lt_of_entryAt present)] at isOther
    split at isOther
    · cases isOther
      exact sameId ▸ closed.gone _ _ present
    · exact closed.gone own other isOther
  | halt env =>
    refine closed.entries rfl rfl closed.used fun own other isOther => ?_
    rw [entryAt_halted] at isOther
    obtain ⟨old, isOld, rfl⟩ := Option.map_eq_some_iff.mp isOther
    exact closed.gone own old isOld
  | count running attempts => exact closed.entries rfl rfl closed.used closed.gone
  | release slot freeFails =>
    obtain ⟨_, _, same⟩ := releaseListenerSlot_listeners state slot freeFails
    refine closed.entries (by rw [same]) (by rw [same]) ?_ fun own other isOther => ?_
    · rw [generation, same]
      exact closed.used
    · rw [entryAt_releaseListenerSlot] at isOther
      split at isOther
      · cases isOther
      · exact closed.gone own other isOther
  | add present installed openListener targets attempt =>
    exact closed.schedule (if_neg (closed.gone _ _ present))
  | task task unrelated inside => exact closed.schedule (unrelated id)

theorem Closed.moves (moves : Moves config state after) : Closed after id := by
  induction moves with
  | refl => exact closed
  | tail _ move ih => exact ih.move move

theorem Closed.shardStep (keyed : Keyed state)
    (step : ShardStep state after) : Closed after id := by
  refine ⟨?_, fun slot entry present => ?_, fun shard => ?_⟩
  · rw [generation, step.generations]
    exact closed.used
  · exact closed.gone slot entry (entryAt_congr step.listeners ▸ present)
  · have closing := closed.closing shard
    -- what a shard without tasks to add the listener holds it held before
    have keeps : (∀ task ∈ state.tasks shard, ¬ task.startMessage id ≠ none) →
        Holds after shard id → Holds state shard id := fun quiet holds => by
      obtain before | ⟨task, inside, adds⟩ := step.touches shard id (.inl holds)
      · exact before
      · exact absurd adds (quiet task inside)
    unfold Closing at closing ⊢
    obtain same | ⟨task, taken, closes⟩ := step.tasks shard
    · rw [same]
      exact closing.mono keeps
    · rw [taken] at closing keeps
      exact closing.pop (closes id keyed) keeps

theorem Closed.storeEntry (counts : Counts state)
    (listener : ListenerConfig) : Closed (state.storeEntry listener).2 id := by
  obtain ⟨_, _, _, same⟩ := storeEntry_listeners state listener
  refine closed.entries (by rw [same]) (by rw [same])
    (Nat.le_trans closed.used (generation_le_storeEntry counts listener id.slot))
    fun own entry present => ?_
  rw [storeEntry_entryAt] at present
  split at present
  · cases present
    rintro rfl
    have used := closed.used
    have isNew := acquired_generation counts
    exact absurd (isNew ▸ used) (Nat.not_succ_le_self _)
  · exact closed.gone own entry present

end

def removalShards (entry : ListenerEntry) : List Nat :=
  entry.activeShards ++ entry.startedShards.filter (· ∉ entry.activeShards)

def Untouched (state : ServerState) (shard : Nat) (id : ListenerId) : Prop :=
  (state.findListener shard id).isNone = true ∧ id ∉ (state.shards shard).connections ∧
    ∀ task ∈ state.tasks shard, task.startMessage id = none

instance : Decidable (Untouched state shard id) := inferInstanceAs (Decidable (_ ∧ _))

theorem not_touches_of_untouched (keyed : Keyed state) (untouched : Untouched state shard id) :
    ¬ Touches state shard id := by
  obtain ⟨notFound, noConnection, noTask⟩ := untouched
  rintro ((⟨slot, listener, installed, isId⟩ | isConnection) | ⟨task, inside, adds⟩)
  · have isSlot := keyed shard slot listener installed
    rw [← isSlot, isId] at installed
    rw [findListener_eq_some.mpr ⟨installed, isId⟩] at notFound
    cases notFound
  · exact noConnection isConnection
  · exact adds (noTask task inside)

/-- The runtime accepts all tasks of the removal, and every shard that gets none is
untouched by the listener unless the listener is active. -/
def Covered (config : ServerConfig) (env : ControlEnv) (state : ServerState)
    (entry : ListenerEntry) : Prop :=
  (∀ shard ∈ removalShards entry, env.accepts entry.id.slot shard = true) ∧
    (entry.phase = .active ∨ ∀ shard < config.threadCount, shard ∉ removalShards entry →
      Untouched state shard entry.id)

instance : Decidable (Covered config env state entry) := inferInstanceAs (Decidable (_ ∧ _))

theorem Closing.scheduleRemove {own : Nat} (closing : Closing state own id) :
    Closing (state.scheduleRemoveListenerFromShard config env id .closeExistingConnections shard)
      own id := by
  unfold scheduleRemoveListenerFromShard
  split
  · exact closing.schedule rfl
  · exact closing

theorem closing_of_accepted (inside : shard < config.threadCount)
    (accepted : env.accepts id.slot shard = true) :
    Closing (state.scheduleRemoveListenerFromShard config env id .closeExistingConnections shard)
      shard id := by
  unfold scheduleRemoveListenerFromShard
  rw [if_pos (by simp [inside, accepted]), Closing, schedule_tasks_self]
  exact .inl (endsClosed_concat _ rfl (not_not_intro rfl))

theorem closing_scheduleRemoves {shards : List Nat}
    (accepts : ∀ own ∈ shards, env.accepts id.slot own = true)
    (closing : shard ∈ shards ∧ shard < config.threadCount ∨ Closing state shard id) :
    Closing (state.scheduleRemoveListenerFromShards config env id shards .closeExistingConnections)
      shard id := by
  induction shards generalizing state with
  | nil => exact closing.resolve_left fun inside => not_mem_nil inside.1
  | cons own shards ih =>
    refine ih (fun other inside => accepts other (mem_cons_of_mem _ inside)) ?_
    obtain ⟨isIn, inside⟩ | closing := closing
    · obtain rfl | isIn := mem_cons.mp isIn
      · exact .inr (closing_of_accepted inside (accepts shard mem_cons_self))
      · exact .inl ⟨isIn, inside⟩
    · exact .inr closing.scheduleRemove

theorem closed_removeListener (inv : Inv config state) (present : state.entryAt id.slot = some entry)
    (isId : entry.id = id) (covered : Covered config env state entry) :
    Closed ((state.releaseListenerSlot id.slot env.freeFails).scheduleRemoveListenerFromShards
      config env id (removalShards entry) .closeExistingConnections) id := by
  obtain ⟨accepts, complete⟩ := covered
  rw [isId] at accepts
  obtain ⟨_, _, same⟩ := releaseListenerSlot_listeners state id.slot env.freeFails
  have touches : ∀ shard, Touches (state.releaseListenerSlot id.slot env.freeFails) shard id ↔
      Touches state shard id := fun shard => by
    rw [same]
    rfl
  obtain ⟨tasks, only⟩ : OnlyTasks (state.releaseListenerSlot id.slot env.freeFails) _ :=
    onlyTasks_scheduleRemoves (removalShards entry) .closeExistingConnections
  refine ⟨?_, fun own other isOther => ?_, fun shard => ?_⟩
  · rw [only, same]
    exact isId ▸ inv.known _ entry (isId ▸ present)
  · rw [only] at isOther
    replace isOther : (state.releaseListenerSlot id.slot env.freeFails).entryAt own = some other :=
      isOther
    rw [entryAt_releaseListenerSlot] at isOther
    split at isOther
    · cases isOther
    next different =>
      rintro rfl
      exact different (inv.slotted own other isOther).symm
  · refine closing_scheduleRemoves accepts ?_
    by_cases isIn : shard ∈ removalShards entry ∧ shard < config.threadCount
    · exact .inl isIn
    · refine .inr (closing_of_not_touches fun isTouched => ?_)
      rw [touches, ← isId] at isTouched
      have installed := inv.installed _ entry present shard isTouched
      have inside := inv.inside _ entry present shard installed
      have notIn : shard ∉ removalShards entry := fun isRemoved => isIn ⟨isRemoved, inside⟩
      obtain isActive | untouched := complete
      · have active := (inv.progress _ entry present).active isActive
        exact notIn (mem_append_left _ (active ▸ installed))
      · exact not_touches_of_untouched inv.keyed (untouched shard inside notIn) isTouched

/-- Removals with `CloseExistingConnections` are covered, and generations of slots do
not wrap around. -/
def removalsCovered (config : ServerConfig) (state : ServerState) : Action → Prop
  | .addListener _ _ => Counts state
  | .removeListener id .closeExistingConnections env =>
    ∀ entry ∈ state.entryAt id.slot, entry.id = id → Covered config env state entry
  | _ => True

instance : ∀ action, Decidable (removalsCovered config state action)
  | .addListener _ _ => inferInstanceAs (Decidable (_ < _))
  | .removeListener id .closeExistingConnections env =>
    inferInstanceAs (Decidable (∀ entry ∈ state.entryAt id.slot, entry.id = id →
      Covered config env state entry))
  | .removeListener _ .stopAcceptOnly _ | .start _ | .stop _ | .handleResult _ _
  | .runTask _ _ _ _ | .accept _ _ _ _ | .adopt _ _ _ | .close _ _ => .isTrue trivial

theorem inv_step {action : Action} (inv : Inv config state)
    (permitted : removalsCovered config state action)
    (steps : step config state action = some after) :
    Inv config after ∧ ∀ id, Closed state id → Closed after id := by
  obtain ⟨middle, shardStep, moves⟩ | ⟨listener, env, rfl, valid, moves⟩ :=
    step_cases inv.slotted steps
  · exact ⟨(inv.shardStep shardStep).moves moves,
      fun id closed => (closed.shardStep inv.keyed shardStep).moves moves⟩
  · exact ⟨(inv.storeEntry permitted valid).moves moves,
      fun id closed => (closed.storeEntry permitted listener).moves moves⟩

theorem inv_initial : Inv config initial := by
  have untouched : ∀ shard id, ¬ Touches initial shard id := by
    rintro shard id ((⟨_, _, installed, _⟩ | isConnection) | ⟨_, inside, _⟩)
    · cases installed
    · exact not_mem_nil isConnection
    · exact not_mem_nil inside
  exact ⟨⟨nodup_nil, fun _ inside => absurd inside not_mem_nil⟩, nofun, nofun, nofun,
    nofun, nofun, fun shard id touches => absurd touches (untouched shard id), nofun,
    fun _ _ => rfl⟩

theorem inv_reachable (reached : (system config).ReachableUnder (removalsCovered config) state) :
    Inv config state := by
  induction reached with
  | start starts =>
    cases starts
    exact inv_initial
  | next _ permitted steps ih => exact (inv_step ih permitted steps).1

/-- A message about the listener is on its way. -/
def InFlight (config : ServerConfig) (state : ServerState) (id : ListenerId) : Prop :=
  ∃ shard < config.threadCount, (∃ task ∈ state.tasks shard, task.startMessage id ≠ none ∨
      ∃ policy ∈ [RemoveListenerPolicy.stopAcceptOnly, .closeExistingConnections],
        task = .removeListener id policy) ∨ (∃ result ∈ state.results shard, result.id = id) ∨
    ∃ source < config.threadCount, id ∈ state.adoptions source shard

instance : Decidable (InFlight config state id) :=
  inferInstanceAs (Decidable (∃ shard < config.threadCount, _))

theorem closed_of_removed (inv : Inv config state)
    (permitted : removalsCovered config state (.removeListener id .closeExistingConnections env))
    (removed : (removeListener config env state id .closeExistingConnections).1 = true) :
    Closed (removeListener config env state id .closeExistingConnections).2 id := by
  unfold removeListener at removed ⊢
  cases present : state.entryAt id.slot with
  | none =>
    rw [present] at removed
    cases removed
  | some entry =>
    rw [present] at removed
    dsimp only at removed ⊢
    split at removed
    · cases removed
    next isEntry =>
      have isId : entry.id = id := by
        simp only [ne_eq, decide_not, Bool.or_eq_true, Bool.not_eq_true',
          decide_eq_false_iff_not, not_or, Decidable.not_not] at isEntry
        exact isEntry.1
      rw [if_neg isEntry]
      exact closed_removeListener inv present isId (permitted entry present isId)

theorem Closed.later (inv : Inv config state) (closed : Closed state id)
    (later : ((system config).startingAt state).ReachableUnder (removalsCovered config) after) :
    Inv config after ∧ Closed after id := by
  induction later with
  | start starts => exact (show _ = state from starts) ▸ ⟨inv, closed⟩
  | next _ permitted steps ih =>
    obtain ⟨kept, closes⟩ := inv_step ih.1 permitted steps
    exact ⟨kept, closes id ih.2⟩

/-- After `remove_listener` with `CloseExistingConnections` returned true, no shard
holds the listener or a connection of it once no message about it is on its way. -/
theorem removed_listener_gone
    (reached : (system config).ReachableUnder (removalsCovered config) state)
    (permitted : removalsCovered config state (.removeListener id .closeExistingConnections env))
    (removed : (removeListener config env state id .closeExistingConnections).1 = true)
    (later : ((system config).startingAt
      (removeListener config env state id .closeExistingConnections).2).ReachableUnder
        (removalsCovered config) after) (quiet : ¬ InFlight config after id) (shard : Nat) :
    (∀ slot listener, (after.shards shard).listeners slot = some listener → listener.id ≠ id) ∧
      id ∉ (after.shards shard).connections := by
  have inv := inv_reachable reached
  have stays := (inv_step inv permitted rfl).1
  obtain ⟨inv, closed⟩ := Closed.later stays (closed_of_removed inv permitted removed) later
  have released : ¬ Holds after shard id := by
    intro holds
    obtain ⟨_, inQueue, rfl⟩ := Settles.mem_of_open (closed.closing shard) holds
    have inside : shard < config.threadCount := by
      by_contra outside
      rw [inv.outside shard (Nat.le_of_not_lt outside)] at inQueue
      exact not_mem_nil inQueue
    exact quiet ⟨shard, inside, .inl ⟨_, inQueue, .inr ⟨_, by simp, rfl⟩⟩⟩
  exact ⟨fun slot listener installed isId => released (.inl ⟨slot, listener, installed, isId⟩),
    fun isConnection => released (.inr isConnection)⟩

def firstListener : ListenerId := ⟨0, 1⟩

theorem removed_listener_gone_active :
    ∃ state after, (system threeThreads).ReachableUnder (removalsCovered threeThreads) state ∧
      firstListener ∈ (state.shards 1).connections ∧
      ((system threeThreads).startingAt (removeListener threeThreads .good state firstListener
        .closeExistingConnections).2).ReachableUnder (removalsCovered threeThreads) after ∧
      ∀ shard, (∀ slot listener, (after.shards shard).listeners slot = some listener →
        listener.id ≠ firstListener) ∧ firstListener ∉ (after.shards shard).connections := by
  obtain ⟨state, reached, connected, permitted, removed, goesOn⟩ :=
    TransitionSystem.exists_reachableUnder (system threeThreads) (removalsCovered threeThreads)
      (show (system threeThreads).initial initial from rfl)
      [.addListener onTwoThreads .good, .start .good, .runTask 1 true true .good,
        .runTask 2 true true .good, .handleResult 1 .good, .handleResult 2 .good, .accept 1 0 1 true]
      (fun state => firstListener ∈ (state.shards 1).connections ∧
        removalsCovered threeThreads state
          (.removeListener firstListener .closeExistingConnections .good) ∧
        (removeListener threeThreads .good state firstListener .closeExistingConnections).1 = true ∧
        (((system threeThreads).startingAt (removeListener threeThreads .good state firstListener
          .closeExistingConnections).2).replay (removalsCovered threeThreads)
            (removeListener threeThreads .good state firstListener .closeExistingConnections).2
            [.runTask 1 true true .good, .runTask 2 true true .good]).any
              (fun after => ¬ InFlight threeThreads after firstListener) = true) (by decide)
  obtain ⟨after, later, quiet⟩ := TransitionSystem.exists_reachableUnder _ _ rfl _ _ goesOn
  exact ⟨state, after, reached, connected, later,
    removed_listener_gone reached permitted removed later quiet⟩

/-- The listener is removed while it is starting, and nothing is sent to the shards;
their results are dropped, and the listener stays open and accepts connections. -/
theorem starting_listener_stays : ∃ state after, (system threeThreads).Reachable state ∧
      (removeListener threeThreads .good state firstListener .closeExistingConnections).1 = true ∧
      ((system threeThreads).startingAt (removeListener threeThreads .good state firstListener
        .closeExistingConnections).2).Reachable after ∧
      ¬ InFlight threeThreads after firstListener ∧
      (after.findListener 1 firstListener).isSome = true ∧
      firstListener ∈ (after.shards 1).connections := by
  obtain ⟨state, reached, removed, goesOn⟩ :=
    TransitionSystem.exists_reachableUnder (system threeThreads) (fun _ _ => True)
      (show (system threeThreads).initial initial from rfl)
      [.addListener onTwoThreads .good, .start .good] (fun state =>
        (removeListener threeThreads .good state firstListener .closeExistingConnections).1 = true ∧
        (((system threeThreads).startingAt (removeListener threeThreads .good state firstListener
          .closeExistingConnections).2).replay (fun _ _ => True)
            (removeListener threeThreads .good state firstListener .closeExistingConnections).2
            [.runTask 1 true true .good, .runTask 2 true true .good, .handleResult 1 .good,
              .handleResult 2 .good, .accept 1 0 1 true]).any
              (fun after => ¬ InFlight threeThreads after firstListener ∧
                (after.findListener 1 firstListener).isSome = true ∧
                firstListener ∈ (after.shards 1).connections) = true) (by decide)
  obtain ⟨after, later, observed⟩ := TransitionSystem.exists_reachableUnder _ _ rfl _ _ goesOn
  exact ⟨state, after, reached, removed, later, observed⟩

end ListenerRemoval

end AsyncFlow
