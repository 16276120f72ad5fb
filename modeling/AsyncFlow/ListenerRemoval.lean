import AsyncFlow.ListenerTraces

/-!
# Listeners that are removed with their connections

When `remove_listener` is told to close the connections, it sends a task to the
shards that its entry knows of.  Every other shard must be untouched by the
listener, which is so for an active listener only.
-/

namespace AsyncFlow

open List

namespace ListenerRemoval

open ServerState Server ListenerTraces

variable {config : ServerConfig} {env : ControlEnv} {state middle after : ServerState}
  {id : ListenerId} {entry : ListenerEntry} {slot shard : Nat}

def generation (state : ServerState) (slot : Nat) : Nat := state.listenerGenerations.getD slot 0

structure Inv (config : ServerConfig) (state : ServerState) : Prop where
  free : FreeSlots state
  slotted : Slotted state
  keyed : Keyed state
  progress : ∀ slot entry, state.entryAt slot = some entry → entry.Progress
  inside : ∀ slot entry, state.entryAt slot = some entry →
    ∀ shard ∈ entry.config.installShards, shard < config.threadCount
  known : ∀ slot entry, state.entryAt slot = some entry →
    entry.id.generation ≤ generation state slot
  touched : ∀ shard id, Touches state shard id → id.generation ≤ generation state id.slot
  installed : ∀ slot entry, state.entryAt slot = some entry → ∀ shard, Touches state shard entry.id →
    shard ∈ entry.config.installShards
  outside : ∀ shard, config.threadCount ≤ shard → state.tasks shard = []

theorem Inv.entries (inv : Inv config state) (free : FreeSlots after)
    (shards : after.shards = state.shards) (tasks : after.tasks = state.tasks)
    (generations : after.listenerGenerations = state.listenerGenerations)
    (old : ∀ slot entry, after.entryAt slot = some entry → ∃ before,
      state.entryAt slot = some before ∧ entry.id = before.id ∧ entry.config = before.config ∧
        (before.Progress → entry.Progress)) : Inv config after := by
  have touches : ∀ shard id, Touches after shard id ↔ Touches state shard id := fun shard id => by
    rw [Touches, Touches, tasks, holds_congr (congrFun shards shard)]
  refine ⟨free, fun slot entry present => ?_, fun shard => shards ▸ inv.keyed shard,
    fun slot entry present => ?_, fun slot entry present => ?_, fun slot entry present => ?_,
    fun shard id isTouched => ?_, fun slot entry present shard isTouched => ?_,
    fun shard => tasks ▸ inv.outside shard⟩
  · obtain ⟨before, isBefore, isId, _⟩ := old slot entry present
    exact isId ▸ inv.slotted slot before isBefore
  · obtain ⟨before, isBefore, _, _, progress⟩ := old slot entry present
    exact progress (inv.progress slot before isBefore)
  · obtain ⟨before, isBefore, _, isConfig, _⟩ := old slot entry present
    exact isConfig ▸ inv.inside slot before isBefore
  · obtain ⟨before, isBefore, isId, _⟩ := old slot entry present
    rw [isId, generation, generations]
    exact inv.known slot before isBefore
  · rw [generation, generations]
    exact inv.touched shard id ((touches shard id).mp isTouched)
  · obtain ⟨before, isBefore, isId, isConfig, _⟩ := old slot entry present
    rw [isConfig]
    rw [touches, isId] at isTouched
    exact inv.installed slot before isBefore shard isTouched

theorem touches_schedule {task : ShardTask} {own : Nat}
    (touches : Touches (state.schedule shard task) own id) :
    Touches state own id ∨ own = shard ∧ task.startMessage id ≠ none := by
  obtain holds | ⟨added, inside, adds⟩ := touches
  · exact .inl (.inl holds)
  · by_cases same : own = shard
    · subst same
      simp only [schedule, Function.update_self, mem_append, mem_singleton] at inside
      obtain old | rfl := inside
      · exact .inl (.inr ⟨added, old, adds⟩)
      · exact .inr ⟨rfl, adds⟩
    · simp only [schedule, Function.update_of_ne same] at inside
      exact .inl (.inr ⟨added, inside, adds⟩)

theorem Inv.schedule (inv : Inv config state) (inside : shard < config.threadCount)
    {task : ShardTask}
    (adds : ∀ id, task.startMessage id ≠ none → id.generation ≤ generation state id.slot ∧
      ∀ slot entry, state.entryAt slot = some entry → entry.id = id →
        shard ∈ entry.config.installShards) : Inv config (state.schedule shard task) := by
  refine { inv with
    free := ⟨inv.free.nodup, inv.free.vacant⟩
    touched := fun own id touches => ?_
    installed := fun slot entry present own touches => ?_
    outside := fun own beyond => ?_ }
  · obtain old | ⟨-, isAdd⟩ := touches_schedule touches
    · exact inv.touched own id old
    · exact (adds id isAdd).1
  · obtain old | ⟨rfl, isAdd⟩ := touches_schedule touches
    · exact inv.installed slot entry present own old
    · exact (adds entry.id isAdd).2 slot entry present rfl
  · have other : own ≠ shard := by omega
    exact (Function.update_of_ne other _ _).trans (inv.outside own beyond)

theorem entry_unique {own : Nat} {other : ListenerEntry} (slotted : Slotted state)
    (present : state.entryAt slot = some entry) (isOther : state.entryAt own = some other)
    (same : other.id = entry.id) : other = entry := by
  have isSlot : own = slot := by
    rw [← slotted own other isOther, same, slotted slot entry present]
  subst isSlot
  exact Option.some.inj (isOther.symm.trans present)

theorem startMessage_add_ne_none {own : ListenerId} {openListener : Bool} {targets : List Nat}
    {attempt : Nat}
    (adds : (ShardTask.addListener own openListener targets attempt).startMessage id ≠ none) :
    id = own := by
  by_contra other
  exact adds (if_neg (Ne.symm other))

theorem Inv.move (inv : Inv config state) (move : Move config state after) : Inv config after := by
  cases move with
  | setEntry changed present sameId sameConfig progress =>
    refine inv.entries (inv.free.setEntry present changed) rfl rfl rfl fun own other isOther => ?_
    rw [entryAt_setEntry (lt_of_entryAt present)] at isOther
    split at isOther
    next same =>
      cases isOther
      exact ⟨_, same ▸ present, sameId, sameConfig, progress⟩
    · exact ⟨other, isOther, rfl, rfl, id⟩
  | halt env =>
    refine inv.entries inv.free.halted rfl rfl rfl fun own other isOther => ?_
    rw [entryAt_halted] at isOther
    obtain ⟨old, isOld, rfl⟩ := Option.map_eq_some_iff.mp isOther
    exact ⟨old, isOld, rfl, rfl, fun _ => ⟨nofun, nofun⟩⟩
  | count running attempts =>
    exact inv.entries ⟨inv.free.nodup, inv.free.vacant⟩ rfl rfl rfl fun own other isOther =>
      ⟨other, isOther, rfl, rfl, id⟩
  | release slot freeFails =>
    obtain ⟨_, _, same⟩ := releaseListenerSlot_listeners state slot freeFails
    refine inv.entries (inv.free.release slot freeFails) (by rw [same]) (by rw [same])
      (by rw [same]) fun own other isOther => ?_
    rw [entryAt_releaseListenerSlot] at isOther
    split at isOther
    · cases isOther
    · exact ⟨other, isOther, rfl, rfl, id⟩
  | add present installed openListener targets attempt =>
    refine inv.schedule (inv.inside _ _ present _ installed) fun id adds => ?_
    obtain rfl := startMessage_add_ne_none adds
    refine ⟨?_, fun own other isOther same => ?_⟩
    · have known := inv.known _ _ present
      rwa [← inv.slotted _ _ present] at known
    · exact entry_unique inv.slotted present isOther same ▸ installed
  | task task unrelated inside =>
    exact inv.schedule inside fun id adds => absurd (unrelated id) adds

theorem Inv.moves (inv : Inv config state) (moves : Moves config state after) :
    Inv config after := by
  induction moves with
  | refl => exact inv
  | tail _ move ih => exact ih.move move

theorem Inv.shardStep (inv : Inv config state) (step : ShardStep state after) :
    Inv config after := by
  have entries : ∀ slot, after.entryAt slot = state.entryAt slot := fun slot =>
    entryAt_congr step.listeners
  have generations : ∀ slot, generation after slot = generation state slot := fun slot => by
    rw [generation, step.generations, generation]
  refine ⟨inv.free.mono step.freeSlots fun slot vacant => (entries slot).trans vacant,
    fun slot entry present => inv.slotted slot entry (entries slot ▸ present), step.keyed inv.keyed,
    fun slot entry present => inv.progress slot entry (entries slot ▸ present),
    fun slot entry present => inv.inside slot entry (entries slot ▸ present),
    fun slot entry present => generations slot ▸ inv.known slot entry (entries slot ▸ present),
    fun shard id touches => generations id.slot ▸ inv.touched shard id (step.touches shard id touches),
    fun slot entry present shard touches => inv.installed slot entry (entries slot ▸ present) shard
      (step.touches shard _ touches), fun shard beyond => ?_⟩
  have empty := inv.outside shard beyond
  obtain same | ⟨task, taken, _⟩ := step.tasks shard
  · rw [same, empty]
  · rw [empty] at taken
    cases taken

/-! ### New entries -/

theorem takeSlot_generations (state : ServerState) :
    state.takeSlot.2.listenerGenerations = state.listenerGenerations ++
      List.replicate (state.takeSlot.1 + 1 - state.listenerGenerations.length) 0 := by
  unfold takeSlot
  split <;> rfl

theorem getD_append_zeros (generations : List Nat) (count slot : Nat) :
    (generations ++ List.replicate count 0).getD slot 0 = generations.getD slot 0 := by
  grind

def Counts (state : ServerState) : Prop :=
  generation state state.acquireListenerSlot.1.slot + 1 < generationValues

theorem acquired_generation (counts : Counts state) : state.acquireListenerSlot.1.generation =
      generation state state.acquireListenerSlot.1.slot + 1 := by
  have isNext : state.acquireListenerSlot.1.generation =
      nextGeneration (state.takeSlot.2.listenerGenerations.getD state.takeSlot.1 0) := rfl
  have isSlot : state.acquireListenerSlot.1.slot = state.takeSlot.1 := rfl
  unfold Counts at counts
  rw [isNext, takeSlot_generations, getD_append_zeros, ← isSlot]
  unfold nextGeneration
  rw [generation] at counts ⊢
  rw [Nat.mod_eq_of_lt counts]
  exact if_neg (Nat.succ_ne_zero _)

theorem generation_storeEntry (listener : ListenerConfig) (own : Nat) :
    generation (state.storeEntry listener).2 own =
      if own = state.acquireListenerSlot.1.slot then state.acquireListenerSlot.1.generation
      else generation state own := by
  have isSlot : state.acquireListenerSlot.1.slot = state.takeSlot.1 := rfl
  have isSet : (state.storeEntry listener).2.listenerGenerations =
      state.takeSlot.2.listenerGenerations.set state.takeSlot.1
        state.acquireListenerSlot.1.generation := rfl
  rw [generation, isSet, isSlot, takeSlot_generations]
  split
  next same =>
    subst same
    rw [getD_eq_getElem?_getD, getElem?_set_self (by simp; omega)]
    rfl
  next other =>
    rw [getD_eq_getElem?_getD, getElem?_set_ne (Ne.symm other),
      ← getD_eq_getElem?_getD, getD_append_zeros, generation]

theorem generation_le_storeEntry (counts : Counts state) (listener : ListenerConfig) (own : Nat) :
    generation state own ≤ generation (state.storeEntry listener).2 own := by
  rw [generation_storeEntry]
  split
  next same =>
    rw [acquired_generation counts, same]
    exact Nat.le_succ _
  · exact Nat.le_refl _

theorem Inv.storeEntry (inv : Inv config state) (counts : Counts state) {listener : ListenerConfig}
    (valid : listener.validate config = true) : Inv config (state.storeEntry listener).2 := by
  obtain ⟨_, _, _, same⟩ := storeEntry_listeners state listener
  have isNew := acquired_generation counts
  have touches : ∀ shard id, Touches (state.storeEntry listener).2 shard id ↔
      Touches state shard id := fun shard id => by
    rw [same]
    rfl
  -- no shard is touched by the new listener
  have fresh : ∀ shard, ¬ Touches state shard state.acquireListenerSlot.1 := fun shard isTouched => by
    have known := inv.touched shard _ isTouched
    omega
  have grows := generation_le_storeEntry counts listener
  refine ⟨inv.free.store listener, slotted_storeEntry inv.slotted listener, ?_, fun own entry present => ?_,
    fun own entry present => ?_, fun own entry present => ?_, fun shard id isTouched => ?_,
    fun own entry present shard isTouched => ?_, ?_⟩
  · rw [same]
    exact inv.keyed
  · rw [storeEntry_entryAt] at present
    split at present
    · cases present
      exact ⟨nofun, nofun⟩
    · exact inv.progress own entry present
  · rw [storeEntry_entryAt] at present
    split at present
    · cases present
      exact (ListenerConfig.threads_of_validate valid).2
    · exact inv.inside own entry present
  · rw [storeEntry_entryAt] at present
    split at present
    next isSlot =>
      cases present
      rw [generation_storeEntry, if_pos isSlot]
      exact Nat.le_refl _
    · exact Nat.le_trans (inv.known own entry present) (grows own)
  · exact Nat.le_trans (inv.touched shard id ((touches shard id).mp isTouched)) (grows id.slot)
  · rw [touches] at isTouched
    rw [storeEntry_entryAt] at present
    split at present
    · cases present
      exact absurd isTouched (fresh shard)
    · exact inv.installed own entry present shard isTouched
  · rw [same]
    exact inv.outside

end ListenerRemoval

end AsyncFlow
