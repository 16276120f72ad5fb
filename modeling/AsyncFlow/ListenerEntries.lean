import AsyncFlow.ServerSystem

/-!
# Entries of listeners and messages about their starts

What the functions of the control thread do to the entries of listeners, and to
the tasks and results that are on their way for a start.
-/

namespace AsyncFlow

open Function List

theorem ListenerConfig.threads_of_validate {config : ServerConfig} {listener : ListenerConfig}
    (valid : listener.validate config = true) :
    listener.installShards.Nodup ∧ ∀ shard ∈ listener.installShards, shard < config.threadCount := by
  simp only [validate, Bool.and_eq_true, decide_eq_true_eq, Bool.not_eq_true',
    Bool.or_eq_false_iff, any_eq_false] at valid
  refine ⟨valid.2, fun shard installed => ?_⟩
  have inside := valid.1.2 shard installed
  simp only [Bool.or_eq_true, decide_eq_true_eq, not_or] at inside
  omega

namespace ServerState

variable {config : ServerConfig} {env : ControlEnv} {state after : ServerState}
  {id other : ListenerId} {entry : ListenerEntry} {slot shard : Nat}

theorem entryAt_congr (same : after.listeners = state.listeners) :
    after.entryAt slot = state.entryAt slot := by
  rw [entryAt, entryAt, same]

theorem entryAt_of_le (outside : state.listeners.length ≤ slot) : state.entryAt slot = none := by
  rw [entryAt, getElem?_eq_none outside]
  rfl

theorem lt_of_entryAt (present : state.entryAt slot = some entry) :
    slot < state.listeners.length := by
  by_contra outside
  rw [entryAt_of_le (Nat.le_of_not_lt outside)] at present
  cases present

theorem mem_listeners (present : state.entryAt slot = some entry) : some entry ∈ state.listeners :=
  mem_of_getElem? (Option.join_eq_some_iff.mp present)

theorem entryAt_setEntry (inside : slot < state.listeners.length) (own : Nat)
    (entry : ListenerEntry) :
    (state.setEntry slot entry).entryAt own = if own = slot then some entry else state.entryAt own := by
  unfold entryAt setEntry
  by_cases same : own = slot
  · subst same
    simp [inside]
  · simp [same, getElem?_set_ne (Ne.symm same)]

theorem getElem?_join_append_none (listeners : List (Option ListenerEntry)) (count own : Nat) :
    (listeners ++ List.replicate count none)[own]?.join = listeners[own]?.join := by
  grind

theorem trimLoop_getElem? (rounds own : Nat) (listeners : List (Option ListenerEntry))
    (free : List Nat) : (trimLoop rounds listeners free).1[own]?.join = listeners[own]?.join := by
  induction rounds generalizing listeners free with
  | zero => rfl
  | succ rounds ih =>
    unfold trimLoop
    split
    next last =>
      obtain ⟨front, rfl⟩ := getLast?_eq_some_iff.mp last
      rw [ih, dropLast_concat]
      exact (getElem?_join_append_none front 1 own).symm
    · rfl

theorem entryAt_releaseListenerSlot (freeFails : Bool) (own : Nat) :
    (state.releaseListenerSlot slot freeFails).entryAt own =
      if own = slot then none else state.entryAt own := by
  unfold releaseListenerSlot
  split
  next outside =>
    split
    next same =>
      subst same
      simp [entryAt, getElem?_eq_none outside]
    · rfl
  · refine (trimLoop_getElem? ..).trans ?_
    by_cases same : own = slot
    · subst same
      rw [if_pos rfl, getElem?_set_self' ]
      cases state.listeners[own]? <;> rfl
    · rw [if_neg same, getElem?_set_ne (Ne.symm same), entryAt]

theorem takeSlot_listeners (state : ServerState) : ∃ count,
    state.takeSlot.2.listeners = state.listeners ++ List.replicate count none := by
  unfold takeSlot
  split <;> exact ⟨_, rfl⟩

theorem entryAt_acquireListenerSlot (own : Nat) :
    state.acquireListenerSlot.2.entryAt own = state.entryAt own := by
  obtain ⟨count, same⟩ := takeSlot_listeners state
  have listeners : state.acquireListenerSlot.2.listeners = state.takeSlot.2.listeners := rfl
  rw [entryAt, listeners, same, getElem?_join_append_none, entryAt]

theorem acquireListenerSlot_lt (state : ServerState) :
    state.acquireListenerSlot.1.slot < state.acquireListenerSlot.2.listeners.length := by
  have slot : state.acquireListenerSlot.1.slot = state.takeSlot.1 := rfl
  have listeners : state.acquireListenerSlot.2.listeners = state.takeSlot.2.listeners := rfl
  rw [slot, listeners]
  unfold takeSlot
  split
  · simp
    omega
  · simp

theorem storeEntry_listeners (state : ServerState) (listener : ListenerConfig) :
    ∃ listeners generations free, (state.storeEntry listener).2 = { state with
      listeners := listeners
      listenerGenerations := generations
      freeListenerSlots := free } := by
  unfold storeEntry acquireListenerSlot takeSlot
  dsimp only
  split <;> exact ⟨_, _, _, rfl⟩

theorem releaseListenerSlot_listeners (state : ServerState) (slot : Nat) (freeFails : Bool) :
    ∃ listeners free, state.releaseListenerSlot slot freeFails =
      { state with listeners := listeners, freeListenerSlots := free } := by
  unfold releaseListenerSlot
  split <;> exact ⟨_, _, rfl⟩

/-! ### Free slots -/

structure FreeSlots (state : ServerState) : Prop where
  nodup : state.freeListenerSlots.Nodup
  vacant : ∀ slot ∈ state.freeListenerSlots, state.entryAt slot = none

theorem eraseFreeListenerSlot_sublist (free : List Nat) (slot : Nat) :
    (eraseFreeListenerSlot free slot).Sublist free := by
  have erased : (free.reverse.erase slot).Sublist free.reverse := erase_sublist
  simpa [eraseFreeListenerSlot] using erased.reverse

theorem trimLoop_free_sublist (rounds : Nat) (listeners : List (Option ListenerEntry))
    (free : List Nat) : (trimLoop rounds listeners free).2.Sublist free := by
  induction rounds generalizing listeners free with
  | zero => exact List.Sublist.refl _
  | succ rounds ih =>
    unfold trimLoop
    split
    · exact (ih _ _).trans (eraseFreeListenerSlot_sublist free _)
    · exact List.Sublist.refl _

theorem FreeSlots.release (free : FreeSlots state) (slot : Nat) (freeFails : Bool) :
    FreeSlots (state.releaseListenerSlot slot freeFails) := by
  have vacant : ∀ own, own ∈ state.freeListenerSlots ∨ own = slot →
      (state.releaseListenerSlot slot freeFails).entryAt own = none := by
    intro own isFree
    rw [entryAt_releaseListenerSlot]
    split
    · rfl
    · next different => exact free.vacant own (isFree.resolve_right different)
  suffices sub : ∃ kept, (state.releaseListenerSlot slot freeFails).freeListenerSlots.Sublist kept ∧
      kept.Nodup ∧ ∀ own ∈ kept, own ∈ state.freeListenerSlots ∨ own = slot by
    obtain ⟨kept, isSub, nodup, known⟩ := sub
    exact ⟨nodup.sublist isSub, fun own isFree => vacant own (known own (isSub.subset isFree))⟩
  unfold releaseListenerSlot
  split
  · exact ⟨_, List.Sublist.refl _, free.nodup, fun _ => .inl⟩
  · refine ⟨_, trimLoop_free_sublist _ _ _, ?_⟩
    split
    next pushed =>
      simp only [Bool.and_eq_true, decide_eq_true_eq] at pushed
      refine ⟨nodup_append.mpr ⟨free.nodup, nodup_cons.mpr ⟨not_mem_nil, nodup_nil⟩, ?_⟩, fun own isFree => ?_⟩
      · rintro own isFree _ isSlot rfl
        exact pushed.1.2 (mem_singleton.mp isSlot ▸ isFree)
      · simpa using isFree
    · exact ⟨free.nodup, fun _ => .inl⟩

theorem acquired_vacant (free : FreeSlots state) :
    state.entryAt state.acquireListenerSlot.1.slot = none ∧
      state.acquireListenerSlot.2.freeListenerSlots.Nodup ∧
      ∀ own ∈ state.acquireListenerSlot.2.freeListenerSlots,
        own ≠ state.acquireListenerSlot.1.slot ∧ state.entryAt own = none := by
  have slot : state.acquireListenerSlot.1.slot = state.takeSlot.1 := rfl
  have list : state.acquireListenerSlot.2.freeListenerSlots = state.takeSlot.2.freeListenerSlots := rfl
  rw [slot, list]
  unfold takeSlot
  split
  next own last =>
    obtain ⟨front, isFree⟩ := getLast?_eq_some_iff.mp last
    have nodup := free.nodup
    rw [isFree] at nodup
    rw [isFree, dropLast_concat]
    refine ⟨free.vacant own (by simp [isFree]), (nodup_append.mp nodup).1, fun other inside => ?_⟩
    refine ⟨?_, free.vacant other (by simp [isFree, inside])⟩
    exact (nodup_append.mp nodup).2.2 other inside own (mem_singleton_self own)
  · exact ⟨by simp [entryAt], nodup_nil, fun _ inside => absurd inside not_mem_nil⟩

theorem storeEntry_entryAt (listener : ListenerConfig) (own : Nat) :
    (state.storeEntry listener).2.entryAt own = if own = state.acquireListenerSlot.1.slot then
        some (newEntry state.acquireListenerSlot.1 listener)
      else state.entryAt own := by
  have stored := entryAt_setEntry state.acquireListenerSlot_lt own
    (newEntry state.acquireListenerSlot.1 listener)
  rwa [entryAt_acquireListenerSlot] at stored

theorem FreeSlots.store (free : FreeSlots state) (listener : ListenerConfig) :
    FreeSlots (state.storeEntry listener).2 := by
  obtain ⟨-, nodup, others⟩ := acquired_vacant free
  refine ⟨nodup, fun own inside => ?_⟩
  obtain ⟨different, vacant⟩ := others own inside
  rw [storeEntry_entryAt, if_neg different, vacant]

theorem FreeSlots.mono (free : FreeSlots state) (sameFree : after.freeListenerSlots = state.freeListenerSlots)
    (vacant : ∀ slot, state.entryAt slot = none → after.entryAt slot = none) : FreeSlots after :=
  ⟨sameFree ▸ free.nodup, fun slot isFree => vacant slot (free.vacant slot (sameFree ▸ isFree))⟩

def begun (entry : ListenerEntry) (attempt : Nat) : ListenerEntry :=
  { entry with
    phase := .starting
    activeShards := []
    startingShards := entry.config.installShards
    startedShards := []
    pendingStartShards := entry.config.installShards.length
    attempt := some attempt
    stopped := false }

def halted (state : ServerState) (env : ControlEnv) : ServerState :=
  { state with
    running := false
    listeners := state.listeners.map (·.map (stopEntry env)) }

theorem entryAt_halted (slot : Nat) :
    (state.halted env).entryAt slot = (state.entryAt slot).map (stopEntry env) := by
  unfold entryAt halted
  rw [getElem?_map]
  cases state.listeners[slot]? <;> rfl

theorem FreeSlots.halted (free : FreeSlots state) : FreeSlots (state.halted env) := by
  refine free.mono rfl fun slot vacant => ?_
  rw [entryAt_halted, vacant]
  rfl

theorem FreeSlots.setEntry (free : FreeSlots state) (present : state.entryAt slot = some entry)
    (changed : ListenerEntry) : FreeSlots (state.setEntry slot changed) := by
  refine ⟨free.nodup, fun own isFree => ?_⟩
  have vacant := free.vacant own isFree
  rw [entryAt_setEntry (lt_of_entryAt present), if_neg, vacant]
  rintro rfl
  rw [present] at vacant
  cases vacant

/-! ### Tasks and shards -/

@[simp] theorem schedule_tasks_self (state : ServerState) (shard : Nat) (task : ShardTask) :
    (state.schedule shard task).tasks shard = state.tasks shard ++ [task] :=
  update_self ..

theorem schedule_tasks_of_ne {own : Nat} (other : own ≠ shard) (task : ShardTask) :
    (state.schedule shard task).tasks own = state.tasks own :=
  update_of_ne other _ _

theorem addListenerOnOwner_spec (state : ServerState) (shard : Nat) (listener : ShardListener)
    (opens : Bool) :
    ∃ shards, (state.addListenerOnOwner shard listener opens).2 = { state with shards := shards } ∧
      (∀ own, own ≠ shard → shards own = state.shards own) ∧
      (∀ slot own, (shards shard).listeners slot = some own →
        (state.shards shard).listeners slot = some own ∨ slot = listener.id.slot ∧ own = listener) ∧
      (shards shard).connections = (state.shards shard).connections := by
  unfold addListenerOnOwner
  dsimp only
  split
  · refine ⟨_, rfl, fun own other => update_of_ne other _ _, fun slot own installed => ?_,
      by rw [update_self]⟩
    simp only [update_self] at installed
    by_cases same : slot = listener.id.slot
    · subst same
      rw [update_self] at installed
      exact .inr ⟨rfl, (Option.some.inj installed).symm⟩
    · rw [update_of_ne same] at installed
      exact .inl installed
  · exact ⟨_, rfl, fun _ _ => rfl, fun _ _ => .inl, rfl⟩

/-- A task of a start, without a result, or the result of one. -/
structure StartMessage where
  result : Option Bool
  attempt : Nat
  deriving DecidableEq

end ServerState

namespace ShardTask

def startMessage (id : ListenerId) : ShardTask → Option ServerState.StartMessage
  | addListener own _ _ attempt => if own = id then some ⟨none, attempt⟩ else none
  | removeListener _ _ | stop => none

end ShardTask

namespace StartResult

def startMessage (id : ListenerId) (result : StartResult) : Option ServerState.StartMessage :=
  if result.id = id then some ⟨some result.succeeded, result.attempt⟩ else none

end StartResult

namespace ServerState

variable {config : ServerConfig} {env : ControlEnv} {state after : ServerState}
  {id other : ListenerId} {entry : ListenerEntry} {slot shard own : Nat}

/-- The messages about starts of a listener between the control thread and a shard. -/
def messages (state : ServerState) (id : ListenerId) (shard : Nat) : List StartMessage :=
  (state.tasks shard).filterMap (·.startMessage id) ++
    (state.results shard).filterMap (·.startMessage id)

theorem messages_schedule_other {task : ShardTask} (unrelated : task.startMessage id = none) :
    (state.schedule shard task).messages id own = state.messages id own := by
  unfold messages schedule
  by_cases same : own = shard
  · subst same
    simp [unrelated]
  · simp [same]

theorem messages_schedule_add (openListener : Bool) (targetShards : List Nat) (attempt : Nat) :
    ((state.schedule shard (.addListener id openListener targetShards attempt)).messages id
      shard).Perm (⟨none, attempt⟩ :: state.messages id shard) := by
  have task : (ShardTask.addListener id openListener targetShards attempt).startMessage id =
      some ⟨none, attempt⟩ := if_pos rfl
  unfold messages schedule
  simp only [update_self, filterMap_append, filterMap_cons, task,
    filterMap_nil, append_assoc, singleton_append]
  exact perm_middle

structure KeepsStarts (state after : ServerState) : Prop where
  messages : ∀ id shard, after.messages id shard = state.messages id shard
  reports : after.reports = state.reports
  attempts : after.attempts = state.attempts
  running : after.running = state.running

theorem KeepsStarts.refl (state : ServerState) : KeepsStarts state state :=
  ⟨fun _ _ => rfl, rfl, rfl, rfl⟩

theorem KeepsStarts.trans {middle : ServerState} (first : KeepsStarts state middle)
    (second : KeepsStarts middle after) : KeepsStarts state after :=
  ⟨fun id shard => (second.messages id shard).trans (first.messages id shard),
    second.reports.trans first.reports, second.attempts.trans first.attempts,
    second.running.trans first.running⟩

theorem keepsStarts_storeEntry (listener : ListenerConfig) :
    KeepsStarts state (state.storeEntry listener).2 := by
  obtain ⟨_, _, _, same⟩ := storeEntry_listeners state listener
  rw [same]
  exact ⟨fun _ _ => rfl, rfl, rfl, rfl⟩

theorem keepsStarts_releaseListenerSlot (freeFails : Bool) :
    KeepsStarts state (state.releaseListenerSlot slot freeFails) := by
  obtain ⟨_, _, same⟩ := releaseListenerSlot_listeners state slot freeFails
  rw [same]
  exact ⟨fun _ _ => rfl, rfl, rfl, rfl⟩

theorem keepsStarts_scheduleRemove (policy : RemoveListenerPolicy) :
    KeepsStarts state (state.scheduleRemoveListenerFromShard config env id policy shard) := by
  unfold scheduleRemoveListenerFromShard
  split
  · exact ⟨fun _ _ => messages_schedule_other rfl, rfl, rfl, rfl⟩
  · exact .refl state

theorem keepsStarts_scheduleRemoves (shards : List Nat) (policy : RemoveListenerPolicy) :
    KeepsStarts state (state.scheduleRemoveListenerFromShards config env id shards policy) := by
  induction shards generalizing state with
  | nil => exact .refl state
  | cons shard shards ih => exact (keepsStarts_scheduleRemove policy).trans ih

def OnlyTasks (state after : ServerState) : Prop :=
  ∃ tasks, after = { state with tasks := tasks }

theorem OnlyTasks.trans {middle : ServerState} (first : OnlyTasks state middle)
    (second : OnlyTasks middle after) : OnlyTasks state after := by
  obtain ⟨_, rfl⟩ := first
  obtain ⟨_, rfl⟩ := second
  exact ⟨_, rfl⟩

theorem onlyTasks_scheduleRemove (policy : RemoveListenerPolicy) :
    OnlyTasks state (state.scheduleRemoveListenerFromShard config env id policy shard) := by
  unfold scheduleRemoveListenerFromShard
  split <;> exact ⟨_, rfl⟩

theorem onlyTasks_scheduleRemoves (shards : List Nat) (policy : RemoveListenerPolicy) :
    OnlyTasks state (state.scheduleRemoveListenerFromShards config env id shards policy) := by
  induction shards generalizing state with
  | nil => exact ⟨_, rfl⟩
  | cons shard shards ih => exact (onlyTasks_scheduleRemove policy).trans ih

end ServerState

end AsyncFlow
