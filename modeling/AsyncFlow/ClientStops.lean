import AsyncFlow.ClientConnects

/-!
# The stops of a client

A stop schedules a task on every shard, and is over when each has been refused or
has reported.  Until then the control thread counts the shards whose report is
awaited, unless a report was refused.
-/

namespace AsyncFlow.ClientState

open List

variable {config : ServerConfig} {env : ClientEnv} {state after : ClientState}
  {control : ConnectControl} {index : Nat} {collected : List ConnectControl}

theorem mem_collected (inside : control ∈ (state.collectPendingConnects config env).2) :
    control ∈ (state.collectPendingConnects config env).1 := by
  rw [collectPendingConnects] at inside ⊢
  split
  next fails =>
    rw [if_pos fails] at inside
    exact absurd inside not_mem_nil
  next collects =>
    rw [if_neg collects] at inside
    exact mem_of_mem_filter inside

theorem mem_collected_of (memory : env.collectFails = false)
    (collects : env.collects control = true) (isPending : control ∈ state.pendingConnects)
    (lives : state.lives config control = true) :
    control ∈ (state.collectPendingConnects config env).2 := by
  rw [collectPendingConnects, if_neg (by simp [memory])]
  exact mem_filter.mpr ⟨mem_filter.mpr ⟨isPending, lives⟩, collects⟩

inductive StopCase (config : ServerConfig) (env : ClientEnv) (state : ClientState) :
    Bool × ClientState → Prop
  | refused : StopCase config env state (false, state)
  | idle (going : state.stopping = false) (idle : state.running = false ∨ config.threadCount = 0) :
      StopCase config env state (true, (state.beginStop config env 0).handleStopResult)
  /-- there is no memory for the lists of connects, and nothing is scheduled -/
  | stuck (going : state.stopping = false) (running : state.running = true)
      (shards : 0 < config.threadCount) (fails : env.collectFails = true ∧ env.resizeFails = true) :
      StopCase config env state (false, state.beginStop config env config.threadCount)
  | scheduled (going : state.stopping = false) (running : state.running = true)
      (shards : 0 < config.threadCount) :
      StopCase config env state ((List.range config.threadCount).all env.accepts,
        scheduleStops env (state.collectPendingConnects config env).2
          (List.range config.threadCount) (state.beginStop config env config.threadCount))

theorem stop_cases (config : ServerConfig) (env : ClientEnv) (state : ClientState) :
    StopCase config env state (state.stop config env) := by
  rw [stop]
  split
  · exact .refused
  next goes =>
    have going : state.stopping = false := by simpa using goes
    split
    · exact .refused
    · cases runs : state.running with
      | false => exact .idle going (.inl runs)
      | true =>
        rcases Nat.eq_zero_or_pos config.threadCount with none | some
        · simp only [if_true, none, range_zero, isEmpty_nil, length_nil]
          exact .idle going (.inr none)
        · have shards : (List.range config.threadCount).isEmpty = false := by
            simp [Nat.ne_of_gt some]
          simp only [if_true, shards, Bool.false_eq_true, if_false, length_range]
          split
          · next fails => exact .stuck going runs some (by simpa using fails)
          · exact .scheduled going runs some

def Collects (state : ClientState) (collected : List ConnectControl) : Prop :=
  ∀ control ∈ collected, control.number < state.connects ∧
    (control ∈ state.outstanding → control ∈ state.pendingConnects)

theorem Collects.handleStopResult (collects : Collects state collected) :
    Collects state.handleStopResult collected := by
  intro control inside
  cases stops : state.stopping with
  | false =>
    rw [handleStopResult_of_going stops]
    exact collects control inside
  | true =>
    by_cases last : state.pendingStopShards - 1 = 0
    · rw [handleStopResult_of_last stops last]
      exact ⟨(collects control inside).1, fun owed => absurd owed not_mem_nil⟩
    · rw [handleStopResult_of_more stops last]
      exact collects control inside

namespace Accounts

section

variable (accounts : Accounts config state)

include accounts

theorem beginStop (shards : Nat) : Accounts config (state.beginStop config env shards) := by
  have compacted : Accounts config
      { state with pendingConnects := (state.collectPendingConnects config env).1 } := by
    rw [collectPendingConnects]
    split
    · exact accounts
    · exact accounts.compact (fun _ => mem_of_mem_filter)
        fun _ inside living => mem_filter.mpr ⟨inside, living⟩
  exact { compacted with
    recentNumbered := fun _ absent => absurd absent not_mem_nil
    owed := fun _ absent => absurd absent not_mem_nil
    linked := fun _ absent => absurd absent not_mem_nil
    runs := fun going => absurd going.symm Bool.false_ne_true
    quiet := fun _ => rfl }

theorem collects (shards : Nat) :
    Collects (state.beginStop config env shards) (state.collectPendingConnects config env).2 := by
  intro control inside
  have isPending := mem_collected inside
  exact ⟨accounts.numbered control ((accounts.beginStop shards).pending control isPending),
    fun _ => isPending⟩

theorem scheduleStops (collects : Collects state collected) {shards : List Nat}
    (inside : ∀ index ∈ shards, index < config.threadCount) :
    Accounts config (scheduleStops env collected shards state) := by
  induction shards generalizing state with
  | nil => exact accounts
  | cons index rest ih =>
    have restInside : ∀ other ∈ rest, other < config.threadCount :=
      fun other isLater => inside other (mem_cons_of_mem _ isLater)
    rw [ClientState.scheduleStops, foldl_cons]
    split
    · refine ih (accounts.schedule (.stop _) (inside index mem_cons_self) ?_ ?_ ?_)
        collects restInside
      · intro control isKept
        obtain ⟨isCollected, isHere⟩ := mem_filter.mp isKept
        exact ⟨by simpa using isHere, (collects control isCollected).1⟩
      · intro control isKept
        exact (collects control (mem_of_mem_filter isKept)).2
      · intro control isTask
        cases isTask
    · exact ih accounts.handleStopResult collects.handleStopResult restInside

theorem stop (env : ClientEnv) : Accounts config (state.stop config env).2 := by
  have stopped := stop_cases config env state
  generalize state.stop config env = outcome at stopped ⊢
  cases stopped with
  | refused => exact accounts
  | idle => exact (accounts.beginStop 0).handleStopResult
  | stuck => exact accounts.beginStop config.threadCount
  | scheduled =>
    exact (accounts.beginStop config.threadCount).scheduleStops (accounts.collects _)
      fun _ => mem_range.mp

end

end Accounts

/-! ### Reports of stops -/

/-- The shards whose stop is awaited.  Without loss, the control thread counts no others. -/
structure Awaits (config : ServerConfig) (lossless : Prop) (state : ClientState)
    (awaited : List Nat) : Prop where
  distinct : awaited.Nodup
  inside : ∀ index ∈ awaited, index < config.threadCount
  stops : ∀ index, (state.shards index).stops = if index ∈ awaited then 1 else 0
  counted : state.stopping = true → 0 < state.pendingStopShards ∧
    awaited.length ≤ state.pendingStopShards ∧ (lossless → state.pendingStopShards = awaited.length)
  isOver : state.stopping = false → awaited = []

namespace Awaits

variable {lossless : Prop} {awaited : List Nat} {shard : ClientShard}

section

variable (awaits : Awaits config lossless state awaited)

include awaits

theorem keep (stopping : after.stopping = state.stopping)
    (counted : after.pendingStopShards = state.pendingStopShards)
    (stops : ∀ index, (after.shards index).stops = (state.shards index).stops) :
    Awaits config lossless after awaited :=
  ⟨awaits.distinct, awaits.inside, fun index => (stops index).trans (awaits.stops index),
    by rw [stopping, counted]; exact awaits.counted, by rw [stopping]; exact awaits.isOver⟩

theorem withShard (stops : shard.stops = (state.shards index).stops) :
    Awaits config lossless (state.withShard index shard) awaited := by
  refine awaits.keep rfl rfl fun other => ?_
  by_cases same : other = index
  · subst same
    rwa [withShard_self]
  · rw [withShard_of_ne same]

theorem erase_inside (index : Nat) : ∀ other ∈ awaited.erase index, other < config.threadCount :=
  fun other isAwaited => awaits.inside other (mem_of_mem_erase isAwaited)

section

variable (stops : shard.stops + 1 = (state.shards index).stops)

include stops

theorem taken : index ∈ awaited ∧ ∀ other, ((state.withShard index shard).shards other).stops =
      if other ∈ awaited.erase index then 1 else 0 := by
  have isAwaited : index ∈ awaited := by
    by_contra absent
    rw [awaits.stops, if_neg absent] at stops
    exact absurd stops (Nat.succ_ne_zero _)
  refine ⟨isAwaited, fun other => ?_⟩
  by_cases same : other = index
  · subst same
    rw [awaits.stops, if_pos isAwaited] at stops
    rw [withShard_self, if_neg awaits.distinct.not_mem_erase]
    exact Nat.succ.inj stops
  · rw [withShard_of_ne same, awaits.stops]
    simp only [mem_erase_of_ne same]

theorem handleStopResult : Awaits config lossless (state.withShard index shard).handleStopResult
      (awaited.erase index) := by
  obtain ⟨isAwaited, left⟩ := awaits.taken stops
  have isStopping : state.stopping = true := by
    by_contra going
    rw [awaits.isOver (by simpa using going)] at isAwaited
    exact absurd isAwaited not_mem_nil
  obtain ⟨some, counted, exactly⟩ := awaits.counted isStopping
  have length := length_erase_of_mem isAwaited
  have stillStops : (state.withShard index shard).stopping = true := isStopping
  by_cases last : (state.withShard index shard).pendingStopShards - 1 = 0
  · rw [handleStopResult_of_last stillStops last]
    have isLast : state.pendingStopShards - 1 = 0 := last
    refine ⟨awaits.distinct.erase index, awaits.erase_inside index, left,
      fun stopping => (by cases stopping), fun _ => eq_nil_of_length_eq_zero ?_⟩
    omega
  · rw [handleStopResult_of_more stillStops last]
    refine ⟨awaits.distinct.erase index, awaits.erase_inside index, left,
      fun _ => ⟨Nat.pos_of_ne_zero last, ?_, ?_⟩,
      fun going => absurd (isStopping.symm.trans going) (by decide)⟩
    · show (awaited.erase index).length ≤ state.pendingStopShards - 1
      omega
    · intro isLossless
      have same := exactly isLossless
      show state.pendingStopShards - 1 = (awaited.erase index).length
      omega

theorem lost (lossy : ¬ lossless) :
    Awaits config lossless (state.withShard index shard) (awaited.erase index) := by
  obtain ⟨-, left⟩ := awaits.taken stops
  refine ⟨awaits.distinct.erase index, awaits.erase_inside index, left,
    fun isStopping => ?_, fun going => ?_⟩
  · obtain ⟨some, counted, -⟩ := awaits.counted isStopping
    exact ⟨some, Nat.le_trans (length_erase_le ..) counted,
      fun isLossless => absurd isLossless lossy⟩
  · rw [awaits.isOver going]
    rfl

end

end

end Awaits

/-- The stop tasks for the rest of the shards are being scheduled. -/
structure Scheduling (config : ServerConfig) (state : ClientState) (rest awaited : List Nat) :
    Prop where
  stopping : state.stopping = true
  distinct : (rest ++ awaited).Nodup
  inside : ∀ index ∈ rest ++ awaited, index < config.threadCount
  stops : ∀ index, (state.shards index).stops = if index ∈ awaited then 1 else 0
  counted : state.pendingStopShards = rest.length + awaited.length
  some : 0 < state.pendingStopShards

theorem Scheduling.schedule {rest awaited : List Nat}
    (scheduling : Scheduling config state (index :: rest) awaited) (pending : List ConnectControl) :
    Scheduling config (state.schedule index (.stop pending)) rest (awaited ++ [index]) := by
  obtain ⟨isStopping, distinct, inside, stops, counted, some⟩ := scheduling
  have moved : (index :: rest ++ awaited).Perm (rest ++ (awaited ++ [index])) := by
    rw [← append_assoc]
    exact (perm_append_singleton index (rest ++ awaited)).symm
  refine ⟨isStopping, moved.nodup_iff.mp distinct,
    fun other isMoved => inside other (moved.mem_iff.mpr isMoved), fun other => ?_, ?_, some⟩
  · have notYet : index ∉ awaited := fun isAwaited =>
      (nodup_cons.mp distinct).1 (mem_append_right _ isAwaited)
    by_cases same : other = index
    · subst same
      rw [ClientState.schedule, withShard_self, ClientShard.stops_append, stops, if_neg notYet]
      simp [ClientTask.isStop]
    · rw [ClientState.schedule, withShard_of_ne same, stops]
      simp [same]
  · show state.pendingStopShards = _
    rw [counted, length_cons, length_append, length_singleton]
    omega

theorem awaits_scheduleStops {lossless : Prop} {rest awaited : List Nat}
    (scheduling : Scheduling config state rest awaited) :
    ∃ awaited', Awaits config lossless (scheduleStops env collected rest state) awaited' := by
  induction rest generalizing state awaited with
  | nil =>
    obtain ⟨isStopping, distinct, inside, stops, counted, some⟩ := scheduling
    rw [length_nil, Nat.zero_add] at counted
    exact ⟨awaited, distinct, inside, stops,
      fun _ => ⟨some, Nat.le_of_eq counted.symm, fun _ => counted⟩,
      fun going => absurd (isStopping.symm.trans going) (by decide)⟩
  | cons index rest ih =>
    rw [ClientState.scheduleStops, foldl_cons]
    split
    · exact ih (scheduling.schedule _)
    · obtain ⟨isStopping, distinct, inside, stops, counted, some⟩ := scheduling
      rw [length_cons] at counted
      by_cases last : state.pendingStopShards - 1 = 0
      · -- the last shard refuses, as all others did
        have noRest : rest = [] := eq_nil_of_length_eq_zero (by omega)
        have noneAwaited : awaited = [] := eq_nil_of_length_eq_zero (by omega)
        subst noRest noneAwaited
        rw [handleStopResult_of_last isStopping last]
        exact ⟨[], nodup_nil, fun _ absent => absurd absent not_mem_nil, stops,
          fun stopping => (by cases stopping), fun _ => rfl⟩
      · rw [handleStopResult_of_more isStopping last]
        refine ih ⟨isStopping, (nodup_cons.mp distinct).2,
          fun other later => inside other (mem_cons_of_mem _ later), stops, ?_,
          Nat.pos_of_ne_zero last⟩
        show state.pendingStopShards - 1 = rest.length + awaited.length
        omega

end AsyncFlow.ClientState
