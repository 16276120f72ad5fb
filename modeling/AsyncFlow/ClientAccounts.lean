import AsyncFlow.ClientFlights

/-!
# The accounts of a client

The list of weak references may lose connects whose report was refused, but one
that is still kept alive somewhere stays on the list, so its outcome is matched
when it comes.
-/

namespace AsyncFlow.ClientState

open List

variable {config : ServerConfig} {env : ClientEnv} {state : ClientState}
  {control : ConnectControl} {index : Nat} {shard : ClientShard}

@[simp]
theorem withShard_self : (state.withShard index shard).shards index = shard :=
  Function.update_self ..

theorem withShard_of_ne {other : Nat} (distinct : other ≠ index) :
    (state.withShard index shard).shards other = state.shards other :=
  Function.update_of_ne distinct ..

theorem withShard_withShard {first second : ClientShard} :
    (state.withShard index first).withShard index second = state.withShard index second := by
  simp only [withShard, Function.update_idem]

theorem handleStopResult_of_going (going : state.stopping = false) :
    state.handleStopResult = state :=
  if_pos (by simp [going])

theorem handleStopResult_of_more (stops : state.stopping = true)
    (more : state.pendingStopShards - 1 ≠ 0) :
    state.handleStopResult = { state with pendingStopShards := state.pendingStopShards - 1 } := by
  rw [handleStopResult, if_neg (by simp [stops])]
  exact if_pos more

theorem handleStopResult_of_last (stops : state.stopping = true)
    (last : state.pendingStopShards - 1 = 0) : state.handleStopResult = { state with
      pendingStopShards := 0
      inflightConnects := 0
      hasConnected := false
      pendingConnects := []
      stopping := false
      running := false
      outstanding := [] } := by
  rw [handleStopResult, if_neg (by simp [stops])]
  simp only [last, ne_eq, not_true_eq_false, if_false]

theorem handleStopResult_frame (state : ClientState) :
    state.handleStopResult.recent = state.recent ∧
      state.handleStopResult.shards = state.shards := by
  unfold handleStopResult
  split
  · exact ⟨rfl, rfl⟩
  · dsimp only
    split <;> exact ⟨rfl, rfl⟩

def Placed (config : ServerConfig) (state : ClientState) (index : Nat) (control : ConnectControl) :
    Prop :=
  control.shard = index ∧ index < config.threadCount ∧ control.number < state.connects

structure Accounts (config : ServerConfig) (state : ClientState) : Prop where
  counted : state.inflightConnects = state.outstanding.length
  distinct : state.outstanding.Nodup
  pending : ∀ control ∈ state.pendingConnects, control ∈ state.outstanding
  known : ∀ control ∈ state.outstanding,
    control ∈ (state.shards control.shard).kept → control ∈ state.pendingConnects
  numbered : ∀ control ∈ state.outstanding, control.number < state.connects
  recentNumbered : ∀ control ∈ state.recent, control.number < state.connects
  placed : ∀ index, ∀ control ∈ (state.shards index).kept, Placed config state index control
  single : ∀ index control, (state.shards index).flights control ≤ 1
  made : ∀ index, ∀ control ∈ (state.shards index).connections,
    Placed config state index control ∧ (state.shards index).undone control = 0
  owed : ∀ control ∈ state.recent,
    0 < (state.shards control.shard).flights control → control ∈ state.outstanding
  linked : ∀ control ∈ state.recent, control ∈ (state.shards control.shard).connections →
    control ∈ state.outstanding ∨ state.hasConnected = true
  runs : state.stopping = false → state.outstanding ≠ [] ∨ state.hasConnected = true →
    state.running = true
  quiet : state.stopping = true → state.recent = []

namespace Accounts

section

variable (accounts : Accounts config state)

include accounts

theorem lives
    (kept : control ∈ (state.shards control.shard).kept) : state.lives config control = true := by
  obtain ⟨-, inside, -⟩ := accounts.placed _ control kept
  simp only [ClientState.lives, any_eq_true, mem_range, decide_eq_true_eq]
  exact ⟨control.shard, inside, kept⟩

theorem goes (goes : (state.shards index).Goes shard) :
    Accounts config (state.withShard index shard) := by
  -- every shard is as before or has gone on, so each fact about one is proved of `Goes`
  have each : ∀ other, (state.shards other).Goes ((state.withShard index shard).shards other) := by
    intro other
    by_cases same : other = index
    · subst same
      rwa [withShard_self]
    · rw [withShard_of_ne same]
      exact ⟨fun _ => id, fun _ => Nat.le_refl _, fun _ present => .inl ⟨present, Nat.le_refl _⟩⟩
  have undoneFlies : ∀ other control, 0 < (state.shards other).undone control →
      0 < (state.shards other).flights control :=
    fun _ _ undone => Nat.lt_of_lt_of_le undone (Nat.le_add_right _ _)
  refine { accounts with
    known := fun control owed kept => accounts.known control owed ((each _).kept _ kept)
    placed := fun other control kept => accounts.placed other control ((each other).kept _ kept)
    single := fun other control =>
      Nat.le_trans ((each other).flights control) (accounts.single _ _)
    made := fun other control present => ?_
    owed := fun control recent flying => ?_
    linked := fun control recent present => ?_ }
  · obtain ⟨old, less⟩ | succeeded := (each other).made control present
    · obtain ⟨isPlaced, isDone⟩ := accounts.made other control old
      exact ⟨isPlaced, Nat.le_zero.mp (isDone ▸ less)⟩
    · have flying := undoneFlies other control (Nat.lt_of_lt_of_le (Nat.succ_pos _) succeeded)
      have single := accounts.single other control
      refine ⟨accounts.placed other control (ClientShard.mem_kept_of_flights flying), ?_⟩
      simp only [ClientShard.flights] at single
      omega
  · exact accounts.owed control recent (Nat.lt_of_lt_of_le flying ((each _).flights control))
  · obtain ⟨old, -⟩ | succeeded := (each _).made control present
    · exact accounts.linked control recent old
    · exact .inl (accounts.owed control recent
        (undoneFlies _ control (Nat.lt_of_lt_of_le (Nat.succ_pos _) succeeded)))

theorem compact {pending : List ConnectControl}
    (fewer : ∀ control ∈ pending, control ∈ state.pendingConnects)
    (living : ∀ control ∈ state.pendingConnects, state.lives config control = true →
      control ∈ pending) : Accounts config { state with pendingConnects := pending } :=
  { accounts with
    pending := fun control inside => accounts.pending control (fewer control inside)
    known := fun control owed kept =>
      living control (accounts.known control owed kept) (accounts.lives kept) }

theorem handleConnectResult {connected : Bool}
    (known : control ∈ state.outstanding → control ∈ state.pendingConnects)
    (gone : (state.shards control.shard).flights control = 0)
    (told : control ∈ (state.shards control.shard).connections → connected = true) :
    Accounts config (state.handleConnectResult config control connected) := by
  have inErased : ∀ other, other ∈ state.outstanding.erase control ↔
      other ≠ control ∧ other ∈ state.outstanding := fun _ => accounts.distinct.mem_erase_iff
  have filtered : ∀ other, other ∈ state.pendingConnects.filter (fun other =>
        other ≠ control && state.lives config other) ↔
      other ∈ state.pendingConnects ∧ other ≠ control ∧ state.lives config other = true := by
    intro other
    simp only [mem_filter, Bool.and_eq_true, decide_eq_true_eq]
  -- what holds whether or not the connect is on the list
  have compacted : ∀ inflight hasConnected running,
      inflight = (state.outstanding.erase control).length →
      (state.hasConnected = true → hasConnected = true) →
      (control ∈ state.outstanding → connected = true → hasConnected = true) →
      (state.stopping = false → state.outstanding.erase control ≠ [] ∨ hasConnected = true →
        running = true) → Accounts config { state with
        pendingConnects := state.pendingConnects.filter fun other =>
          other ≠ control && state.lives config other
        outstanding := state.outstanding.erase control
        inflightConnects := inflight
        hasConnected := hasConnected
        running := running } := by
    intro inflight hasConnected running counted stays connects runs
    refine { accounts with
      counted := counted
      distinct := accounts.distinct.erase control
      pending := fun other inside => ?_
      known := fun other owed kept => ?_
      numbered := fun other owed => accounts.numbered other ((inErased other).mp owed).2
      owed := fun other recent flying =>
        (inErased other).mpr ⟨?_, accounts.owed other recent flying⟩
      linked := fun other recent present => ?_
      runs := runs }
    · obtain ⟨isPending, distinct, -⟩ := (filtered other).mp inside
      exact (inErased other).mpr ⟨distinct, accounts.pending other isPending⟩
    · obtain ⟨distinct, isOwed⟩ := (inErased other).mp owed
      exact (filtered other).mpr ⟨accounts.known other isOwed kept, distinct, accounts.lives kept⟩
    · intro same
      subst same
      exact absurd gone (Nat.ne_of_gt flying)
    · obtain isOwed | isConnected := accounts.linked other recent present
      · by_cases same : other = control
        · subst same
          exact .inr (connects isOwed (told present))
        · exact .inl ((inErased other).mpr ⟨same, isOwed⟩)
      · exact .inr (stays isConnected)
  by_cases matched : control ∈ state.pendingConnects
  · have isOwed := accounts.pending control matched
    have length := length_erase_of_mem isOwed
    simp only [ClientState.handleConnectResult, matched, decide_true, Bool.not_true,
      Bool.false_eq_true, if_false]
    refine compacted _ _ _ ?_ ?_ ?_ ?_
    · rw [accounts.counted, length]
    · intro isConnected
      rw [isConnected, Bool.true_or]
    · intro _ isConnected
      rw [isConnected, Bool.or_true]
    · intro going remains
      have isRunning := accounts.runs going (.inl (ne_nil_of_mem isOwed))
      rw [isRunning, ite_eq_right_iff]
      intro isOver
      simp only [Bool.and_eq_true, decide_eq_true_eq, Bool.not_eq_true'] at isOver
      obtain ⟨⟨nothing, unconnected⟩, -⟩ := isOver
      obtain left | isConnected := remains
      · rw [accounts.counted, ← length] at nothing
        exact absurd (eq_nil_of_length_eq_zero nothing) left
      · exact absurd isConnected (Bool.eq_false_iff.mp unconnected)
  · have notOwed : control ∉ state.outstanding := fun owed => matched (known owed)
    have same := erase_of_not_mem notOwed
    simp only [ClientState.handleConnectResult, matched, decide_false, Bool.not_false, if_true]
    refine compacted state.inflightConnects state.hasConnected state.running ?_ (fun on => on)
      (fun owed => absurd owed notOwed) ?_
    · rw [same, accounts.counted]
    · rw [same]
      exact accounts.runs

theorem handleStopResult : Accounts config state.handleStopResult := by
  cases stops : state.stopping with
  | false => rwa [handleStopResult_of_going stops]
  | true =>
    have none := accounts.quiet stops
    by_cases last : state.pendingStopShards - 1 = 0
    · rw [handleStopResult_of_last stops last]
      exact { accounts with
        counted := rfl
        distinct := nodup_nil
        pending := fun _ absent => absurd absent not_mem_nil
        known := fun _ absent => absurd absent not_mem_nil
        numbered := fun _ absent => absurd absent not_mem_nil
        owed := fun _ recent => absurd (none ▸ recent) not_mem_nil
        linked := fun _ recent => absurd (none ▸ recent) not_mem_nil
        runs := fun _ left => by simp at left
        quiet := fun _ => none }
    · rw [handleStopResult_of_more stops last]
      exact { accounts with }

end

end Accounts

end AsyncFlow.ClientState
