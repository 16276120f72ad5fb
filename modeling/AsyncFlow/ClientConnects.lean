import AsyncFlow.ClientAccounts
import Mathlib.Data.List.GetD
import Mathlib.Data.List.Nodup

/-!
# The connects of a client

A connect is refused and leaves the accounts as they were, or is accepted and enters
them.
-/

namespace AsyncFlow.ClientState

open List

variable {config : ServerConfig} {env : ClientEnv} {state after : ClientState}
  {control : ConnectControl} {index : Nat}

structure Refused (config : ServerConfig) (state after : ClientState) : Prop where
  eq : after = { state.numbered with
    pendingConnects := after.pendingConnects
    running := after.running }
  fewer : ∀ control ∈ after.pendingConnects, control ∈ state.pendingConnects
  living : ∀ control ∈ state.pendingConnects, state.lives config control = true →
    control.number ≠ state.connects → control ∈ after.pendingConnects
  runs : after.running = state.running ∨ state.stopping = false ∧
    (after.running = true ↔ state.inflightConnects ≠ 0 ∨ state.hasConnected = true ∨
      after.pendingConnects ≠ [])

structure Accepted (config : ServerConfig) (state after : ClientState)
    (control : ConnectControl) : Prop where
  number : control.number = state.connects
  inside : control.shard < config.threadCount
  going : state.stopping = false
  eq : after = { state.numbered.schedule control.shard (.connect control) with
    pendingConnects := state.pendingConnects.filter (state.lives config) ++ [control]
    inflightConnects := state.inflightConnects + 1
    running := true
    outstanding := state.outstanding ++ [control]
    recent := state.recent ++ [control] }

theorem shardFor_lt {connecting : ConnectConfig} (valid : connecting.validate config = true)
    (ticket : Nat) : connecting.shardFor ticket < config.threadCount := by
  simp only [ConnectConfig.validate, Bool.and_eq_true, Bool.not_eq_true', Bool.or_eq_false_iff,
    isEmpty_eq_false_iff, any_eq_false, decide_eq_true_eq, Bool.or_eq_true,
    not_or, Nat.not_le] at valid
  obtain ⟨⟨⟨⟨⟨nonempty, -⟩, -⟩, -⟩, threads⟩, -⟩ := valid
  have index : ticket % connecting.threads.length < connecting.threads.length :=
    Nat.mod_lt _ (length_pos_iff.mpr nonempty)
  rw [ConnectConfig.shardFor, getD_eq_getElem _ _ index]
  exact (threads _ (getElem_mem index)).1

theorem activatePendingConnect_of_stopping (stops : state.stopping = true) :
    state.activatePendingConnect config env control = (false, state) :=
  if_pos stops

theorem activatePendingConnect_of_going (going : state.stopping = false) :
    state.activatePendingConnect config env control =
      if env.pushFails then (false, state.compactPendingConnects config)
      else (true, { state.compactPendingConnects config with
        pendingConnects := state.pendingConnects.filter (state.lives config) ++ [control]
        inflightConnects := state.inflightConnects + 1
        running := true }) := by
  rw [activatePendingConnect, if_neg (by simp [going])]
  rfl

theorem refused_finishPendingConnectStart (going : state.stopping = false)
    (number : control.number = state.connects) :
    Refused config state (finishPendingConnectStart config { state.numbered with
      pendingConnects := state.pendingConnects.filter (state.lives config) ++ [control]
      inflightConnects := state.inflightConnects + 1
      running := true } control) := by
  simp only [finishPendingConnectStart, mem_append, mem_singleton, or_true,
    decide_true, Bool.not_true, Bool.false_eq_true, if_false, Nat.add_sub_cancel]
  refine ⟨rfl, fun other inside => ?_, fun other inside living distinct => ?_, .inr ⟨going, ?_⟩⟩
  · simp only [mem_filter, mem_append, mem_singleton, Bool.and_eq_true, decide_eq_true_eq] at inside
    tauto
  · have isOther : other ≠ control := fun same => distinct (same ▸ number)
    simp only [mem_filter, mem_append, mem_singleton, Bool.and_eq_true, decide_eq_true_eq]
    exact ⟨.inl ⟨inside, living⟩, isOther, living⟩
  · generalize List.filter (fun other => decide (other ≠ control) && _) _ = left
    simp only [ite_eq_iff, Bool.false_eq_true, and_false, and_true, false_or, Bool.and_eq_true,
      decide_eq_true_eq, Bool.not_eq_true', List.isEmpty_iff, not_and_or, Bool.not_eq_false,
      or_assoc]
    rfl

theorem connect_cases (config : ServerConfig) (env : ClientEnv) (state : ClientState)
    (connecting : ConnectConfig) : (state.connect config env connecting).2 = state ∨
      Refused config state (state.connect config env connecting).2 ∨
      ∃ control, Accepted config state (state.connect config env connecting).2 control := by
  by_cases valid : !connecting.addressed || !connecting.validate config
  · simp only [connect, valid, if_true, true_or]
  · have isValid : connecting.validate config = true := by simp_all
    rw [connect, if_neg valid]
    refine .inr ?_
    by_cases fails : env.fails
    · simp only [fails, if_true]
      exact .inl ⟨rfl, fun _ => id, fun _ inside _ _ => inside, .inl rfl⟩
    · simp only [fails, Bool.false_eq_true, if_false]
      by_cases stops : state.numbered.stopping = true
      · rw [activatePendingConnect_of_stopping stops]
        exact .inl ⟨rfl, fun _ => id, fun _ inside _ _ => inside, .inl rfl⟩
      · have going : state.numbered.stopping = false := by simpa using stops
        rw [activatePendingConnect_of_going going]
        by_cases pushFails : env.pushFails
        · simp only [pushFails, if_true, Bool.not_false]
          exact .inl ⟨rfl, fun _ => mem_of_mem_filter,
            fun _ inside living _ => mem_filter.mpr ⟨inside, living⟩, .inl rfl⟩
        · simp only [pushFails, Bool.false_eq_true, if_false, Bool.not_true]
          by_cases accepts : env.accepts (connecting.shardFor state.nextConnectSlot)
          · rw [if_pos accepts]
            exact .inr ⟨⟨state.connects, connecting.shardFor state.nextConnectSlot⟩, rfl,
              shardFor_lt isValid _, going, rfl⟩
          · rw [if_neg accepts]
            exact .inl (refused_finishPendingConnectStart going rfl)

theorem Placed.numbered (placed : Placed config state index control) :
    Placed config state.numbered index control :=
  ⟨placed.1, placed.2.1, Nat.lt_succ_of_lt placed.2.2⟩

namespace Accounts

section

variable (accounts : Accounts config state)

include accounts

theorem refused (refused : Refused config state after) : Accounts config after := by
  have compacted := accounts.compact refused.fewer fun other inside living =>
    refused.living other inside living
      (Nat.ne_of_lt (accounts.numbered other (accounts.pending other inside)))
  rw [refused.eq]
  refine { compacted with
    numbered := fun other owed => Nat.lt_succ_of_lt (accounts.numbered other owed)
    recentNumbered := fun other recent => Nat.lt_succ_of_lt (accounts.recentNumbered other recent)
    placed := fun index other kept => ?_
    made := fun index other present => ?_
    runs := fun going left => ?_ }
  · exact (accounts.placed index other kept).numbered
  · obtain ⟨isPlaced, isDone⟩ := accounts.made index other present
    exact ⟨isPlaced.numbered, isDone⟩
  · obtain same | ⟨-, when⟩ := refused.runs
    · exact same.trans (accounts.runs going left)
    · refine when.mpr (left.imp (fun some => ?_) .inl)
      rw [accounts.counted]
      exact fun none => some (eq_nil_of_length_eq_zero none)

theorem schedule (task : ClientTask) (inside : index < config.threadCount)
    (placed : ∀ control ∈ task.keeps, control.shard = index ∧ control.number < state.connects)
    (known : ∀ control ∈ task.keeps, control ∈ state.outstanding → control ∈ state.pendingConnects)
    (new : ∀ control, task = .connect control → (state.shards index).flights control = 0 ∧
      control ∉ (state.shards index).connections ∧ control ∈ state.outstanding) :
    Accounts config (state.schedule index task) := by
  have keeps : ∀ other control, control ∈ ((state.schedule index task).shards other).kept →
      control ∈ (state.shards other).kept ∨ other = index ∧ control ∈ task.keeps := by
    intro other control kept
    by_cases same : other = index
    · subst same
      rw [ClientState.schedule, withShard_self] at kept
      exact ((ClientShard.mem_kept_append task).mp kept).imp_right fun keeps => ⟨rfl, keeps⟩
    · rw [ClientState.schedule, withShard_of_ne same] at kept
      exact .inl kept
  have undone : ∀ other control, ((state.schedule index task).shards other).undone control =
      (state.shards other).undone control +
        if other = index ∧ task = .connect control then 1 else 0 := by
    intro other control
    by_cases same : other = index
    · subst same
      rw [ClientState.schedule, withShard_self, ClientShard.undone, ClientShard.waiting_append]
      simp only [true_and, ClientShard.undone, ClientShard.reports]
      omega
    · rw [ClientState.schedule, withShard_of_ne same, if_neg (fun both => same both.1)]
      rfl
  have elsewhere : ∀ other,
      ((state.schedule index task).shards other).connections = (state.shards other).connections ∧
      ∀ control connected, ((state.schedule index task).shards other).reports control connected =
        (state.shards other).reports control connected := by
    intro other
    by_cases same : other = index
    · subst same
      rw [ClientState.schedule, withShard_self]
      exact ⟨rfl, fun _ _ => rfl⟩
    · rw [ClientState.schedule, withShard_of_ne same]
      exact ⟨rfl, fun _ _ => rfl⟩
  have flights : ∀ other control, ((state.schedule index task).shards other).flights control =
      (state.shards other).flights control +
        if other = index ∧ task = .connect control then 1 else 0 := by
    intro other control
    simp only [ClientShard.flights, undone, (elsewhere other).2]
    omega
  refine { accounts with
    known := fun control owed kept => ?_
    placed := fun other control kept => ?_
    single := fun other control => ?_
    made := fun other control present => ?_
    owed := fun control recent flying => ?_
    linked := fun control recent present => ?_ }
  · obtain old | ⟨-, isKept⟩ := keeps _ control kept
    · exact accounts.known control owed old
    · exact known control isKept owed
  · obtain old | ⟨same, isKept⟩ := keeps other control kept
    · exact accounts.placed other control old
    · exact ⟨same ▸ (placed control isKept).1, same ▸ inside, (placed control isKept).2⟩
  · rw [flights]
    split
    next scheduled =>
      exact Nat.le_of_eq (by rw [scheduled.1, (new control scheduled.2).1])
    · exact accounts.single other control
  · rw [(elsewhere other).1] at present
    obtain ⟨isPlaced, isDone⟩ := accounts.made other control present
    refine ⟨isPlaced, ?_⟩
    rw [undone, isDone, if_neg]
    rintro ⟨same, isTask⟩
    exact (new control isTask).2.1 (same ▸ present)
  · rw [flights] at flying
    by_cases scheduled : control.shard = index ∧ task = .connect control
    · exact (new control scheduled.2).2.2
    · rw [if_neg scheduled] at flying
      exact accounts.owed control recent flying
  · rw [(elsewhere _).1] at present
    exact accounts.linked control recent present

theorem accepted (accepted : Accepted config state after control) : Accounts config after := by
  have fresh : ∀ other : ConnectControl, other.number < state.connects → other ≠ control :=
    fun _ less same => Nat.ne_of_lt less (same ▸ accepted.number)
  have isNumbered : control.number < state.connects + 1 :=
    Nat.lt_succ_of_le (Nat.le_of_eq accepted.number)
  have unflown : (state.shards control.shard).flights control = 0 := by
    refine Nat.eq_zero_of_not_pos fun flying => ?_
    have placed := accounts.placed _ control (ClientShard.mem_kept_of_flights flying)
    exact fresh control placed.2.2 rfl
  have unmade : control ∉ (state.shards control.shard).connections :=
    fun present => fresh control (accounts.made _ control present).1.2.2 rfl
  have entered : Accounts config { state.numbered with
      pendingConnects := state.pendingConnects.filter (state.lives config) ++ [control]
      inflightConnects := state.inflightConnects + 1
      running := true
      outstanding := state.outstanding ++ [control]
      recent := state.recent ++ [control] } := by
    refine ⟨?_, ?_, fun other inside => ?_, fun other owed kept => ?_, fun other owed => ?_,
      fun other recent => ?_, fun index other kept => ?_, accounts.single,
      fun index other present => ?_, fun other recent flying => ?_, fun other recent present => ?_,
      fun _ _ => rfl, fun stops => absurd (accepted.going.symm.trans stops) Bool.false_ne_true⟩
    · rw [length_append, ← accounts.counted]
      rfl
    · refine nodup_append.mpr ⟨accounts.distinct, nodup_singleton _, ?_⟩
      intro other owed _ isNew
      exact mem_singleton.mp isNew ▸ fresh other (accounts.numbered other owed)
    · exact mem_append.mpr ((mem_append.mp inside).imp_left fun old =>
        accounts.pending other (mem_of_mem_filter old))
    · exact mem_append.mpr ((mem_append.mp owed).imp_left fun old =>
        mem_filter.mpr ⟨accounts.known other old kept, accounts.lives kept⟩)
    · obtain old | new := mem_append.mp owed
      · exact Nat.lt_succ_of_lt (accounts.numbered other old)
      · exact (mem_singleton.mp new).symm ▸ isNumbered
    · obtain old | new := mem_append.mp recent
      · exact Nat.lt_succ_of_lt (accounts.recentNumbered other old)
      · exact (mem_singleton.mp new).symm ▸ isNumbered
    · exact (accounts.placed index other kept).numbered
    · obtain ⟨isPlaced, isDone⟩ := accounts.made index other present
      exact ⟨isPlaced.numbered, isDone⟩
    · exact mem_append.mpr ((mem_append.mp recent).imp_left fun old =>
        accounts.owed other old flying)
    · obtain old | new := mem_append.mp recent
      · exact (accounts.linked other old present).imp_left (mem_append_left _)
      · exact .inl (mem_append_right _ new)
  have owed : control ∈ state.outstanding ++ [control] := by simp
  rw [accepted.eq]
  refine entered.schedule (.connect control) accepted.inside (fun other isKept => ?_)
    (fun other isKept _ => ?_) (fun other isTask => ?_)
  · cases mem_singleton.mp isKept
    exact ⟨rfl, isNumbered⟩
  · exact mem_append_right _ isKept
  · cases isTask
    exact ⟨unflown, unmade, owed⟩

theorem connect (env : ClientEnv) (connecting : ConnectConfig) :
    Accounts config (state.connect config env connecting).2 := by
  obtain same | isRefused | ⟨control, isAccepted⟩ := connect_cases config env state connecting
  · rwa [same]
  · exact accounts.refused isRefused
  · exact accounts.accepted isAccepted

end

end Accounts

end AsyncFlow.ClientState
