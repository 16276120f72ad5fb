import AsyncFlow.TransitionSystem
import Mathlib.Data.List.Range
import Mathlib.Logic.Function.Basic

/-!
# Batches that are retried

`parallel_shards_ordered` runs a batch on every shard of a range.  A guard per
thread lets a batch run after the one before it, and skips one that was applied.
Owners call one after the other and repeat a batch id after a failure.
-/

namespace AsyncFlow

open Function List

inductive OrderedBatchReplayPolicy
  | strict
  | skipAlreadyApplied
  deriving DecidableEq

inductive OrderedGuardDecision
  | run
  | skipAlreadyApplied
  | fail
  deriving DecidableEq

structure OrderedBatchState where
  lastAppliedBatchId : BitVec 64
  /-- History: the batches that the handler ran for, and what it returned. -/
  ran : List (BitVec 64 × Bool)
  deriving DecidableEq

namespace OrderedBatchState

def applied (shard : OrderedBatchState) : List (BitVec 64) :=
  (shard.ran.filter Prod.snd).map Prod.fst

def checkOrderGuard (shard : OrderedBatchState) (batchId : BitVec 64)
    (policy : OrderedBatchReplayPolicy) : OrderedGuardDecision :=
  if batchId = shard.lastAppliedBatchId + 1 then .run
  else if policy = .skipAlreadyApplied ∧ batchId = shard.lastAppliedBatchId then
    .skipAlreadyApplied
  else .fail

/-- `run_parallel_shard`, where `handles` is what the handler returns if it runs. -/
def runParallelShard (shard : OrderedBatchState) (batchId : BitVec 64)
    (policy : OrderedBatchReplayPolicy) (handles : Bool) : OrderedBatchState × Bool :=
  match shard.checkOrderGuard batchId policy with
  | .fail => (shard, false)
  | .skipAlreadyApplied => (shard, true)
  | .run =>
    ({ lastAppliedBatchId := if handles then batchId else shard.lastAppliedBatchId
       ran := shard.ran ++ [(batchId, handles)] }, handles)

end OrderedBatchState

structure OrderedCalls where
  shards : List OrderedBatchState
  lastParallelFailures : Nat → Nat
  batchId : BitVec 64
  /-- History: how many calls reported no failure. -/
  succeeded : Nat

namespace OrderedCalls

open OrderedBatchState

variable {state after : OrderedCalls} {shard : OrderedBatchState} {applied : Nat}

/-- A call of an owner; `handles` is what the handler returns on a shard. -/
structure Action where
  owner : Nat
  handles : Nat → Bool

def runs (state : OrderedCalls) (call : Action) : List (OrderedBatchState × Bool) :=
  state.shards.mapIdx fun index shard =>
    shard.runParallelShard state.batchId .skipAlreadyApplied (call.handles index)

/-- Without a shard the owner is posted as it is. -/
def reported (state : OrderedCalls) (call : Action) : Nat :=
  if state.shards = [] then state.lastParallelFailures call.owner
  else (runs state call).countP fun result => !result.2

def step (state : OrderedCalls) (call : Action) : Option OrderedCalls :=
  some
    { shards := (runs state call).map Prod.fst
      lastParallelFailures :=
        update state.lastParallelFailures call.owner (reported state call)
      batchId := if reported state call = 0 then state.batchId + 1 else state.batchId
      succeeded := if reported state call = 0 then state.succeeded + 1 else state.succeeded }

def initial (count : Nat) : OrderedCalls where
  shards := List.replicate count ⟨0, []⟩
  lastParallelFailures := fun _ => 0
  batchId := 1
  succeeded := 0

def system : TransitionSystem OrderedCalls Action where
  initial := fun state => ∃ count, state = initial count
  step := step

/-- The first batches were applied in their order, and no other. -/
structure AppliedTo (shard : OrderedBatchState) (count : Nat) : Prop where
  applied : shard.applied = (List.range' 1 count).map (BitVec.ofNat 64)
  last : shard.lastAppliedBatchId = BitVec.ofNat 64 count

theorem ofNat_succ (count : Nat) : BitVec.ofNat 64 (count + 1) = BitVec.ofNat 64 count + 1 := by
  rw [BitVec.ofNat_add]
  rfl

theorem ofNat_ne_succ (count : Nat) : BitVec.ofNat 64 (count + 1) ≠ BitVec.ofNat 64 count := by
  rw [ofNat_succ]
  intro same
  exact absurd (BitVec.add_right_eq_self.mp same) (by decide)

section

variable (reaches : AppliedTo shard applied)

include reaches

theorem AppliedTo.run_next (handles : Bool) :
    shard.runParallelShard (BitVec.ofNat 64 (applied + 1)) .skipAlreadyApplied handles =
      (⟨BitVec.ofNat 64 (if handles then applied + 1 else applied),
        shard.ran ++ [(BitVec.ofNat 64 (applied + 1), handles)]⟩, handles) := by
  have runs : shard.checkOrderGuard (BitVec.ofNat 64 (applied + 1)) .skipAlreadyApplied = .run := by
    rw [checkOrderGuard, reaches.last, if_pos (ofNat_succ applied)]
  rw [runParallelShard, runs]
  cases handles <;> simp [reaches.last]

theorem AppliedTo.run_again (handles : Bool) :
    shard.runParallelShard (BitVec.ofNat 64 applied) .skipAlreadyApplied handles =
      (shard, true) := by
  have skips : shard.checkOrderGuard (BitVec.ofNat 64 applied) .skipAlreadyApplied =
      .skipAlreadyApplied := by
    rw [checkOrderGuard, reaches.last, if_neg, if_pos ⟨rfl, rfl⟩]
    rw [← ofNat_succ]
    exact (ofNat_ne_succ applied).symm
  rw [runParallelShard, skips]

theorem AppliedTo.next : AppliedTo ⟨BitVec.ofNat 64 (applied + 1),
      shard.ran ++ [(BitVec.ofNat 64 (applied + 1), true)]⟩ (applied + 1) where
  applied := by
    have before := reaches.applied
    simp only [OrderedBatchState.applied] at before ⊢
    simp [List.range'_concat, before, Nat.add_comm 1 applied]
  last := rfl

theorem AppliedTo.fails :
    AppliedTo ⟨BitVec.ofNat 64 applied, shard.ran ++ [(BitVec.ofNat 64 (applied + 1), false)]⟩
      applied where
  applied := by simpa [OrderedBatchState.applied] using reaches.applied
  last := rfl

end

/-- What a run of the current batch does on a shard that has it or is one behind. -/
theorem ran_of_run (reaches : AppliedTo shard applied ∨ AppliedTo shard (applied + 1))
    (handles : Bool) {result : OrderedBatchState × Bool}
    (isResult : result = shard.runParallelShard (BitVec.ofNat 64 (applied + 1))
      .skipAlreadyApplied handles) :
    (result.2 = true → AppliedTo result.1 (applied + 1)) ∧
    (result.2 = false → AppliedTo result.1 applied) ∧
    result.1.ran = shard.ran ++ if shard.lastAppliedBatchId = BitVec.ofNat 64 (applied + 1) then []
      else [(BitVec.ofNat 64 (applied + 1), handles)] := by
  subst isResult
  rcases reaches with behind | ahead
  · rw [behind.run_next, behind.last, if_neg (ofNat_ne_succ applied).symm]
    cases handles
    · exact ⟨fun isTrue => (by cases isTrue), fun _ => behind.fails, rfl⟩
    · exact ⟨fun _ => behind.next, fun isFalse => (by cases isFalse), rfl⟩
  · rw [ahead.run_again, ahead.last, if_pos rfl, append_nil]
    exact ⟨fun _ => ahead, fun isFalse => (by cases isFalse), rfl⟩

structure Inv (state : OrderedCalls) : Prop where
  batchId : state.batchId = BitVec.ofNat 64 (state.succeeded + 1)
  shards : ∀ shard ∈ state.shards,
    AppliedTo shard state.succeeded ∨ AppliedTo shard (state.succeeded + 1)
  none : state.shards = [] → ∀ owner, state.lastParallelFailures owner = 0

theorem mem_runs {call : Action} {result : OrderedBatchState × Bool}
    (member : result ∈ runs state call) :
    ∃ index, ∃ shard ∈ state.shards, result =
      shard.runParallelShard state.batchId .skipAlreadyApplied (call.handles index) := by
  obtain ⟨index, inside, rfl⟩ := mem_mapIdx.mp member
  exact ⟨index, _, getElem_mem inside, rfl⟩

theorem Inv.reported_iff (inv : Inv state) (call : Action) : reported state call = 0 ↔
      ∀ result ∈ runs state call, AppliedTo result.1 (state.succeeded + 1) := by
  have applies : ∀ result ∈ runs state call,
      (result.2 = true ↔ AppliedTo result.1 (state.succeeded + 1)) := by
    intro result member
    obtain ⟨index, shard, inside, isResult⟩ := mem_runs member
    rw [inv.batchId] at isResult
    obtain ⟨succeeds, fails, -⟩ := ran_of_run (inv.shards shard inside) _ isResult
    refine ⟨succeeds, fun reaches => ?_⟩
    by_contra isFalse
    rw [Bool.not_eq_true] at isFalse
    exact ofNat_ne_succ _ (reaches.last.symm.trans (fails isFalse).last)
  rw [reported]
  split
  · rename_i noShard
    simp [inv.none noShard, runs, noShard]
  · rw [countP_eq_zero]
    refine forall₂_congr fun result member => ?_
    rw [← applies result member]
    simp

theorem inv_step {call : Action} (inv : Inv state) (steps : step state call = some after) :
    Inv after := by
  cases steps
  have isReported := inv.reported_iff call
  refine ⟨?_, fun shard member => ?_, fun noShard owner => ?_⟩ <;> dsimp only at *
  · split
    · rw [inv.batchId, ofNat_succ (state.succeeded + 1)]
    · exact inv.batchId
  · obtain ⟨result, isRun, rfl⟩ := mem_map.mp member
    split
    · rename_i succeeds
      exact .inl (isReported.mp succeeds result isRun)
    · obtain ⟨index, shard, inside, isResult⟩ := mem_runs isRun
      rw [inv.batchId] at isResult
      obtain ⟨succeeds, fails, -⟩ := ran_of_run (inv.shards shard inside) _ isResult
      cases isOk : result.2 with
      | true => exact .inr (succeeds isOk)
      | false => exact .inl (fails isOk)
  · have noShard : state.shards = [] := by simpa [runs] using noShard
    rw [reported, if_pos noShard]
    by_cases same : owner = call.owner
    · rw [same, update_self, inv.none noShard]
    · rw [update_of_ne same, inv.none noShard]

theorem inv_reachable (reached : system.Reachable state) : Inv state := by
  induction reached with
  | start starts =>
    obtain ⟨count, rfl⟩ := starts
    refine ⟨rfl, fun shard member => .inl ?_, fun _ _ => rfl⟩
    rw [eq_of_mem_replicate member]
    exact ⟨rfl, rfl⟩
  | next reached permitted steps ih => exact inv_step ih steps

/-- The batches that a shard applied are the first ones in their order, and the guard
has the last of them.  A call reports no failure when every shard has its batch, and
runs the handler only where it is missing. -/
theorem batches_applied_once (reached : system.Reachable state) : (∀ shard ∈ state.shards,
      shard.applied = (List.range' 1 shard.applied.length).map (BitVec.ofNat 64) ∧
      shard.lastAppliedBatchId = BitVec.ofNat 64 shard.applied.length) ∧
    ∀ call, ∃ after, step state call = some after ∧ (after.lastParallelFailures call.owner = 0 ↔
        ∀ shard ∈ after.shards, shard.lastAppliedBatchId = state.batchId) ∧
      after.shards.map OrderedBatchState.ran = state.shards.mapIdx fun index shard => shard.ran ++
          if shard.lastAppliedBatchId = state.batchId then []
          else [(state.batchId, call.handles index)] := by
  have inv := inv_reachable reached
  refine ⟨fun shard member => ?_, fun call => ⟨_, rfl, ?_, ?_⟩⟩
  · have length : ∀ {count : Nat}, AppliedTo shard count → shard.applied.length = count := by
      intro count reaches
      rw [reaches.applied, length_map, length_range']
    rcases inv.shards shard member with reaches | reaches <;> rw [length reaches] <;>
      exact ⟨reaches.applied, reaches.last⟩
  · dsimp only
    rw [update_self, inv.reported_iff, forall_mem_map]
    refine forall₂_congr fun result member => ?_
    obtain ⟨index, shard, inside, isResult⟩ := mem_runs member
    rw [inv.batchId] at isResult ⊢
    obtain ⟨succeeds, fails, -⟩ := ran_of_run (inv.shards shard inside) _ isResult
    refine ⟨AppliedTo.last, fun isLast => ?_⟩
    cases isOk : result.2 with
    | true => exact succeeds isOk
    | false => exact absurd (isLast.symm.trans (fails isOk).last) (ofNat_ne_succ _)
  · refine ext_getElem (by simp [runs]) fun index _ inside => ?_
    rw [length_mapIdx] at inside
    have ran := ran_of_run (inv.shards _ (getElem_mem inside)) (call.handles index) rfl
    rw [← inv.batchId] at ran
    simpa [runs] using ran.2.2

theorem batches_applied_once_retried : ∃ state, system.Reachable state ∧
      state.shards.map OrderedBatchState.ran = [[(1, true)], [(1, false), (1, true)]] ∧
      ∀ shard ∈ state.shards, shard.lastAppliedBatchId = BitVec.ofNat 64 shard.applied.length := by
  obtain ⟨state, reached, ran⟩ := system.exists_reachableUnder (fun _ _ => True)
    (show system.initial (initial 2) from ⟨2, rfl⟩)
    [⟨0, fun index => index = 0⟩, ⟨0, fun _ => true⟩]
    (fun state => state.shards.map OrderedBatchState.ran = [[(1, true)], [(1, false), (1, true)]])
    (by decide)
  exact ⟨state, reached, ran, fun shard member => ((batches_applied_once reached).1 shard member).2⟩

end OrderedCalls

end AsyncFlow
