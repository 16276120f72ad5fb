import AsyncFlow.LogBackend
import Mathlib.Algebra.GroupWithZero.Nat
import Mathlib.Data.List.Perm.Lattice

/-!
# The records and the batches of a log backend

Every batch is in one place: a queue, the spare of the producer, the current slot
of the sender, or the hands of an `enqueue` or of a `complete_batch`.  Records are
counted once, wherever their batch is.
-/

namespace AsyncFlow

open Function List LogCaller

def LogCaller.hand : LogCaller → List LogBatch
  | .enqueuing (.counting batch _ _) | .enqueuing (.pushing batch _ _) => [batch]
  | _ => []

def LogCaller.unplaced : LogCaller → Nat
  | .enqueuing (.acquiring records _) => records.count true
  | .enqueuing (.counting batch records _) | .enqueuing (.pushing batch records _) =>
    batch.recordCount + records.count true
  | _ => 0

/-- The `enqueue` has counted a batch that it has not pushed. -/
def LogCaller.counted : LogCaller → Nat
  | .enqueuing (.pushing _ _ _) => 1
  | _ => 0

theorem LogCaller.emptyHanded {caller : LogCaller} (notEnqueue : ∀ pc, caller ≠ .enqueuing pc) :
    caller.hand = [] ∧ caller.unplaced = 0 ∧ caller.counted = 0 := by
  cases caller with
  | enqueuing pc => exact absurd rfl (notEnqueue pc)
  | _ => exact ⟨rfl, rfl, rfl⟩

def SenderTask.hand : SenderTask → List LogBatch
  | .running (.recycling batch _) => [batch]
  | _ => []

def SenderTask.counted : SenderTask → Nat
  | .running (.recycling _ _) | .running (.abandoning _) => 1
  | _ => 0

namespace LogBackend

variable {config : LogConfig} {state after : LogBackend} {thread : Nat}

def places (state : LogBackend) : List LogBatch :=
  state.freeBatches ++ state.readyBatches ++ state.producerSpareBatch.toList ++
    (state.current.map Prod.fst).toList ++ (state.callers 0).hand ++ state.task.hand

def unsent : Option (LogBatch × Nat) → Nat
  | none => 0
  | some (batch, finished) => batch.recordCount - finished

structure Accounted (config : LogConfig) (state : LogBackend) : Prop where
  producer : ∀ thread, thread ≠ 0 → ∀ pc, state.callers thread ≠ .enqueuing pc
  places : (state.places.map LogBatch.number).Perm (List.range config.batches)
  records : state.passed = state.sentRecords + state.droppedRecords +
    (state.readyBatches.map LogBatch.recordCount).sum + unsent state.current +
      (state.callers 0).unplaced
  pending : state.pendingBatches = state.readyBatches.length + state.current.toList.length +
    (state.callers 0).counted + state.task.counted
  current : ∀ batch finished, state.current = some (batch, finished) → finished ≤ batch.recordCount

theorem fillBatch_count (max : Nat) (records : List Bool) :
    (fillBatch max records).1 + (fillBatch max records).2.count true = records.count true := by
  fun_induction fillBatch max records with
  | case1 => rfl
  | case2 max records ih => simpa using ih
  | case3 => simp
  | case4 max records ih => simp; omega

theorem Accounted.length_places (accounted : Accounted config state) :
    state.places.length = config.batches := by
  have := accounted.places.length_eq
  rwa [length_map, length_range] at this

theorem Accounted.room (accounted : Accounted config state) :
    ((state.callers 0).hand ≠ [] → state.readyBatches.length < config.queueCapacity) ∧
      (state.task.hand ≠ [] → state.freeBatches.length < config.queueCapacity) := by
  have total := accounted.length_places
  have fits := config.batches_le
  simp only [LogBackend.places, length_append] at total
  constructor <;> intro hasHand <;> have positive := length_pos_iff.mpr hasHand <;> omega

attribute [local grind] hand unplaced counted SenderTask.hand
  SenderTask.counted unsent

theorem places_perm {before after : List LogBatch} {batches : Nat}
    (places : (before.map LogBatch.number).Perm (List.range batches))
    (same : ∀ number, (after.map LogBatch.number).count number =
      (before.map LogBatch.number).count number) :
    (after.map LogBatch.number).Perm (List.range batches) :=
  (perm_iff_count.mpr same).trans places

section

variable (accounted : Accounted config state)

include accounted

theorem Accounted.stepEnqueue {pc : LogEnqueuePc} (isPc : state.callers 0 = .enqueuing pc) :
    Accounted config (state.stepEnqueue config 0 pc) := by
  have room := accounted.room.1
  obtain ⟨producer, places, placed, pending, current⟩ := accounted
  simp only [LogBackend.places, isPc] at places
  cases pc with
  | checking records =>
    simp only [LogBackend.stepEnqueue, leaveEnqueue, LogBackend.withCaller]
    split <;> constructor <;> grind -linarith [update_apply, LogBackend.places]
  | acquiring records any =>
    simp only [LogBackend.stepEnqueue, leaveEnqueue, LogBackend.withCaller]
    split
    · constructor <;> grind -linarith [update_apply, LogBackend.places]
    · have filled := fillBatch_count config.maxBatchRecords records
      unfold acquireProducerBatch
      cases spare : state.producerSpareBatch <;> cases free : state.freeBatches
      · constructor <;> grind -linarith [update_apply, LogBackend.places]
      all_goals
        refine ⟨by grind -linarith [update_apply], places_perm places fun number => ?_, ?_, ?_, current⟩
        · simp only [LogBackend.places, update_self, hand, spare, free]
          simp [count_cons]
          try omega
        all_goals grind -linarith [update_apply]
  | counting batch records any =>
    simp only [LogBackend.stepEnqueue, LogBackend.withCaller]
    constructor <;> grind -linarith [update_apply, LogBackend.places]
  | pushing batch records any =>
    simp only [LogBackend.stepEnqueue, LogBackend.withCaller]
    rw [if_pos (room (by simp [isPc, hand]))]
    refine ⟨by grind -linarith [update_apply], places_perm places fun number => ?_, ?_, ?_, current⟩
    · simp only [LogBackend.places, update_self, hand]
      simp [count_cons]
      omega
    all_goals grind -linarith [update_apply]

theorem Accounted.settleCurrent {batch : LogBatch}
    {finished sent dropped : Nat} {drained : Option Nat} {waits : Bool}
    (isCurrent : state.current = some (batch, finished)) (noHand : state.task.hand = [])
    (noneCounted : state.task.counted = 0) (counts : sent + dropped =
      state.sentRecords + state.droppedRecords + (batch.recordCount - finished)) :
    Accounted config { state.settle batch drained with
      current := none, sentRecords := sent, droppedRecords := dropped, ioWaiting := waits } := by
  obtain ⟨producer, places, placed, pending, current⟩ := accounted
  simp only [LogBackend.places, noHand, isCurrent] at places
  rw [isCurrent] at placed pending
  refine ⟨producer, places_perm places fun number => ?_, ?_, ?_, ?_⟩
  · simp [LogBackend.places, settle, goTo, SenderTask.hand, count_cons]
  all_goals grind [settle, goTo]

theorem Accounted.sendCurrent {drained : Nat}
    {outcome : SendOutcome} (isPc : state.task = .running (.sending drained))
    (steps : state.sendCurrent config drained outcome = some after) : Accounted config after := by
  have noHand : state.task.hand = [] := by rw [isPc]; rfl
  have noneCounted : state.task.counted = 0 := by rw [isPc]; rfl
  unfold LogBackend.sendCurrent at steps
  split at steps
  case h_1 | h_2 => cases steps
  case h_3 =>
    obtain ⟨producer, places, placed, pending, current⟩ := accounted
    simp only [LogBackend.places, noHand] at places
    rw [noneCounted] at pending
    cases steps
    unfold returnPending
    split <;> exact ⟨producer, places, placed, pending, current⟩
  all_goals
    rename_i batch finished count isCurrent
    split at steps
    case isFalse => cases steps
    case isTrue isValid =>
      cases steps
      unfold advance
      split
      case isTrue =>
        refine accounted.settleCurrent isCurrent noHand noneCounted ?_
        dsimp only [settle, goTo]
        omega
      case isFalse =>
        obtain ⟨producer, places, placed, pending, current⟩ := accounted
        simp only [LogBackend.places, isCurrent] at places
        rw [isCurrent] at placed pending
        refine ⟨producer, places, ?_, pending, ?_⟩ <;> grind

theorem Accounted.stepSender {pc : SenderPc}
    {outcome : SendOutcome} (isPc : state.task = .running pc)
    (steps : state.stepSender config outcome pc = some after) : Accounted config after := by
  have room := accounted.room.2
  obtain ⟨producer, places, placed, pending, current⟩ := id accounted
  simp only [LogBackend.places, isPc] at places
  rw [isPc] at pending
  cases pc with
  | sending drained => exact accounted.sendCurrent isPc steps
  | checkStopping =>
    simp only [LogBackend.stepSender] at steps
    repeat' split at steps
    case h_2 batch finished isCurrent =>
      cases steps
      refine accounted.settleCurrent isCurrent (by rw [isPc]; rfl) (by rw [isPc]; rfl) ?_
      dsimp only [settle, goTo]
      omega
    all_goals
      cases steps
      exact ⟨producer, places, placed, pending, current⟩
  | dropReady | top drained =>
    simp only [LogBackend.stepSender] at steps
    split at steps <;> cases steps
    case h_2 =>
      simp only [*] at placed pending places
      refine ⟨producer, places_perm places fun number => ?_, ?_, ?_, ?_⟩
      · simp [LogBackend.places, settle, goTo, SenderTask.hand, count_cons]
        omega
      all_goals grind [settle, goTo]
    all_goals exact ⟨producer, places, placed, pending, current⟩
  | recycling batch drained =>
    simp only [LogBackend.stepSender] at steps
    rw [if_pos (room (by simp [isPc, SenderTask.hand]))] at steps
    cases steps
    refine ⟨producer, places_perm places fun number => ?_, placed, pending, current⟩
    simp [LogBackend.places, goTo, SenderTask.hand, count_cons]
    omega
  | abandoning drained =>
    cases drained with
    | none =>
      cases steps
      exact ⟨producer, places, placed, by grind [goTo], current⟩
    | some drained =>
      cases steps
      split <;> exact ⟨producer, places, placed, by grind [goTo, returnAgain], current⟩
  | _ =>
    simp only [LogBackend.stepSender, returnPending] at steps
    repeat' split at steps
    all_goals
      cases steps
      exact ⟨producer, places, placed, pending, current⟩

theorem Accounted.other (notEnqueue : ∀ pc, state.callers thread ≠ .enqueuing pc)
    (steps : state.OtherStep thread after) : Accounted config after := by
  obtain ⟨producer, places, placed, pending, current⟩ := accounted
  obtain ⟨caller, task, _, _, _, _, _, _, _, _, _, rfl, caller_ne, task_eq, -⟩ := steps
  have same : task.hand = state.task.hand ∧ task.counted = state.task.counted := by grind
  have sameCaller : (update state.callers thread caller 0).hand = (state.callers 0).hand ∧
      (update state.callers thread caller 0).unplaced = (state.callers 0).unplaced ∧
      (update state.callers thread caller 0).counted = (state.callers 0).counted := by
    rcases eq_or_ne 0 thread with rfl | other
    · simp only [update_self, emptyHanded caller_ne, emptyHanded notEnqueue, and_self]
    · simp only [update_of_ne other, and_self]
  simp only [LogBackend.places] at places
  refine ⟨by grind [update_apply], ?_, ?_, ?_, current⟩
  · simpa only [LogBackend.places, same, sameCaller] using places
  · simpa only [sameCaller] using placed
  · simpa only [same, sameCaller] using pending

theorem Accounted.step {action : Action}
    (steps : step config state action = some after) : Accounted config after := by
  cases action with
  | caller thread answer =>
    rcases step_caller steps with ⟨pc, isPc, rfl⟩ | ⟨notEnqueue, ⟨other⟩⟩
    · have isProducer : thread = 0 := by
        by_contra different
        exact accounted.producer thread different pc isPc
      subst isProducer
      exact accounted.stepEnqueue isPc
    · exact accounted.other notEnqueue other
  | sender outcome =>
    simp only [LogBackend.step] at steps
    split at steps
    case h_1 pc isPc => exact accounted.stepSender isPc steps
    case h_2 => cases steps
  | _ =>
    obtain ⟨producer, places, placed, pending, current⟩ := accounted
    simp only [LogBackend.places] at places
    simp only [LogBackend.step, call, goTo, LogBackend.withCaller] at steps
    repeat' split at steps
    all_goals cases steps
    all_goals constructor <;> grind -linarith [update_apply, LogBackend.places]

end

theorem accounted_initial : Accounted config (initial config) where
  producer := by simp [initial]
  places := by simp [initial, LogBackend.places, hand, SenderTask.hand, comp_def]
  records := rfl
  pending := rfl
  current := by simp [initial]

theorem accounted_reachable (reached : (system config).Reachable state) :
    Accounted config state := by
  induction reached with
  | start starts =>
    cases starts
    exact accounted_initial
  | next reached permitted steps ih => exact ih.step steps

end LogBackend

end AsyncFlow
