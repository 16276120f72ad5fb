import AsyncFlow.SpscPushMany

/-!
# A popped batch is a row of single pops

`try_pop_many`, run to its end while the producer stands still, leaves the queue
as repeated calls of `try_pop` do, down to the consumer's copy of `tail_`.
-/

namespace AsyncFlow

open List Option BitVec

namespace Spsc

variable {α : Type*}

/-! ### What pops do -/

/-- What the consumer changes: the number of values popped and its copy of
`tail_`. -/
@[ext]
structure PopSide where
  taken : Nat
  copy : Nat

namespace PopSide

variable (total : Nat) (side : PopSide)

def pop : PopSide :=
  if side.copy = side.taken then
    if total = side.taken then { side with copy := total } else ⟨side.taken + 1, total⟩
  else { side with taken := side.taken + 1 }

def popMany (maxCount : Nat) : PopSide :=
  if maxCount = 0 then side
  else if side.copy = side.taken ∨ side.copy - side.taken < maxCount then
    ⟨side.taken + min (total - side.taken) maxCount, total⟩
  else { side with taken := side.taken + maxCount }

structure Fits : Prop where
  notAhead : side.taken ≤ side.copy
  behind : side.copy ≤ total

variable {total side}

theorem Fits.pop (fits : side.Fits total) : (side.pop total).Fits total := by
  obtain ⟨notAhead, behind⟩ := fits
  simp only [PopSide.pop]
  split
  · split <;> exact ⟨by simp only; omega, Nat.le_refl _⟩
  · exact ⟨by simp only; omega, behind⟩

theorem taken_le_pop (total : Nat) (side : PopSide) : side.taken ≤ (side.pop total).taken := by
  rw [PopSide.pop]
  split
  · split <;> simp
  · simp

theorem popMany_eq (fits : side.Fits total) (maxCount : Nat) : side.popMany total maxCount =
      if side.copy - side.taken < maxCount then
        ⟨side.taken + min (total - side.taken) maxCount, total⟩
      else ⟨side.taken + maxCount, side.copy⟩ := by
  have notAhead := fits.notAhead
  rw [popMany]
  split
  · rename_i nothing
    rw [if_neg (by omega), nothing]
    rfl
  · by_cases few : side.copy - side.taken < maxCount
    · rw [if_pos (.inr few), if_pos few]
    · rw [if_neg (by omega), if_neg few]

theorem popMany_pop (fits : side.Fits total) (maxCount : Nat) :
    (side.pop total).popMany total maxCount = side.popMany total (maxCount + 1) := by
  rw [popMany_eq fits.pop, popMany_eq fits]
  obtain ⟨notAhead, behind⟩ := fits
  rw [pop]
  split
  · rw [if_pos (show side.copy - side.taken < maxCount + 1 by omega)]
    split <;> dsimp only <;> split <;> simp only [PopSide.mk.injEq, and_true] <;> omega
  · by_cases few : side.copy - side.taken < maxCount + 1
    · rw [if_pos few, if_pos (by simp only; omega)]
      simp only [PopSide.mk.injEq, and_true]
      omega
    · rw [if_neg few, if_neg (by simp only; omega)]
      simp only [PopSide.mk.injEq, and_true]
      omega

theorem iterate_pop (fits : side.Fits total) (maxCount : Nat) :
    (pop total)^[maxCount] side = side.popMany total maxCount := by
  induction maxCount generalizing side with
  | zero => rfl
  | succ maxCount ih => rw [Function.iterate_succ_apply, ih fits.pop, popMany_pop fits]

end PopSide

/-! ### Pops that run alone -/

/-- The queue is in the state of the side, with the consumer at the given program
counter. -/
structure PopShows (queue : BoundedSpscQueue α) (log : List α) (side : PopSide) (pc : PopPc α)
    (state : State α) : Prop where
  queue : state.queue = { queue with
    head := BitVec.ofNat 64 side.taken
    tail := BitVec.ofNat 64 log.length
    tailCache := BitVec.ofNat 64 side.copy }
  popped : popped state = log.take side.taken
  consumer : state.consumer = pc

section Alone

variable {capacity : QueueCapacity} {queue : BoundedSpscQueue α} {log : List α}
  {side after : PopSide} {pc next : PopPc α} {state between : State α} {fuel : Nat}

/-- What the consumer can rely on: the counters, and the values it has yet to take. -/
structure PopSide.Reads (capacity : QueueCapacity) (queue : BoundedSpscQueue α) (log : List α)
    (side : PopSide) : Prop extends side.Fits log.length where
  close : log.length ≤ side.taken + capacity.size
  holds : Ring.Holds queue.buffer capacity.size log fun position =>
    side.taken ≤ position ∧ position < log.length

theorem PopSide.Reads.refresh (reads : side.Reads capacity queue log) :
    PopSide.Reads capacity queue log ⟨side.taken, log.length⟩ :=
  ⟨⟨reads.notAhead.trans reads.behind, Nat.le_refl _⟩, reads.close, reads.holds⟩

theorem PopSide.Reads.pop (reads : side.Reads capacity queue log) :
    (side.pop log.length).Reads capacity queue log := by
  have more := PopSide.taken_le_pop log.length side
  exact ⟨reads.toFits.pop, reads.close.trans (Nat.add_le_add_right more _), fun position inside =>
    reads.holds position ⟨more.trans inside.1, inside.2⟩⟩

theorem PopShows.record (shows_ : PopShows queue log side pc state) :
    PopShows queue log side pc (record state) :=
  ⟨shows_.queue, shows_.popped, shows_.consumer⟩

theorem runConsumer_idle (isIdle : state.consumer = .idle) :
    runAlone capacity.word .consumer fuel state = state := by
  cases fuel with
  | zero => rfl
  | succ fuel => simp [runAlone, step, stepCall, stepConsumer, isIdle]

theorem runConsumer_step (enough : 0 < fuel)
    (steps : stepConsumer capacity.word state = some between) (rest : PopShows queue log side .idle
      (runAlone capacity.word .consumer (fuel - 1) (record between))) :
    PopShows queue log side .idle (runAlone capacity.word .consumer fuel state) :=
  runAlone_step enough steps rest

variable {maxCount count : BitVec 64}

theorem runConsumer_take {most : Nat} {out : List α} (enough : 0 < fuel)
    (isOut : out = (log.drop side.taken).take count.toNat)
    (steps : stepConsumer capacity.word state = some (returnPop
      (withHead state (BitVec.ofNat 64 side.taken + count)) most out))
    (shows_ : PopShows queue log side pc state) :
    PopShows queue log ⟨side.taken + count.toNat, side.copy⟩ .idle
      (runAlone capacity.word .consumer fuel state) := by
  obtain ⟨isQueue, isPopped, isPc⟩ := shows_
  refine runConsumer_step enough steps ?_
  rw [runConsumer_idle rfl]
  refine PopShows.record ⟨?_, ?_, rfl⟩
  · simp [returnPop, withHead, isQueue, ofNat_add_word]
  · rw [popped_returnPop, take_add, ← isOut]
    exact congrArg (· ++ out) isPopped

theorem runConsumer_read (enough : 1 < fuel) (reads : side.Reads capacity queue log)
    (inside : side.taken < log.length)
    (shows_ : PopShows queue log side (.read (BitVec.ofNat 64 side.taken)) state) :
    PopShows queue log ⟨side.taken + 1, side.copy⟩ .idle
      (runAlone capacity.word .consumer fuel state) := by
  obtain ⟨isQueue, isPopped, isPc⟩ := shows_
  refine runConsumer_step (by omega) (by rw [stepConsumer, isPc]) ?_
  refine @runConsumer_take _ _ _ _ side _ _ _ 1#64 1 _ (by omega) ?_ rfl
    (PopShows.record ⟨isQueue, isPopped, rfl⟩)
  have isSlot : slot capacity.word (BitVec.ofNat 64 side.taken) = side.taken % capacity.size :=
    capacity.slot _
  have isNext := reads.holds side.taken ⟨Nat.le_refl _, inside⟩
  rw [← isSlot] at isNext
  simp [take_one, isNext, isQueue]

theorem runConsumer_loadHead (enough : 3 < fuel) (reads : side.Reads capacity queue log)
    (shows_ : PopShows queue log side .loadHead state) :
    PopShows queue log (side.pop log.length) .idle
      (runAlone capacity.word .consumer fuel state) := by
  obtain ⟨isQueue, isPopped, isPc⟩ := shows_
  have ⟨⟨notAhead, behind⟩, close, _⟩ := reads
  have same := @copy_eq_head_iff capacity side.taken side.copy notAhead (by omega)
  have nothing := @copy_eq_head_iff capacity side.taken log.length (by omega) close
  refine runConsumer_step (by omega) (by rw [stepConsumer, isPc]) ?_
  simp only [isQueue, same]
  rw [PopSide.pop]
  by_cases fresh : side.copy = side.taken
  · rw [if_pos fresh, if_pos fresh]
    refine runConsumer_step (by omega) (by simp only [stepConsumer]; rfl) ?_
    simp only [refreshTail, withConsumer, AsyncFlow.Spsc.record, isQueue, nothing]
    by_cases isEmpty : log.length = side.taken
    · rw [if_pos isEmpty, if_pos isEmpty, runConsumer_idle rfl]
      refine PopShows.record ⟨rfl, ?_, rfl⟩
      rw [popped_returnPop, append_nil]
      exact isPopped
    · rw [if_neg isEmpty, if_neg isEmpty]
      exact runConsumer_read (by omega) reads.refresh (show side.taken < log.length by omega)
        (PopShows.record ⟨rfl, isPopped, rfl⟩)
  · rw [if_neg fresh, if_neg fresh]
    exact runConsumer_read (by omega) reads (by omega) (PopShows.record ⟨isQueue, isPopped, rfl⟩)

theorem runConsumer_readNext {index : Nat} (enough : 0 < fuel)
    (reads : side.Reads capacity queue log) (inside : side.taken + index < log.length)
    (shows_ : PopShows queue log side (.manyRead maxCount (BitVec.ofNat 64 side.taken) count
      ((log.drop side.taken).take index)) state)
    (follows : ∀ {next : State α}, PopShows queue log side (if index + 1 < count.toNat then
          .manyRead maxCount (BitVec.ofNat 64 side.taken) count
            ((log.drop side.taken).take (index + 1))
        else .manyStoreHead maxCount (BitVec.ofNat 64 side.taken) count
          ((log.drop side.taken).take (index + 1))) next →
      PopShows queue log after .idle (runAlone capacity.word .consumer (fuel - 1) next)) :
    PopShows queue log after .idle (runAlone capacity.word .consumer fuel state) := by
  obtain ⟨isQueue, isPopped, isPc⟩ := shows_
  refine runConsumer_step enough (by rw [stepConsumer, isPc]) ?_
  refine follows (PopShows.record ⟨isQueue, isPopped, ?_⟩)
  have length : ((log.drop side.taken).take index).length = index := by
    rw [length_take, length_drop]
    omega
  have isSlot : slot capacity.word (BitVec.ofNat 64 side.taken + BitVec.ofNat 64 index) =
      (side.taken + index) % capacity.size := by
    rw [← ofNat_add]
    exact capacity.slot _
  have isNext : (log.drop side.taken)[index]? =
      some (queue.buffer ((side.taken + index) % capacity.size)) := by
    rw [getElem?_drop]
    exact reads.holds _ ⟨by omega, inside⟩
  rw [length, isSlot, take_add_one, isNext, isQueue]
  rfl

theorem runConsumer_manyRead (remaining : Nat) {index : Nat}
    (isRemaining : index + remaining + 1 = count.toNat) (enough : remaining + 1 < fuel)
    (reads : side.Reads capacity queue log) (inside : side.taken + count.toNat ≤ log.length)
    (shows_ : PopShows queue log side (.manyRead maxCount (BitVec.ofNat 64 side.taken) count
      ((log.drop side.taken).take index)) state) :
    PopShows queue log ⟨side.taken + count.toNat, side.copy⟩ .idle
      (runAlone capacity.word .consumer fuel state) := by
  induction remaining generalizing index fuel state with
  | zero =>
    refine runConsumer_readNext (by omega) reads (by omega) shows_ fun shows_ => ?_
    rw [if_neg (by omega), show index + 1 = count.toNat from isRemaining] at shows_
    exact runConsumer_take (by omega) rfl (by rw [stepConsumer, shows_.consumer]) shows_
  | succ remaining ih =>
    refine runConsumer_readNext (by omega) reads (by omega) shows_ fun shows_ => ?_
    rw [if_pos (by omega)] at shows_
    exact ih (by omega) (by omega) shows_

theorem runConsumer_beginRead (enough : maxCount.toNat + 1 < fuel) (positive : 0 < maxCount.toNat)
    (reads : side.Reads capacity queue log) (some_ : side.taken < side.copy)
    (shows_ : PopShows queue log side .idle (withConsumer state .idle)) :
    PopShows queue log ⟨side.taken + min (side.copy - side.taken) maxCount.toNat, side.copy⟩ .idle
      (runAlone capacity.word .consumer fuel
        (record (beginRead state maxCount (BitVec.ofNat 64 side.taken)))) := by
  obtain ⟨isQueue, isPopped, -⟩ := shows_
  have isQueue : state.queue = _ := isQueue
  have ⟨⟨_, behind⟩, close, _⟩ := reads
  have available := @toNat_head_sub capacity side.taken side.copy (by omega) (by omega)
  have count := toNat_min (BitVec.ofNat 64 side.copy - BitVec.ofNat 64 side.taken) maxCount
  rw [available] at count
  rw [← count]
  have isPc : (beginRead state maxCount (BitVec.ofNat 64 side.taken)).consumer =
      .manyRead maxCount (BitVec.ofNat 64 side.taken)
        (if BitVec.ofNat 64 side.copy - BitVec.ofNat 64 side.taken < maxCount then
          BitVec.ofNat 64 side.copy - BitVec.ofNat 64 side.taken else maxCount)
        ((log.drop side.taken).take 0) := by
    simp only [beginRead, withConsumer, isQueue, take_zero]
  exact runConsumer_manyRead (min (side.copy - side.taken) maxCount.toNat - 1)
    (show 0 + (min (side.copy - side.taken) maxCount.toNat - 1) + 1 = _ by rw [count]; omega)
    (by omega) reads (by rw [count]; omega) (PopShows.record ⟨isQueue, isPopped, isPc⟩)

theorem runConsumer_manyLoadHead (enough : maxCount.toNat + 3 < fuel)
    (positive : 0 < maxCount.toNat) (reads : side.Reads capacity queue log)
    (shows_ : PopShows queue log side (.manyLoadHead maxCount) state) :
    PopShows queue log (side.popMany log.length maxCount.toNat) .idle
      (runAlone capacity.word .consumer fuel state) := by
  obtain ⟨isQueue, isPopped, isPc⟩ := shows_
  rw [PopSide.popMany_eq reads.toFits]
  have ⟨⟨notAhead, behind⟩, close, _⟩ := reads
  have same := @copy_eq_head_iff capacity side.taken side.copy notAhead (by omega)
  have nothing := @copy_eq_head_iff capacity side.taken log.length (by omega) close
  have few : BitVec.ofNat 64 side.copy - BitVec.ofNat 64 side.taken < maxCount ↔
      side.copy - side.taken < maxCount.toNat := by
    rw [lt_def, @toNat_head_sub capacity side.taken side.copy notAhead (by omega)]
  refine runConsumer_step (by omega) (by rw [stepConsumer, isPc]) ?_
  simp only [isQueue, same, few]
  by_cases short : side.copy - side.taken < maxCount.toNat
  · rw [if_pos short]
    -- The copy of `tail_` is refreshed, on either way.
    have refreshed : ∀ {wasEmpty : Bool}, (wasEmpty = false → side.taken < log.length) →
        PopShows queue log ⟨side.taken + min (log.length - side.taken) maxCount.toNat, log.length⟩
          .idle (runAlone capacity.word .consumer (fuel - 1) (record (withConsumer state
              (.manyLoadTail maxCount (BitVec.ofNat 64 side.taken) wasEmpty)))) := by
      intro wasEmpty known
      refine runConsumer_step (by omega) (by simp only [stepConsumer]; rfl) ?_
      simp only [refreshTail, withConsumer, AsyncFlow.Spsc.record, isQueue, nothing]
      split
      · rename_i isEmpty
        rw [runConsumer_idle rfl, isEmpty.2, Nat.sub_self, Nat.zero_min, Nat.add_zero]
        refine PopShows.record ⟨by rw [← isEmpty.2]; rfl, ?_, rfl⟩
        rw [popped_returnPop, append_nil]
        exact isPopped
      · rename_i someThere
        have some_ : side.taken < log.length := by
          cases wasEmpty with
          | false => exact known rfl
          | true => simp only [true_and] at someThere; omega
        exact runConsumer_beginRead (by omega) positive reads.refresh some_ ⟨rfl, isPopped, rfl⟩
    by_cases fresh : side.copy = side.taken
    · rw [if_pos fresh]
      exact refreshed (by simp)
    · rw [if_neg fresh, if_pos short]
      exact refreshed (by omega)
  · rw [if_neg short, if_neg (show ¬ side.copy = side.taken by omega), if_neg short]
    have known := @runConsumer_beginRead _ capacity queue log side state (fuel - 1) maxCount
      (by omega) positive reads (by omega) ⟨isQueue, isPopped, rfl⟩
    rwa [Nat.min_eq_right (by omega)] at known

theorem callAlone_tryPop (enough : 3 < fuel) (reads : side.Reads capacity queue log)
    (shows_ : PopShows queue log side .idle state) :
    ∃ next, callAlone capacity.word .consumer fuel .tryPop state = some next ∧
      PopShows queue log (side.pop log.length) .idle next := by
  obtain ⟨isQueue, isPopped, isPc⟩ := shows_
  refine ⟨_, by simp only [callAlone, step, stepCall, beginPop, isPc, map_some]; rfl, ?_⟩
  exact runConsumer_loadHead enough reads (PopShows.record ⟨isQueue, isPopped, rfl⟩)

theorem callAlone_tryPops (count : Nat) (enough : 3 < fuel) (reads : side.Reads capacity queue log)
    (shows_ : PopShows queue log side .idle state) :
    ∃ next, (List.replicate count Action.tryPop).foldlM (fun state call =>
        callAlone capacity.word .consumer fuel call state) state = some next ∧
      PopShows queue log ((PopSide.pop log.length)^[count] side) .idle next := by
  induction count generalizing side state with
  | zero => exact ⟨state, rfl, shows_⟩
  | succ count ih =>
    obtain ⟨between, calls, shows_⟩ := callAlone_tryPop enough reads shows_
    obtain ⟨next, others, shows_⟩ := ih reads.pop shows_
    refine ⟨next, ?_, by rwa [Function.iterate_succ_apply]⟩
    rw [List.replicate_succ, List.foldlM_cons, calls]
    exact others

theorem callAlone_tryPopMany (enough : maxCount.toNat + 3 < fuel) (reads : side.Reads capacity queue log)
    (shows_ : PopShows queue log side .idle state) :
    ∃ next, callAlone capacity.word .consumer fuel (.tryPopMany maxCount) state = some next ∧
      PopShows queue log (side.popMany log.length maxCount.toNat) .idle next := by
  obtain ⟨isQueue, isPopped, isPc⟩ := shows_
  by_cases nothing : maxCount = 0#64
  · refine ⟨_, by simp only [callAlone, step, stepCall, beginPop, isPc, if_pos nothing,
      Option.map_some]; rfl, ?_⟩
    rw [runConsumer_idle rfl, nothing]
    refine PopShows.record ⟨isQueue, ?_, rfl⟩
    rw [popped_returnPop, List.append_nil]
    exact isPopped
  · refine ⟨_, by simp only [callAlone, step, stepCall, beginPop, isPc, if_neg nothing,
      Option.map_some]; rfl, ?_⟩
    have positive : 0 < maxCount.toNat := by
      by_contra isZero
      exact nothing (BitVec.eq_of_toNat_eq (by simp only [BitVec.toNat_ofNat]; omega))
    exact runConsumer_manyLoadHead enough positive reads (PopShows.record ⟨isQueue, isPopped, rfl⟩)

end Alone

end Spsc

end AsyncFlow
