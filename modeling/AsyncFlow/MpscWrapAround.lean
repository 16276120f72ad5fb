import AsyncFlow.MpscCorrectness

/-!
# A producer that sleeps through a round of the counter

While one producer stands before its compare-and-exchange, another one and the
consumer fill and empty the queue with batches until the counter has come around
to the position that the first producer has read; its exchange then succeeds on a
full queue.
-/

namespace AsyncFlow

open Option

namespace Mpsc

variable {capacity : QueueCapacity}

/-- The state of a run in which producer 0 stands before its exchange at position
0, and producer 1 pushes whole rounds. -/
structure Stage (first seen filled popped calls : Nat) (pc : PushPc Bool) (popPc : PopPc Bool)
    (state : State Bool) : Prop where
  stalled : state.producers 0 = .exchange true 0#64
  producer : state.producers 1 = pc
  consumer : state.consumer = popPc
  started : state.started 1 = first
  position : state.position 1 = seen
  popped : state.popped.length = popped
  published : ∀ position < filled, state.published position = true
  calls : state.calls = calls

/-- Such a state can be reached, with so many positions reserved. -/
def Reaches (capacity : QueueCapacity) (reserved first seen filled popped calls : Nat)
    (pc : PushPc Bool) (popPc : PopPc Bool) : Prop :=
  ∃ state, (system Bool capacity.word).ReachableUnder fewReservations state ∧
    state.reserved.length = reserved ∧ Stage first seen filled popped calls pc popPc state

def wholeRound (capacity : QueueCapacity) : List Bool :=
  List.replicate capacity.size true

section Steps

variable {reserved first seen filled popped calls : Nat} {pc : PushPc Bool} {popPc : PopPc Bool}

theorem Stage.withProducer {state : State Bool}
    (stage : Stage first seen filled popped calls pc popPc state) (next : PushPc Bool) :
    Stage first seen filled popped calls next popPc (withProducer state 1 next) :=
  { stage with
    stalled := by simp [Mpsc.withProducer, stage.stalled]
    producer := by simp [Mpsc.withProducer] }

theorem Reaches.next {reserved' first' seen' filled' popped' calls' : Nat} {pc' : PushPc Bool}
    {popPc' : PopPc Bool} (reaches : Reaches capacity reserved first seen filled popped calls pc popPc)
    (action : Action Bool) (few : ∀ state : State Bool, state.reserved.length = reserved →
      Stage first seen filled popped calls pc popPc state → fewReservations state action)
    (steps : ∀ state : State Bool, Inv capacity state → state.reserved.length = reserved →
      Stage first seen filled popped calls pc popPc state →
      ∃ after, stepCall capacity.word state action = some after ∧
        after.reserved.length = reserved' ∧
        Stage first' seen' filled' popped' calls' pc' popPc' after) :
    Reaches capacity reserved' first' seen' filled' popped' calls' pc' popPc' := by
  obtain ⟨state, reached, isReserved, stage⟩ := reaches
  obtain ⟨after, stepsTo, afterReserved, afterStage⟩ :=
    steps state (inv_of_reachable reached).1 isReserved stage
  refine ⟨record after, .next reached (few state isReserved stage) ?_, afterReserved, ?_⟩
  · exact map_eq_some_iff.mpr ⟨after, stepsTo, rfl⟩
  · exact { afterStage with }

theorem few_of_stage (small : capacity.size < 2 ^ 62) (recent : reserved ≤ first + capacity.size)
    {spurious : Bool} (state : State Bool) (isReserved : state.reserved.length = reserved)
    (stage : Stage first seen filled popped calls pc popPc state) :
    fewReservations state (.producer 1 spurious) := by
  simp only [fewReservations, isReserved, stage.started]
  omega

theorem batchCount_wholeRound : batchCount capacity.word (wholeRound capacity) = capacity.size := by
  simp [batchCount_eq, wholeRound]

section

variable (small : capacity.size < 2 ^ 62)

include small

theorem Reaches.probeOne {reservable : Nat} (below : reservable < capacity.size)
    (reaches : Reaches capacity first first first filled first calls
      (.manyLoadSequence (wholeRound capacity) (BitVec.ofNat 64 first) reservable) .idle) :
    Reaches capacity first first first filled first calls (if reservable + 1 < capacity.size then
        .manyLoadSequence (wholeRound capacity) (BitVec.ofNat 64 first) (reservable + 1)
      else .manyExchange (wholeRound capacity) (BitVec.ofNat 64 first) (reservable + 1))
      .idle := by
  refine reaches.next (.producer 1 false) (few_of_stage small (by omega))
    fun state inv isReserved stage => ?_
  have free : sequenceAt capacity.word state (BitVec.ofNat 64 first + BitVec.ofNat 64 reservable) =
      BitVec.ofNat 64 first + BitVec.ofNat 64 reservable := by
    have notYet : ¬ state.published (first + reservable) = true := by
      intro isPublished
      have := inv.cells.published_lt _ isPublished
      omega
    rw [← BitVec.ofNat_add, sequenceAt, slot_ofNat, inv.cells.sequences _
      (by rw [stage.popped]; omega) (by rw [stage.popped]; omega), if_neg notYet]
  refine ⟨_, by simp only [stepCall, stepProducer, stage.producer, free, if_true,
    batchCount_wholeRound]; rfl, ?_, ?_⟩
  · exact isReserved
  · exact stage.withProducer _

theorem Reaches.probe (remaining : Nat) {reservable : Nat}
    (isRemaining : reservable + remaining + 1 = capacity.size)
    (reaches : Reaches capacity first first first filled first calls
      (.manyLoadSequence (wholeRound capacity) (BitVec.ofNat 64 first) reservable) .idle) :
    Reaches capacity first first first filled first calls
      (.manyExchange (wholeRound capacity) (BitVec.ofNat 64 first) capacity.size) .idle := by
  induction remaining generalizing reservable with
  | zero =>
    have probed := reaches.probeOne small (by omega)
    rwa [if_neg (by omega), show reservable + 1 = capacity.size from isRemaining] at probed
  | succ remaining ih =>
    have probed := reaches.probeOne small (by omega)
    rw [if_pos (by omega)] at probed
    exact ih (by omega) probed

theorem Reaches.beginBatch {first' : Nat}
    (reaches : Reaches capacity first first' seen filled popped calls .idle .idle) :
    Reaches capacity first first first filled popped (calls + 1)
      (.manyLoadSequence (wholeRound capacity) (BitVec.ofNat 64 first) 0) .idle := by
  obtain ⟨value, rest, isRound⟩ : ∃ value rest, wholeRound capacity = value :: rest := by
    obtain ⟨less, isSucc⟩ := Nat.exists_eq_succ_of_ne_zero capacity.size_pos.ne'
    exact ⟨true, List.replicate less true, by rw [wholeRound, isSucc, List.replicate_succ]⟩
  have length : (value :: rest).length < 2 ^ 64 := by
    rw [← isRound, wholeRound, List.length_replicate]
    omega
  rw [isRound]
  have begun : Reaches capacity first first seen filled popped (calls + 1)
      (.manyLoadPos (value :: rest)) .idle := by
    refine reaches.next (.tryPushMany 1 (value :: rest)) (fun _ _ _ => trivial)
      fun state inv isReserved stage => ?_
    refine ⟨_, by simp only [stepCall, if_pos length, beginPush, stage.producer]; rfl, ?_, ?_⟩
    · exact isReserved
    · exact { stage.withProducer _ with
        started := by simp [isReserved], calls := by simp [stage.calls] }
  refine begun.next (.producer 1 false) (few_of_stage small (by omega))
    fun state inv isReserved stage => ?_
  refine ⟨_, by simp only [stepCall, stepProducer, stage.producer, inv.cells.enqueue,
    isReserved]; rfl, ?_, ?_⟩
  · exact isReserved
  · exact { stage.withProducer _ with position := by simp [withProducer, seePosition, isReserved] }

theorem Reaches.exchange (reaches : Reaches capacity first first first filled popped calls
      (.manyExchange (wholeRound capacity) (BitVec.ofNat 64 first) capacity.size) .idle) :
    Reaches capacity (first + capacity.size) first first filled popped calls
      (.manyWrite (wholeRound capacity) (BitVec.ofNat 64 first) capacity.size 0) .idle := by
  refine reaches.next (.producer 1 false) (few_of_stage small (by omega))
    fun state inv isReserved stage => ?_
  have same : state.queue.enqueuePos = BitVec.ofNat 64 first := by
    rw [inv.cells.enqueue, isReserved]
  refine ⟨_, by simp only [stepCall, stepProducer, stage.producer, same, and_self, if_true]; rfl,
    ?_, ?_⟩
  · simp [withProducer, reserve, wholeRound, isReserved]
  · exact { stage.withProducer _ with
      position := by simp [withProducer, reserve, seePosition, isReserved] }

theorem Reaches.fillOne {index : Nat} (below : index < capacity.size)
    (reaches : Reaches capacity (first + capacity.size) first first (first + index) popped calls
      (.manyWrite (wholeRound capacity) (BitVec.ofNat 64 first) capacity.size index) .idle) :
    Reaches capacity (first + capacity.size) first first (first + (index + 1)) popped calls
      (if index + 1 < capacity.size then
        .manyWrite (wholeRound capacity) (BitVec.ofNat 64 first) capacity.size (index + 1)
      else .idle) .idle := by
  have isValue : (wholeRound capacity)[index]? = some true := by
    simp [wholeRound, below]
  have written : Reaches capacity (first + capacity.size) first first (first + index) popped calls
      (.manyStoreSequence (wholeRound capacity) (BitVec.ofNat 64 first) capacity.size index)
      .idle := by
    refine reaches.next (.producer 1 false) (few_of_stage small (by omega))
      fun state inv isReserved stage => ?_
    refine ⟨_, by simp only [stepCall, stepProducer, stage.producer, isValue, map_some]; rfl,
      ?_, ?_⟩
    · exact isReserved
    · exact { stage.withProducer _ with }
  refine written.next (.producer 1 false) (few_of_stage small (by omega))
    fun state inv isReserved stage => ?_
  have published : ∀ position < first + (index + 1),
      (publish capacity.word state 1 (BitVec.ofNat 64 first) index).published position = true := by
    intro position before
    simp only [publish, stage.position]
    by_cases here : position = first + index
    · rw [here, Function.update_self]
    · rw [Function.update_of_ne here]
      exact stage.published position (by omega)
  refine ⟨_, by simp only [stepCall, stepProducer, stage.producer]; rfl, ?_, ?_⟩
  · split <;> exact isReserved
  · split
    all_goals exact { stage.withProducer _ with published := published }

theorem Reaches.fill (remaining : Nat) {index : Nat}
    (isRemaining : index + remaining + 1 = capacity.size)
    (reaches : Reaches capacity (first + capacity.size) first first (first + index) popped calls
      (.manyWrite (wholeRound capacity) (BitVec.ofNat 64 first) capacity.size index) .idle) :
    Reaches capacity (first + capacity.size) first first (first + capacity.size) popped calls
      .idle .idle := by
  induction remaining generalizing index with
  | zero =>
    have filled := reaches.fillOne small (by omega)
    rwa [if_neg (by omega), show index + 1 = capacity.size from isRemaining] at filled
  | succ remaining ih =>
    have filled := reaches.fillOne small (by omega)
    rw [if_pos (by omega)] at filled
    exact ih (by omega) filled

theorem Reaches.fillRound {first' : Nat}
    (reaches : Reaches capacity first first' seen first first calls .idle .idle) :
    Reaches capacity (first + capacity.size) first first (first + capacity.size) first
      (calls + 1) .idle .idle := by
  have positive := capacity.size_pos
  have probed := (reaches.beginBatch small).probe small (capacity.size - 1) (by omega)
  exact Reaches.fill small (capacity.size - 1) (show 0 + (capacity.size - 1) + 1 = _ by omega)
    (probed.exchange small)

end

theorem Reaches.popOne {out : List Bool} (available : popped < filled)
    (reaches : Reaches capacity reserved first seen filled popped calls .idle
      (.manyLoadSequence capacity.size (BitVec.ofNat 64 popped) out)) :
    ∃ value, Reaches capacity reserved first seen filled (popped + 1) calls .idle
      (if out.length + 1 < capacity.size then
        .manyLoadSequence capacity.size (BitVec.ofNat 64 (popped + 1)) (out ++ [value])
      else .idle) := by
  have readable : Reaches capacity reserved first seen filled popped calls .idle
      (.manyRead capacity.size (BitVec.ofNat 64 popped) out) := by
    refine reaches.next .consumer (fun _ _ _ => trivial) fun state inv isReserved stage => ?_
    have isReady := stage.published popped available
    have shows_ := inv.cells.sequenceAt_next
    rw [ready, stage.popped] at shows_
    refine ⟨_, by simp only [stepCall, stepConsumer, stage.consumer, shows_.mpr isReady, if_true];
                  rfl, ?_, ?_⟩
    · exact isReserved
    · exact { stage with consumer := rfl }
  -- The value is the one in the cell of the state that is reached.
  obtain ⟨state, reached, isReserved, stage⟩ := readable
  refine ⟨(state.queue.cells (slot capacity.word (BitVec.ofNat 64 popped))).data, ?_⟩
  generalize isData : (state.queue.cells (slot capacity.word (BitVec.ofNat 64 popped))).data = value
  have read : Reaches capacity reserved first seen filled popped calls .idle
      (.manyStoreSequence capacity.size (BitVec.ofNat 64 popped) out value) := by
    refine ⟨_, .next reached (show fewReservations state .consumer from trivial)
      (map_eq_some_iff.mpr ⟨_, by
        simp only [stepCall, stepConsumer, stage.consumer, isData]; rfl, rfl⟩), ?_, ?_⟩
    · exact isReserved
    · exact { stage with consumer := rfl }
  refine read.next .consumer (fun _ _ _ => trivial) fun state inv isReserved stage => ?_
  have length : (release capacity.word state (BitVec.ofNat 64 popped) value).popped.length =
      popped + 1 := by
    simp [release, stage.popped]
  refine ⟨_, by simp only [stepCall, stepConsumer, stage.consumer]; rfl, ?_, ?_⟩
  · split <;> exact isReserved
  · rw [BitVec.ofNat_add]
    split
    all_goals
      exact { stage with consumer := rfl, popped := length }

theorem Reaches.pop (remaining : Nat) {out : List Bool}
    (isRemaining : out.length + remaining + 1 = capacity.size)
    (available : popped + remaining < filled)
    (reaches : Reaches capacity reserved first seen filled popped calls .idle
      (.manyLoadSequence capacity.size (BitVec.ofNat 64 popped) out)) :
    Reaches capacity reserved first seen filled (popped + remaining + 1) calls .idle .idle := by
  induction remaining generalizing out popped with
  | zero =>
    obtain ⟨value, next⟩ := reaches.popOne (by omega)
    rwa [if_neg (by omega)] at next
  | succ remaining ih =>
    obtain ⟨value, next⟩ := reaches.popOne (by omega)
    rw [if_pos (by omega)] at next
    have rest := ih (by simp; omega) (by omega) next
    rwa [show popped + 1 + remaining + 1 = popped + (remaining + 1) + 1 by omega] at rest

theorem Reaches.beginPop
    (reaches : Reaches capacity reserved first seen filled popped calls .idle .idle) :
    Reaches capacity reserved first seen filled popped (calls + 1) .idle
      (.manyLoadSequence capacity.size (BitVec.ofNat 64 popped) []) := by
  have positive := capacity.size_pos
  have small := capacity.size_le
  refine reaches.next (.tryPopMany capacity.size) (fun _ _ _ => trivial)
    fun state inv isReserved stage => ?_
  have isPos : state.queue.dequeuePos = BitVec.ofNat 64 popped := by
    have fact := inv.consumer
    rw [stage.consumer] at fact
    exact fact.trans (by rw [stage.popped])
  refine ⟨_, by simp only [stepCall, if_neg positive.ne', if_pos (show capacity.size < 2 ^ 64 by
    omega), Mpsc.beginPop, stage.consumer, isPos]; rfl, ?_, ?_⟩
  · exact isReserved
  · exact { stage with consumer := rfl, calls := by simp [stage.calls] }

theorem Reaches.around {first' : Nat} (small : capacity.size < 2 ^ 62)
    (reaches : Reaches capacity first first' seen first first calls .idle .idle) :
    Reaches capacity (first + capacity.size) first first (first + capacity.size)
      (first + capacity.size) (calls + 2) .idle .idle := by
  have positive := capacity.size_pos
  have filled := reaches.fillRound small
  have emptied := filled.beginPop.pop (capacity.size - 1) (by simp; omega) (by omega)
  rwa [show first + (capacity.size - 1) + 1 = first + capacity.size by omega] at emptied

end Steps

theorem Reaches.rounds (small : capacity.size < 2 ^ 62)
    (stalled : Reaches capacity 0 0 0 0 0 1 .idle .idle) (rounds : Nat) :
    ∃ first seen, Reaches capacity (capacity.size * rounds) first seen (capacity.size * rounds)
      (capacity.size * rounds) (1 + 2 * rounds) .idle .idle := by
  induction rounds with
  | zero => exact ⟨0, 0, stalled⟩
  | succ rounds ih =>
    obtain ⟨first, seen, reaches⟩ := ih
    exact ⟨_, _, reaches.around small⟩

def capacity1024 : QueueCapacity :=
  ⟨10, by decide, by decide⟩

theorem reaches_stalled : Reaches capacity1024 0 0 0 0 0 1 .idle .idle := by
  obtain ⟨state, reached, reserved, stalled, producer, consumer, started, position, popped, calls⟩ :=
    (system Bool capacity1024.word).exists_reachableUnder fewReservations
      (show start = start from rfl) [.tryPush 0 true, .producer 0 false, .producer 0 false]
      (fun state => state.reserved.length = 0 ∧ state.producers 0 = .exchange true 0#64 ∧
        state.producers 1 = .idle ∧ state.consumer = .idle ∧ state.started 1 = 0 ∧
        state.position 1 = 0 ∧ state.popped.length = 0 ∧ state.calls = 1) (by decide)
  exact ⟨state, reached, reserved, stalled, producer, consumer, started, position, popped,
    fun _ none_ => absurd none_ (Nat.not_lt_zero _), calls⟩

/-- With 2 ^ 55 operations in the whole run, more positions than there are cells
are reserved and not given free. -/
theorem wrappedExchange_overfills : normalizeBoundedQueueCapacity 1024#64 = .ok 1024#64 ∧
    ∃ state : State Bool, (system Bool 1024#64).Reachable state ∧ state.calls < 2 ^ 62 ∧
      outstanding state = 1025 := by
  refine ⟨by decide, ?_⟩
  have small : capacity1024.size < 2 ^ 62 := by decide
  obtain ⟨first, seen, reaches⟩ := reaches_stalled.rounds small (2 ^ 54 - 1)
  obtain ⟨state, reached, reserved, stage⟩ := reaches.fillRound small
  have size : capacity1024.size = 1024 := rfl
  have enqueue : state.queue.enqueuePos = 0#64 := by
    rw [(inv_of_reachable reached).1.cells.enqueue, reserved, size]
    decide
  refine ⟨_, .next reached.reachable trivial (map_eq_some_iff.mpr
    ⟨_, show stepCall _ state (.producer 0 false) = _ by
      simp only [stepCall, stepProducer, stage.stalled, enqueue, and_self, if_true]; rfl, rfl⟩),
    ?_, ?_⟩
  · change state.calls < 2 ^ 62
    rw [stage.calls]
    decide
  · change (state.reserved ++ _).length - state.popped.length = 1025
    rw [List.length_append, reserved, stage.popped, size]
    decide

end Mpsc

end AsyncFlow
