import AsyncFlow.BoundedMpscQueue
import AsyncFlow.BoundedFifo

/-!
# The invariant of the multi-producer single-consumer queue

The sequence number of each cell tells whether its position is published.  A
producer that fills positions owns them by its reservation.
-/

namespace AsyncFlow

namespace Mpsc

variable {α : Type*} {capacity : QueueCapacity} {state after : State α} {producer : Nat}

structure Cells (capacity : QueueCapacity) (state : State α) : Prop where
  enqueue : state.queue.enqueuePos = BitVec.ofNat 64 state.reserved.length
  ordered : state.popped.length ≤ state.reserved.length
  bounded : state.reserved.length ≤ state.popped.length + capacity.size
  published_lt : ∀ position, state.published position = true → position < state.reserved.length
  passed : ∀ position < state.popped.length, state.published position = true
  sequences : ∀ position, state.popped.length ≤ position →
    position < state.popped.length + capacity.size →
    (state.queue.cells (position % capacity.size)).sequence =
      BitVec.ofNat 64 (if state.published position then position + 1 else position)
  holds : Ring.Holds (fun index => (state.queue.cells index).data) capacity.size (pushed state)
    fun position => state.popped.length ≤ position ∧ state.published position = true
  isPrefix : state.popped <+: pushed state

theorem Cells.of_same (cells : Cells capacity state)
    (same : (after.queue.enqueuePos, after.queue.cells, after.reserved,
        after.popped, after.published) =
      (state.queue.enqueuePos, state.queue.cells, state.reserved, state.popped,
        state.published)) : Cells capacity after := by
  simp only [Prod.mk.injEq] at same
  obtain ⟨enqueue, isCells, reserved, popped, published⟩ := same
  obtain ⟨_, _, _, _, _, _, _, _⟩ := cells
  constructor <;> simp only [pushed, enqueue, isCells, reserved, popped, published] <;> assumption

/-! ### Producers -/

structure Seen (state : State α) (producer : Nat) (pos : BitVec 64) : Prop where
  isPos : pos = BitVec.ofNat 64 (state.position producer)
  late : state.started producer ≤ state.position producer
  notAhead : state.position producer ≤ state.reserved.length

/-- A batch that was cut short has met a queue that was that full. -/
def CutShort (capacity : QueueCapacity) (asked count : Nat) (moments : List Nat) : Prop :=
  count < asked → ∃ moment ∈ moments, moment ≤ capacity.size ∧ capacity.size ≤ moment + count

/-- A producer fills the positions that it has reserved, and has published those
before the index. -/
structure Filling (capacity : QueueCapacity) (state : State α) (producer : Nat)
    (values : List α) (count index : Nat) : Prop where
  late : state.started producer ≤ state.position producer
  inside : count ≤ values.length
  below : index < count
  logged : ∀ other < count, state.reserved[state.position producer + other]? =
    values[other]?.map (Prod.mk producer)
  filled : ∀ other < index, state.published (state.position producer + other) = true
  unfilled : ∀ other < count, index ≤ other →
    state.published (state.position producer + other) = false
  cut : CutShort capacity (batchCount capacity.word values) count (state.pushMoments producer)

def Placed (capacity : QueueCapacity) (state : State α) (producer : Nat) (values : List α)
    (index : Nat) : Prop :=
  values[index]? = some (state.queue.cells ((state.position producer + index) % capacity.size)).data

def PushFact (capacity : QueueCapacity) (state : State α) (producer : Nat) : PushPc α → Prop
  | .idle | .loadPos _ => True
  | .loadSequence _ pos => Seen state producer pos
  | .exchange _ pos =>
    Seen state producer pos ∧ state.position producer + 1 ≤ state.popped.length + capacity.size
  | .write value pos =>
    pos = BitVec.ofNat 64 (state.position producer) ∧ Filling capacity state producer [value] 1 0
  | .storeSequence value pos =>
    pos = BitVec.ofNat 64 (state.position producer) ∧
      Filling capacity state producer [value] 1 0 ∧ Placed capacity state producer [value] 0
  | .manyLoadPos values => values ≠ []
  | .manyLoadSequence values pos reservable =>
    Seen state producer pos ∧ reservable < batchCount capacity.word values ∧
      state.position producer + reservable ≤ state.popped.length + capacity.size
  | .manyExchange values pos reservable =>
    Seen state producer pos ∧ 0 < reservable ∧ reservable ≤ batchCount capacity.word values ∧
      state.position producer + reservable ≤ state.popped.length + capacity.size ∧
      (state.position producer < state.reserved.length ∨
        CutShort capacity (batchCount capacity.word values) reservable (state.pushMoments producer))
  | .manyWrite values pos reservable index =>
    pos = BitVec.ofNat 64 (state.position producer) ∧
      Filling capacity state producer values reservable index
  | .manyStoreSequence values pos reservable index =>
    pos = BitVec.ofNat 64 (state.position producer) ∧
      Filling capacity state producer values reservable index ∧
      Placed capacity state producer values index

structure Returned (capacity : QueueCapacity) (state : State α) (call : PushReturn α) : Prop where
  inside : call.count ≤ call.values.length
  logged : ∀ other < call.count, state.reserved[call.position + other]? =
    call.values[other]?.map (Prod.mk call.producer)
  published : ∀ other < call.count, state.published (call.position + other) = true
  cut : CutShort capacity (batchCount capacity.word call.values) call.count call.moments

/-! ### The consumer -/

def PopFact (state : State α) : PopPc α → Prop
  | .idle => state.queue.dequeuePos = BitVec.ofNat 64 state.popped.length
  | .loadSequence pos => pos = BitVec.ofNat 64 state.popped.length
  | .read pos => pos = BitVec.ofNat 64 state.popped.length ∧ ready state = true
  | .storeSequence pos value =>
    pos = BitVec.ofNat 64 state.popped.length ∧ ready state = true ∧
      (pushed state)[state.popped.length]? = some value
  | .manyLoadSequence maxCount pos out =>
    pos = BitVec.ofNat 64 state.popped.length ∧ out.length < maxCount
  | .manyRead maxCount pos out =>
    pos = BitVec.ofNat 64 state.popped.length ∧ out.length < maxCount ∧ ready state = true
  | .manyStoreSequence maxCount pos out value =>
    pos = BitVec.ofNat 64 state.popped.length ∧ out.length < maxCount ∧ ready state = true ∧
      (pushed state)[state.popped.length]? = some value

def taken : PopPc α → List α
  | .idle | .loadSequence _ | .read _ | .storeSequence _ _ => []
  | .manyLoadSequence _ _ out | .manyRead _ _ out | .manyStoreSequence _ _ out _ => out

structure Inv (capacity : QueueCapacity) (state : State α) : Prop where
  cells : Cells capacity state
  started : ∀ producer, state.started producer ≤ state.reserved.length
  producers : ∀ producer, PushFact capacity state producer (state.producers producer)
  consumer : PopFact state state.consumer
  delivered : state.popped = state.popReturns.flatMap PopReturn.values ++ taken state.consumer
  pushReturns : ∀ call ∈ state.pushReturns, Returned capacity state call
  popReturns : ∀ call ∈ state.popReturns, call.values.length ≤ call.maxCount ∧
    (call.values.length < call.maxCount → false ∈ call.moments)

/-! ### What others may change -/

structure Grows (capacity : QueueCapacity) (producer : Nat) (state after : State α) : Prop where
  position : after.position producer = state.position producer
  started : after.started producer = state.started producer
  moments : after.pushMoments producer = state.pushMoments producer
  reserved : state.reserved <+: after.reserved
  popped : state.popped.length ≤ after.popped.length
  published : ∀ position value, state.reserved[position]? = some (producer, value) →
    after.published position = state.published position
  data : ∀ position value, state.reserved[position]? = some (producer, value) →
    state.published position = false → (after.queue.cells (position % capacity.size)).data =
      (state.queue.cells (position % capacity.size)).data

variable {index : Nat}

theorem getElem?_of_isPrefix {β : Type*} {first second : List β} {value : β}
    (isPrefix : first <+: second) (isValue : first[index]? = some value) :
    second[index]? = some value := by
  obtain ⟨rest, rfl⟩ := isPrefix
  rw [List.getElem?_append_left (List.getElem?_eq_some_iff.mp isValue).1, isValue]

theorem Seen.grow {pos : BitVec 64} (seen : Seen state producer pos)
    (grows : Grows capacity producer state after) : Seen after producer pos := by
  refine ⟨?_, ?_, ?_⟩
  · rw [grows.position]
    exact seen.isPos
  · rw [grows.position, grows.started]
    exact seen.late
  · rw [grows.position]
    exact seen.notAhead.trans grows.reserved.length_le

variable {values : List α} {count : Nat}

theorem Filling.owned {other : Nat} (filling : Filling capacity state producer values count index)
    (inside : other < count) : ∃ value, values[other]? = some value ∧
      state.reserved[state.position producer + other]? = some (producer, value) := by
  have below : other < values.length := inside.trans_le filling.inside
  refine ⟨values[other], List.getElem?_eq_getElem below, ?_⟩
  rw [filling.logged other inside, List.getElem?_eq_getElem below]
  rfl

theorem Filling.grow (filling : Filling capacity state producer values count index)
    (grows : Grows capacity producer state after) :
    Filling capacity after producer values count index := by
  have same : ∀ other < count, after.published (state.position producer + other) =
      state.published (state.position producer + other) := by
    intro other inside
    obtain ⟨value, _, isLogged⟩ := filling.owned inside
    exact grows.published _ value isLogged
  refine ⟨?_, filling.inside, filling.below, ?_, ?_, ?_, grows.moments ▸ filling.cut⟩ <;>
    rw [grows.position]
  · rw [grows.started]
    exact filling.late
  · intro other inside
    obtain ⟨value, isValue, isLogged⟩ := filling.owned inside
    rw [getElem?_of_isPrefix grows.reserved isLogged, isValue]
    rfl
  · intro other before
    rw [same other (before.trans filling.below)]
    exact filling.filled other before
  · intro other inside after
    rw [same other inside]
    exact filling.unfilled other inside after

theorem Placed.grow (placed : Placed capacity state producer values index)
    (filling : Filling capacity state producer values count index)
    (grows : Grows capacity producer state after) :
    Placed capacity after producer values index := by
  obtain ⟨value, _, isLogged⟩ := filling.owned filling.below
  rw [Placed, grows.position, grows.data _ value isLogged
    (filling.unfilled index filling.below (Nat.le_refl _))]
  exact placed

theorem PushFact.grow {pc : PushPc α} (fact : PushFact capacity state producer pc)
    (grows : Grows capacity producer state after) :
    PushFact capacity after producer pc := by
  have popped := grows.popped
  have reserved := grows.reserved.length_le
  cases pc with
  | idle | loadPos value => trivial
  | loadSequence value pos => exact Seen.grow fact grows
  | exchange value pos =>
    refine ⟨fact.1.grow grows, ?_⟩
    rw [grows.position]
    exact fact.2.trans (by omega)
  | write value pos | manyWrite values pos reservable index =>
    refine ⟨?_, fact.2.grow grows⟩
    rw [grows.position]
    exact fact.1
  | storeSequence value pos | manyStoreSequence values pos reservable index =>
    refine ⟨?_, fact.2.1.grow grows, fact.2.2.grow fact.2.1 grows⟩
    rw [grows.position]
    exact fact.1
  | manyLoadPos values => exact fact
  | manyLoadSequence values pos reservable =>
    refine ⟨fact.1.grow grows, fact.2.1, ?_⟩
    rw [grows.position]
    exact fact.2.2.trans (by omega)
  | manyExchange values pos reservable =>
    obtain ⟨seen, positive, most, room, why⟩ := fact
    refine ⟨seen.grow grows, positive, most, ?_, ?_⟩ <;> rw [grows.position]
    · omega
    · rw [grows.moments]
      exact why.imp (by omega) id

theorem Returned.grow {call : PushReturn α} (returned : Returned capacity state call)
    (reserved : state.reserved <+: after.reserved)
    (published : ∀ position, state.published position = true →
      after.published position = true) : Returned capacity after call := by
  refine ⟨returned.inside, fun other inside => ?_, fun other inside =>
    published _ (returned.published other inside), returned.cut⟩
  have isLogged := returned.logged other inside
  rw [List.getElem?_eq_getElem (inside.trans_le returned.inside)] at isLogged ⊢
  exact getElem?_of_isPrefix reserved isLogged

theorem PopFact.grow {pc : PopPc α} (fact : PopFact state pc) (popped : after.popped = state.popped)
    (dequeue : after.queue.dequeuePos = state.queue.dequeuePos)
    (reserved : state.reserved <+: after.reserved)
    (published : ∀ position, state.published position = true →
      after.published position = true) : PopFact after pc := by
  have isReady : ready state = true → ready after = true := by
    rw [ready, ready, popped]
    exact published _
  have isNext : ∀ {value : α}, (pushed state)[state.popped.length]? = some value →
      (pushed after)[state.popped.length]? = some value :=
    getElem?_of_isPrefix (reserved.map _)
  cases pc <;> simp only [PopFact, popped, dequeue] at fact ⊢ <;> grind

end Mpsc

end AsyncFlow
