import AsyncFlow.BoundedSpscQueue
import AsyncFlow.BoundedFifo

/-!
# The invariant of the single-producer single-consumer queue

The counters are the numbers of values pushed and popped, modulo 2 ^ 64.  The
producer's copy of `head_` is behind `head_`, and by the check made on it there is
room for what the producer is about to push; so it is with the consumer's copy of
`tail_`.
-/

namespace AsyncFlow

open List BitVec

namespace Spsc

variable {α : Type*} {capacity : QueueCapacity} {state after : State α}

/-- How many values the producer has found room for and not yet pushed. -/
def planned : PushPc α → Nat
  | .idle | .loadTail _ | .loadHead _ _ | .manyLoadTail _ | .manyLoadHead _ _ => 0
  | .write _ _ | .storeTail _ _ => 1
  | .manyWrite _ _ count _ | .manyStoreTail _ _ count => count.toNat

/-- How many values the consumer has found and not yet popped. -/
def taking : PopPc α → Nat
  | .idle | .loadHead | .loadTail _ | .manyLoadHead _ | .manyLoadTail _ _ _ => 0
  | .read _ | .storeHead _ _ => 1
  | .manyRead _ _ count _ | .manyStoreHead _ _ count _ => count.toNat

/-- The counters count, and the ring holds what lies between them. -/
structure Counters (capacity : QueueCapacity) (state : State α) : Prop where
  head : state.queue.head = BitVec.ofNat 64 (popped state).length
  tail : state.queue.tail = BitVec.ofNat 64 (pushed state).length
  isPrefix : popped state <+: pushed state
  bounded : (pushed state).length ≤ (popped state).length + capacity.size
  ring : Ring.Holds state.queue.buffer capacity.size (pushed state) fun position =>
    (popped state).length ≤ position ∧ position < (pushed state).length

def Written (capacity : QueueCapacity) (state : State α) (values : List α) (count : Nat) : Prop :=
  ∀ index < count, values[index]? =
    some (state.queue.buffer (((pushed state).length + index) % capacity.size))

/-- A batch that was cut short has met a queue that was that full. -/
def CutShort (capacity : QueueCapacity) (asked count : Nat) (moments : List Nat) : Prop :=
  count < asked → ∃ moment ∈ moments, capacity.size ≤ moment + count

def PushFact (capacity : QueueCapacity) (state : State α) : PushPc α → Prop
  | .idle | .loadTail _ => True
  | .loadHead _ tail | .write _ tail => tail = BitVec.ofNat 64 (pushed state).length
  | .storeTail value tail =>
    tail = BitVec.ofNat 64 (pushed state).length ∧ Written capacity state [value] 1
  | .manyLoadTail values => values ≠ [] ∧ values.length < 2 ^ 64
  | .manyLoadHead values tail =>
    tail = BitVec.ofNat 64 (pushed state).length ∧ values ≠ [] ∧ values.length < 2 ^ 64
  | .manyWrite values tail count index =>
    tail = BitVec.ofNat 64 (pushed state).length ∧ index < count.toNat ∧
      count.toNat ≤ values.length ∧ Written capacity state values index ∧
      CutShort capacity values.length count.toNat state.pushMoments
  | .manyStoreTail values tail count =>
    tail = BitVec.ofNat 64 (pushed state).length ∧ count.toNat ≤ values.length ∧
      Written capacity state values count.toNat ∧
      CutShort capacity values.length count.toNat state.pushMoments

def PopFact (state : State α) : PopPc α → Prop
  | .idle | .loadHead => True
  | .loadTail head | .read head => head = BitVec.ofNat 64 (popped state).length
  | .storeHead head value =>
    head = BitVec.ofNat 64 (popped state).length ∧ popped state ++ [value] <+: pushed state
  | .manyLoadHead maxCount => maxCount ≠ 0#64
  | .manyLoadTail maxCount head wasEmpty =>
    head = BitVec.ofNat 64 (popped state).length ∧ maxCount ≠ 0#64 ∧
      (wasEmpty = false → (popped state).length < (pushed state).length)
  | .manyRead maxCount head count out =>
    head = BitVec.ofNat 64 (popped state).length ∧ out.length < count.toNat ∧
      count.toNat ≤ maxCount.toNat ∧ popped state ++ out <+: pushed state ∧
      (count.toNat < maxCount.toNat → count.toNat ∈ state.popMoments)
  | .manyStoreHead maxCount head count out =>
    head = BitVec.ofNat 64 (popped state).length ∧ out.length = count.toNat ∧
      count.toNat ≤ maxCount.toNat ∧ popped state ++ out <+: pushed state ∧
      (count.toNat < maxCount.toNat → count.toNat ∈ state.popMoments)

structure Inv (capacity : QueueCapacity) (state : State α) : Prop where
  counters : Counters capacity state
  headCopy : ∃ copied, state.queue.headCache = BitVec.ofNat 64 copied ∧
    copied ≤ (popped state).length ∧
    (pushed state).length + planned state.producer ≤ copied + capacity.size
  tailCopy : ∃ copied, state.queue.tailCache = BitVec.ofNat 64 copied ∧
    (popped state).length + taking state.consumer ≤ copied ∧ copied ≤ (pushed state).length
  producer : PushFact capacity state state.producer
  consumer : PopFact state state.consumer
  pushReturns : ∀ call ∈ state.pushReturns, call.count ≤ call.values.length ∧
    CutShort capacity call.values.length call.count call.moments
  popReturns : ∀ call ∈ state.popReturns, call.values.length ≤ call.maxCount ∧
    (call.values.length < call.maxCount → call.values.length ∈ call.moments)

/-! ### Histories -/

@[simp]
theorem pushed_returnPush (values : List α) (count : Nat) :
    pushed (returnPush state values count) = pushed state ++ values.take count := by
  simp [pushed, returnPush]

@[simp]
theorem popped_returnPop (maxCount : Nat) (values : List α) :
    popped (returnPop state maxCount values) = popped state ++ values := by
  simp [popped, returnPop]

theorem Counters.ordered (counters : Counters capacity state) :
    (popped state).length ≤ (pushed state).length :=
  counters.isPrefix.length_le

theorem CutShort.more {asked count : Nat} {moments more : List Nat}
    (cut : CutShort capacity asked count moments) (grows : ∀ moment ∈ moments, moment ∈ more) :
    CutShort capacity asked count more := by
  intro isShort
  obtain ⟨moment, inside, full⟩ := cut isShort
  exact ⟨moment, grows moment inside, full⟩

theorem PopFact.push {pc : PopPc α} (fact : PopFact state pc)
    (samePopped : popped after = popped state) (grows : pushed state <+: pushed after)
    (sameMoments : after.popMoments = state.popMoments) : PopFact after pc := by
  have length := grows.length_le
  cases pc with
  | idle | loadHead => trivial
  | loadTail head | read head => simpa only [PopFact, samePopped] using fact
  | storeHead head value =>
    simp only [PopFact, samePopped] at fact ⊢
    exact ⟨fact.1, fact.2.trans grows⟩
  | manyLoadHead maxCount => exact fact
  | manyLoadTail maxCount head wasEmpty =>
    simp only [PopFact, samePopped] at fact ⊢
    exact ⟨fact.1, fact.2.1, fun notEmpty => (fact.2.2 notEmpty).trans_le length⟩
  | manyRead maxCount head count out | manyStoreHead maxCount head count out =>
    simp only [PopFact, samePopped, sameMoments] at fact ⊢
    exact ⟨fact.1, fact.2.1, fact.2.2.1, fact.2.2.2.1.trans grows, fact.2.2.2.2⟩

theorem PushFact.pop {pc : PushPc α} (fact : PushFact capacity state pc)
    (samePushed : pushed after = pushed state)
    (sameBuffer : after.queue.buffer = state.queue.buffer)
    (sameMoments : after.pushMoments = state.pushMoments) : PushFact capacity after pc := by
  cases pc with
  | idle | loadTail value => trivial
  | _ => simpa only [PushFact, Written, samePushed, sameBuffer, sameMoments] using fact

/-! ### Arithmetic of the batch -/

theorem ofNat_add_word (position : Nat) (count : BitVec 64) :
    BitVec.ofNat 64 position + count = BitVec.ofNat 64 (position + count.toNat) := by
  rw [ofNat_add, ofNat_toNat, setWidth_eq]

theorem manySlot_eq {position index : Nat} {count : BitVec 64} (inside : index < count.toNat)
    (fits : count.toNat ≤ capacity.size) :
    manySlot capacity.word (BitVec.ofNat 64 position) count index =
      (position + index) % capacity.size := by
  have first := capacity.slot position
  have positive := capacity.size_pos
  have below : position % capacity.size < capacity.size := Nat.mod_lt _ positive
  have rest : (capacity.word - (BitVec.ofNat 64 position &&& (capacity.word - 1#64))).toNat =
      capacity.size - position % capacity.size := by
    rw [toNat_sub_of_le (by rw [le_def, first, capacity.toNat_word]; omega), first,
      capacity.toNat_word]
  rw [← Nat.mod_add_mod]
  have firstPart : (if count < capacity.word - (BitVec.ofNat 64 position &&& (capacity.word - 1#64))
      then count else capacity.word - (BitVec.ofNat 64 position &&& (capacity.word - 1#64))).toNat =
      min count.toNat (capacity.size - position % capacity.size) := by
    split <;> rename_i isShort <;> rw [lt_def, rest] at isShort
    · omega
    · rw [rest]
      omega
  simp only [manySlot, first, firstPart]
  split
  · exact (Nat.mod_eq_of_lt (by omega)).symm
  · rw [Nat.mod_eq_sub_mod (show position % capacity.size + index ≥ capacity.size by omega),
      Nat.mod_eq_of_lt (show position % capacity.size + index - capacity.size < capacity.size by
        omega)]
    omega

/-! ### Steps of the producer -/

theorem Inv.goOn (inv : Inv capacity state) {copy : BitVec 64} {pc : PushPc α}
    (headCopy : ∃ copied, copy = BitVec.ofNat 64 copied ∧ copied ≤ (popped state).length ∧
      (pushed state).length + planned pc ≤ copied + capacity.size)
    (fact : PushFact capacity state pc) : Inv capacity { state with
      queue := { state.queue with headCache := copy }
      producer := pc } :=
  { inv with
    counters := { inv.counters with }
    headCopy := headCopy
    producer := PushFact.pop fact rfl rfl rfl
    consumer := inv.consumer.push rfl (prefix_refl _) rfl }

theorem Inv.giveUp (inv : Inv capacity state) {copy : BitVec 64} {values : List α}
    (headCopy : ∃ copied, copy = BitVec.ofNat 64 copied ∧ copied ≤ (popped state).length ∧
      (pushed state).length ≤ copied + capacity.size)
    (cut : CutShort capacity values.length 0 state.pushMoments) : Inv capacity (returnPush
      { state with queue := { state.queue with headCache := copy } } values 0) := by
  have same : pushed (returnPush
      { state with queue := { state.queue with headCache := copy } } values 0) = pushed state := by
    simp [pushed, returnPush]
  constructor
  · obtain ⟨head, tail, isPrefix, bounded, ring⟩ := inv.counters
    exact ⟨head, by rwa [same], by rwa [same], by rwa [same], by rwa [same]⟩
  · rwa [same]
  · exact same ▸ inv.tailCopy
  · trivial
  · exact inv.consumer.push rfl (same ▸ prefix_refl _) rfl
  · exact forall_mem_append.mpr ⟨inv.pushReturns, forall_mem_singleton.mpr ⟨Nat.zero_le _, cut⟩⟩
  · exact inv.popReturns

theorem Inv.write (inv : Inv capacity state) (values : List α) {index : Nat} {value : α}
    {pc : PushPc α} (isValue : values[index]? = some value) (room : index < planned state.producer)
    (samePlan : planned pc = planned state.producer) (written : Written capacity state values index)
    (fact : Written capacity
        (withBuffer state (((pushed state).length + index) % capacity.size) value) values (index + 1) →
      PushFact capacity
        (withBuffer state (((pushed state).length + index) % capacity.size) value) pc) :
    Inv capacity (withProducer
      (withBuffer state (((pushed state).length + index) % capacity.size) value) pc) := by
  obtain ⟨copied, isCopy, behind, enough⟩ := inv.headCopy
  have ordered := inv.counters.ordered
  constructor
  · refine { inv.counters with ring := inv.counters.ring.write value fun other isVisible => ?_ }
    omega
  · exact ⟨copied, isCopy, behind, by rw [← samePlan] at enough; exact enough⟩
  · exact inv.tailCopy
  · refine (fact fun other below => ?_).pop rfl rfl rfl
    change values[other]? = some (Function.update state.queue.buffer
      (((pushed state).length + index) % capacity.size) value
      (((pushed state).length + other) % capacity.size))
    by_cases here : other = index
    · rw [here, Function.update_self, isValue]
    · rw [Function.update_of_ne, written other (by omega)]
      rw [Ne, Ring.mod_eq_mod_iff (by omega) (by omega)]
      omega
  · exact inv.consumer.push rfl (prefix_refl _) rfl
  · exact inv.pushReturns
  · exact inv.popReturns

theorem Inv.publish (inv : Inv capacity state) (values : List α) (count : BitVec 64)
    (plan : planned state.producer = count.toNat) (enough : count.toNat ≤ values.length)
    (written : Written capacity state values count.toNat)
    (cut : CutShort capacity values.length count.toNat state.pushMoments) : Inv capacity (returnPush
      (withTail state (BitVec.ofNat 64 (pushed state).length + count)) values count.toNat) := by
  obtain ⟨copied, isCopy, behind, room⟩ := inv.headCopy
  rw [plan] at room
  have appended : pushed (returnPush (withTail state
      (BitVec.ofNat 64 (pushed state).length + count)) values count.toNat) =
      pushed state ++ values.take count.toNat := pushed_returnPush _ _
  have length : (pushed state ++ values.take count.toNat).length =
      (pushed state).length + count.toNat := by
    simp [enough]
  constructor
  · refine ⟨inv.counters.head, ?_, ?_, ?_, ?_⟩ <;> rw [appended]
    · rw [length]
      exact ofNat_add_word _ _
    · exact inv.counters.isPrefix.trans (prefix_append _ _)
    · rw [length]
      exact room.trans (Nat.add_le_add_right behind _)
    · refine (inv.counters.ring.append _).reveal fun position isVisible => ?_
      rw [length] at isVisible
      by_cases old : position < (pushed state).length
      · exact .inl ⟨isVisible.1, old⟩
      · refine .inr ?_
        have new := written (position - (pushed state).length) (by omega)
        rw [getElem?_append_right (by omega), getElem?_take_of_lt (by omega), new,
          show (pushed state).length + (position - (pushed state).length) = position by omega]
  · rw [appended, length]
    exact ⟨copied, isCopy, behind, room⟩
  · obtain ⟨seen, isSeen, there, notAhead⟩ := inv.tailCopy
    rw [appended, length]
    exact ⟨seen, isSeen, there, by omega⟩
  · trivial
  · exact inv.consumer.push rfl (by rw [appended]; exact prefix_append _ _) rfl
  · exact forall_mem_append.mpr ⟨inv.pushReturns, forall_mem_singleton.mpr ⟨enough, cut⟩⟩
  · exact inv.popReturns

theorem toNat_tail_sub {tail copied : Nat} (behind : copied ≤ tail)
    (close : tail ≤ copied + capacity.size) :
    (BitVec.ofNat 64 tail - BitVec.ofNat 64 copied).toNat = tail - copied := by
  have small := capacity.size_le
  exact Ring.toNat_ofNat_sub behind (by omega)

theorem lt_next_sub_iff {tail copied : Nat} (behind : copied ≤ tail)
    (close : tail ≤ copied + capacity.size) :
    capacity.word < BitVec.ofNat 64 tail + 1#64 - BitVec.ofNat 64 copied ↔
      copied + capacity.size ≤ tail := by
  have small := capacity.size_le
  rw [ofNat_add_word, lt_def, capacity.toNat_word,
    Ring.toNat_ofNat_sub (show copied ≤ tail + (1#64).toNat by omega)
      (by simp only [toNat_ofNat]; omega)]
  simp only [toNat_ofNat]
  omega

theorem toNat_ofNat_length {values : List α} (small : values.length < 2 ^ 64) :
    (BitVec.ofNat 64 values.length).toNat = values.length := by
  rw [toNat_ofNat, Nat.mod_eq_of_lt small]

theorem toNat_min (first second : BitVec 64) :
    (if first < second then first else second).toNat = min first.toNat second.toNat := by
  split <;> rename_i compare <;> rw [lt_def] at compare <;> omega

theorem toNat_room {used : BitVec 64} {items : Nat} (isUsed : used.toNat = items)
    (fits : items ≤ capacity.size) : (capacity.word - used).toNat = capacity.size - items := by
  rw [toNat_sub_of_le (by rw [le_def, isUsed, capacity.toNat_word]; exact fits),
    capacity.toNat_word, isUsed]

theorem toNat_available {used : BitVec 64} {items : Nat} (isUsed : used.toNat = items)
    (fits : items ≤ capacity.size) :
    (if used < capacity.word then capacity.word - used else 0#64).toNat =
      capacity.size - items := by
  split
  · exact toNat_room isUsed fits
  · rename_i isFull
    rw [lt_def, isUsed, capacity.toNat_word] at isFull
    simp only [toNat_ofNat]
    omega

theorem Inv.stepProducer (inv : Inv capacity state) (recorded : held state ∈ state.pushMoments)
    (steps : stepProducer capacity.word state = some after) : Inv capacity after := by
  have ordered := inv.counters.ordered
  have bounded := inv.counters.bounded
  have isTail := inv.counters.tail
  have isHead := inv.counters.head
  have fact := inv.producer
  obtain ⟨copied, isCopy, behind, room⟩ := inv.headCopy
  have current : ∃ copied, state.queue.headCache = BitVec.ofNat 64 copied ∧
      copied ≤ (popped state).length ∧ (pushed state).length ≤ copied + capacity.size :=
    ⟨copied, isCopy, behind, by omega⟩
  have refreshed : ∀ {pc : PushPc α}, (pushed state).length + planned pc ≤
      (popped state).length + capacity.size →
      ∃ copied, state.queue.head = BitVec.ofNat 64 copied ∧ copied ≤ (popped state).length ∧
        (pushed state).length + planned pc ≤ copied + capacity.size := fun enough =>
    ⟨_, isHead, Nat.le_refl _, enough⟩
  -- The queue is full when the fresh copy of `head_` leaves no room.
  have full : (popped state).length + capacity.size ≤ (pushed state).length →
      ∀ asked, CutShort capacity asked 0 state.pushMoments := by
    intro noRoom asked _
    exact ⟨held state, recorded, by unfold held; omega⟩
  unfold Spsc.stepProducer at steps
  cases at_ : state.producer <;> rw [at_] at fact <;> simp only [at_] at steps
  case idle => cases steps
  case loadTail value =>
    cases steps
    have compare := @lt_next_sub_iff capacity _ _ (show copied ≤ (pushed state).length by omega)
      (by omega)
    rw [← isTail, ← isCopy] at compare
    split
    · exact inv.goOn current isTail
    · rename_i enough
      rw [compare] at enough
      exact inv.goOn ⟨copied, isCopy, behind, by simp only [planned]; omega⟩ isTail
  case loadHead value tail =>
    cases steps
    have compare := lt_next_sub_iff ordered bounded
    rw [← fact, ← isHead] at compare
    split
    · rename_i noRoom
      exact inv.giveUp ⟨_, isHead, Nat.le_refl _, bounded⟩ (full (compare.mp noRoom) _)
    · rename_i enough
      have enough : ¬ _ := fun noRoom => enough (compare.mpr noRoom)
      exact inv.goOn (refreshed (by simp only [planned]; omega)) fact
  case write value tail =>
    cases steps
    have slots : slot capacity.word tail = ((pushed state).length + 0) % capacity.size := by
      rw [fact]
      exact capacity.slot _
    rw [slots]
    exact inv.write [value] rfl (by simp [at_, planned]) (by simp [at_, planned])
      (fun _ below => absurd below (Nat.not_lt_zero _)) fun written => ⟨fact, written⟩
  case storeTail value tail =>
    cases steps
    rw [fact.1]
    exact inv.publish [value] 1#64 (by rw [at_]; rfl) (by simp) fact.2 (by simp [CutShort])
  case manyLoadTail values =>
    cases steps
    have used := @toNat_tail_sub capacity _ _ (show copied ≤ (pushed state).length by omega)
      (by omega)
    rw [← isTail, ← isCopy] at used
    have available := @toNat_available capacity _ _ used (by omega)
    have asked := toNat_ofNat_length fact.2
    generalize (if state.queue.tail - state.queue.headCache < capacity.word then
      capacity.word - (state.queue.tail - state.queue.headCache) else 0#64) = free at available ⊢
    split
    · exact inv.goOn current ⟨isTail, fact⟩
    · rename_i enough
      rw [BitVec.lt_def, available, asked] at enough
      have notEmpty := List.length_pos_iff.mpr fact.1
      refine inv.goOn ⟨copied, isCopy, behind, by simp only [planned, asked]; omega⟩ ?_
      exact ⟨isTail, by omega, by omega, fun _ below => absurd below (Nat.not_lt_zero _),
        fun isShort => absurd isShort (by omega)⟩
  case manyLoadHead values tail =>
    cases steps
    obtain ⟨sameTail, notNil, small⟩ := fact
    have used := toNat_tail_sub ordered bounded
    rw [← sameTail, ← isHead] at used
    have asked := toNat_ofNat_length small
    have notEmpty := List.length_pos_iff.mpr notNil
    simp only [show (refreshHead state).queue.headCache = state.queue.head from rfl]
    split
    · rename_i noRoom
      rw [BitVec.le_def, capacity.toNat_word, used] at noRoom
      exact inv.giveUp ⟨_, isHead, Nat.le_refl _, bounded⟩ (full (by omega) _)
    · rename_i enough
      rw [BitVec.le_def, capacity.toNat_word, used] at enough
      have count := toNat_min (capacity.word - (tail - state.queue.head))
        (BitVec.ofNat 64 values.length)
      rw [toNat_room used (by omega), asked] at count
      refine inv.goOn (refreshed (by simp only [planned]; rw [count]; omega)) ?_
      refine ⟨sameTail, by rw [count]; omega, by rw [count]; omega,
        fun _ below => absurd below (Nat.not_lt_zero _), fun isShort => ?_⟩
      refine ⟨held state, recorded, ?_⟩
      rw [count] at isShort ⊢
      unfold held
      omega
  case manyWrite values tail count index =>
    rw [at_] at room
    obtain ⟨sameTail, below, enough, written, cut⟩ := fact
    have inside : index < values.length := by omega
    simp only [List.getElem?_eq_getElem inside, Option.map_some, Option.some.injEq] at steps
    subst steps
    have slots : manySlot capacity.word tail count index =
        ((pushed state).length + index) % capacity.size := by
      rw [sameTail]
      exact manySlot_eq below (by simp only [planned] at room; omega)
    rw [slots]
    refine inv.write values (List.getElem?_eq_getElem inside) (by rw [at_]; exact below) ?_
      written fun written => ?_
    · split <;> simp [at_, planned]
    · split
      · rename_i more
        exact ⟨sameTail, more, enough, written, cut⟩
      · rename_i noMore
        rw [show index + 1 = count.toNat by omega] at written
        exact ⟨sameTail, enough, written, cut⟩
  case manyStoreTail values tail count =>
    cases steps
    obtain ⟨sameTail, enough, written, cut⟩ := fact
    rw [sameTail]
    exact inv.publish values count (by rw [at_]; rfl) enough written cut

end Spsc

end AsyncFlow
