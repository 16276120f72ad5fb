import Mathlib.Data.List.Infix
import AsyncFlow.SpscInvariant

/-!
# The single-producer single-consumer queue is a bounded FIFO

The steps of the consumer keep the invariant too, and what is pushed and popped in
a run is a run of the bounded FIFO.
-/

namespace AsyncFlow

open List Option BitVec

namespace Spsc

variable {α : Type*} {capacity : QueueCapacity} {state after : State α}

/-! ### Steps of the consumer -/

theorem Inv.look (inv : Inv capacity state) {copy : BitVec 64} {pc : PopPc α}
    (tailCopy : ∃ copied, copy = BitVec.ofNat 64 copied ∧
      (popped state).length + taking pc ≤ copied ∧ copied ≤ (pushed state).length)
    (fact : PopFact state pc) : Inv capacity { state with
      queue := { state.queue with tailCache := copy }
      consumer := pc } :=
  { inv with
    counters := { inv.counters with }
    tailCopy := tailCopy
    producer := inv.producer.pop rfl rfl rfl
    consumer := fact.push rfl (prefix_refl _) rfl }

theorem Inv.findNothing (inv : Inv capacity state) {copy : BitVec 64} {maxCount : Nat}
    (tailCopy : ∃ copied, copy = BitVec.ofNat 64 copied ∧
      (popped state).length ≤ copied ∧ copied ≤ (pushed state).length)
    (empty : 0 < maxCount → 0 ∈ state.popMoments) : Inv capacity (returnPop
      { state with queue := { state.queue with tailCache := copy } } maxCount []) := by
  have same : popped (returnPop
      { state with queue := { state.queue with tailCache := copy } } maxCount []) =
      popped state := by
    simp [popped, returnPop]
  constructor
  · obtain ⟨head, tail, isPrefix, bounded, ring⟩ := inv.counters
    exact ⟨by rwa [same], tail, by rwa [same], by rwa [same], by rwa [same]⟩
  · exact same ▸ inv.headCopy
  · rwa [same]
  · exact inv.producer.pop rfl rfl rfl
  · trivial
  · exact inv.pushReturns
  · exact forall_mem_append.mpr ⟨inv.popReturns, forall_mem_singleton.mpr ⟨Nat.zero_le _, empty⟩⟩

theorem Inv.take (inv : Inv capacity state) {maxCount : Nat} (values : List α) (count : BitVec 64)
    (plan : taking state.consumer = count.toNat) (length : values.length = count.toNat)
    (taken : popped state ++ values <+: pushed state) (most : count.toNat ≤ maxCount)
    (short : count.toNat < maxCount → count.toNat ∈ state.popMoments) : Inv capacity (returnPop
      (withHead state (BitVec.ofNat 64 (popped state).length + count)) maxCount values) := by
  have appended : popped (returnPop (withHead state
      (BitVec.ofNat 64 (popped state).length + count)) maxCount values) =
      popped state ++ values := popped_returnPop _ _
  have total : (popped state ++ values).length = (popped state).length + count.toNat := by
    rw [length_append, length]
  constructor
  · refine ⟨?_, inv.counters.tail, ?_, ?_, ?_⟩ <;> rw [appended]
    · rw [total]
      exact ofNat_add_word _ _
    · exact taken
    · have bounded := inv.counters.bounded
      rw [total]
      exact bounded.trans (by omega)
    · refine inv.counters.ring.hide fun position isVisible => ?_
      rw [total] at isVisible
      exact ⟨by omega, isVisible.2⟩
  · obtain ⟨copied, isCopy, behind, room⟩ := inv.headCopy
    rw [appended, total]
    exact ⟨copied, isCopy, by omega, room⟩
  · obtain ⟨copied, isCopy, there, notAhead⟩ := inv.tailCopy
    rw [appended, total]
    rw [plan] at there
    exact ⟨copied, isCopy, there, notAhead⟩
  · exact inv.producer.pop rfl rfl rfl
  · trivial
  · exact inv.pushReturns
  · rw [← length] at most short
    exact forall_mem_append.mpr ⟨inv.popReturns, forall_mem_singleton.mpr ⟨most, short⟩⟩

theorem Inv.read (inv : Inv capacity state) {out : List α}
    (taken : popped state ++ out <+: pushed state) (there : out.length < taking state.consumer) :
    popped state ++ (out ++ [state.queue.buffer (slot capacity.word
      (BitVec.ofNat 64 (popped state).length + BitVec.ofNat 64 out.length))]) <+: pushed state := by
  obtain ⟨copied, _, available, notAhead⟩ := inv.tailCopy
  have holds := inv.counters.ring ((popped state).length + out.length) (by omega)
  have isSlot : slot capacity.word
      (BitVec.ofNat 64 (popped state).length + BitVec.ofNat 64 out.length) =
      ((popped state).length + out.length) % capacity.size := by
    rw [← BitVec.ofNat_add]
    exact capacity.slot _
  rw [isSlot, ← List.append_assoc]
  obtain ⟨rest, split⟩ := taken
  rw [← split, List.getElem?_append_right (by simp), List.length_append, Nat.sub_self] at holds
  rw [← split]
  refine (List.prefix_append_right_inj _).mpr ?_
  cases rest with
  | nil => simp at holds
  | cons first rest =>
    simp only [List.getElem?_cons_zero, Option.some.injEq] at holds
    rw [← holds]
    exact List.prefix_append [first] rest

theorem toNat_head_sub {head copied : Nat} (behind : head ≤ copied)
    (close : copied ≤ head + capacity.size) :
    (BitVec.ofNat 64 copied - BitVec.ofNat 64 head).toNat = copied - head :=
  toNat_tail_sub behind close

theorem copy_eq_head_iff {head copied : Nat} (behind : head ≤ copied)
    (close : copied ≤ head + capacity.size) :
    BitVec.ofNat 64 copied = BitVec.ofNat 64 head ↔ copied = head := by
  have small := capacity.size_le
  exact Ring.ofNat_eq_ofNat_iff (by omega) (by omega)

theorem Inv.stepConsumer (inv : Inv capacity state) (recorded : held state ∈ state.popMoments)
    (steps : stepConsumer capacity.word state = some after) : Inv capacity after := by
  have ordered := inv.counters.ordered
  have bounded := inv.counters.bounded
  have isTail := inv.counters.tail
  have isHead := inv.counters.head
  have fact := inv.consumer
  obtain ⟨copied, isCopy, there, notAhead⟩ := inv.tailCopy
  have current : ∃ copied, state.queue.tailCache = BitVec.ofNat 64 copied ∧
      (popped state).length ≤ copied ∧ copied ≤ (pushed state).length :=
    ⟨copied, isCopy, by omega, notAhead⟩
  have refreshed : ∀ {items : Nat}, (popped state).length + items ≤ (pushed state).length →
      ∃ copied, state.queue.tail = BitVec.ofNat 64 copied ∧
        (popped state).length + items ≤ copied ∧ copied ≤ (pushed state).length := fun enough =>
    ⟨_, isTail, enough, Nat.le_refl _⟩
  have isEmpty := @copy_eq_head_iff capacity (popped state).length (pushed state).length ordered
    (by omega)
  -- The loop of `try_pop_many` begins with a copy of `tail_` that shows something.
  have begins : ∀ {copy : BitVec 64} {visible : Nat} {maxCount : BitVec 64},
      copy = BitVec.ofNat 64 visible → (popped state).length < visible →
      visible ≤ (pushed state).length → maxCount ≠ 0#64 →
      (visible - (popped state).length < maxCount.toNat →
        visible - (popped state).length ∈ state.popMoments) →
      Inv capacity (beginRead { state with queue := { state.queue with tailCache := copy } }
        maxCount (BitVec.ofNat 64 (popped state).length)) := by
    intro copy visible maxCount isVisible some_ notPast notZero short
    have positive : 0 < maxCount.toNat := by
      by_contra isZero
      exact notZero (eq_of_toNat_eq (by simp only [toNat_ofNat]; omega))
    have count := toNat_min (copy - BitVec.ofNat 64 (popped state).length) maxCount
    have available : (copy - BitVec.ofNat 64 (popped state).length).toNat =
        visible - (popped state).length := by
      rw [isVisible]
      exact @toNat_head_sub capacity _ _ (by omega) (by omega)
    rw [available] at count
    refine inv.look ⟨visible, isVisible, ?_, notPast⟩ ⟨rfl, ?_, ?_, ?_, ?_⟩
    · simp only [taking]
      rw [count]
      omega
    · rw [length_nil, count]
      omega
    · rw [count]
      omega
    · simpa using inv.counters.isPrefix
    · rw [count]
      intro isShort
      rw [Nat.min_eq_left (by omega)]
      exact short (by omega)
  unfold Spsc.stepConsumer at steps
  cases at_ : state.consumer <;> rw [at_] at fact there <;> simp only [at_] at steps
  case idle => cases steps
  case loadHead =>
    cases steps
    have same := @copy_eq_head_iff capacity (popped state).length copied (by omega) (by omega)
    rw [← isCopy, ← isHead] at same
    split
    · exact inv.look current isHead
    · rename_i different
      rw [same] at different
      exact inv.look ⟨copied, isCopy, by simp only [taking]; omega, notAhead⟩ isHead
  case loadTail head =>
    cases steps
    simp only [show (refreshTail state).queue.tailCache = state.queue.tail from rfl]
    rw [← isTail, ← show head = _ from fact] at isEmpty
    split
    · rename_i nothing
      refine inv.findNothing ⟨_, isTail, ordered, Nat.le_refl _⟩ fun _ => ?_
      have zero : held state = 0 := by
        have := isEmpty.mp nothing
        unfold held
        omega
      exact zero ▸ recorded
    · rename_i something
      rw [isEmpty] at something
      exact inv.look (refreshed (by simp only [taking]; omega)) fact
  case read head =>
    cases steps
    refine inv.look ⟨copied, isCopy, there, notAhead⟩ ⟨fact, ?_⟩
    have next := @Inv.read _ _ _ inv [] (by simpa using inv.counters.isPrefix)
      (by simp [at_, taking])
    rw [← show head = _ from fact] at next
    simpa using next
  case storeHead head value =>
    cases steps
    rw [fact.1]
    exact inv.take [value] 1#64 (by rw [at_]; rfl) rfl fact.2 (Nat.le_refl _)
      fun isShort => absurd isShort (by simp)
  case manyLoadHead maxCount =>
    cases steps
    have same := @copy_eq_head_iff capacity (popped state).length copied (by omega) (by omega)
    have available := @toNat_head_sub capacity _ _ (show (popped state).length ≤ copied by omega)
      (by omega)
    rw [← isCopy, ← isHead] at same available
    split
    · exact inv.look current ⟨isHead, fact, by simp⟩
    · rename_i different
      rw [same] at different
      split
      · exact inv.look current ⟨isHead, fact, fun _ => by omega⟩
      · rename_i enough
        rw [lt_def, available] at enough
        rw [isHead]
        exact begins isCopy (by omega) notAhead fact fun isShort => absurd isShort enough
  case manyLoadTail maxCount head wasEmpty =>
    cases steps
    obtain ⟨sameHead, notZero, wasThere⟩ := fact
    simp only [show (refreshTail state).queue.tailCache = state.queue.tail from rfl]
    rw [← isTail, ← sameHead] at isEmpty
    split
    · rename_i nothing
      refine inv.findNothing ⟨_, isTail, ordered, Nat.le_refl _⟩ fun _ => ?_
      have zero : held state = 0 := by
        have := isEmpty.mp nothing.2
        unfold held
        omega
      exact zero ▸ recorded
    · rename_i something
      rw [isEmpty] at something
      rw [sameHead]
      refine begins isTail ?_ (Nat.le_refl _) notZero fun _ => recorded
      cases wasEmpty with
      | false => exact wasThere rfl
      | true => simp only [true_and] at something; omega
  case manyRead maxCount head count out =>
    cases steps
    obtain ⟨sameHead, below, most, taken, short⟩ := fact
    have next := inv.read taken (by rw [at_]; exact below)
    rw [← sameHead] at next
    split
    · rename_i more
      exact inv.look ⟨copied, isCopy, there, notAhead⟩
        ⟨sameHead, by simpa using more, most, next, short⟩
    · rename_i noMore
      exact inv.look ⟨copied, isCopy, there, notAhead⟩
        ⟨sameHead, by simp only [length_append, length_singleton]; omega, most, next, short⟩
  case manyStoreHead maxCount head count out =>
    cases steps
    obtain ⟨sameHead, length, most, taken, short⟩ := fact
    rw [sameHead]
    exact inv.take out count (by rw [at_]; rfl) length taken most short

/-- What the queue held is kept for the calls in progress. -/
structure Recorded (state : State α) : Prop where
  push : ∀ pc, state.producer = pc → pc ≠ .idle → held state ∈ state.pushMoments
  pop : ∀ pc, state.consumer = pc → pc ≠ .idle → held state ∈ state.popMoments

theorem recorded_record : Recorded (record state) :=
  ⟨fun _ _ _ => mem_cons_self, fun _ _ _ => mem_cons_self⟩

theorem PushFact.record {pc : PushPc α} (fact : PushFact capacity state pc) :
    PushFact capacity (record state) pc := by
  have more : ∀ moment ∈ state.pushMoments, moment ∈ (Spsc.record state).pushMoments :=
    fun _ inside => mem_cons_of_mem _ inside
  cases pc with
  | manyWrite values tail count index =>
    obtain ⟨sameTail, below, enough, written, cut⟩ := fact
    exact ⟨sameTail, below, enough, written, cut.more more⟩
  | manyStoreTail values tail count =>
    obtain ⟨sameTail, enough, written, cut⟩ := fact
    exact ⟨sameTail, enough, written, cut.more more⟩
  | _ => exact fact

theorem PopFact.record {pc : PopPc α} (fact : PopFact state pc) : PopFact (record state) pc := by
  cases pc with
  | manyRead maxCount head count out | manyStoreHead maxCount head count out =>
    obtain ⟨sameHead, length, most, taken, short⟩ := fact
    exact ⟨sameHead, length, most, taken, fun isShort => mem_cons_of_mem _ (short isShort)⟩
  | _ => exact fact

theorem Inv.record (inv : Inv capacity state) : Inv capacity (record state) :=
  { inv with
    counters := { inv.counters with }
    producer := inv.producer.record
    consumer := inv.consumer.record }

theorem beginPush_eq_some {pc : PushPc α} (begins : beginPush state pc = some after) :
    state.producer = .idle ∧ after = { state with producer := pc, pushMoments := [] } := by
  unfold beginPush at begins
  split at begins
  · rename_i isIdle
    cases begins
    exact ⟨isIdle, rfl⟩
  · cases begins

theorem beginPop_eq_some {pc : PopPc α} (begins : beginPop state pc = some after) :
    state.consumer = .idle ∧ after = { state with consumer := pc, popMoments := [] } := by
  unfold beginPop at begins
  split at begins
  · rename_i isIdle
    cases begins
    exact ⟨isIdle, rfl⟩
  · cases begins

theorem Inv.beginPush (inv : Inv capacity state) {pc : PushPc α}
    (begins : beginPush state pc = some after) (noPlan : planned pc = 0)
    (fact : ∀ state : State α, PushFact capacity state pc) : Inv capacity after := by
  obtain ⟨isIdle, rfl⟩ := beginPush_eq_some begins
  refine ⟨{ inv.counters with }, ?_, inv.tailCopy, fact _, inv.consumer.push rfl (prefix_refl _) rfl,
    inv.pushReturns, inv.popReturns⟩
  obtain ⟨copied, isCopy, behind, room⟩ := inv.headCopy
  exact ⟨copied, isCopy, behind, by simp only [noPlan]; exact (Nat.le_add_right _ _).trans room⟩

theorem Inv.beginPop (inv : Inv capacity state) {pc : PopPc α}
    (begins : beginPop state pc = some after) (noPlan : taking pc = 0)
    (fact : ∀ state : State α, PopFact state pc) : Inv capacity after := by
  obtain ⟨isIdle, rfl⟩ := beginPop_eq_some begins
  refine ⟨{ inv.counters with }, inv.headCopy, ?_, inv.producer.pop rfl rfl rfl, fact _,
    inv.pushReturns, inv.popReturns⟩
  obtain ⟨copied, isCopy, there, notAhead⟩ := inv.tailCopy
  exact ⟨copied, isCopy, by simp only [noPlan]; exact (Nat.le_add_right _ _).trans there, notAhead⟩

theorem Inv.stepCall (inv : Inv capacity state) (recorded : Recorded state) {action : Action α}
    (steps : stepCall capacity.word state action = some after) : Inv capacity after := by
  cases action with
  | tryPush value => exact inv.beginPush steps rfl fun _ => trivial
  | tryPushMany values =>
    cases values with
    | nil =>
      obtain ⟨begun, begins, rfl⟩ := map_eq_some_iff.mp steps
      have inv := inv.beginPush begins rfl fun _ => trivial
      obtain ⟨copied, isCopy, behind, room⟩ := inv.headCopy
      exact inv.giveUp ⟨copied, isCopy, behind, (Nat.le_add_right _ _).trans room⟩
        fun isShort => absurd isShort (Nat.lt_irrefl _)
    | cons first rest =>
      simp only [Spsc.stepCall, ite_none_right_eq_some] at steps
      exact inv.beginPush steps.2 rfl fun _ => ⟨by simp, steps.1⟩
  | producer =>
    refine inv.stepProducer (recorded.push _ rfl fun isIdle => ?_) steps
    simp [Spsc.stepCall, Spsc.stepProducer, isIdle] at steps
  | tryPop => exact inv.beginPop steps rfl fun _ => trivial
  | tryPopMany maxCount =>
    simp only [Spsc.stepCall] at steps
    split at steps
    · obtain ⟨begun, begins, rfl⟩ := map_eq_some_iff.mp steps
      have inv := inv.beginPop begins rfl fun _ => trivial
      obtain ⟨copied, isCopy, there, notAhead⟩ := inv.tailCopy
      exact inv.findNothing ⟨copied, isCopy, (Nat.le_add_right _ _).trans there, notAhead⟩
        fun positive => absurd positive (Nat.lt_irrefl _)
    · rename_i notZero
      exact inv.beginPop steps rfl fun _ => notZero
  | consumer =>
    refine inv.stepConsumer (recorded.pop _ rfl fun isIdle => ?_) steps
    simp [Spsc.stepCall, Spsc.stepConsumer, isIdle] at steps

theorem returns_of_step {word : BitVec 64} {action : Action α}
    (steps : stepCall word state action = some after) :
    after.popReturns = state.popReturns ∧ state.pushReturns <+: after.pushReturns ∨
      after.pushReturns = state.pushReturns ∧ state.popReturns <+: after.popReturns := by
  cases action with
  | producer =>
    simp only [Spsc.stepCall, Spsc.stepProducer] at steps
    refine .inl ?_
    cases at_ : state.producer <;> simp only [at_] at steps <;>
      grind [returnPush, withProducer, withBuffer, withTail, refreshHead, prefix_append,
        prefix_refl]
  | consumer =>
    simp only [Spsc.stepCall, Spsc.stepConsumer] at steps
    refine .inr ?_
    cases at_ : state.consumer <;> simp only [at_] at steps <;>
      grind [returnPop, withConsumer, withHead, refreshTail, beginRead, prefix_append, prefix_refl]
  | tryPushMany values =>
    cases values <;> grind [Spsc.stepCall, Spsc.beginPush, returnPush, prefix_append]
  | _ => grind [Spsc.stepCall, Spsc.beginPush, Spsc.beginPop, returnPop, prefix_append]

variable [Inhabited α]

theorem inv_of_reachable {state : State α} (reached : (system α capacity.word).Reachable state) :
    Inv capacity state ∧ Recorded state := by
  induction reached with
  | start initial =>
    subst initial
    have none_ : ∀ position, ¬ (0 ≤ position ∧ position < 0) := by omega
    refine ⟨⟨⟨rfl, rfl, prefix_refl _, Nat.zero_le _, fun position isVisible =>
      absurd isVisible (none_ position)⟩, ⟨0, rfl, Nat.le_refl _, Nat.zero_le _⟩,
      ⟨0, rfl, Nat.le_refl _, Nat.le_refl _⟩, trivial, trivial, by simp [start],
      by simp [start]⟩, ?_, ?_⟩
    all_goals
      rintro _ rfl notIdle
      exact absurd rfl notIdle
  | next _ _ steps ih =>
    obtain ⟨between, stepsTo, rfl⟩ := map_eq_some_iff.mp steps
    exact ⟨(ih.1.stepCall ih.2 stepsTo).record, recorded_record⟩

theorem fifo_of_reachable {state : State α} (reached : (system α capacity.word).Reachable state) :
    (Fifo.system α capacity.size).Reachable ⟨pushed state, popped state⟩ := by
  refine reached.simulates (fun state => Fifo.mk (pushed state) (popped state)) ?_
    fun before action after reachedBefore _ steps => ?_
  · rintro state rfl
    rfl
  have inv := (inv_of_reachable (.next reachedBefore trivial steps)).1
  obtain ⟨between, stepsTo, rfl⟩ := map_eq_some_iff.mp steps
  refine .inr (Fifo.exists_step ?_ inv.counters.isPrefix inv.counters.bounded)
  exact (returns_of_step stepsTo).imp
    (And.imp (congrArg (List.flatMap _)) fun more => more.flatMap _)
    (And.imp (congrArg (List.flatMap _)) fun more => more.flatMap _)

end Spsc

end AsyncFlow
