import AsyncFlow.SpscPopMany

/-!
# What the single-producer single-consumer queue guarantees

The facts about runs of the queue, put together for every capacity that the
constructor accepts.
-/

namespace AsyncFlow

namespace Spsc

variable {α : Type*} {capacity : QueueCapacity} {state after : State α}

/-! ### The queue at the moments of a push -/

theorem pushMoments_of_step {word : BitVec 64} {action : Action α}
    (steps : stepCall word state action = some after) :
    (∀ moment ∈ after.pushMoments, moment ∈ state.pushMoments) ∧
      ∀ call ∈ after.pushReturns, call ∈ state.pushReturns ∨
        ∀ moment ∈ call.moments, moment ∈ state.pushMoments := by
  cases action with
  | producer =>
    simp only [stepCall, stepProducer] at steps
    cases at_ : state.producer <;> simp only [at_] at steps <;>
      grind [returnPush, withProducer, withBuffer, withTail, refreshHead]
  | consumer =>
    simp only [stepCall, stepConsumer] at steps
    cases at_ : state.consumer <;> simp only [at_] at steps <;>
      grind [returnPop, withConsumer, withHead, refreshTail, beginRead]
  | tryPushMany values => cases values <;> grind [stepCall, beginPush, returnPush]
  | _ => grind [stepCall, beginPush, beginPop, returnPop]

variable [Inhabited α]

theorem moments_le (reached : (system α capacity.word).Reachable state) :
    (∀ moment ∈ state.pushMoments, moment ≤ capacity.size) ∧
      ∀ call ∈ state.pushReturns, ∀ moment ∈ call.moments, moment ≤ capacity.size := by
  induction reached with
  | start initial =>
    subst initial
    simp [start]
  | next reached permitted steps ih =>
    have bounded := (inv_of_reachable (.next reached permitted steps)).1.counters.bounded
    obtain ⟨between, stepsTo, rfl⟩ := Option.map_eq_some_iff.mp steps
    obtain ⟨sameMoments, returns⟩ := pushMoments_of_step stepsTo
    have isHeld : held between ≤ capacity.size := by
      have bounded : (pushed between).length ≤ (popped between).length + capacity.size := bounded
      unfold held
      omega
    constructor
    · intro moment isMoment
      rcases List.mem_cons.mp isMoment with rfl | before
      · exact isHeld
      · exact ih.1 moment (sameMoments moment before)
    · intro call returned moment isMoment
      rcases returns call returned with before | inside
      · exact ih.2 call before moment isMoment
      · exact ih.1 moment (inside moment isMoment)

/-- What is true of the queue, its copies of the counters and the calls that have
returned. -/
structure BehavesAsFifo (capacity : BitVec 64) (state : State α) : Prop where
  refines : (Fifo.system α capacity.toNat).Reachable ⟨pushed state, popped state⟩
  popped_isPrefix : popped state <+: pushed state
  head : state.queue.head = BitVec.ofNat 64 (popped state).length
  tail : state.queue.tail = BitVec.ofNat 64 (pushed state).length
  held_eq : (state.queue.tail - state.queue.head).toNat = held state
  held_le : held state ≤ capacity.toNat
  /-- The producer's copy is not ahead of `head_`, and shows no more room than there is. -/
  headCopy : ∃ copied ≤ (popped state).length, state.queue.headCache = BitVec.ofNat 64 copied ∧
    (pushed state).length ≤ copied + capacity.toNat
  /-- The consumer's copy is not ahead of `tail_`, and not behind `head_`. -/
  tailCopy : ∃ copied ≤ (pushed state).length, state.queue.tailCache = BitVec.ofNat 64 copied ∧
    (popped state).length ≤ copied
  /-- A push of nothing has met a full queue. -/
  fullPush : ∀ call ∈ state.pushReturns, call.count = 0 → call.values ≠ [] →
    capacity.toNat ∈ call.moments
  shortPush : ∀ call ∈ state.pushReturns, call.count < call.values.length →
    ∃ moment ∈ call.moments, capacity.toNat - call.count ≤ moment
  /-- A pop of nothing has met an empty queue. -/
  emptyPop : ∀ call ∈ state.popReturns, call.values = [] → 0 < call.maxCount → 0 ∈ call.moments
  shortPop : ∀ call ∈ state.popReturns, call.values.length < call.maxCount →
    call.values.length ∈ call.moments

section

variable (reached : (system α capacity.word).Reachable state)

include reached

theorem behavesAsFifo_of_reachable : BehavesAsFifo capacity.word state := by
  obtain ⟨inv, -⟩ := inv_of_reachable reached
  have size := capacity.toNat_word
  have ordered := inv.counters.ordered
  have bounded := inv.counters.bounded
  constructor
  case refines =>
      rw [size]
      exact fifo_of_reachable reached
  case popped_isPrefix => exact inv.counters.isPrefix
  case head => exact inv.counters.head
  case tail => exact inv.counters.tail
  case held_eq =>
      rw [inv.counters.head, inv.counters.tail]
      exact toNat_tail_sub ordered bounded
  case held_le =>
      rw [size]
      unfold held
      omega
  case headCopy =>
      obtain ⟨copied, isCopy, behind, room⟩ := inv.headCopy
      exact ⟨copied, behind, isCopy, by omega⟩
  case tailCopy =>
      obtain ⟨copied, isCopy, there, notAhead⟩ := inv.tailCopy
      exact ⟨copied, notAhead, isCopy, by omega⟩
  case fullPush =>
      intro call returned nothing notEmpty
      have asked := List.length_pos_iff.mpr notEmpty
      obtain ⟨moment, isMoment, full⟩ := (inv.pushReturns call returned).2 (by omega)
      have most := (moments_le reached).2 call returned moment isMoment
      rwa [size, show capacity.size = moment by omega]
  case shortPush =>
      intro call returned isShort
      obtain ⟨moment, isMoment, full⟩ := (inv.pushReturns call returned).2 isShort
      exact ⟨moment, isMoment, by omega⟩
  case emptyPop =>
      intro call returned nothing asked
      have short := (inv.popReturns call returned).2
      rw [nothing] at short
      exact short asked
  case shortPop => exact fun call returned => (inv.popReturns call returned).2

theorem tryPushMany_alone
    (isIdle : state.producer = .idle) {values : List α} (small : values.length < 2 ^ 64)
    {fuel : Nat} (enough : values.length + 3 < fuel) : ∃ batch singles,
      callAlone capacity.word .producer fuel (.tryPushMany values) state = some batch ∧
      values.foldlM (fun state value =>
        callAlone capacity.word .producer fuel (.tryPush value) state) state = some singles ∧
      batch.queue = singles.queue ∧ pushed batch = pushed singles ∧
      batch.producer = .idle ∧ singles.producer = .idle := by
  obtain ⟨inv, -⟩ := inv_of_reachable reached
  obtain ⟨copied, isCopy, behind, room⟩ := inv.headCopy
  have fits : (PushSide.mk (pushed state) copied state.queue.buffer).Fits capacity.size
      (popped state).length :=
    ⟨behind, inv.counters.ordered, by simp only; omega⟩
  have shows_ : Shows (popped state).length state.queue.tailCache
      ⟨pushed state, copied, state.queue.buffer⟩ .idle state := by
    refine ⟨?_, rfl, isIdle⟩
    simp only [PushSide.queue, ← isCopy, ← inv.counters.head, ← inv.counters.tail]
  obtain ⟨batch, callsBatch, ends⟩ := callAlone_tryPushMany enough small fits shows_
  obtain ⟨singles, callsSingles, endsToo⟩ :=
    @callAlone_tryPushes _ _ _ _ _ _ fuel values (by omega) fits shows_
  rw [PushSide.foldl_push fits.behind fits.room] at endsToo
  exact ⟨batch, singles, callsBatch, callsSingles, ends.queue.trans endsToo.queue.symm,
    ends.log.trans endsToo.log.symm, ends.producer, endsToo.producer⟩

theorem tryPopMany_alone (isIdle : state.consumer = .idle) (maxCount : BitVec 64) {fuel : Nat}
    (enough : maxCount.toNat + 3 < fuel) : ∃ batch singles,
      callAlone capacity.word .consumer fuel (.tryPopMany maxCount) state = some batch ∧
      (List.replicate maxCount.toNat Action.tryPop).foldlM (fun state call =>
        callAlone capacity.word .consumer fuel call state) state = some singles ∧
      batch.queue = singles.queue ∧ popped batch = popped singles ∧
      batch.consumer = .idle ∧ singles.consumer = .idle := by
  obtain ⟨inv, -⟩ := inv_of_reachable reached
  obtain ⟨copied, isCopy, there, notAhead⟩ := inv.tailCopy
  have reads : PopSide.Reads capacity state.queue (pushed state) ⟨(popped state).length, copied⟩ :=
    ⟨⟨by simp only; omega, notAhead⟩, inv.counters.bounded, inv.counters.ring⟩
  have shows_ : PopShows state.queue (pushed state) ⟨(popped state).length, copied⟩ .idle state := by
    refine ⟨?_, List.prefix_iff_eq_take.mp inv.counters.isPrefix, isIdle⟩
    simp only [← isCopy, ← inv.counters.head, ← inv.counters.tail]
  obtain ⟨batch, callsBatch, ends⟩ := callAlone_tryPopMany enough reads shows_
  obtain ⟨singles, callsSingles, endsToo⟩ := callAlone_tryPops maxCount.toNat
    (show 3 < fuel by omega) reads shows_
  rw [PopSide.iterate_pop reads.toFits] at endsToo
  exact ⟨batch, singles, callsBatch, callsSingles, ends.queue.trans endsToo.queue.symm,
    ends.popped.trans endsToo.popped.symm, ends.consumer, endsToo.consumer⟩

end

/-- With every capacity that the constructor accepts the queue is a bounded FIFO,
whatever the two sides do, and its batches are rows of single operations. -/
theorem refines_bounded_fifo {requested word : BitVec 64}
    (accepted : normalizeBoundedQueueCapacity requested = .ok word)
    (reached : (system α word).Reachable state) : BehavesAsFifo word state ∧
    (state.producer = .idle → ∀ values : List α, values.length < 2 ^ 64 →
      ∀ fuel > values.length + 3, ∃ batch singles,
        callAlone word .producer fuel (.tryPushMany values) state = some batch ∧
        values.foldlM (fun state value =>
          callAlone word .producer fuel (.tryPush value) state) state = some singles ∧
        batch.queue = singles.queue ∧ pushed batch = pushed singles ∧
        batch.producer = .idle ∧ singles.producer = .idle) ∧
    (state.consumer = .idle → ∀ maxCount : BitVec 64, ∀ fuel > maxCount.toNat + 3, ∃ batch singles,
        callAlone word .consumer fuel (.tryPopMany maxCount) state = some batch ∧
        (List.replicate maxCount.toNat Action.tryPop).foldlM (fun state call =>
          callAlone word .consumer fuel call state) state = some singles ∧
        batch.queue = singles.queue ∧ popped batch = popped singles ∧
        batch.consumer = .idle ∧ singles.consumer = .idle) := by
  obtain ⟨capacity, rfl, -⟩ := exists_capacity accepted
  refine ⟨behavesAsFifo_of_reachable reached, ?_, ?_⟩
  · intro isIdle values small fuel enough
    exact tryPushMany_alone reached isIdle small enough
  · intro isIdle maxCount fuel enough
    exact tryPopMany_alone reached isIdle maxCount enough

theorem refines_bounded_fifo_cutShort : ∃ state : State Nat, (system Nat 2#64).Reachable state ∧
      pushed state = [7, 8] ∧ popped state = [7] ∧ BehavesAsFifo 2#64 state := by
  obtain ⟨state, reached, isPushed, isPopped⟩ :=
    (system Nat 2#64).exists_reachableUnder (fun _ _ => True) (show start = start from rfl)
      [.tryPushMany [7, 8, 9], .producer, .tryPop, .producer, .producer, .producer, .producer,
        .consumer, .consumer, .consumer, .consumer]
      (fun state => pushed state = [7, 8] ∧ popped state = [7]) (by decide)
  have accepted : normalizeBoundedQueueCapacity 1#64 = .ok 2#64 := by decide
  exact ⟨state, reached, isPushed, isPopped, (refines_bounded_fifo accepted reached).1⟩

end Spsc

end AsyncFlow
