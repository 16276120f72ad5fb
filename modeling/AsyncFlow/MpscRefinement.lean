import AsyncFlow.MpscProducers

/-!
# The multi-producer single-consumer queue is a bounded FIFO

The steps of the consumer keep the invariant too, so every run in which no call
lives through 2 ^ 62 reservations keeps it, and what is reserved and popped in it
is a run of the bounded FIFO.
-/

namespace AsyncFlow

open Function List Option BitVec

namespace Mpsc

variable {α : Type*} {capacity : QueueCapacity} {state after : State α}

/-! ### Steps of the consumer -/

theorem Inv.consumerStep (inv : Inv capacity state) (cells : Cells capacity after)
    (grows : ∀ producer, Grows capacity producer state after)
    (same : (after.producers, after.reserved, after.started, after.published, after.pushReturns) =
      (state.producers, state.reserved, state.started, state.published, state.pushReturns))
    (consumer : PopFact after after.consumer) (delivered : after.popped =
      after.popReturns.flatMap PopReturn.values ++ taken after.consumer)
    (popReturns : ∀ call ∈ after.popReturns, call.values.length ≤ call.maxCount ∧
      (call.values.length < call.maxCount → false ∈ call.moments)) : Inv capacity after := by
  simp only [Prod.mk.injEq] at same
  obtain ⟨producers, reserved, started, published, pushReturns⟩ := same
  refine ⟨cells, ?_, fun producer => ?_, consumer, delivered, ?_, popReturns⟩
  · rw [started, reserved]
    exact inv.started
  · rw [producers]
    exact (inv.producers producer).grow (grows producer)
  · rw [pushReturns]
    exact fun call returned => (inv.pushReturns call returned).grow
      (reserved ▸ prefix_refl _) (published ▸ fun _ => id)

variable {pc : PopPc α}

theorem Inv.consumes (inv : Inv capacity state) (fact : PopFact state pc)
    (same : taken pc = taken state.consumer) : Inv capacity (withConsumer state pc) :=
  inv.consumerStep (inv.cells.of_same rfl)
    (fun _ => .of_eq rfl rfl rfl (prefix_refl _) rfl rfl rfl) rfl
    (fact.grow rfl rfl (prefix_refl _) fun _ => id)
    (inv.delivered.trans (congrArg _ same.symm)) inv.popReturns

theorem Inv.returnsPop (inv : Inv capacity state) {maxCount : Nat} {pos : BitVec 64}
    {values : List α} (isPos : pos = BitVec.ofNat 64 state.popped.length)
    (isTaken : state.popped = state.popReturns.flatMap PopReturn.values ++ values)
    (most : values.length ≤ maxCount)
    (short : values.length < maxCount → false ∈ state.popMoments) :
    Inv capacity (returnPop state maxCount pos values) := by
  refine inv.consumerStep (inv.cells.of_same rfl)
    (fun _ => .of_eq rfl rfl rfl (prefix_refl _) rfl rfl rfl) rfl isPos ?_
    (forall_mem_append.mpr ⟨inv.popReturns, forall_mem_singleton.mpr ⟨most, short⟩⟩)
  simpa [returnPop, taken] using isTaken

section Release

variable {value : α}

/-- The consumer gives free the position it has read. -/
abbrev releaseAt (capacity : QueueCapacity) (state : State α) (value : α) : State α :=
  release capacity.word state (BitVec.ofNat 64 state.popped.length) value

theorem data_release (value : α) (cell : Nat) :
    ((releaseAt capacity state value).queue.cells cell).data = (state.queue.cells cell).data := by
  simp only [release, storeSequence, withCell]
  grind [update_apply]

theorem Cells.releases (cells : Cells capacity state) (isReady : ready state = true)
    (isNext : (pushed state)[state.popped.length]? = some value) :
    Cells capacity (releaseAt capacity state value) := by
  have inside := cells.published_lt _ isReady
  have bounded := cells.bounded
  have length : (state.popped ++ [value]).length = state.popped.length + 1 := by simp
  refine ⟨cells.enqueue, ?_, ?_, cells.published_lt, ?_, ?_, ?_, ?_⟩ <;>
    simp only [release, length]
  · exact inside
  · exact bounded.trans (by omega)
  · intro position before
    by_cases here : position = state.popped.length
    · rw [here]
      exact isReady
    · exact cells.passed position (by omega)
  · intro position low high
    change ((update state.queue.cells _ _) _).sequence =
      BitVec.ofNat 64 (if state.published position then position + 1 else position)
    rw [slot_ofNat]
    by_cases here : position = state.popped.length + capacity.size
    · have notYet : ¬ state.published position = true := by
        intro isPublished
        have := cells.published_lt position isPublished
        omega
      rw [if_neg notYet, here, Nat.add_mod_right, update_self, ofNat_add]
      rfl
    · rw [update_of_ne]
      · exact cells.sequences position (by omega) (by omega)
      · rw [Ne, Ring.mod_eq_mod_iff (by omega) (by omega)]
        omega
  · intro position isVisible
    refine Eq.trans ?_ (congrArg some (data_release value _).symm)
    exact cells.holds position ⟨by omega, isVisible.2⟩
  · obtain ⟨rest, split⟩ := cells.isPrefix
    change state.popped ++ [value] <+: pushed state
    rw [← split, getElem?_append_right (Nat.le_refl _), Nat.sub_self] at isNext
    rw [← split, prefix_append_right_inj]
    cases rest <;> simp_all

section

variable (inv : Inv capacity state) (isReady : ready state = true)
  (isNext : (pushed state)[state.popped.length]? = some value)

include inv isReady isNext

theorem Inv.releaseNext {pc : PopPc α} (fact : PopFact (releaseAt capacity state value) pc)
    (more : taken pc = taken state.consumer ++ [value]) :
    Inv capacity (withConsumer (releaseAt capacity state value) pc) := by
  refine inv.consumerStep ((inv.cells.releases isReady isNext).of_same rfl)
    (fun _ => ⟨rfl, rfl, rfl, List.prefix_refl _, by simp [withConsumer, release],
      fun _ _ _ => rfl, fun _ _ _ _ => data_release value _⟩) rfl
    (fact.grow rfl rfl (List.prefix_refl _) fun _ => id) ?_ inv.popReturns
  change state.popped ++ [value] = state.popReturns.flatMap PopReturn.values ++ taken pc
  rw [more, ← List.append_assoc, ← inv.delivered]

theorem Inv.releaseLast {maxCount : Nat} {pos : BitVec 64} {values : List α}
    (isPos : pos = BitVec.ofNat 64 (state.popped.length + 1))
    (isTaken : values = taken state.consumer ++ [value]) (most : values.length = maxCount) :
    Inv capacity (returnPop (releaseAt capacity state value) maxCount pos values) := by
  refine inv.consumerStep ((inv.cells.releases isReady isNext).of_same rfl)
    (fun _ => ⟨rfl, rfl, rfl, List.prefix_refl _, by simp [returnPop, release],
      fun _ _ _ => rfl, fun _ _ _ _ => data_release value _⟩) rfl ?_ ?_
    (List.forall_mem_append.mpr ⟨inv.popReturns, List.forall_mem_singleton.mpr
      ⟨most.le, fun short => absurd short (by simp only; omega)⟩⟩)
  · simpa [returnPop, release, PopFact] using isPos
  · change state.popped ++ [value] = (state.popReturns ++
      [PopReturn.mk maxCount values state.popMoments]).flatMap PopReturn.values ++ []
    rw [List.flatMap_append, List.flatMap_singleton, List.append_nil]
    rw [isTaken, ← List.append_assoc, ← inv.delivered]

end

end Release

theorem Cells.sequenceAt_next (cells : Cells capacity state) :
    sequenceAt capacity.word state (BitVec.ofNat 64 state.popped.length) =
        BitVec.ofNat 64 state.popped.length + 1#64 ↔ ready state = true := by
  have positive := capacity.size_pos
  rw [sequenceAt, slot_ofNat, cells.sequences _ (Nat.le_refl _) (by omega), ready,
    ← ofNat_add, Ring.ofNat_eq_ofNat_iff (by split <;> omega) (by split <;> omega)]
  split <;> simp_all

theorem Cells.next (cells : Cells capacity state) (isReady : ready state = true) :
    (pushed state)[state.popped.length]? = some (state.queue.cells
      (slot capacity.word (BitVec.ofNat 64 state.popped.length))).data := by
  rw [slot_ofNat]
  exact cells.holds _ ⟨Nat.le_refl _, isReady⟩

theorem Inv.stepConsumer (inv : Inv capacity state)
    (recorded : state.consumer ≠ .idle → ready state ∈ state.popMoments)
    (steps : stepConsumer capacity.word state = some after) : Inv capacity after := by
  have fact := inv.consumer
  have delivered := inv.delivered
  have shows_ := inv.cells.sequenceAt_next
  have notReady : state.consumer ≠ .idle → ¬ ready state = true → false ∈ state.popMoments := by
    intro active isNot
    have := recorded active
    rwa [Bool.eq_false_iff.mpr isNot] at this
  unfold Mpsc.stepConsumer at steps
  cases at_ : state.consumer <;> simp only [at_] at steps
  case idle => cases steps
  case loadSequence pos =>
    rw [at_] at fact delivered
    obtain rfl : pos = _ := fact
    simp only [Option.some.injEq, shows_] at steps
    subst steps
    split
    · rename_i isReady
      exact inv.consumes ⟨rfl, isReady⟩ (by rw [at_]; rfl)
    · rename_i isNot
      exact inv.returnsPop rfl delivered (Nat.zero_le _) fun _ => notReady (by simp [at_]) isNot
  case read pos =>
    rw [at_] at fact
    obtain ⟨rfl, isReady⟩ := fact
    cases steps
    exact inv.consumes ⟨rfl, isReady, inv.cells.next isReady⟩ (by rw [at_]; rfl)
  case storeSequence pos value =>
    rw [at_] at fact
    obtain ⟨rfl, isReady, isNext⟩ := fact
    cases steps
    exact inv.releaseLast isReady isNext (ofNat_add _ _).symm (by rw [at_]; rfl) rfl
  case manyLoadSequence maxCount pos out =>
    rw [at_] at fact delivered
    obtain ⟨rfl, below⟩ := fact
    simp only [Option.some.injEq, shows_] at steps
    subst steps
    split
    · rename_i isReady
      exact inv.consumes ⟨rfl, below, isReady⟩ (by rw [at_]; rfl)
    · rename_i isNot
      exact inv.returnsPop rfl delivered below.le fun _ => notReady (by simp [at_]) isNot
  case manyRead maxCount pos out =>
    rw [at_] at fact
    obtain ⟨rfl, below, isReady⟩ := fact
    cases steps
    exact inv.consumes ⟨rfl, below, isReady, inv.cells.next isReady⟩ (by rw [at_]; rfl)
  case manyStoreSequence maxCount pos out value =>
    rw [at_] at fact
    obtain ⟨rfl, below, isReady, isNext⟩ := fact
    cases steps
    split
    · rename_i more
      refine inv.releaseNext isReady isNext ⟨?_, ?_⟩ (by rw [at_]; rfl)
      · simp [release, ofNat_add]
      · simpa using more
    · exact inv.releaseLast isReady isNext (ofNat_add _ _).symm (by rw [at_]; rfl) (by simp; omega)

/-- What is true of the queue is kept for the calls in progress. -/
structure Recorded (state : State α) : Prop where
  push : ∀ producer, state.producers producer ≠ .idle →
    outstanding state ∈ state.pushMoments producer
  pop : state.consumer ≠ .idle → ready state ∈ state.popMoments

theorem recorded_record : Recorded (record state) :=
  ⟨fun _ _ => mem_cons_self, fun _ => mem_cons_self⟩

theorem CutShort.cons {asked count moment : Nat} {moments : List Nat}
    (cut : CutShort capacity asked count moments) :
    CutShort capacity asked count (moment :: moments) := by
  intro isShort
  obtain ⟨moment, inside, full⟩ := cut isShort
  exact ⟨moment, mem_cons_of_mem _ inside, full⟩

variable {producer : Nat}

theorem Filling.record {count index : Nat} {values : List α}
    (filling : Filling capacity state producer values count index) :
    Filling capacity (record state) producer values count index :=
  { filling with cut := filling.cut.cons }

theorem PushFact.record {pc : PushPc α} (fact : PushFact capacity state producer pc) :
    PushFact capacity (record state) producer pc := by
  cases pc with
  | idle | loadPos value => trivial
  | loadSequence value pos => exact { fact with }
  | exchange value pos => exact ⟨{ fact.1 with }, fact.2⟩
  | write value pos | manyWrite values pos reservable index => exact ⟨fact.1, fact.2.record⟩
  | storeSequence value pos | manyStoreSequence values pos reservable index =>
    exact ⟨fact.1, fact.2.1.record, fact.2.2⟩
  | manyLoadPos values => exact fact
  | manyLoadSequence values pos reservable =>
    exact ⟨{ fact.1 with }, fact.2⟩
  | manyExchange values pos reservable =>
    obtain ⟨seen, positive, most, room, why⟩ := fact
    exact ⟨{ seen with }, positive, most, room, why.imp id CutShort.cons⟩

theorem Inv.record (inv : Inv capacity state) : Inv capacity (record state) :=
  { inv with
    cells := inv.cells.of_same rfl
    producers := fun producer => (inv.producers producer).record
    consumer := inv.consumer.grow rfl rfl (prefix_refl _) fun _ => id
    pushReturns := fun call returned =>
      (inv.pushReturns call returned).grow (prefix_refl _) fun _ => id }

theorem beginPush_eq_some {pc : PushPc α} (begins : beginPush state producer pc = some after) :
    after = { withProducer state producer pc with
      calls := state.calls + 1
      started := update state.started producer state.reserved.length
      pushMoments := update state.pushMoments producer [] } := by
  unfold beginPush at begins
  cases at_ : state.producers producer <;> simp only [at_] at begins <;> cases begins
  rfl

theorem beginPop_eq_some (begins : beginPop state pc = some after) : state.consumer = .idle ∧
      after = { state with consumer := pc, calls := state.calls + 1, popMoments := [] } := by
  unfold beginPop at begins
  cases at_ : state.consumer <;> simp only [at_] at begins <;> cases begins
  exact ⟨rfl, rfl⟩

theorem Inv.beginPush (inv : Inv capacity state) {pc : PushPc α}
    (begins : beginPush state producer pc = some after)
    (fact : ∀ state : State α, PushFact capacity state producer pc) : Inv capacity after := by
  obtain rfl := beginPush_eq_some begins
  refine ⟨inv.cells.of_same rfl, fun other => ?_, fun other => ?_,
    inv.consumer.grow rfl rfl (prefix_refl _) fun _ => id, inv.delivered,
    fun call returned => (inv.pushReturns call returned).grow (prefix_refl _) fun _ => id,
    inv.popReturns⟩
  · have := inv.started other
    simp only [withProducer]
    grind [update_apply]
  · by_cases same : other = producer
    · simp only [withProducer, same, update_self]
      exact fact _
    · simp only [withProducer, update_of_ne same]
      exact (inv.producers other).grow (.of_eq rfl (update_of_ne same _ _)
        (update_of_ne same _ _) (prefix_refl _) rfl rfl rfl)

theorem Inv.beginPop (inv : Inv capacity state) (begins : beginPop state pc = some after)
    (fact : PopFact state pc) (nothing : taken pc = []) : Inv capacity after := by
  obtain ⟨isIdle, rfl⟩ := beginPop_eq_some begins
  refine inv.consumerStep (inv.cells.of_same rfl)
    (fun _ => .of_eq rfl rfl rfl (prefix_refl _) rfl rfl rfl) rfl
    (fact.grow rfl rfl (prefix_refl _) fun _ => id) ?_ inv.popReturns
  have delivered := inv.delivered
  rw [isIdle] at delivered
  simp only [nothing]
  exact delivered

/-- Fewer than 2 ^ 62 positions were reserved since the call of the producer that
takes the step began. -/
def fewReservations (state : State α) : Action α → Prop
  | .producer producer _ => state.reserved.length < state.started producer + 2 ^ 62
  | .tryPush _ _ | .tryPushMany _ _ | .tryPop | .tryPopMany _ | .consumer => True

instance (state : State α) : (action : Action α) → Decidable (fewReservations state action)
  | .producer _ _ => inferInstanceAs (Decidable (_ < _))
  | .tryPush _ _ | .tryPushMany _ _ | .tryPop | .tryPopMany _ | .consumer =>
    inferInstanceAs (Decidable True)

theorem Inv.stepCall (inv : Inv capacity state) (recorded : Recorded state) {action : Action α}
    (few : fewReservations state action)
    (steps : stepCall capacity.word state action = some after) : Inv capacity after := by
  cases action with
  | tryPush producer value => exact inv.beginPush steps fun _ => trivial
  | tryPushMany producer values =>
    cases values with
    | nil =>
      obtain ⟨begun, begins, rfl⟩ := map_eq_some_iff.mp steps
      refine (inv.beginPush begins fun _ => trivial).giveUp fun short => absurd short ?_
      rw [batchCount_eq]
      simp
    | cons first rest =>
      simp only [Mpsc.stepCall, ite_none_right_eq_some] at steps
      exact inv.beginPush steps.2 fun _ => cons_ne_nil first rest
  | producer producer spurious => exact inv.stepProducer few (recorded.push producer) steps
  | tryPop =>
    have isIdle := (beginPop_eq_some steps).1
    have fact := inv.consumer
    rw [isIdle] at fact
    exact inv.beginPop steps fact rfl
  | tryPopMany maxCount =>
    simp only [Mpsc.stepCall] at steps
    split at steps
    · obtain ⟨begun, begins, rfl⟩ := map_eq_some_iff.mp steps
      have isIdle := (beginPop_eq_some begins).1
      have fact := inv.consumer
      rw [isIdle] at fact
      have invBegun := inv.beginPop begins fact rfl
      have atBegun := (beginPop_eq_some begins).2
      refine invBegun.returnsPop ?_ ?_ (Nat.zero_le _) fun none_ => absurd none_ (by simp)
      · rw [atBegun]
        exact fact
      · have delivered := invBegun.delivered
        rwa [show begun.consumer = .idle by rw [atBegun]] at delivered
    · simp only [ite_none_right_eq_some] at steps
      have isIdle := (beginPop_eq_some steps.2).1
      have fact := inv.consumer
      rw [isIdle] at fact
      rename_i notZero
      exact inv.beginPop steps.2 ⟨fact, Nat.pos_of_ne_zero notZero⟩ rfl
  | consumer => exact inv.stepConsumer recorded.pop steps

variable [Inhabited α]

theorem inv_of_reachable {state : State α}
    (reached : (system α capacity.word).ReachableUnder fewReservations state) :
    Inv capacity state ∧ Recorded state := by
  induction reached with
  | start initial =>
    subst initial
    refine ⟨⟨⟨rfl, Nat.le_refl _, Nat.zero_le _, ?_, ?_, fun position _ below => ?_, ?_,
      prefix_refl _⟩, fun _ => Nat.le_refl _, fun _ => trivial, rfl, rfl, ?_, ?_⟩, ?_, ?_⟩
    case refine_3 =>
      simp only [start, Bool.false_eq_true, if_false]
      rw [Nat.mod_eq_of_lt (by simpa [start] using below)]
    all_goals simp [start, Ring.Holds]
  | next _ few steps ih =>
    obtain ⟨between, stepsTo, rfl⟩ := map_eq_some_iff.mp steps
    exact ⟨(ih.1.stepCall ih.2 few stepsTo).record, recorded_record⟩

end Mpsc

end AsyncFlow
