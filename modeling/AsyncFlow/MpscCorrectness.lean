import AsyncFlow.MpscRefinement

/-!
# What the multi-producer single-consumer queue guarantees

The facts about runs of the queue, put together for every capacity that the
constructor accepts.
-/

namespace AsyncFlow

open Function List Option

namespace Mpsc

variable {α : Type*} {capacity : QueueCapacity} {state after : State α}

variable {word : BitVec 64} {action : Action α}

theorem logs_of_step (steps : stepCall word state action = some after) :
    after.popped = state.popped ∧ state.reserved <+: after.reserved ∨
      after.reserved = state.reserved ∧ state.popped <+: after.popped := by
  cases action with
  | producer producer spurious =>
    simp only [stepCall, stepProducer] at steps
    refine .inl ?_
    cases at_ : state.producers producer <;> simp only [at_] at steps <;>
      grind [returnPush, withProducer, writeData, withCell, publish, storeSequence, reserve,
        seePosition, prefix_append, prefix_refl]
  | consumer =>
    simp only [stepCall, stepConsumer] at steps
    refine .inr ?_
    cases at_ : state.consumer <;> simp only [at_] at steps <;>
      grind [returnPop, withConsumer, release, storeSequence, withCell, prefix_append, prefix_refl]
  | tryPushMany producer values =>
    cases values <;> grind [stepCall, beginPush, withProducer, returnPush, prefix_refl]
  | _ => grind [stepCall, beginPush, withProducer, beginPop, returnPop, prefix_refl]

/-! ### Calls use different positions -/

def publishing : PushPc α → Bool
  | .storeSequence _ _ | .manyStoreSequence _ _ _ _ => true
  | .idle | .loadPos _ | .loadSequence _ _ | .exchange _ _ | .write _ _ | .manyLoadPos _
  | .manyLoadSequence _ _ _ | .manyExchange _ _ _ | .manyWrite _ _ _ _ => false

theorem PushFact.late {producer : Nat} {pc : PushPc α}
    (fact : PushFact capacity state producer pc) (isPublishing : publishing pc = true) :
    state.started producer ≤ state.position producer := by
  cases pc with
  | storeSequence value pos => exact fact.2.1.late
  | manyStoreSequence values pos reservable index => exact fact.2.1.late
  | _ => simp [publishing] at isPublishing

theorem stepProducer_calls {producer : Nat} {spurious : Bool}
    (steps : stepProducer word state producer spurious = some after) :
    state.producers producer ≠ .idle ∧ after.started = state.started ∧
      ∃ pc, after.producers = update state.producers producer pc ∧
        (after.pushReturns = state.pushReturns ∨
          pc = .idle ∧ ∃ values count moments, after.pushReturns = state.pushReturns ++
            [⟨producer, values, count, state.position producer, moments⟩] ∧
            (0 < count → publishing (state.producers producer) = true)) := by
  unfold stepProducer at steps
  cases at_ : state.producers producer <;> simp only [at_] at steps
  case idle => cases steps
  case manyWrite values pos reservable index =>
    obtain ⟨value, _, rfl⟩ := map_eq_some_iff.mp steps
    exact ⟨by simp, rfl, _, rfl, .inl rfl⟩
  all_goals
    cases steps
    refine ⟨by simp, ?_⟩
    repeat' split
    all_goals first
      | exact ⟨rfl, _, rfl, .inl rfl⟩
      | exact ⟨rfl, _, rfl, .inr ⟨rfl, _, _, _, rfl, by simp [publishing]⟩⟩

theorem calls_of_step (steps : stepCall word state action = some after) :
    (after.pushReturns = state.pushReturns ∧ ∀ producer, after.producers producer ≠ .idle →
        after.started producer = state.reserved.length ∨
        after.started producer = state.started producer ∧ state.producers producer ≠ .idle) ∨
    ∃ producer values count moments, after.pushReturns = state.pushReturns ++
        [⟨producer, values, count, state.position producer, moments⟩] ∧
      (0 < count → publishing (state.producers producer) = true) ∧
      after.producers producer = .idle ∧ ∀ other ≠ producer,
        after.producers other = state.producers other ∧
        after.started other = state.started other := by
  cases action with
  | tryPush producer value =>
    obtain rfl := beginPush_eq_some steps
    refine .inl ⟨rfl, fun other active => ?_⟩
    by_cases same : other = producer
    · exact .inl (by simp [same])
    · exact .inr ⟨by simp [same], by simpa [withProducer, same] using active⟩
  | tryPushMany producer values =>
    cases values with
    | nil =>
      obtain ⟨begun, begins, rfl⟩ := map_eq_some_iff.mp steps
      obtain rfl := beginPush_eq_some begins
      refine .inr ⟨producer, [], 0, _, rfl, by simp, by simp [returnPush, withProducer],
        fun other different => ?_⟩
      simp [returnPush, withProducer, different]
    | cons first rest =>
      simp only [stepCall, ite_none_right_eq_some] at steps
      obtain rfl := beginPush_eq_some steps.2
      refine .inl ⟨rfl, fun other active => ?_⟩
      by_cases same : other = producer
      · exact .inl (by simp [same])
      · exact .inr ⟨by simp [same], by simpa [withProducer, same] using active⟩
  | producer producer spurious =>
    obtain ⟨wasActive, started, pc, pcs, same | ⟨rfl, values, count, moments, returned, why⟩⟩ :=
      stepProducer_calls steps
    · refine .inl ⟨same, fun other active => .inr ⟨by rw [started], ?_⟩⟩
      by_cases here : other = producer
      · rwa [here]
      · rwa [pcs, update_of_ne here] at active
    · refine .inr ⟨producer, values, count, moments, returned, why, by simp [pcs], ?_⟩
      intro other different
      rw [pcs, update_of_ne different, started]
      exact ⟨rfl, rfl⟩
  | tryPop =>
    obtain ⟨_, rfl⟩ := beginPop_eq_some steps
    exact .inl ⟨rfl, fun _ active => .inr ⟨rfl, active⟩⟩
  | tryPopMany maxCount =>
    simp only [stepCall] at steps
    split at steps
    · obtain ⟨begun, begins, rfl⟩ := map_eq_some_iff.mp steps
      obtain ⟨_, rfl⟩ := beginPop_eq_some begins
      exact .inl ⟨rfl, fun _ active => .inr ⟨rfl, active⟩⟩
    · simp only [ite_none_right_eq_some] at steps
      obtain ⟨_, rfl⟩ := beginPop_eq_some steps.2
      exact .inl ⟨rfl, fun _ active => .inr ⟨rfl, active⟩⟩
  | consumer =>
    have same : after.pushReturns = state.pushReturns ∧
        after.producers = state.producers ∧ after.started = state.started := by
      simp only [stepCall, stepConsumer] at steps
      cases at_ : state.consumer <;> simp only [at_] at steps <;>
        grind [returnPop, withConsumer, release, storeSequence, withCell]
    obtain ⟨returns, pcs, started⟩ := same
    refine .inl ⟨returns, fun producer active => .inr ⟨by rw [started], ?_⟩⟩
    rwa [pcs] at active

def Apart (first second : PushReturn α) : Prop :=
  ∀ index < first.count, ∀ other < second.count, first.position + index ≠ second.position + other

variable {call : PushReturn α}

theorem Returned.logged_some (returned : Returned capacity state call) {index : Nat}
    (inside : index < call.count) :
    ∃ value, state.reserved[call.position + index]? = some (call.producer, value) := by
  have below := inside.trans_le returned.inside
  refine ⟨call.values[index], ?_⟩
  rw [returned.logged index inside, getElem?_eq_getElem below]
  rfl

theorem Returned.end_le (returned : Returned capacity state call) (positive : 0 < call.count) :
    call.position + call.count ≤ state.reserved.length := by
  obtain ⟨value, isLogged⟩ :=
    returned.logged_some (show call.count - 1 < call.count by omega)
  have := (List.getElem?_eq_some_iff.mp isLogged).1
  omega

theorem Returned.consecutive (returned : Returned capacity state call) :
    ((pushed state).drop call.position).take call.count = call.values.take call.count := by
  apply List.ext_getElem?
  intro index
  by_cases inside : index < call.count
  · rw [List.getElem?_take_of_lt inside, List.getElem?_take_of_lt inside, List.getElem?_drop,
      pushed, List.getElem?_map, returned.logged index inside, Option.map_map]
    simp [comp_def]
  · rw [List.getElem?_take_eq_none (by omega), List.getElem?_take_eq_none (by omega)]

/-- The returned calls have different positions, and those of a producer lie
before what it reserves next. -/
structure Separate (state : State α) : Prop where
  earlier : ∀ call ∈ state.pushReturns, state.producers call.producer ≠ .idle →
    0 < call.count → call.position + call.count ≤ state.started call.producer
  apart : state.pushReturns.Pairwise Apart

theorem Separate.step (separate : Separate state) (inv : Inv capacity state)
    (kept : Inv capacity after) (steps : stepCall word state action = some after) :
    Separate after := by
  rcases calls_of_step steps with
    ⟨same, begun⟩ | ⟨producer, values, count, moments, returned, why, isIdle, others⟩
  · constructor
    · rw [same]
      intro call isCall active positive
      rcases begun _ active with now | ⟨before, wasActive⟩
      · rw [now]
        exact (inv.pushReturns call isCall).end_le positive
      · rw [before]
        exact separate.earlier call isCall wasActive positive
    · rw [same]
      exact separate.apart
  · constructor
    · rw [returned]
      intro call isCall active positive
      have different : call.producer ≠ producer := by
        intro here
        exact active (here ▸ isIdle)
      rcases mem_append.mp isCall with before | isNew
      · obtain ⟨samePc, sameStart⟩ := others _ different
        rw [sameStart]
        exact separate.earlier call before (samePc ▸ active) positive
      · obtain rfl := mem_singleton.mp isNew
        exact absurd rfl different
    · rw [returned, pairwise_append]
      refine ⟨separate.apart, pairwise_singleton _ _, fun call before new isNew => ?_⟩
      obtain rfl := mem_singleton.mp isNew
      intro index inside other otherInside meet
      by_cases here : call.producer = producer
      · -- The producer began its present call after the earlier one returned.
        have isPublishing := why (by simp only at otherInside; omega)
        have late := (inv.producers producer).late isPublishing
        have active : state.producers call.producer ≠ .idle := by
          rw [here]
          intro idle
          simp [idle, publishing] at isPublishing
        have := separate.earlier call before active (by omega)
        rw [here] at this
        simp only at meet
        omega
      · have isReturned := kept.pushReturns call (returned ▸ mem_append_left _ before)
        have newReturned := kept.pushReturns _
          (returned ▸ mem_append_right _ (mem_singleton.mpr rfl))
        obtain ⟨_, isLogged⟩ := isReturned.logged_some inside
        obtain ⟨_, newLogged⟩ := newReturned.logged_some otherInside
        rw [← meet, isLogged] at newLogged
        cases newLogged
        exact here rfl

variable [Inhabited α]

section

variable {state : State α} (reached : (system α capacity.word).ReachableUnder fewReservations state)

include reached

theorem separate_of_reachable : Separate state := by
  induction reached with
  | start initial =>
    subst initial
    exact ⟨by simp [start], List.Pairwise.nil⟩
  | next reached few steps ih =>
    obtain ⟨between, stepsTo, rfl⟩ := map_eq_some_iff.mp steps
    obtain ⟨inv, recorded⟩ := inv_of_reachable reached
    have separate := ih.step inv (inv.stepCall recorded few stepsTo) stepsTo
    exact ⟨separate.earlier, separate.apart⟩

/-- What is reserved and popped in a run of the queue is a run of the bounded
FIFO. -/
theorem fifo_of_reachable :
    (Fifo.system α capacity.size).Reachable ⟨pushed state, state.popped⟩ := by
  refine reached.simulates (fun state => Fifo.mk (pushed state) state.popped) ?_
    fun before action after reachedBefore few steps => ?_
  · rintro state rfl
    rfl
  have inv := (inv_of_reachable (.next reachedBefore few steps)).1
  obtain ⟨between, stepsTo, rfl⟩ := map_eq_some_iff.mp steps
  have bounded := inv.cells.bounded
  rw [← length_map Prod.snd] at bounded
  refine .inr (Fifo.exists_step ?_ inv.cells.isPrefix bounded)
  exact (logs_of_step stepsTo).imp (And.imp_right fun more => more.map Prod.snd)
    (And.imp_left (congrArg (List.map Prod.snd)))

end

/-- What is true of the queue and of the calls that have returned. -/
structure BehavesAsFifo (capacity : BitVec 64) (state : State α) : Prop where
  refines : (Fifo.system α capacity.toNat).Reachable ⟨pushed state, state.popped⟩
  popped_isPrefix : state.popped <+: pushed state
  /-- What the pops have returned is what was popped, up to a pop in progress. -/
  delivered : ∃ rest, state.popped = state.popReturns.flatMap PopReturn.values ++ rest ∧
    (state.consumer = .idle → rest = [])
  /-- At most as many positions as there are cells are reserved and not given free. -/
  popped_le : state.popped.length ≤ (pushed state).length
  outstanding_le : (pushed state).length - state.popped.length ≤ capacity.toNat
  /-- The values of a call are at consecutive positions, in their order. -/
  consecutive : ∀ call ∈ state.pushReturns, call.count ≤ call.values.length ∧
    ((pushed state).drop call.position).take call.count = call.values.take call.count
  apart : state.pushReturns.Pairwise Apart
  /-- When a call has returned, all its values are ready to be popped. -/
  published : ∀ call ∈ state.pushReturns, ∀ index < call.count,
    state.published (call.position + index) = true
  fullPush : ∀ call ∈ state.pushReturns, call.count = 0 → call.values ≠ [] →
    capacity.toNat ∈ call.moments
  shortPush : ∀ call ∈ state.pushReturns, call.count < min call.values.length capacity.toNat →
    ∃ moment ∈ call.moments, capacity.toNat - call.count ≤ moment
  /-- A pop stops short only at a moment when the next position is not published. -/
  shortPop : ∀ call ∈ state.popReturns, call.values.length < call.maxCount → false ∈ call.moments

theorem behavesAsFifo_of_reachable
    (reached : (system α capacity.word).ReachableUnder fewReservations state) :
    BehavesAsFifo capacity.word state := by
  obtain ⟨inv, -⟩ := inv_of_reachable reached
  have size := capacity.toNat_word
  have two := capacity.two_le_size
  have bounded := inv.cells.bounded
  constructor
  case refines =>
      rw [size]
      exact fifo_of_reachable reached
  case popped_isPrefix => exact inv.cells.isPrefix
  case delivered =>
      refine ⟨taken state.consumer, inv.delivered, fun isIdle => ?_⟩
      rw [isIdle]
      rfl
  case popped_le => exact inv.cells.isPrefix.length_le
  case outstanding_le =>
      rw [size, pushed, length_map]
      omega
  case consecutive =>
      exact fun call isCall =>
        ⟨(inv.pushReturns call isCall).inside, (inv.pushReturns call isCall).consecutive⟩
  case apart => exact (separate_of_reachable reached).apart
  case published => exact fun call isCall => (inv.pushReturns call isCall).published
  case fullPush =>
      intro call isCall nothing notEmpty
      have asked := length_pos_iff.mpr notEmpty
      obtain ⟨moment, isMoment, most, full⟩ := (inv.pushReturns call isCall).cut
        (by rw [batchCount_eq]; omega)
      rwa [size, show capacity.size = moment by omega]
  case shortPush =>
      intro call isCall isShort
      rw [size] at isShort ⊢
      obtain ⟨moment, isMoment, _, full⟩ := (inv.pushReturns call isCall).cut
        (by rw [batchCount_eq]; exact isShort)
      exact ⟨moment, isMoment, by omega⟩
  case shortPop => exact fun call isCall => (inv.popReturns call isCall).2

/-- With every capacity that the constructor accepts, and any number of producers,
the queue is a bounded FIFO in the order of the reserved positions. -/
theorem fewReservations_behavesAsFifo {requested word : BitVec 64}
    (accepted : normalizeBoundedQueueCapacity requested = .ok word)
    (reached : (system α word).ReachableUnder fewReservations state) :
    BehavesAsFifo word state := by
  obtain ⟨capacity, rfl, -⟩ := exists_capacity accepted
  exact behavesAsFifo_of_reachable reached

theorem fewReservations_behavesAsFifo_twoProducers :
    ∃ state : State Nat, (system Nat 2#64).ReachableUnder fewReservations state ∧
      pushed state = [5, 7] ∧ state.popped = [5] ∧ BehavesAsFifo 2#64 state := by
  obtain ⟨state, reached, isPushed, isPopped⟩ :=
    (system Nat 2#64).exists_reachableUnder fewReservations (show start = start from rfl)
      [.tryPush 0 5, .producer 0 false, .producer 0 false, .tryPushMany 1 [7, 8, 9],
        .producer 1 false, .producer 0 false, .producer 0 false, .producer 1 false,
        .producer 1 false, .producer 1 false, .producer 1 false, .producer 1 false,
        .producer 1 false, .producer 1 false, .producer 1 false, .producer 0 false, .tryPop,
        .consumer, .consumer, .consumer]
      (fun state => pushed state = [5, 7] ∧ state.popped = [5]) (by decide)
  have accepted : normalizeBoundedQueueCapacity 2#64 = .ok 2#64 := by decide
  exact ⟨state, reached, isPushed, isPopped, fewReservations_behavesAsFifo accepted reached⟩

end Mpsc

end AsyncFlow
