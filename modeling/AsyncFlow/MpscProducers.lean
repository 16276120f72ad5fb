import AsyncFlow.MpscInvariant

/-!
# Steps of the producers

Each step of a producer keeps the invariant, as long as fewer than 2 ^ 62
positions have been reserved since its call began.
-/

namespace AsyncFlow

open Function List BitVec

namespace Mpsc

variable {α : Type*} {capacity : QueueCapacity} {state after : State α} {producer : Nat}

theorem slot_ofNat (position : Nat) :
    slot capacity.word (BitVec.ofNat 64 position) = position % capacity.size :=
  capacity.slot position

/-! ### Looking at a cell -/

section

variable {position : Nat} (cells : Cells capacity state)
  (notFar : position < state.popped.length + 2 * capacity.size)
  (notStale : state.reserved.length + capacity.size < position + 2 ^ 63)

include cells notFar notStale

theorem Cells.probe : ∃ sequence, sequenceAt capacity.word state (BitVec.ofNat 64 position) =
        BitVec.ofNat 64 sequence ∧
      (position < state.popped.length ∧ position < sequence ∧ sequence < position + 2 ^ 63 ∨
        state.popped.length ≤ position ∧ position < state.popped.length + capacity.size ∧
          sequence = (if state.published position then position + 1 else position) ∨
        state.popped.length + capacity.size ≤ position ∧ sequence < position ∧
          position ≤ sequence + 2 ^ 63) := by
  have ordered := cells.ordered
  have small := capacity.size_le
  have two := capacity.two_le_size
  obtain ⟨present, low, high, sameCell⟩ :=
    Ring.exists_mod_eq capacity.size_pos state.popped.length position
  refine ⟨if state.published present then present + 1 else present, ?_, ?_⟩
  · rw [sequenceAt, slot_ofNat, ← sameCell]
    exact cells.sequences present low high
  have near : (if state.published present then present + 1 else present) = present ∨
      (if state.published present then present + 1 else present) = present + 1 := by
    split
    · exact .inr rfl
    · exact .inl rfl
  rcases Nat.lt_or_ge position state.popped.length with passed | notPassed
  · have apart : position + capacity.size ≤ present := by
      by_contra close
      have := (Ring.mod_eq_mod_iff (by omega) (by omega)).mp sameCell
      omega
    exact .inl ⟨passed, by omega, by omega⟩
  rcases Nat.lt_or_ge position (state.popped.length + capacity.size) with here | ahead
  · rw [(Ring.mod_eq_mod_iff (by omega) (by omega)).mp sameCell]
    exact .inr (.inl ⟨notPassed, here, rfl⟩)
  · have apart : present + capacity.size ≤ position := by
      by_contra close
      have := (Ring.mod_eq_mod_iff (by omega) (by omega)).mp sameCell
      omega
    exact .inr (.inr ⟨ahead, by omega, by omega⟩)

theorem Cells.compare {sequence : BitVec 64}
    (isSequence : sequenceAt capacity.word state (BitVec.ofNat 64 position) = sequence) :
    (sequence = BitVec.ofNat 64 position → position < state.popped.length + capacity.size) ∧
    (boundedQueueSequenceBefore sequence (BitVec.ofNat 64 position) = true →
      state.popped.length + capacity.size ≤ position) ∧
    (sequence ≠ BitVec.ofNat 64 position →
      boundedQueueSequenceBefore sequence (BitVec.ofNat 64 position) ≠ true →
      position < state.reserved.length) := by
  have ordered := cells.ordered
  obtain ⟨number, isNumber, which⟩ := cells.probe notFar notStale
  obtain rfl := isNumber.symm.trans isSequence
  have known := cells.published_lt position
  have near : number < position + 2 ^ 63 ∧ position ≤ number + 2 ^ 63 := by grind
  have same := @Ring.ofNat_eq_ofNat_iff 64 number position (by omega) (by omega)
  simp only [ne_eq, same, boundedQueueSequenceBefore_iff near.1 near.2]
  rcases which with passed | ⟨-, here, isHere⟩ | ahead
  · omega
  · split at isHere
    next published =>
      have := known published
      omega
    · omega
  · omega

end

/-! ### Steps that change no cell -/

theorem Inv.producerStep (inv : Inv capacity state) {base : State α} {pc : PushPc α}
    {pushReturns : List (PushReturn α)} (cells : Cells capacity base)
    (own : PushFact capacity base producer pc)
    (others : ∀ other ≠ producer, Grows capacity other state base)
    (same : (base.producers, base.started, base.popped, base.queue.dequeuePos) =
      (state.producers, state.started, state.popped, state.queue.dequeuePos))
    (pops : (base.consumer, base.popReturns) = (state.consumer, state.popReturns))
    (reserved : state.reserved <+: base.reserved)
    (published : ∀ position, state.published position = true → base.published position = true)
    (returned : ∀ call ∈ pushReturns, call ∈ state.pushReturns ∨ Returned capacity base call) :
    Inv capacity { withProducer base producer pc with pushReturns := pushReturns } := by
  simp only [Prod.mk.injEq] at same pops
  obtain ⟨producers, started, popped, dequeue⟩ := same
  have moved : ∀ {other : Nat}, Grows capacity other base
      { withProducer base producer pc with pushReturns := pushReturns } :=
    ⟨rfl, rfl, rfl, prefix_refl _, Nat.le_refl _, fun _ _ _ => rfl, fun _ _ _ _ => rfl⟩
  refine ⟨cells.of_same rfl, fun other => ?_, fun other => ?_, ?_, ?_, fun call isReturned => ?_,
    ?_⟩
  · simp only [withProducer, started]
    exact (inv.started other).trans reserved.length_le
  · change PushFact capacity _ other (update base.producers producer pc other)
    by_cases isProducer : other = producer
    · rw [isProducer, update_self]
      exact own.grow moved
    · rw [update_of_ne isProducer, producers]
      exact ((inv.producers other).grow (others other isProducer)).grow moved
  · simp only [withProducer, pops]
    exact inv.consumer.grow popped dequeue reserved published
  · simp only [withProducer, pops, popped]
    exact inv.delivered
  · rcases returned call isReturned with before | ⟨inside, logged, isPublished, cut⟩
    · exact (inv.pushReturns call before).grow reserved published
    · exact ⟨inside, logged, isPublished, cut⟩
  · simp only [withProducer, pops]
    exact inv.popReturns

theorem Grows.of_eq (position : after.position producer = state.position producer)
    (started : after.started producer = state.started producer)
    (moments : after.pushMoments producer = state.pushMoments producer)
    (reserved : state.reserved <+: after.reserved)
    (popped : after.popped = state.popped)
    (published : after.published = state.published)
    (cells : after.queue.cells = state.queue.cells) :
    Grows capacity producer state after :=
  ⟨position, started, moments, reserved, by rw [popped], fun _ _ _ => by rw [published],
    fun _ _ _ _ => by rw [cells]⟩

theorem Inv.goOn (inv : Inv capacity state) {pc : PushPc α}
    (fact : PushFact capacity state producer pc) :
    Inv capacity (withProducer state producer pc) :=
  inv.producerStep inv.cells fact
    (fun _ _ => .of_eq rfl rfl rfl (prefix_refl _) rfl rfl rfl) rfl rfl (prefix_refl _)
    (fun _ => id) fun _ => .inl

theorem Inv.look (inv : Inv capacity state) {pc : PushPc α}
    (fact : Seen (seePosition state producer) producer state.queue.enqueuePos →
      PushFact capacity (seePosition state producer) producer pc) :
    Inv capacity (withProducer (seePosition state producer) producer pc) := by
  have seen : Seen (seePosition state producer) producer state.queue.enqueuePos := by
    refine ⟨?_, ?_, ?_⟩ <;> simp only [seePosition, update_self]
    · exact inv.cells.enqueue
    · exact inv.started producer
    · exact Nat.le_refl _
  have cells : Cells capacity (seePosition state producer) := inv.cells.of_same rfl
  refine inv.producerStep cells (fact seen)
    (fun other different => .of_eq ?_ rfl rfl (prefix_refl _) rfl rfl rfl) rfl rfl
    (prefix_refl _) (fun _ => id) fun _ => .inl
  exact update_of_ne different _ _

theorem Inv.giveUp (inv : Inv capacity state) {values : List α}
    (cut : CutShort capacity (batchCount capacity.word values) 0 (state.pushMoments producer)) :
    Inv capacity (returnPush state producer values 0) := by
  refine @Inv.producerStep _ _ _ _ inv state .idle _ inv.cells trivial
    (fun _ _ => .of_eq rfl rfl rfl (prefix_refl _) rfl rfl rfl) rfl rfl (prefix_refl _)
    (fun _ => id)
    (forall_mem_append.mpr ⟨fun _ => .inl, forall_mem_singleton.mpr
      (.inr ⟨Nat.zero_le _, by simp, by simp, cut⟩)⟩)

/-- The exchange succeeds only when nothing was reserved since the position was
read. -/
theorem Inv.reserves (inv : Inv capacity state) {pos : BitVec 64} {pc : PushPc α}
    (values : List α) {count : Nat} {grown : State α} (seen : Seen state producer pos)
    (few : state.reserved.length < state.started producer + 2 ^ 62)
    (same : state.queue.enqueuePos = pos) (inside : count ≤ values.length)
    (positive : 0 < count)
    (room : state.position producer + count ≤ state.popped.length + capacity.size)
    (why : state.position producer < state.reserved.length ∨
      CutShort capacity (batchCount capacity.word values) count (state.pushMoments producer))
    (isGrown : grown = reserve state producer pos (values.take count))
    (fact : pos = BitVec.ofNat 64 (grown.position producer) →
      Filling capacity grown producer values count 0 → PushFact capacity grown producer pc) :
    Inv capacity (withProducer grown producer pc) := by
  have current : state.position producer = state.reserved.length := by
    have late := seen.late
    have notAhead := seen.notAhead
    rw [seen.isPos, inv.cells.enqueue, Ring.ofNat_eq_ofNat_iff (by omega) (by omega)] at same
    exact same.symm
  have reserved : grown.reserved =
      state.reserved ++ (values.take count).map (Prod.mk producer) := by
    rw [isGrown]
    rfl
  have length : grown.reserved.length = state.reserved.length + count := by
    simp [reserved, inside]
  have appended : pushed grown = pushed state ++ values.take count := by
    simp [pushed, reserved]
  have position : grown.position producer = state.reserved.length := by
    simp [isGrown, reserve, seePosition]
  have cells : Cells capacity grown := by
    refine ⟨?_, ?_, ?_, ?_, ?_, ?_, ?_, ?_⟩
    case refine_1 =>
      rw [length, ofNat_add, ← inv.cells.enqueue, same]
      simp [isGrown, reserve, inside]
    case refine_7 =>
      rw [appended]
      subst isGrown
      exact inv.cells.holds.append _
    case refine_8 =>
      rw [appended]
      subst isGrown
      exact inv.cells.isPrefix.trans (prefix_append _ _)
    all_goals
      obtain ⟨_, ordered, _, published_lt, passed, sequences, _, _⟩ := inv.cells
      subst isGrown
      first
        | exact passed
        | exact sequences
        | simp only [reserve, seePosition] at length ⊢
          grind
  have own : Filling capacity grown producer values count 0 := by
    refine ⟨?_, inside, positive, fun other below => ?_, by simp, fun other below _ => ?_, ?_⟩
    · rw [position, isGrown]
      exact inv.started producer
    · rw [position, reserved, getElem?_append_right (by omega), Nat.add_sub_cancel_left,
        getElem?_map, getElem?_take_of_lt below]
    · rw [position, isGrown]
      by_contra isPublished
      have := inv.cells.published_lt _ (Bool.of_not_eq_false isPublished)
      omega
    · rw [isGrown]
      exact why.resolve_left (by omega)
  have isPos : pos = BitVec.ofNat 64 (grown.position producer) := by
    rw [position, ← same, inv.cells.enqueue]
  have grows : state.reserved <+: grown.reserved := reserved ▸ prefix_append _ _
  subst isGrown
  refine inv.producerStep cells (fact isPos own)
    (fun other different => .of_eq ?_ rfl rfl grows rfl rfl rfl) rfl rfl grows (fun _ => id)
    fun _ => .inl
  exact update_of_ne different _ _

theorem Filling.present {values : List α} {count index other : Nat} (cells : Cells capacity state)
    (filling : Filling capacity state producer values count index) (inside : other < count)
    (after : index ≤ other) :
    state.popped.length ≤ state.position producer + other ∧
      state.position producer + other < state.reserved.length := by
  obtain ⟨value, _, isLogged⟩ := filling.owned inside
  refine ⟨?_, (List.getElem?_eq_some_iff.mp isLogged).1⟩
  by_contra passed
  have := cells.passed _ (Nat.not_le.mp passed)
  rw [filling.unfilled other inside after] at this
  cases this

theorem slot_add (position index : Nat) :
    slot capacity.word (BitVec.ofNat 64 position + BitVec.ofNat 64 index) =
      (position + index) % capacity.size := by
  rw [← ofNat_add]
  exact slot_ofNat _

theorem Inv.writes (inv : Inv capacity state) {pos : BitVec 64} {pc : PushPc α}
    {values : List α} {value : α} {count index : Nat} {written : State α}
    (isPos : pos = BitVec.ofNat 64 (state.position producer))
    (filling : Filling capacity state producer values count index)
    (isValue : values[index]? = some value)
    (isWritten : written = writeData capacity.word state (pos + BitVec.ofNat 64 index) value)
    (fact : Filling capacity written producer values count index →
      Placed capacity written producer values index → PushFact capacity written producer pc) :
    Inv capacity (withProducer written producer pc) := by
  obtain ⟨low, high⟩ := filling.present inv.cells filling.below (Nat.le_refl _)
  have bounded := inv.cells.bounded
  have notYet := filling.unfilled index filling.below (Nat.le_refl _)
  obtain ⟨_, _, isLogged⟩ := filling.owned filling.below
  -- The cell keeps its sequence number, and the data of the other cells stay.
  have sequence : ∀ cell, (written.queue.cells cell).sequence =
      (state.queue.cells cell).sequence := by
    rw [isWritten]
    simp only [writeData, withCell, sequenceAt]
    grind [update_apply]
  have data : (fun cell => (written.queue.cells cell).data) =
      update (fun cell => (state.queue.cells cell).data)
        ((state.position producer + index) % capacity.size) value := by
    rw [isWritten, isPos]
    funext cell
    simp only [writeData, withCell, slot_add]
    grind [update_apply]
  have cells : Cells capacity written := by
    subst isWritten
    refine { inv.cells with sequences := fun position low high => ?_, holds := ?_ }
    · rw [sequence]
      exact inv.cells.sequences position low high
    · rw [data]
      refine inv.cells.holds.write value fun other isVisible => ?_
      have := inv.cells.published_lt other isVisible.2
      have different : other ≠ state.position producer + index := by grind
      exact ⟨different, by omega, by omega⟩
  have placed : Placed capacity written producer values index := by
    refine isValue.trans (congrArg some ?_)
    rw [show written.position = state.position by rw [isWritten]; rfl]
    exact ((congrFun data _).trans (update_self _ _ _)).symm
  subst isWritten
  refine inv.producerStep cells (fact { filling with } placed)
    (fun other different => ⟨rfl, rfl, rfl, List.prefix_refl _, Nat.le_refl _, fun _ _ _ => rfl,
      fun position value isOther notPublished => ?_⟩) rfl rfl (List.prefix_refl _) (fun _ => id)
    fun _ => .inl
  have apart : position ≠ state.position producer + index := by grind
  have notPassed : state.popped.length ≤ position := by grind [inv.cells.passed]
  have below := (List.getElem?_eq_some_iff.mp isOther).1
  refine (congrFun data _).trans (update_of_ne ?_ _ _)
  rwa [Ne, Ring.mod_eq_mod_iff (by omega) (by omega)]

section Publish

variable {values : List α} {count index : Nat}

/-- The producer publishes the position at an index of its batch. -/
abbrev publishAt (capacity : QueueCapacity) (state : State α) (producer index : Nat) : State α :=
  publish capacity.word state producer (BitVec.ofNat 64 (state.position producer)) index

theorem data_publish (cell : Nat) :
    ((publishAt capacity state producer index).queue.cells cell).data =
      (state.queue.cells cell).data := by
  simp only [publish, storeSequence, withCell]
  grind [update_apply]

theorem published_publish (position : Nat) :
    (publishAt capacity state producer index).published position = true ↔
      position = state.position producer + index ∨ state.published position = true := by
  simp only [publish]
  grind [update_apply]

theorem Cells.publishes (cells : Cells capacity state)
    (filling : Filling capacity state producer values count index)
    (placed : Placed capacity state producer values index) :
    Cells capacity (publishAt capacity state producer index) := by
  obtain ⟨low, high⟩ := filling.present cells filling.below (Nat.le_refl _)
  have bounded := cells.bounded
  obtain ⟨value, isValue, isLogged⟩ := filling.owned filling.below
  refine { cells with
    published_lt := fun position published => ?_
    passed := fun position passed =>
      (published_publish position).mpr (.inr (cells.passed position passed))
    sequences := fun position notPassed present => ?_
    holds := fun position isVisible => ?_ }
  · rcases (published_publish position).mp published with rfl | before
    · exact high
    · exact cells.published_lt position before
  · have notPassed : state.popped.length ≤ position := notPassed
    have present : position < state.popped.length + capacity.size := present
    change ((update state.queue.cells _ _) _).sequence =
      BitVec.ofNat 64 (if update state.published _ _ _ then _ else _)
    rw [slot_add]
    by_cases here : position = state.position producer + index
    · rw [here, update_self, update_self, if_pos rfl, ofNat_add, ofNat_add]
    · rw [update_of_ne here, update_of_ne]
      · exact cells.sequences position notPassed present
      · rwa [Ne, Ring.mod_eq_mod_iff (by omega) (by omega)]
  · refine Eq.trans ?_ (congrArg some (data_publish _).symm)
    rcases (published_publish position).mp isVisible.2 with rfl | before
    · rw [← placed, isValue]
      change (state.reserved.map Prod.snd)[_]? = _
      rw [getElem?_map, isLogged]
      rfl
    · exact cells.holds position ⟨isVisible.1, before⟩

theorem Grows.publish (filling : Filling capacity state producer values count index)
    {other : Nat} (different : other ≠ producer) :
    Grows capacity other state (publishAt capacity state producer index) := by
  obtain ⟨_, _, isLogged⟩ := filling.owned filling.below
  refine ⟨rfl, rfl, rfl, prefix_refl _, Nat.le_refl _, fun position value isOther => ?_,
    fun position _ _ _ => data_publish _⟩
  have apart : position ≠ state.position producer + index := by grind
  exact update_of_ne apart _ _

theorem Filling.published_le (filling : Filling capacity state producer values count index)
    {other : Nat} (before : other < index + 1) :
    (publishAt capacity state producer index).published (state.position producer + other) =
      true := by
  rw [published_publish]
  grind [filling.filled]

section

variable (inv : Inv capacity state) (filling : Filling capacity state producer values count index)
  (placed : Placed capacity state producer values index)

include inv filling placed

theorem Inv.publishNext {pc : PushPc α} {published : State α} (more : index + 1 < count)
    (isPublished : published = publishAt capacity state producer index)
    (fact : Filling capacity published producer values count (index + 1) →
      PushFact capacity published producer pc) :
    Inv capacity (withProducer published producer pc) := by
  subst isPublished
  refine inv.producerStep (inv.cells.publishes filling placed) (fact { filling with
      below := more
      filled := fun _ => filling.published_le
      unfilled := fun other inside after => ?_ }) (fun _ => Grows.publish filling) rfl rfl
    (prefix_refl _) (fun _ before => (published_publish _).mpr (.inr before)) fun _ => .inl
  rw [← Bool.not_eq_true, published_publish]
  change ¬ (state.position producer + other = _ ∨
    state.published (state.position producer + other) = true)
  grind [filling.unfilled]

theorem Inv.publishLast (last : index + 1 = count) :
    Inv capacity (returnPush (publishAt capacity state producer index) producer values count) := by
  refine @Inv.producerStep _ _ _ _ inv _ .idle _ (inv.cells.publishes filling placed) trivial
    (fun _ => Grows.publish filling) rfl rfl (prefix_refl _)
    (fun _ before => (published_publish _).mpr (.inr before))
    (forall_mem_append.mpr ⟨fun _ => .inl, forall_mem_singleton.mpr
      (.inr ⟨filling.inside, filling.logged, fun other inside =>
        filling.published_le (by rwa [last]), filling.cut⟩)⟩)

end

end Publish

/-! ### All steps -/

theorem batchCount_eq (values : List α) :
    batchCount capacity.word values = min values.length capacity.size := by
  rw [batchCount, capacity.toNat_word]

theorem Inv.stepProducer (inv : Inv capacity state) {spurious : Bool}
    (few : state.reserved.length < state.started producer + 2 ^ 62)
    (recorded : state.producers producer ≠ .idle → outstanding state ∈ state.pushMoments producer)
    (steps : stepProducer capacity.word state producer spurious = some after) :
    Inv capacity after := by
  have fact := inv.producers producer
  have bounded := inv.cells.bounded
  have small := capacity.size_le
  have two := capacity.two_le_size
  -- The cells that a producer looks at are neither far ahead nor far behind.
  have near : ∀ {pos : BitVec 64} (offset : Nat), Seen state producer pos → offset < capacity.size →
      state.position producer + offset < state.popped.length + 2 * capacity.size ∧
        state.reserved.length + capacity.size < state.position producer + offset + 2 ^ 63 := by
    intro pos offset seen inside
    have late := seen.late
    have notAhead := seen.notAhead
    omega
  unfold Mpsc.stepProducer at steps
  cases at_ : state.producers producer <;> rw [at_] at fact <;> simp only [at_] at steps
  case idle => cases steps
  case loadPos value =>
    cases steps
    exact inv.look id
  case loadSequence value pos =>
    cases steps
    have isPos := fact.isPos
    obtain ⟨notFar, notStale⟩ := near 0 fact (by omega)
    subst isPos
    obtain ⟨free, full, -⟩ := inv.cells.compare notFar notStale rfl
    split
    · rename_i same
      refine inv.goOn ⟨fact, ?_⟩
      have := free same
      omega
    · split
      · rename_i before
        refine inv.giveUp fun _ => ⟨outstanding state, recorded (by simp [at_]), ?_⟩
        have full := full before
        have := fact.notAhead
        unfold outstanding
        omega
      · exact inv.goOn trivial
  case exchange value pos =>
    cases steps
    split
    · rename_i same
      exact inv.reserves [value] fact.1 few same.2 (Nat.le_refl 1) Nat.one_pos fact.2
        (.inr fun short => absurd short (by rw [batchCount_eq]; simp)) rfl
        fun isPos filling => ⟨isPos, filling⟩
    · exact inv.look id
  case write value pos =>
    cases steps
    exact inv.writes fact.1 fact.2 rfl (by simp) fun filling placed => ⟨fact.1, filling, placed⟩
  case storeSequence value pos =>
    cases steps
    obtain ⟨rfl, filling, placed⟩ := fact
    exact inv.publishLast filling placed rfl
  case manyLoadPos values =>
    cases steps
    refine inv.look fun seen => ⟨seen, ?_, ?_⟩
    · have := length_pos_iff.mpr fact
      rw [batchCount_eq]
      omega
    · exact seen.notAhead.trans bounded
  case manyLoadSequence values pos reservable =>
    cases steps
    obtain ⟨seen, below, room⟩ := fact
    have isPos := seen.isPos
    have notAhead := seen.notAhead
    have count := @batchCount_eq _ capacity values
    obtain ⟨notFar, notStale⟩ := near reservable seen (by omega)
    subst isPos
    rw [← ofNat_add]
    obtain ⟨free, full, stale⟩ := inv.cells.compare notFar notStale rfl
    split
    · rename_i same
      have := free same
      split
      · rename_i more
        exact inv.goOn ⟨seen, more, by omega⟩
      · rename_i noMore
        exact inv.goOn ⟨seen, by omega, by omega, by omega, .inr fun short => absurd short noMore⟩
    · rename_i different
      split
      · rename_i notNothing
        refine inv.goOn ⟨seen, by omega, by omega, room, ?_⟩
        -- Either the cell is not free yet, or the exchange is going to fail.
        by_cases before : boundedQueueSequenceBefore (sequenceAt capacity.word state
            (BitVec.ofNat 64 (state.position producer + reservable)))
            (BitVec.ofNat 64 (state.position producer + reservable)) = true
        · have full := full before
          refine .inr fun _ => ⟨outstanding state, recorded (by simp [at_]), ?_⟩
          unfold outstanding
          omega
        · have := stale different before
          exact .inl (by omega)
      · rename_i isNothing
        obtain rfl : reservable = 0 := not_not.mp isNothing
        split
        · rename_i before
          have full := full before
          refine inv.giveUp fun _ => ⟨outstanding state, recorded (by simp [at_]), ?_⟩
          unfold outstanding
          omega
        · refine inv.goOn ?_
          rintro rfl
          rw [count] at below
          simp at below
  case manyExchange values pos reservable =>
    cases steps
    obtain ⟨seen, positive, most, room, why⟩ := fact
    have count := @batchCount_eq _ capacity values
    split
    · rename_i same
      exact inv.reserves values seen few same.2 (by omega) positive room why rfl
        fun isPos filling => ⟨isPos, filling⟩
    · refine inv.look fun seen => ⟨seen, by omega, ?_⟩
      exact seen.notAhead.trans bounded
  case manyWrite values pos reservable index =>
    obtain ⟨isPos, filling⟩ := fact
    obtain ⟨value, isValue, _⟩ := filling.owned filling.below
    simp only [isValue, Option.map_some, Option.some.injEq] at steps
    subst steps
    exact inv.writes isPos filling isValue rfl fun filling placed => ⟨isPos, filling, placed⟩
  case manyStoreSequence values pos reservable index =>
    cases steps
    obtain ⟨rfl, filling, placed⟩ := fact
    have below := filling.below
    split
    · rename_i more
      exact inv.publishNext filling placed more rfl fun filling => ⟨rfl, filling⟩
    · exact inv.publishLast filling placed (by omega)

end Mpsc

end AsyncFlow
